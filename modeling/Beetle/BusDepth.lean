import Beetle.Lib.Pool

/-! The depth that the two ends of a bus channel count, under any number of senders and one
receiver; each operation of the channel and each access to the counter is one step. -/
namespace Beetle.Bus
open Beetle.Lib

/-- The capacity of a channel, and the bits of a `usize`: there is no memory for a queue
that the counter has no room for. -/
structure ChannelSize where
  capacity : Nat
  bits : Nat
  fits : capacity + 2 < 2 ^ bits

inductive ReceiverState where
  | idle
  | waiting
  | counting
  deriving DecidableEq

namespace ReceiverState

def isWaiting : ReceiverState → Bool
  | waiting => true
  | _ => false

def isCounting : ReceiverState → Bool
  | counting => true
  | _ => false

end ReceiverState

/-- The channel and its counter; `wrapped` is history, of a subtraction at zero. -/
structure TrackedChannel (T : Type) where
  queue : List T
  depth : Nat
  receiver : ReceiverState
  wrapped : Bool
  deriving DecidableEq

/-- `new_inbound_channel`. -/
def newInboundChannel (T : Type) : TrackedChannel T := ⟨[], 0, .idle, false⟩

/-- The calls of the two ends. -/
inductive ChannelCall (T : Type) where
  | send (t : T)
  | trySend (t : T)
  | recv
  | recvTimeout
  | tryRecv

/-- Where a call stands. -/
inductive ChannelPc (T : Type) where
  | sending (t : T)
  | trySending (t : T)
  | increment
  | receiving (mayGiveUp : Bool)
  | decrement
  | done
  deriving DecidableEq

/-- What the outside decides about a step: whether the other end is gone, and whether the
time of the receiver is up. -/
structure ChannelOutcome where
  disconnected : Bool
  timedOut : Bool

variable {T : Type}

/-- Without capacity a message is handed over to a receiver that waits for it. -/
def TrackedChannel.hasRoom (size : ChannelSize) (s : TrackedChannel T) : Bool :=
  if size.capacity = 0 then s.receiver.isWaiting && s.queue.isEmpty else s.queue.length < size.capacity

namespace ChannelPc

def next (size : ChannelSize) (outcome : ChannelOutcome) (s : TrackedChannel T) :
    ChannelPc T → Option (TrackedChannel T × ChannelPc T)
  | sending t =>
    if outcome.disconnected then some (s, done)
    else if s.hasRoom size then some ({ s with queue := s.queue ++ [t] }, increment)
    else none
  | trySending t =>
    if outcome.disconnected || !s.hasRoom size then some (s, done)
    else some ({ s with queue := s.queue ++ [t] }, increment)
  | increment => some ({ s with depth := fetchAdd size.bits s.depth }, done)
  | receiving mayGiveUp =>
    match s.queue with
    | _ :: queue => some ({ s with queue, receiver := .counting }, decrement)
    | [] =>
      if outcome.disconnected || (mayGiveUp && outcome.timedOut) then some ({ s with receiver := .idle }, done)
      else none
  | decrement =>
    some ({ s with
      depth := fetchSub size.bits s.depth, receiver := .idle, wrapped := s.wrapped || decide (s.depth = 0) }, done)
  | done => none

def isOver : ChannelPc T → Bool
  | done => true
  | _ => false

def inProgress : ChannelPc T → Bool
  | done => false
  | _ => true

def isIncrement : ChannelPc T → Bool
  | increment => true
  | _ => false

def isDecrement : ChannelPc T → Bool
  | decrement => true
  | _ => false

def isReceiving : ChannelPc T → Bool
  | receiving _ => true
  | _ => false

end ChannelPc

/-- One receiver makes one call after the other. -/
def ChannelCall.enter (s : TrackedChannel T) : ChannelCall T → Option (TrackedChannel T × ChannelPc T)
  | send t => some (s, .sending t)
  | trySend t => some (s, .trySending t)
  | recv => if s.receiver = .idle then some ({ s with receiver := .waiting }, .receiving false) else none
  | recvTimeout | tryRecv =>
    if s.receiver = .idle then some ({ s with receiver := .waiting }, .receiving true) else none

def channelSystem (T : Type) (size : ChannelSize) :
    CallSystem (TrackedChannel T) (ChannelCall T) ChannelOutcome (ChannelPc T) where
  enter := ChannelCall.enter
  next := ChannelPc.next size

abbrev ChannelPool (T : Type) := Pool (TrackedChannel T) (ChannelPc T)

abbrev ChannelMove (T : Type) := Move (ChannelCall T) ChannelOutcome

/-- The counter is off by no more than there are calls in progress, it never wraps around,
and when no call is in progress it is right. -/
structure DepthRight (w : ChannelPool T) : Prop where
  above : w.shared.depth ≤ w.shared.queue.length + w.count ChannelPc.inProgress
  below : w.shared.queue.length ≤ w.shared.depth + w.count ChannelPc.inProgress
  unwrapped : w.shared.wrapped = false
  quiet : w.count ChannelPc.inProgress = 0 → w.shared.depth = w.shared.queue.length

/-- When the receiver counts a message out, no more senders have still to count theirs in
than there are messages in the queue: the one that it took has been counted in. -/
def TakenWasCounted (w : ChannelPool T) : ChannelMove T → Prop
  | .begin _ => True
  | .advance i _ =>
    match w.calls[i]? with
    | some .decrement => w.count ChannelPc.isIncrement ≤ w.shared.queue.length
    | _ => True

instance (w : ChannelPool T) (a : ChannelMove T) : Decidable (TakenWasCounted w a) := by
  unfold TakenWasCounted
  split
  · infer_instance
  · split <;> infer_instance

/-- What every step keeps. -/
structure Balanced (size : ChannelSize) (w : ChannelPool T) : Prop where
  depth : w.shared.depth + w.count ChannelPc.isIncrement = w.shared.queue.length + w.count ChannelPc.isDecrement
  room : w.shared.queue.length ≤ max size.capacity 1
  counting : w.count ChannelPc.isDecrement = w.shared.receiver.isCounting.toNat
  waiting : w.count ChannelPc.isReceiving = w.shared.receiver.isWaiting.toNat
  unwrapped : w.shared.wrapped = false

/-- What one step of a call does to the channel, as far as the counter is concerned. -/
structure ChannelMoved (size : ChannelSize) (s s' : TrackedChannel T) (pc pc' : ChannelPc T) : Prop where
  depth : s'.depth + pc'.isIncrement.toNat + s.queue.length + pc.isDecrement.toNat =
    s.depth + pc.isIncrement.toNat + s'.queue.length + pc'.isDecrement.toNat
  room : s'.queue.length ≤ max size.capacity 1
  counting : s'.receiver.isCounting.toNat + pc.isDecrement.toNat = s.receiver.isCounting.toNat + pc'.isDecrement.toNat
  waiting : s'.receiver.isWaiting.toNat + pc.isReceiving.toNat = s.receiver.isWaiting.toNat + pc'.isReceiving.toNat
  unwrapped : s'.wrapped = s.wrapped

section
variable {size : ChannelSize} {w t : ChannelPool T} {a : ChannelMove T} {s s' : TrackedChannel T}
  {pc pc' : ChannelPc T} {outcome : ChannelOutcome}

theorem length_of_hasRoom (h : s.hasRoom size) : s.queue.length + 1 ≤ max size.capacity 1 := by
  unfold TrackedChannel.hasRoom at h
  split at h
  · simp_all
  · simp only [decide_eq_true_eq] at h
    omega

theorem ChannelMoved.refused (hroom : s.queue.length ≤ max size.capacity 1)
    (hinc : pc.isIncrement = false) (hdec : pc.isDecrement = false) (hrec : pc.isReceiving = false) :
    ChannelMoved size s s pc .done := by
  refine ⟨?_, hroom, ?_, ?_, rfl⟩
  · rw [hinc, hdec]
    rfl
  · rw [hdec]
    rfl
  · rw [hrec]
    rfl

theorem ChannelMoved.pushed (t : T) (h : s.hasRoom size)
    (hinc : pc.isIncrement = false) (hdec : pc.isDecrement = false) (hrec : pc.isReceiving = false) :
    ChannelMoved size s { s with queue := s.queue ++ [t] } pc .increment := by
  have hlen := length_of_hasRoom h
  constructor
  · rw [hinc, hdec, List.length_append]
    simp only [ChannelPc.isIncrement, ChannelPc.isDecrement, Bool.toNat_true, Bool.toNat_false, List.length_singleton]
    omega
  · rw [List.length_append]
    exact hlen
  · rw [hdec]
    rfl
  · rw [hrec]
    rfl
  · rfl

theorem ChannelPc.next_moved (hnext : pc.next size outcome s = some (s', pc'))
    (hroom : s.queue.length ≤ max size.capacity 1)
    (hfits : pc = increment → s.depth + 1 < 2 ^ size.bits) (hcounted : pc = decrement → 0 < s.depth)
    (hwaiting : pc.isReceiving → s.receiver = .waiting) (hcounting : pc.isDecrement → s.receiver = .counting) :
    ChannelMoved size s s' pc pc' := by
  cases pc with
  | sending t =>
    simp only [next] at hnext
    split at hnext
    · obtain ⟨rfl, rfl⟩ := Prod.mk.inj (Option.some.inj hnext)
      exact .refused hroom rfl rfl rfl
    · split at hnext
      · rename_i hhas
        obtain ⟨rfl, rfl⟩ := Prod.mk.inj (Option.some.inj hnext)
        exact .pushed t hhas rfl rfl rfl
      · cases hnext
  | trySending t =>
    simp only [next] at hnext
    split at hnext
    · obtain ⟨rfl, rfl⟩ := Prod.mk.inj (Option.some.inj hnext)
      exact .refused hroom rfl rfl rfl
    · rename_i hhas
      obtain ⟨rfl, rfl⟩ := Prod.mk.inj (Option.some.inj hnext)
      simp only [Bool.or_eq_true, Bool.not_eq_true', not_or, Bool.not_eq_false] at hhas
      exact .pushed t hhas.2 rfl rfl rfl
  | increment =>
    obtain ⟨rfl, rfl⟩ := Prod.mk.inj (Option.some.inj hnext)
    have hadd := fetchAdd_of_lt (hfits rfl)
    refine ⟨?_, hroom, rfl, rfl, rfl⟩
    dsimp only
    rw [hadd]
    simp only [isIncrement, isDecrement, Bool.toNat_true, Bool.toNat_false]
  | receiving mayGiveUp =>
    have hstate := hwaiting rfl
    cases hqueue : s.queue with
    | nil =>
      simp only [next, hqueue, Option.ite_none_right_eq_some, Option.some.injEq, Prod.mk.injEq] at hnext
      obtain ⟨-, rfl, rfl⟩ := hnext
      refine ⟨by rw [hqueue]; rfl, Nat.zero_le _, ?_, ?_, rfl⟩
      all_goals
        rw [hstate]
        rfl
    | cons first rest =>
      simp only [next, hqueue, Option.some.injEq, Prod.mk.injEq] at hnext
      obtain ⟨rfl, rfl⟩ := hnext
      refine ⟨?_, ?_, ?_, ?_, rfl⟩
      · simp only [hqueue, isIncrement, isDecrement, List.length_cons, Bool.toNat_true, Bool.toNat_false]
        omega
      · rw [hqueue, List.length_cons] at hroom
        exact Nat.le_of_succ_le hroom
      all_goals
        rw [hstate]
        rfl
  | decrement =>
    have hstate := hcounting rfl
    have hpos := hcounted rfl
    obtain ⟨rfl, rfl⟩ := Prod.mk.inj (Option.some.inj hnext)
    refine ⟨?_, hroom, ?_, ?_, ?_⟩
    · dsimp only
      rw [fetchSub_of_pos hpos]
      simp only [isIncrement, isDecrement, Bool.toNat_true, Bool.toNat_false]
      omega
    · rw [hstate]
      rfl
    · rw [hstate]
      rfl
    · simp only [decide_eq_false (Nat.ne_of_gt hpos), Bool.or_false]
  | done => cases hnext

section
variable (h : Balanced size w)
include h

theorem Balanced.depthRight : DepthRight w := by
  have hin : w.count ChannelPc.isIncrement ≤ w.count ChannelPc.inProgress :=
    Pool.count_mono fun pc hpc => by cases pc <;> first | rfl | cases hpc
  have hout : w.count ChannelPc.isDecrement ≤ w.count ChannelPc.inProgress :=
    Pool.count_mono fun pc hpc => by cases pc <;> first | rfl | cases hpc
  have hdepth := h.depth
  exact ⟨by omega, by omega, h.unwrapped, fun hquiet => by omega⟩

theorem Balanced.receiver_eq {i : Nat} {pc : ChannelPc T} (hpc : w.calls[i]? = some pc) :
    (pc.isReceiving → w.shared.receiver = .waiting) ∧ (pc.isDecrement → w.shared.receiver = .counting) := by
  have hwaiting := h.waiting
  have hcounting := h.counting
  constructor
  · intro hin
    have hpos := Pool.count_pos hpc hin
    cases hstate : w.shared.receiver <;> rw [hstate] at hwaiting <;> first | rfl | (change _ = 0 at hwaiting; omega)
  · intro hin
    have hpos := Pool.count_pos hpc hin
    cases hstate : w.shared.receiver <;> rw [hstate] at hcounting <;> first | rfl | (change _ = 0 at hcounting; omega)

theorem Balanced.begun {call : ChannelCall T} (henter : call.enter w.shared = some (s, pc)) :
    Balanced size ⟨s, w.calls ++ [pc]⟩ := by
  obtain ⟨hdepth, hroom, hcounting, hwaiting, hunwrapped⟩ := h
  cases call with
  | send t | trySend t =>
    obtain ⟨rfl, rfl⟩ := Prod.mk.inj (Option.some.inj henter)
    constructor
    all_goals first | rw [Pool.count_begun, Pool.count_begun] | rw [Pool.count_begun] | skip
    all_goals assumption
  | recv | recvTimeout | tryRecv =>
    simp only [ChannelCall.enter, Option.ite_none_right_eq_some, Option.some.injEq, Prod.mk.injEq] at henter
    obtain ⟨hidle, rfl, rfl⟩ := henter
    rw [hidle] at hcounting hwaiting
    constructor
    · rw [Pool.count_begun, Pool.count_begun]
      exact hdepth
    · exact hroom
    · rw [Pool.count_begun]
      exact hcounting
    · rw [Pool.count_begun, hwaiting]
      rfl
    · exact hunwrapped

theorem Balanced.step (hc : TakenWasCounted w a) (ht : w.step (channelSystem T size) a = some t) : Balanced size t := by
  cases Pool.fires_of_step ht with
  | begun call shared pc henter => exact h.begun henter
  | advanced i outcome pc pc' shared hpc hnext =>
    simp only [TakenWasCounted, hpc] at hc
    obtain ⟨hreceiving, hdecrement⟩ := h.receiver_eq hpc
    obtain ⟨hdepth, hroom, hcounting, hwaiting, hunwrapped⟩ := h
    have hfits := size.fits
    have hI := Pool.count_advanced ChannelPc.isIncrement hpc shared pc'
    have hD := Pool.count_advanced ChannelPc.isDecrement hpc shared pc'
    have hR := Pool.count_advanced ChannelPc.isReceiving hpc shared pc'
    have hone := Bool.toNat_le w.shared.receiver.isCounting
    have hmoved := ChannelPc.next_moved hnext hroom
      (by
        rintro rfl
        have hpos : 0 < w.count ChannelPc.isIncrement := Pool.count_pos hpc rfl
        omega)
      (by
        rintro rfl
        have hpos : 0 < w.count ChannelPc.isDecrement := Pool.count_pos hpc rfl
        omega)
      hreceiving hdecrement
    obtain ⟨hdepth', hroom', hcounting', hwaiting', hunwrapped'⟩ := hmoved
    exact ⟨by dsimp only; omega, hroom', by dsimp only; omega, by dsimp only; omega, hunwrapped'.trans hunwrapped⟩

/-- A message counted out before it was counted in takes the counter below zero. -/
theorem Balanced.wraps (hc : ¬ TakenWasCounted w a)
    (ht : w.step (channelSystem T size) a = some t) : ¬ DepthRight t := by
  intro hright
  cases Pool.fires_of_step ht with
  | begun call shared pc henter => exact hc trivial
  | advanced i outcome pc pc' shared hpc hnext =>
    simp only [TakenWasCounted, hpc] at hc
    cases pc with
    | decrement =>
      simp only [not_le] at hc
      have hcounting := (h.receiver_eq hpc).2 rfl
      have hout := h.counting
      rw [hcounting] at hout
      change _ = 1 at hout
      have hzero : w.shared.depth = 0 := by
        have hdepth := h.depth
        omega
      obtain ⟨rfl, rfl⟩ := Prod.mk.inj (Option.some.inj hnext)
      have hwrapped := hright.unwrapped
      simp [hzero] at hwrapped
    | _ => exact hc trivial

end

end

/-- The depth is right in a run just when the receiver never counts out a message that has
not been counted in. -/
theorem depth_right_iff (T : Type) (size : ChannelSize) (moves : List (ChannelMove T)) :
    Always (Pool.step (channelSystem T size)) DepthRight moves ⟨newInboundChannel T, []⟩ ↔
      Meets (Pool.step (channelSystem T size)) TakenWasCounted moves ⟨newInboundChannel T, []⟩ :=
  always_iff_meets (I := Balanced size) (fun _ _ _ hw hc ht => hw.step hc ht) (fun _ hw => hw.depthRight)
    (fun _ _ _ hw ht hc => hw.wraps hc ht) moves _ ⟨rfl, Nat.zero_le _, rfl, rfl, rfl⟩

def calm : ChannelOutcome := ⟨false, false⟩

/-- The receiver takes the message and counts it out before the sender counts it in. -/
theorem receiver_ahead_of_sender :
    ¬ Always (Pool.step (channelSystem Nat ⟨16, 32, by decide⟩)) DepthRight
      [.begin (.send 7), .advance 0 calm, .begin .recv, .advance 1 calm, .advance 1 calm]
      ⟨newInboundChannel Nat, []⟩ := by
  intro h
  have hlast := h.last (t := ⟨⟨[], 2 ^ 32 - 1, .idle, true⟩, [.increment, .done]⟩) (by decide)
  exact absurd hlast.unwrapped (by decide)

end Beetle.Bus
