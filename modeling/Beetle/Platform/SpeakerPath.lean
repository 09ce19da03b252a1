import Beetle.Lib.Run
import Mathlib.Data.List.Enum
import Mathlib.Data.List.Rotate
import Mathlib.Data.Nat.ModEq

/-! The circular buffer of audio samples, and the queue that it is. -/
namespace Beetle.Platform

/-- `head` is the place of the oldest sample, and `len` is how many there are; the buffer has a fixed capacity. -/
structure AudioRingBuffer (α : Type) where
  buf : List α
  head : Nat
  len : Nat
  head_lt : 0 < buf.length → head < buf.length
  len_le : len ≤ buf.length

namespace AudioRingBuffer
variable {α : Type} (ring : AudioRingBuffer α) {buf : List α} {head : Nat}

def capacity : Nat := ring.buf.length

def available : Nat := ring.capacity - ring.len

/-- One past the last sample. -/
def tail : Nat :=
  let t := ring.head + ring.len
  if t ≥ ring.capacity then t - ring.capacity else t

/-- The samples, the oldest first. -/
@[grind =] def contents : List α := (ring.buf.rotate ring.head).take ring.len

/-- A turn of the loop of `push_slice_blocking`. -/
def pushOne (x : α) (h : ring.len < ring.capacity) : AudioRingBuffer α where
  buf := ring.buf.set ring.tail x
  head := ring.head
  len := ring.len + 1
  head_lt := by
    rw [List.length_set]
    exact ring.head_lt
  len_le := by
    rw [List.length_set]
    exact h

/-- The loop; there is room for what it is given. -/
def pushAll (ring : AudioRingBuffer α) : List α → AudioRingBuffer α
  | [] => ring
  | x :: xs => if h : ring.len < ring.capacity then (ring.pushOne x h).pushAll xs else ring

/-- The number of samples that are taken, and the buffer with them. -/
def pushSliceBlocking (input : List α) : Nat × AudioRingBuffer α :=
  let take := min input.length ring.available
  (take, ring.pushAll (input.take take))

def nextHead (cap head : Nat) : Nat := if head + 1 = cap then 0 else head + 1

/-- The loop of `pop_into`: the samples from `head` on, and where the head is after them. -/
def popLoop (buf : List α) : Nat → Nat → List α × Nat
  | 0, head => ([], head)
  | n + 1, head =>
    let (samples, last) := popLoop buf n (nextHead buf.length head)
    (buf[head]?.toList ++ samples, last)

theorem popLoop_snd_lt (n : Nat) (h : 0 < buf.length → head < buf.length) :
    0 < buf.length → (popLoop buf n head).2 < buf.length := by
  induction n generalizing head with
  | zero => exact h
  | succ n ih =>
    intro hpos
    refine ih (fun _ => ?_) hpos
    have := h hpos
    unfold nextHead
    split <;> omega

/-- The samples that are moved out, at most `room`, and the buffer without them. -/
def popInto (room : Nat) : List α × AudioRingBuffer α :=
  let n := min room ring.len
  ((popLoop ring.buf n ring.head).1,
    { ring with head := (popLoop ring.buf n ring.head).2
                len := ring.len - n
                head_lt := popLoop_snd_lt n ring.head_lt
                len_le := (Nat.sub_le _ _).trans ring.len_le })

def clear : AudioRingBuffer α := { ring with head := 0, len := 0, head_lt := id, len_le := Nat.zero_le _ }

/-- A new buffer. -/
def zeroed (zero : α) (cap : Nat) : AudioRingBuffer α where
  buf := List.replicate cap zero
  head := 0
  len := 0
  head_lt := id
  len_le := Nat.zero_le _

/-! The queue. -/

@[simp] theorem length_contents : ring.contents.length = ring.len := by
  rw [contents, List.length_take, List.length_rotate, Nat.min_eq_left ring.len_le]

theorem getElem?_contents (i : Nat) :
    ring.contents[i]? = if i < ring.len then ring.buf[(ring.head + i) % ring.buf.length]? else none := by
  rw [contents, List.getElem?_take]
  by_cases h : i < ring.len
  · rw [if_pos h, if_pos h, List.getElem?_rotate (Nat.lt_of_lt_of_le h ring.len_le), Nat.add_comm]
  · rw [if_neg h, if_neg h]

theorem tail_eq_mod (h : ring.len < ring.capacity) : ring.tail = (ring.head + ring.len) % ring.buf.length := by
  have hhead := ring.head_lt (Nat.zero_lt_of_lt h)
  unfold capacity at h
  unfold tail capacity
  by_cases hwrap : ring.head + ring.len ≥ ring.buf.length
  · rw [if_pos hwrap, Nat.mod_eq_sub_mod hwrap, Nat.mod_eq_of_lt (by omega)]
  · rw [if_neg hwrap, Nat.mod_eq_of_lt (Nat.lt_of_not_le hwrap)]

theorem contents_pushOne (x : α) (h : ring.len < ring.capacity) : (ring.pushOne x h).contents = ring.contents ++ [x] := by
  have hcap : 0 < ring.buf.length := Nat.zero_lt_of_lt h
  have htail : ring.tail < ring.buf.length := by
    rw [tail_eq_mod ring h]
    exact Nat.mod_lt _ hcap
  apply List.ext_getElem?
  intro i
  rw [getElem?_contents, List.getElem?_append, length_contents]
  simp only [pushOne, List.length_set]
  rcases Nat.lt_trichotomy i ring.len with hlt | rfl | hgt
  · have hne : ring.tail ≠ (ring.head + i) % ring.buf.length := by
      rw [tail_eq_mod ring h]
      intro heq
      -- Two places less than the capacity apart are different.
      have hmod : Nat.ModEq ring.buf.length (ring.head + i) (ring.head + ring.len) := heq.symm
      have hsame := Nat.ModEq.add_left_cancel' ring.head hmod
      have hplaces : i < ring.buf.length ∧ ring.len < ring.buf.length := ⟨hlt.trans h, h⟩
      rw [Nat.ModEq, Nat.mod_eq_of_lt hplaces.1, Nat.mod_eq_of_lt hplaces.2] at hsame
      omega
    rw [if_pos (by omega), if_pos hlt, List.getElem?_set_ne hne, getElem?_contents, if_pos hlt]
  · rw [if_pos (Nat.lt_succ_self _), if_neg (Nat.lt_irrefl _), ← tail_eq_mod ring h, List.getElem?_set_self htail,
      Nat.sub_self]
    rfl
  · rw [if_neg (by omega), if_neg (by omega)]
    symm
    apply List.getElem?_eq_none
    rw [List.length_singleton]
    omega

@[simp] theorem capacity_pushOne (x : α) (h : ring.len < ring.capacity) : (ring.pushOne x h).capacity = ring.capacity :=
  List.length_set

theorem contents_pushAll (ring : AudioRingBuffer α) {xs : List α} (h : xs.length ≤ ring.available) :
    (ring.pushAll xs).contents = ring.contents ++ xs ∧ (ring.pushAll xs).capacity = ring.capacity := by
  induction xs generalizing ring with
  | nil => exact ⟨(List.append_nil _).symm, rfl⟩
  | cons x xs ih =>
    rw [List.length_cons, available] at h
    have hroom : ring.len < ring.capacity := by omega
    obtain ⟨hcontents, hcapacity⟩ := ih (ring.pushOne x hroom) (by
      rw [available, capacity_pushOne]
      change xs.length ≤ ring.capacity - (ring.len + 1)
      omega)
    rw [pushAll, dif_pos hroom, hcontents, hcapacity, contents_pushOne, capacity_pushOne, List.append_assoc]
    exact ⟨rfl, rfl⟩

/-- What fits is put behind the samples that are there. -/
theorem contents_pushSliceBlocking (input : List α) : (ring.pushSliceBlocking input).2.contents =
    ring.contents ++ input.take (ring.pushSliceBlocking input).1 :=
  (contents_pushAll ring (by rw [List.length_take]; omega)).1

@[simp] theorem capacity_pushSliceBlocking (input : List α) :
    (ring.pushSliceBlocking input).2.capacity = ring.capacity :=
  (contents_pushAll ring (by rw [List.length_take]; omega)).2

theorem popLoop_fst (n : Nat) (hhead : head < buf.length) (hn : n ≤ buf.length) :
    (popLoop buf n head).1 = (buf.rotate head).take n := by
  induction n generalizing head with
  | zero => rw [List.take_zero, popLoop]
  | succ n ih =>
    have hnext : nextHead buf.length head = (head + 1) % buf.length := by
      unfold nextHead
      split
      · rename_i hlast
        rw [hlast, Nat.mod_self]
      · rw [Nat.mod_eq_of_lt (by omega)]
    have hrotate : buf.rotate (nextHead buf.length head) = (buf.rotate head).rotate 1 := by
      rw [hnext, List.rotate_mod, List.rotate_rotate]
    have hlast : nextHead buf.length head < buf.length := by
      rw [hnext]
      exact Nat.mod_lt _ (Nat.zero_lt_of_lt hhead)
    obtain ⟨x, rest, hcons⟩ : ∃ x rest, buf.rotate head = x :: rest := by
      apply List.exists_cons_of_ne_nil
      rw [ne_eq, List.rotate_eq_nil_iff]
      rintro rfl
      cases hhead
    have hfirst : buf[head]? = some x := by
      have hzero := @List.getElem?_rotate _ buf head 0 (Nat.zero_lt_of_lt hhead)
      rw [hcons, Nat.zero_add, Nat.mod_eq_of_lt hhead] at hzero
      exact hzero.symm
    have hlength : rest.length + 1 = buf.length := by
      rw [← List.length_rotate buf head, hcons, List.length_cons]
    rw [popLoop]
    dsimp only
    rw [ih hlast (by omega), hrotate, hcons, hfirst, List.rotate_cons_succ, List.rotate_zero, List.take_succ_cons,
      List.take_append_of_le_length (by omega)]
    rfl

theorem popLoop_snd (n : Nat) (hhead : head < buf.length) :
    buf.rotate (popLoop buf n head).2 = buf.rotate (head + n) := by
  induction n generalizing head with
  | zero => rfl
  | succ n ih =>
    have hnext : nextHead buf.length head = (head + 1) % buf.length := by
      unfold nextHead
      split
      · rename_i hlast
        rw [hlast, Nat.mod_self]
      · rw [Nat.mod_eq_of_lt (by omega)]
    have hlast : nextHead buf.length head < buf.length := by
      rw [hnext]
      exact Nat.mod_lt _ (Nat.zero_lt_of_lt hhead)
    rw [popLoop]
    dsimp only
    rw [ih hlast, ← List.rotate_rotate, hnext, List.rotate_mod, List.rotate_rotate]
    congr 1
    omega

/-- The oldest samples are moved out. -/
theorem popInto_fst (room : Nat) : (ring.popInto room).1 = ring.contents.take room := by
  by_cases hempty : ring.buf.length = 0
  · have hlen : ring.len = 0 := Nat.le_zero.mp (hempty ▸ ring.len_le)
    have hcontents : ring.contents = [] := List.eq_nil_of_length_eq_zero (by rw [length_contents, hlen])
    simp only [popInto, hlen, Nat.min_zero, popLoop, hcontents, List.take_nil]
  · have hhead := ring.head_lt (Nat.pos_of_ne_zero hempty)
    simp only [popInto]
    rw [popLoop_fst _ hhead ((Nat.min_le_right _ _).trans ring.len_le), contents, List.take_take]

theorem contents_popInto (room : Nat) : (ring.popInto room).2.contents = ring.contents.drop room := by
  by_cases hall : ring.len ≤ room
  · have hnone : (ring.popInto room).2.len = 0 := by
      simp only [popInto, Nat.min_eq_right hall, Nat.sub_self]
    rw [List.drop_eq_nil_of_le (by rw [length_contents]; exact hall)]
    exact List.eq_nil_of_length_eq_zero (by rw [length_contents, hnone])
  · have hroom : room < ring.len := Nat.lt_of_not_le hall
    have hlen := ring.len_le
    have hhead := ring.head_lt (by omega)
    simp only [popInto, contents, Nat.min_eq_left hroom.le]
    rw [popLoop_snd _ hhead, ← List.rotate_rotate, List.drop_take,
      List.rotate_eq_drop_append_take (by rw [List.length_rotate]; omega), List.take_append_of_le_length]
    rw [List.length_drop, List.length_rotate]
    omega

@[simp] theorem contents_clear : ring.clear.contents = [] := List.take_zero

end AudioRingBuffer
end Beetle.Platform

/-! The way of samples to the speaker: the producer, the audio worker and the calls that clear the queues, one section
under a lock after the other. -/
namespace Beetle.Platform
open Beetle.Lib

def audioSpeakerFrameSamples : Nat := 1024
def audioStagingCapacitySecs : Nat := 4

/-- A sample, with its place among those that were accepted. -/
structure Sample where
  value : Int16
  place : Nat

/-- The samples that are passed when so many were accepted. -/
def passed (accepted : Nat) (pcm : List Int16) : List Sample := (pcm.zipIdx accepted).map fun (value, place) => ⟨value, place⟩

/-- `queue_output_audio`: what the staging queue has not taken is passed to the speaker queue. -/
inductive Producer where
  | idle
  | overflow (remaining : List Int16)

/-- Where the worker is in its turn, and what its frame holds; `clears` is how many clears of the speaker queue there
were when it was there. -/
inductive AudioWorker where
  | turn
  | staged (frame : List Sample)
  | transferred
  | popped (frame : List Sample) (generation : UInt32) (clears : Nat)
  | checked (frame : List Sample) (clears : Nat)

inductive ClearStage where
  | called
  | stagingCleared
  | speakerCleared (number : Nat)

/-- A call of `clear_output_queues`; `start` samples were accepted when it started. -/
structure ClearCall where
  start : Nat
  stage : ClearStage

/-- A write to I2S, and the calls that had returned when it began. -/
structure I2sWrite where
  frame : List Sample
  returned : List ClearCall

/-- The queues and the threads; then what has happened so far: the samples accepted, the writes, whether a clear was
called, and the starts of the calls that have cleared the speaker queue. -/
structure SpeakerPath where
  staging : AudioRingBuffer Sample
  speaker : AudioRingBuffer Sample
  speakerGeneration : UInt32
  producer : Producer
  worker : AudioWorker
  calls : List ClearCall
  returned : List ClearCall
  accepted : List Sample
  writes : List I2sWrite
  begun : Bool
  clears : List Nat

def SpeakerPath.new (sampleRate : Nat) : SpeakerPath where
  staging := .zeroed ⟨0, 0⟩ (max sampleRate 8000 * audioStagingCapacitySecs)
  speaker := .zeroed ⟨0, 0⟩ (max sampleRate 8000 * 2)
  speakerGeneration := 1
  producer := .idle
  worker := .turn
  calls := []
  returned := []
  accepted := []
  writes := []
  begun := false
  clears := []

inductive SpeakerAction where
  | pushStaging (pcm : List Int16)
  | tryWriteSpeaker
  | popStaging
  | pushSpeaker
  | popSpeaker
  | checkGeneration
  | writeFrame
  | callClear
  | clearStaging (call : Nat)
  | clearSpeaker (call : Nat)
  | returnClear (call : Nat)

/-- `push_staging_pcm_i16`. -/
def stepPushStaging (s : SpeakerPath) (pcm : List Int16) : Option SpeakerPath :=
  match s.producer with
  | .overflow _ => none
  | .idle =>
    if pcm = [] then none
    else
      let samples := passed s.accepted.length pcm
      let (written, staging) := s.staging.pushSliceBlocking samples
      some { s with staging, accepted := s.accepted ++ samples.take written,
                    producer := if written < pcm.length then .overflow (pcm.drop written) else .idle }

/-- `try_write_speaker_pcm_i16`; what it does not take is lost to the producer. -/
def stepTryWriteSpeaker (s : SpeakerPath) : Option SpeakerPath :=
  match s.producer with
  | .idle => none
  | .overflow remaining =>
    let samples := passed s.accepted.length remaining
    let (written, speaker) := s.speaker.pushSliceBlocking samples
    some { s with speaker, accepted := s.accepted ++ samples.take written, producer := .idle }

def stepPopStaging (s : SpeakerPath) : Option SpeakerPath :=
  match s.worker with
  | .turn =>
    let (frame, staging) := s.staging.popInto audioSpeakerFrameSamples
    some { s with staging, worker := if frame = [] then .transferred else .staged frame }
  | _ => none

/-- What does not fit is lost with the next use of the frame. -/
def stepPushSpeaker (s : SpeakerPath) : Option SpeakerPath :=
  match s.worker with
  | .staged frame => some { s with speaker := (s.speaker.pushSliceBlocking frame).2, worker := .transferred }
  | _ => none

/-- `pop_speaker_frame_for_output`, after its waits. -/
def stepPopSpeaker (s : SpeakerPath) : Option SpeakerPath :=
  match s.worker with
  | .transferred =>
    let (frame, speaker) := s.speaker.popInto audioSpeakerFrameSamples
    some { s with speaker,
                  worker := if frame = [] then .turn else .popped frame s.speakerGeneration s.clears.length }
  | _ => none

/-- A frame of another generation is dropped. -/
def stepCheckGeneration (s : SpeakerPath) : Option SpeakerPath :=
  match s.worker with
  | .popped frame generation _ =>
    some { s with worker := if generation ≠ s.speakerGeneration then .turn else .checked frame s.clears.length }
  | _ => none

def stepWriteFrame (s : SpeakerPath) : Option SpeakerPath :=
  match s.worker with
  | .checked frame _ => some { s with worker := .turn, writes := s.writes ++ [⟨frame, s.returned⟩] }
  | _ => none

def stepCallClear (s : SpeakerPath) : SpeakerPath :=
  { s with begun := true, calls := s.calls ++ [⟨s.accepted.length, .called⟩] }

def stepClearStaging (s : SpeakerPath) (i : Nat) : Option SpeakerPath :=
  match s.calls[i]? with
  | some ⟨start, .called⟩ =>
    some { s with staging := s.staging.clear, calls := s.calls.set i ⟨start, .stagingCleared⟩ }
  | _ => none

def stepClearSpeaker (s : SpeakerPath) (i : Nat) : Option SpeakerPath :=
  match s.calls[i]? with
  | some ⟨start, .stagingCleared⟩ =>
    some { s with speaker := s.speaker.clear, speakerGeneration := s.speakerGeneration + 1,
                  clears := s.clears ++ [start], calls := s.calls.set i ⟨start, .speakerCleared s.clears.length⟩ }
  | _ => none

/-- The reference queue is cleared, and the call returns. -/
def stepReturnClear (s : SpeakerPath) (i : Nat) : Option SpeakerPath :=
  match s.calls[i]? with
  | some ⟨start, .speakerCleared number⟩ =>
    some { s with calls := s.calls.eraseIdx i, returned := s.returned ++ [⟨start, .speakerCleared number⟩] }
  | _ => none

def SpeakerPath.step (s : SpeakerPath) : SpeakerAction → Option SpeakerPath
  | .pushStaging pcm => stepPushStaging s pcm
  | .tryWriteSpeaker => stepTryWriteSpeaker s
  | .popStaging => stepPopStaging s
  | .pushSpeaker => stepPushSpeaker s
  | .popSpeaker => stepPopSpeaker s
  | .checkGeneration => stepCheckGeneration s
  | .writeFrame => stepWriteFrame s
  | .callClear => some (stepCallClear s)
  | .clearStaging i => stepClearStaging s i
  | .clearSpeaker i => stepClearSpeaker s i
  | .returnClear i => stepReturnClear s i

/-! What is asked of a state. -/

/-- The frame on its way from the staging queue to the speaker queue. -/
def AudioWorker.incoming : AudioWorker → List Sample
  | .staged frame => frame
  | _ => []

/-- The frame on its way from the speaker queue to I2S. -/
def AudioWorker.outgoing : AudioWorker → List Sample
  | .popped frame _ _ => frame
  | .checked frame _ => frame
  | _ => []

namespace SpeakerPath

def written (s : SpeakerPath) : List Sample := s.writes.flatMap I2sWrite.frame

/-- The samples that are not written yet, in the order in which they would be. -/
def waiting (s : SpeakerPath) : List Sample :=
  s.worker.outgoing ++ (s.speaker.contents ++ (s.worker.incoming ++ s.staging.contents))

/-- Without a clear, what was accepted is what was written and what waits. -/
def Fifo (s : SpeakerPath) : Prop := s.begun = false → s.accepted = s.written ++ s.waiting

/-- No write has a sample that was accepted before the start of a clear that had returned when the write began. -/
def DropsCleared (s : SpeakerPath) : Prop :=
  ∀ w ∈ s.writes, ∀ call ∈ w.returned, ∀ x ∈ w.frame, call.start ≤ x.place

/-- Without a clear: the speaker queue has room for the frame from the staging queue, and it takes samples past the staging
queue only when there are none on that way. -/
def InOrder (s : SpeakerPath) : SpeakerAction → Prop
  | .pushSpeaker => s.begun = false → s.worker.incoming.length ≤ s.speaker.available
  | .tryWriteSpeaker => s.begun = false → s.speaker.available = 0 ∨ (s.worker.incoming = [] ∧ s.staging.contents = [])
  | _ => True

/-- The worker does not carry samples over a clear: no sample of a frame that it moves to the speaker queue was accepted
before the start of a call that has cleared that queue already; the generation has not come round while it held a frame;
and no call that has cleared the speaker queue since the check of the generation has returned before the write. -/
def ApartFromClears (s : SpeakerPath) : SpeakerAction → Prop
  | .pushSpeaker => ∀ start ∈ s.clears, ∀ x ∈ s.worker.incoming, start ≤ x.place
  | .checkGeneration => ∀ frame generation clears, s.worker = .popped frame generation clears → s.clears.length < clears + 2 ^ 32
  | .writeFrame => ∀ frame clears, s.worker = .checked frame clears →
      ∀ call ∈ s.returned, ∃ number, call.stage = .speakerCleared number ∧ number < clears
  | _ => True

end SpeakerPath
end Beetle.Platform
