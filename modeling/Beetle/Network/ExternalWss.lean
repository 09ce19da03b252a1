import Beetle.Lib.Pool
import Beetle.Runtime.Lease

/-! The requests that suspend the external WSS plane, under any number of threads; each
access to an atomic is one step. -/
namespace Beetle.Network
open Beetle.Lib Beetle.Runtime.Lease

/-- Reason why the external WSS plane is being suspended. -/
inductive ExternalWssSuspendReason where
  | voiceExclusive
  | configPersisting
  deriving DecidableEq

/-- The atomics of the external WSS plane, and the leases. -/
structure ExternalWss where
  managedPresent : Bool
  suspendRequestCount : Nat
  voiceSuspendRequestCount : Nat
  configSuspendRequestCount : Nat
  connectingCount : Nat
  suspended : Bool
  leases : LeaseRegistry
  deriving DecidableEq

namespace ExternalWss

/-- What the process starts with. -/
def start : ExternalWss := ⟨false, 0, 0, 0, 0, false, .empty⟩

def suspendRequested (s : ExternalWss) : Bool := decide (0 < s.suspendRequestCount)

def suspendReasonCount (s : ExternalWss) : ExternalWssSuspendReason → Nat
  | .voiceExclusive => s.voiceSuspendRequestCount
  | .configPersisting => s.configSuspendRequestCount

def incrementSuspendReason (s : ExternalWss) : ExternalWssSuspendReason → ExternalWss
  | .voiceExclusive => { s with voiceSuspendRequestCount := fetchAdd 32 s.voiceSuspendRequestCount }
  | .configPersisting => { s with configSuspendRequestCount := fetchAdd 32 s.configSuspendRequestCount }

/-- `checked_sub` leaves a counter of zero as it is. -/
def decrementSuspendReason (s : ExternalWss) : ExternalWssSuspendReason → ExternalWss
  | .voiceExclusive => { s with voiceSuspendRequestCount := s.voiceSuspendRequestCount - 1 }
  | .configPersisting => { s with configSuspendRequestCount := s.configSuspendRequestCount - 1 }

end ExternalWss

/-- The calls that are made of the plane. -/
inductive SuspendCall where
  | beginSuspendRequest (reason : ExternalWssSuspendReason)
  | setManagedPresent (active : Bool)

/-- Where a call stands: before the access that the name says. A request that has been
counted is a live guard until its drop takes the first step. -/
inductive SuspendPc where
  -- request_external_wss_suspend_for_reason
  | incrementReason (reason : ExternalWssSuspendReason)
  | incrementTotal (reason : ExternalWssSuspendReason)
  | live (reason : ExternalWssSuspendReason)
  -- release_external_wss_suspend_request
  | decrementTotal (reason : ExternalWssSuspendReason)
  | loadTotal
  | clearSuspended
  | zeroVoice
  | zeroConfig
  -- set_external_wss_managed_present
  | storePresent (active : Bool)
  | resetTotal
  | resetVoice
  | resetConfig
  | resetConnecting
  | resetSuspended
  | releaseExternalWss
  | releaseTlsHandshake
  | done
  deriving DecidableEq

namespace SuspendPc

def next (s : ExternalWss) : SuspendPc → Option (ExternalWss × SuspendPc)
  | incrementReason reason => some (s.incrementSuspendReason reason, incrementTotal reason)
  | incrementTotal reason =>
    some ({ s with suspendRequestCount := fetchAdd 32 s.suspendRequestCount }, live reason)
  | live reason => some (s.decrementSuspendReason reason, decrementTotal reason)
  | decrementTotal _ => some ({ s with suspendRequestCount := s.suspendRequestCount - 1 }, loadTotal)
  | loadTotal => some (s, if s.suspendRequested then done else clearSuspended)
  | clearSuspended => some ({ s with suspended := false }, zeroVoice)
  | zeroVoice => some ({ s with voiceSuspendRequestCount := 0 }, zeroConfig)
  | zeroConfig => some ({ s with configSuspendRequestCount := 0 }, done)
  | storePresent active => some ({ s with managedPresent := active }, if active then done else resetTotal)
  | resetTotal => some ({ s with suspendRequestCount := 0 }, resetVoice)
  | resetVoice => some ({ s with voiceSuspendRequestCount := 0 }, resetConfig)
  | resetConfig => some ({ s with configSuspendRequestCount := 0 }, resetConnecting)
  | resetConnecting => some ({ s with connectingCount := 0 }, resetSuspended)
  | resetSuspended => some ({ s with suspended := false }, releaseExternalWss)
  | releaseExternalWss => some ({ s with leases := (releaseKind s.leases .externalWss).2 }, releaseTlsHandshake)
  | releaseTlsHandshake => some ({ s with leases := (releaseKind s.leases .tlsHandshake).2 }, done)
  | done => none

def isLive : SuspendPc → Bool
  | live _ => true
  | _ => false

def isLiveFor (reason : ExternalWssSuspendReason) : SuspendPc → Bool
  | live other => other = reason
  | _ => false

/-- A guard that nobody is dropping, or a call that is over. -/
def isQuiet : SuspendPc → Bool
  | live _ | done => true
  | _ => false

/-- Between the increment of the total counter and its decrement. -/
def inTotal : SuspendPc → Bool
  | live _ | decrementTotal _ => true
  | _ => false

/-- Between the increment of the counter of the reason and its decrement. -/
def inReason (reason : ExternalWssSuspendReason) : SuspendPc → Bool
  | incrementTotal other | live other => other = reason
  | _ => false

end SuspendPc

def SuspendCall.entry : SuspendCall → SuspendPc
  | beginSuspendRequest reason => .incrementReason reason
  | setManagedPresent active => .storePresent active

def suspendSystem : CallSystem ExternalWss SuspendCall Unit SuspendPc where
  enter s call := some (s, call.entry)
  next _ s pc := pc.next s

abbrev SuspendPool := Pool ExternalWss SuspendPc

abbrev SuspendMove := Move SuspendCall Unit

/-- The counters are those of the live guards, in every state without a call in progress;
as long as there is a guard the suspension is requested. -/
structure CountedExactly (w : SuspendPool) : Prop where
  total : (∀ pc ∈ w.calls, pc.isQuiet) → w.shared.suspendRequestCount = w.count SuspendPc.isLive
  reasons : (∀ pc ∈ w.calls, pc.isQuiet) → ∀ reason,
    w.shared.suspendReasonCount reason = w.count (SuspendPc.isLiveFor reason)
  requested : 0 < w.count SuspendPc.isLive → w.shared.suspendRequested = true

/-- No zero is stored over the requests that a counter counts, and no counter overflows. -/
def WipesNothing (w : SuspendPool) : SuspendMove → Prop
  | .begin _ => True
  | .advance i _ =>
    match w.calls[i]? with
    | some (.incrementReason reason) => w.shared.suspendReasonCount reason + 1 < 2 ^ 32
    | some (.incrementTotal _) => w.shared.suspendRequestCount + 1 < 2 ^ 32
    | some .resetTotal => w.count SuspendPc.inTotal = 0
    | some .zeroVoice | some .resetVoice => w.count (SuspendPc.inReason .voiceExclusive) = 0
    | some .zeroConfig | some .resetConfig => w.count (SuspendPc.inReason .configPersisting) = 0
    | _ => True

instance (w : SuspendPool) (a : SuspendMove) : Decidable (WipesNothing w a) := by
  unfold WipesNothing
  split
  · infer_instance
  · split <;> infer_instance

/-- What every step keeps: each counter has the requests that are counted in it. -/
structure Counted (w : SuspendPool) : Prop where
  total : w.shared.suspendRequestCount = w.count SuspendPc.inTotal
  reasons : ∀ reason, w.shared.suspendReasonCount reason = w.count (SuspendPc.inReason reason)

section
variable {s s' : ExternalWss} {pc pc' : SuspendPc} {w t : SuspendPool} {a : SuspendMove}
  {reason : ExternalWssSuspendReason}

/-- The total counter moves with the call that is counted in it. -/
theorem SuspendPc.next_total (hnext : pc.next s = some (s', pc')) (hcounted : pc.inTotal → 0 < s.suspendRequestCount)
    (hroom : ∀ reason, pc = incrementTotal reason → s.suspendRequestCount + 1 < 2 ^ 32)
    (hwipe : pc = resetTotal → s.suspendRequestCount = 0) :
    s'.suspendRequestCount + pc.inTotal.toNat = s.suspendRequestCount + pc'.inTotal.toNat := by
  cases pc with
  | done => cases hnext
  | incrementReason reason | live reason =>
    obtain ⟨rfl, rfl⟩ := Prod.mk.inj (Option.some.inj hnext)
    cases reason <;> rfl
  | incrementTotal reason =>
    obtain ⟨rfl, rfl⟩ := Prod.mk.inj (Option.some.inj hnext)
    exact fetchAdd_of_lt (hroom reason rfl)
  | decrementTotal reason =>
    obtain ⟨rfl, rfl⟩ := Prod.mk.inj (Option.some.inj hnext)
    exact Nat.sub_add_cancel (hcounted rfl)
  | resetTotal =>
    obtain ⟨rfl, rfl⟩ := Prod.mk.inj (Option.some.inj hnext)
    rw [hwipe rfl]
    rfl
  | loadTotal | storePresent active =>
    obtain ⟨rfl, rfl⟩ := Prod.mk.inj (Option.some.inj hnext)
    split <;> rfl
  | _ =>
    obtain ⟨rfl, rfl⟩ := Prod.mk.inj (Option.some.inj hnext)
    rfl

/-- The steps that store a zero in the counter of the reason. -/
def SuspendPc.wipes (reason : ExternalWssSuspendReason) : SuspendPc → Bool
  | zeroVoice | resetVoice => reason = .voiceExclusive
  | zeroConfig | resetConfig => reason = .configPersisting
  | _ => false

/-- So does the counter of each reason. -/
theorem SuspendPc.next_reason (hnext : pc.next s = some (s', pc'))
    (hcounted : pc.inReason reason → 0 < s.suspendReasonCount reason)
    (hroom : pc = incrementReason reason → s.suspendReasonCount reason + 1 < 2 ^ 32)
    (hwipe : pc.wipes reason → s.suspendReasonCount reason = 0) :
    s'.suspendReasonCount reason + (pc.inReason reason).toNat =
      s.suspendReasonCount reason + (pc'.inReason reason).toNat := by
  cases pc with
  | done => cases hnext
  | incrementReason other =>
    obtain ⟨rfl, rfl⟩ := Prod.mk.inj (Option.some.inj hnext)
    cases other <;> cases reason <;> first | rfl | exact fetchAdd_of_lt (hroom rfl)
  | live other =>
    obtain ⟨rfl, rfl⟩ := Prod.mk.inj (Option.some.inj hnext)
    cases other <;> cases reason <;> first | rfl | exact Nat.sub_add_cancel (hcounted rfl)
  | zeroVoice | zeroConfig | resetVoice | resetConfig =>
    obtain ⟨rfl, rfl⟩ := Prod.mk.inj (Option.some.inj hnext)
    cases reason <;> first | rfl | exact (hwipe rfl).symm
  | loadTotal | storePresent active =>
    obtain ⟨rfl, rfl⟩ := Prod.mk.inj (Option.some.inj hnext)
    split <;> rfl
  | _ =>
    obtain ⟨rfl, rfl⟩ := Prod.mk.inj (Option.some.inj hnext)
    cases reason <;> rfl

theorem Counted.step (h : Counted w) (hc : WipesNothing w a) (ht : w.step suspendSystem a = some t) : Counted t := by
  cases Pool.fires_of_step ht with
  | begun call shared pc henter =>
    obtain ⟨rfl, rfl⟩ := Prod.mk.inj (Option.some.inj henter)
    constructor
    · rw [Pool.count_begun, ← h.total]
      cases call <;> rfl
    · intro reason
      rw [Pool.count_begun, ← h.reasons]
      cases call <;> rfl
  | advanced i choice pc pc' shared hpc hnext =>
    simp only [WipesNothing, hpc] at hc
    constructor
    · have hmoved := SuspendPc.next_total hnext (fun hin => h.total ▸ Pool.count_pos hpc hin)
        (by rintro reason rfl; exact hc) (by rintro rfl; rw [h.total]; exact hc)
      have hcount := Pool.count_advanced SuspendPc.inTotal hpc shared pc'
      have htotal := h.total
      dsimp only
      omega
    · intro reason
      have hwiped (hwipe : pc.wipes reason) : w.shared.suspendReasonCount reason = 0 := by
        rw [h.reasons]
        cases pc <;> simp_all [SuspendPc.wipes]
      have hmoved := SuspendPc.next_reason hnext (fun hin => h.reasons reason ▸ Pool.count_pos hpc hin)
        (by rintro rfl; exact hc) hwiped
      have hcount := Pool.count_advanced (SuspendPc.inReason reason) hpc shared pc'
      have hreason := h.reasons reason
      dsimp only
      omega

/-- Where no call is in progress the requests that are counted are the live guards. -/
theorem Counted.countedExactly (h : Counted w) : CountedExactly w where
  total hquiet := by
    rw [h.total]
    refine Pool.count_congr fun pc hpc => ?_
    have hq := hquiet pc hpc
    cases pc <;> first | rfl | cases hq
  reasons hquiet reason := by
    rw [h.reasons]
    refine Pool.count_congr fun pc hpc => ?_
    have hq := hquiet pc hpc
    cases pc <;> first | rfl | cases hq
  requested hlive := by
    have hle : w.count SuspendPc.isLive ≤ w.count SuspendPc.inTotal := by
      refine Pool.count_mono fun pc hpc => ?_
      cases pc <;> first | rfl | cases hpc
    rw [ExternalWss.suspendRequested, h.total, decide_eq_true_eq]
    exact hlive.trans_le hle

end

/-- In every run that stores no zero over a request that is counted, and overflows no
counter, the requests are counted exactly. -/
theorem suspend_requests_counted (moves : List SuspendMove)
    (h : Meets (Pool.step suspendSystem) WipesNothing moves ⟨.start, []⟩) :
    Always (Pool.step suspendSystem) CountedExactly moves ⟨.start, []⟩ :=
  always_of_meets (I := Counted) (fun _ _ _ hw hc ht => hw.step hc ht) (fun _ hw => hw.countedExactly) moves _
    ⟨rfl, fun reason => by cases reason <;> rfl⟩ h

/-- A call is begun and takes so many steps. -/
def callAlone (i : Nat) (call : SuspendCall) (steps : Nat) : List SuspendMove :=
  .begin call :: List.replicate steps (.advance i ())

theorem two_guards_counted :
    Always (Pool.step suspendSystem) CountedExactly
      (callAlone 0 (.setManagedPresent true) 1 ++ callAlone 1 (.beginSuspendRequest .configPersisting) 2 ++
        callAlone 2 (.beginSuspendRequest .voiceExclusive) 5 ++ List.replicate 6 (.advance 1 ()))
      ⟨.start, []⟩ :=
  suspend_requests_counted _ (by decide)

/-- A release has seen that there is no request; before it zeroes the counters of the
reasons, another request is begun, and its guard is alive with no reason counted. -/
theorem voice_request_wiped_by_release :
    ¬ Always (Pool.step suspendSystem) CountedExactly
      (callAlone 0 (.beginSuspendRequest .configPersisting) 6 ++ callAlone 1 (.beginSuspendRequest .voiceExclusive) 2 ++
        List.replicate 2 (.advance 0 ()))
      ⟨.start, []⟩ := by
  intro h
  have hlast := h.last (t := ⟨{ ExternalWss.start with suspendRequestCount := 1 },
    [.done, .live .voiceExclusive]⟩) (by decide)
  exact absurd (hlast.reasons (by decide) .voiceExclusive) (by decide)

/-! The guard of voice-exclusive transport ownership, entered and dropped by any number of
threads. -/

/-- What `enter` and `drop` act on. -/
structure VoiceTransport where
  wss : ExternalWss
  voiceExclusiveActive : Bool
  deriving DecidableEq

def voiceExclusiveOwner : LeaseOwner := ⟨"voice", "voice_exclusive"⟩

/-- `acquire_voice_exclusive_lease`: the token of the guard, unless it is denied. -/
def acquireVoiceExclusiveLease (leases : LeaseRegistry) (nowMs : Nat) : Option Nat × LeaseRegistry :=
  let (decision, leases) :=
    tryAcquireWithPolicyAt leases .voiceExclusive voiceExclusiveOwner .exclusive none nowMs .replaceExpired
  match decision with
  | .acquired record | .reentered record | .replacedExpired _ record => (some record.token, leases)
  | .denied _ => (none, leases)

/-- What the clock shows when the lease is asked for, and whether the external WSS plane
is suspended and drained in time. -/
structure EnterOutcome where
  nowMs : Nat
  drained : Bool

/-- Where an `enter` stands, and then its guard, with the token of its lease. -/
inductive VoicePc where
  -- VoiceExclusiveTransportGuard::enter
  | acquireLease
  | suspending (token : Nat) (pc : SuspendPc)
  | setActive (token : Nat)
  | waiting (token : Nat)
  | clearAfterError (token : Nat)
  | live (token : Nat)
  -- the drops of the suspend guard and of the lease guard
  | resuming (token : Nat) (pc : SuspendPc)
  | releaseLease (token : Nat)
  | done
  deriving DecidableEq

namespace VoicePc

def next (outcome : EnterOutcome) (s : VoiceTransport) : VoicePc → Option (VoiceTransport × VoicePc)
  | acquireLease =>
    let (token, leases) := acquireVoiceExclusiveLease s.wss.leases outcome.nowMs
    some ({ s with wss := { s.wss with leases } },
      match token with
      | some token => suspending token (.incrementReason .voiceExclusive)
      | none => done)
  | suspending token pc =>
    (pc.next s.wss).map fun (wss, pc) => ({ s with wss }, if pc.isLive then setActive token else suspending token pc)
  | setActive token => some ({ s with voiceExclusiveActive := true }, waiting token)
  | waiting token => some (s, if outcome.drained then live token else clearAfterError token)
  | clearAfterError token | live token =>
    some ({ s with voiceExclusiveActive := false }, resuming token (.live .voiceExclusive))
  | resuming token pc =>
    (pc.next s.wss).map fun (wss, pc) => ({ s with wss }, if pc = .done then releaseLease token else resuming token pc)
  | releaseLease token =>
    some ({ s with wss := { s.wss with
      leases := (releaseToken s.wss.leases .voiceExclusive voiceExclusiveOwner token).2 } }, done)
  | done => none

/-- A guard that nobody is dropping. -/
def isLive : VoicePc → Bool
  | live _ => true
  | _ => false

/-- It has its lease and has still to clear the flag. -/
def ownsFlag : VoicePc → Bool
  | suspending _ _ | setActive _ | waiting _ | clearAfterError _ | live _ => true
  | acquireLease | resuming _ _ | releaseLease _ | done => false

/-- It has set the flag. -/
def hasSet : VoicePc → Bool
  | waiting _ | live _ => true
  | _ => false

end VoicePc

def voiceSystem : CallSystem VoiceTransport Unit EnterOutcome VoicePc where
  enter s _ := some (s, .acquireLease)
  next := VoicePc.next

abbrev VoicePool := Pool VoiceTransport VoicePc

abbrev VoiceMove := Move Unit EnterOutcome

/-- At most one guard is alive, and the flag is set as long as one is. -/
structure OwnedExclusively (w : VoicePool) : Prop where
  one : w.count VoicePc.isLive ≤ 1
  active : 0 < w.count VoicePc.isLive → w.shared.voiceExclusiveActive = true

/-- An `enter` is granted the lease only when no other one, and no guard, has still to
clear the flag: the re-entry of the lease is of no use. -/
def EntersAlone (w : VoicePool) : VoiceMove → Prop
  | .begin _ => True
  | .advance i outcome => w.calls[i]? = some .acquireLease →
    (acquireVoiceExclusiveLease w.shared.wss.leases outcome.nowMs).1 ≠ none → w.count VoicePc.ownsFlag = 0

instance (w : VoicePool) (a : VoiceMove) : Decidable (EntersAlone w a) := by
  unfold EntersAlone
  split <;> infer_instance

/-- What every step keeps: one call owns the flag, and what it has set stays set. -/
structure OneOwner (w : VoicePool) : Prop where
  one : w.count VoicePc.ownsFlag ≤ 1
  set : 0 < w.count VoicePc.hasSet → w.shared.voiceExclusiveActive = true

section
variable {w t : VoicePool} {a : VoiceMove}

theorem OneOwner.ownedExclusively (h : OneOwner w) : OwnedExclusively w where
  one := by
    refine le_trans (Pool.count_mono fun pc hpc => ?_) h.one
    cases pc <;> first | rfl | cases hpc
  active hlive := by
    refine h.set (hlive.trans_le (Pool.count_mono fun pc hpc => ?_))
    cases pc <;> first | rfl | cases hpc

theorem hasSet_le_ownsFlag (w : VoicePool) : w.count VoicePc.hasSet ≤ w.count VoicePc.ownsFlag := by
  refine Pool.count_mono fun pc hpc => ?_
  cases pc <;> first | rfl | cases hpc

/-- What a step can be to the flag: it is left as it is by a call that does not come to set
it, or set, or found set, or cleared by an owner that gives it up. -/
inductive VoicePc.FlagStep (s s' : VoiceTransport) (pc pc' : VoicePc) : Prop where
  | kept (hflag : s'.voiceExclusiveActive = s.voiceExclusiveActive) (howner : pc'.ownsFlag → pc.ownsFlag)
      (hset : pc'.hasSet → pc.hasSet)
  | set (hflag : s'.voiceExclusiveActive = true) (howner : pc.ownsFlag)
  | cleared (howner : pc.ownsFlag) (hgone : pc'.ownsFlag = false)

theorem VoicePc.flagStep {outcome : EnterOutcome} {s s' : VoiceTransport} {pc pc' : VoicePc}
    (hnext : pc.next outcome s = some (s', pc'))
    (hdenied : pc = acquireLease → (acquireVoiceExclusiveLease s.wss.leases outcome.nowMs).1 = none) :
    FlagStep s s' pc pc' := by
  cases pc with
  | acquireLease =>
    simp only [next, hdenied rfl] at hnext
    obtain ⟨rfl, rfl⟩ := Prod.mk.inj (Option.some.inj hnext)
    exact .kept rfl id id
  | suspending token pc =>
    obtain ⟨⟨wss, pc''⟩, -, heq⟩ := Option.map_eq_some_iff.mp hnext
    obtain ⟨rfl, rfl⟩ := Prod.mk.inj heq
    refine .kept rfl (fun _ => rfl) ?_
    split <;> exact id
  | setActive token =>
    obtain ⟨rfl, rfl⟩ := Prod.mk.inj (Option.some.inj hnext)
    exact .set rfl rfl
  | waiting token =>
    obtain ⟨rfl, rfl⟩ := Prod.mk.inj (Option.some.inj hnext)
    exact .kept rfl (fun _ => rfl) (fun _ => rfl)
  | clearAfterError token | live token =>
    obtain ⟨rfl, rfl⟩ := Prod.mk.inj (Option.some.inj hnext)
    exact .cleared rfl rfl
  | resuming token pc =>
    obtain ⟨⟨wss, pc''⟩, -, heq⟩ := Option.map_eq_some_iff.mp hnext
    obtain ⟨rfl, rfl⟩ := Prod.mk.inj heq
    refine .kept rfl ?_ ?_
    all_goals split <;> exact id
  | releaseLease token =>
    obtain ⟨rfl, rfl⟩ := Prod.mk.inj (Option.some.inj hnext)
    exact .kept rfl id id
  | done => cases hnext

theorem OneOwner.step (h : OneOwner w) (hc : EntersAlone w a) (ht : w.step voiceSystem a = some t) : OneOwner t := by
  cases Pool.fires_of_step ht with
  | begun call shared pc henter =>
    obtain ⟨rfl, rfl⟩ := Prod.mk.inj (Option.some.inj henter)
    constructor
    · simpa [Pool.count_begun, VoicePc.ownsFlag] using h.one
    · simpa [Pool.count_begun, VoicePc.hasSet] using h.set
  | advanced i outcome pc pc' shared hpc hnext =>
    have howner := Pool.count_advanced VoicePc.ownsFlag hpc shared pc'
    have hset := Pool.count_advanced VoicePc.hasSet hpc shared pc'
    have hle := hasSet_le_ownsFlag ⟨shared, w.calls.set i pc'⟩
    have hone := h.one
    by_cases hgranted : pc = .acquireLease ∧ (acquireVoiceExclusiveLease w.shared.wss.leases outcome.nowMs).1 ≠ none
    · -- the new owner is the only one, and has not set the flag
      obtain ⟨rfl, hgranted⟩ := hgranted
      have halone := hc hpc hgranted
      have hnot : pc'.hasSet = false := by
        obtain ⟨-, rfl⟩ := Prod.mk.inj (Option.some.inj hnext)
        split <;> rfl
      have hnone := hasSet_le_ownsFlag w
      rw [show VoicePc.acquireLease.ownsFlag = false from rfl, Bool.toNat_false] at howner
      rw [show VoicePc.acquireLease.hasSet = false from rfl, hnot, Bool.toNat_false] at hset
      have hbool := Bool.toNat_le pc'.ownsFlag
      constructor <;> omega
    · cases VoicePc.flagStep hnext fun hp => by_contra fun hne => hgranted ⟨hp, hne⟩ with
      | kept hflag hown hhas =>
        have hown' : pc'.ownsFlag.toNat ≤ pc.ownsFlag.toNat := Bool.toNat_le_toNat hown
        have hhas' : pc'.hasSet.toNat ≤ pc.hasSet.toNat := Bool.toNat_le_toNat hhas
        refine ⟨by omega, fun hpos => ?_⟩
        exact hflag.trans (h.set (by omega))
      | set hflag hown =>
        have hbool := Bool.toNat_le pc'.ownsFlag
        rw [hown] at howner
        simp only [Bool.toNat_true] at howner
        exact ⟨by omega, fun _ => hflag⟩
      | cleared hown hgone =>
        rw [hown, hgone] at howner
        simp only [Bool.toNat_true, Bool.toNat_false] at howner
        constructor <;> omega

end

/-- In every run in which each `enter` is granted its lease alone, the ownership is
exclusive. -/
theorem voice_exclusive_owned (s : VoiceTransport) (moves : List VoiceMove)
    (h : Meets (Pool.step voiceSystem) EntersAlone moves ⟨s, []⟩) :
    Always (Pool.step voiceSystem) OwnedExclusively moves ⟨s, []⟩ :=
  always_of_meets (I := OneOwner) (fun _ _ _ hw hc ht => hw.step hc ht) (fun _ hw => hw.ownedExclusively) moves _
    ⟨Nat.zero_le _, fun h => absurd h (lt_irrefl 0)⟩ h

def VoiceTransport.start : VoiceTransport := ⟨.start, false⟩

/-- An `enter` up to its guard. -/
def enterDrained (i : Nat) : List VoiceMove := .begin () :: List.replicate 5 (.advance i ⟨0, true⟩)

theorem entered_one_after_the_other :
    Always (Pool.step voiceSystem) OwnedExclusively
      (enterDrained 0 ++ List.replicate 8 (.advance 0 ⟨0, true⟩) ++ enterDrained 1) ⟨.start, []⟩ :=
  voice_exclusive_owned _ _ (by decide)

/-- The second `enter` is a re-entry of the lease of the first; when the first guard is
dropped, the second is alive with the flag cleared. -/
theorem second_guard_reenters :
    ¬ Always (Pool.step voiceSystem) OwnedExclusively (enterDrained 0 ++ enterDrained 1 ++ [.advance 0 ⟨0, true⟩])
      ⟨.start, []⟩ := by
  intro h
  have hlast := h.last (t := ⟨⟨{ ExternalWss.start with
      suspendRequestCount := 2
      voiceSuspendRequestCount := 2
      leases := ⟨[⟨1, .voiceExclusive, voiceExclusiveOwner, .exclusive, 0, none, 2⟩], 2⟩ }, false⟩,
    [.resuming 1 (.live .voiceExclusive), .live 1]⟩) (by decide)
  exact absurd (hlast.active (by decide)) (by decide)

end Beetle.Network
