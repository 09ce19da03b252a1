import Beetle.Lib.Run
import Beetle.Orchestrator.RuntimeCapability
import Mathlib.Algebra.BigOperators.Group.Finset.Basic
import Mathlib.Data.Fintype.Basic

/-! One slot under any number of threads; each load, store, exchange and addition of an
atomic is one step. -/
namespace Beetle.Orchestrator.RuntimeCapability
open Beetle.Lib

/-- What an update writes to the slot. -/
structure SlotUpdate where
  status : RuntimeCapabilityStatus
  reason : RuntimeCapabilityReason
  observedAtSecs : Nat

/-- Where a thread stands: before the access to an atomic that the name says, with what it
has read. A thread without a call in progress remembers what the last one returned. -/
inductive CallPc where
  | idle (result : Except RuntimeCapabilityError Unit)
  -- try_begin_runtime_capability_call_inner
  | loadStatus (allowWhenDegraded : Bool)
  | loadReason (allowWhenDegraded : Bool) (status : RuntimeCapabilityStatus)
  | incrementLoad (allowWhenDegraded : Bool)
  | incrementExchange (allowWhenDegraded : Bool) (current : Nat)
  | loadWordAfterBegin (allowWhenDegraded : Bool)
  | loadStatusAfterBegin (allowWhenDegraded : Bool) (wordAfterBegin : Nat)
  | loadReasonAfterBegin (allowWhenDegraded : Bool) (wordAfterBegin : Nat)
      (statusAfterBegin : RuntimeCapabilityStatus)
  | recordDenied (error : RuntimeCapabilityError)
  -- decrement_active_call, for a rollback or for a guard
  | decrementLoad (rollback : Bool)
  | decrementExchange (rollback : Bool) (current : Nat)
  -- set_call_state, with the update that follows it
  | setLoad (nextState : RuntimeCapabilityCallState) (andThen : Option SlotUpdate)
  | setExchange (nextState : RuntimeCapabilityCallState) (andThen : Option SlotUpdate) (current : Nat)
  | storeTransition (andThen : Option SlotUpdate)
  -- finish_runtime_capability_unloaded
  | unloadLoad (andThen : SlotUpdate)
  | unloadExchange (andThen : SlotUpdate) (current : Nat)
  -- update_runtime_capability and reconcile_call_state_after_update
  | updateLoadStatus (update : SlotUpdate)
  | updateLoadReason (update : SlotUpdate) (currentStatus : RuntimeCapabilityStatus)
  | updateLoadEpoch (update : SlotUpdate) (currentStatus : RuntimeCapabilityStatus)
      (currentReason : RuntimeCapabilityReason)
  | storeStatus (update : SlotUpdate) (changed : Bool) (nextEpoch : Nat)
  | storeReason (update : SlotUpdate) (changed : Bool) (nextEpoch : Nat)
  | storeEpoch (update : SlotUpdate) (changed : Bool) (nextEpoch : Nat)
  | storeObservedAt (update : SlotUpdate) (changed : Bool)
  | storeChangedAt (update : SlotUpdate)
  | reconcileLoad (update : SlotUpdate)
  | reconcileExchange (update : SlotUpdate) (current : Nat)

namespace CallPc

/-- What a thread does next with the word that it has read. -/
def incrementWith (allowWhenDegraded : Bool) (current : Nat) : CallPc :=
  if !(callStateFromWord current).acceptsNewCalls then recordDenied .notAcceptingCalls
  else if callActiveMask < activeCallsFromWord current + 1 then recordDenied .activeCallCapacityExhausted
  else incrementExchange allowWhenDegraded current

def afterDecrement (rollback : Bool) : CallPc :=
  if rollback then recordDenied .notAcceptingCalls else idle (.ok ())

def decrementWith (rollback : Bool) (current : Nat) : CallPc :=
  if activeCallsFromWord current = 0 then afterDecrement rollback else decrementExchange rollback current

def continueWith : Option SlotUpdate → CallPc
  | none => idle (.ok ())
  | some update => updateLoadStatus update

def setWith (nextState : RuntimeCapabilityCallState) (andThen : Option SlotUpdate) (current : Nat) : CallPc :=
  if callStateFromWord current = nextState then continueWith andThen else setExchange nextState andThen current

def unloadWith (andThen : SlotUpdate) (current : Nat) : CallPc :=
  if callStateFromWord current ≠ .draining then idle (.error .notDraining)
  else if activeCallsFromWord current ≠ 0 then idle (.error .stillHasActiveCalls)
  else unloadExchange andThen current

def reconcileWith (update : SlotUpdate) (current : Nat) : CallPc :=
  if callStateFromWord current = .draining then idle (.ok ())
  else if reconciledCallState update.status update.reason (callStateFromWord current) =
      callStateFromWord current then idle (.ok ())
  else reconcileExchange update current

/-- A guard that a thread is about to give back. -/
def heldGuard : CallPc → Nat
  | decrementLoad false | decrementExchange false _ => 1
  | _ => 0

/-- A call between its increment and its return or rollback. -/
def begunCall : CallPc → Nat
  | loadWordAfterBegin _ | loadStatusAfterBegin _ _ | loadReasonAfterBegin _ _ _
  | decrementLoad true | decrementExchange true _ => 1
  | _ => 0

end CallPc

/-- The slot, and how many guards there are that no thread is finishing. -/
structure SharedSlot where
  slot : RuntimeCapabilitySlot
  guards : Nat

/-- What the outside decides about a step: whether a weak exchange fails for no reason,
and the clock. -/
structure StepOutcome where
  spurious : Bool
  uptimeMillis : Nat

namespace SharedSlot
variable (shared : SharedSlot)

/-- A weak exchange of the word; a thread that fails goes on with the word that it finds. -/
def exchange (outcome : StepOutcome) (current next : Nat) (success : CallPc) (failure : Nat → CallPc) :
    SharedSlot × CallPc :=
  if shared.slot.callWord = current ∧ outcome.spurious = false then
    ({ shared with slot.callWord := next }, success)
  else (shared, failure shared.slot.callWord)

/-- A step of a thread with a call in progress. -/
def stepPc (outcome : StepOutcome) : CallPc → Option (SharedSlot × CallPc)
  | .idle _ => none
  | .loadStatus allow => some (shared, .loadReason allow shared.slot.status)
  | .loadReason allow status =>
    if statusAcceptsRuntimeCall status shared.slot.reason allow then some (shared, .incrementLoad allow)
    else some (shared, .recordDenied .unavailable)
  | .incrementLoad allow => some (shared, .incrementWith allow shared.slot.callWord)
  | .incrementExchange allow current =>
    some (shared.exchange outcome current
      (packCallWord (callStateFromWord current) (activeCallsFromWord current + 1))
      (.loadWordAfterBegin allow) (.incrementWith allow))
  | .loadWordAfterBegin allow => some (shared, .loadStatusAfterBegin allow shared.slot.callWord)
  | .loadStatusAfterBegin allow word => some (shared, .loadReasonAfterBegin allow word shared.slot.status)
  | .loadReasonAfterBegin allow word status =>
    if !(callStateFromWord word).acceptsNewCalls ||
        !statusAcceptsRuntimeCall status shared.slot.reason allow then
      some (shared, .decrementLoad true)
    else some ({ shared with guards := shared.guards + 1 }, .idle (.ok ()))
  | .recordDenied error =>
    some ({ shared with slot := shared.slot.recordRuntimeCapabilityDenied }, .idle (.error error))
  | .decrementLoad rollback => some (shared, .decrementWith rollback shared.slot.callWord)
  | .decrementExchange rollback current =>
    some (shared.exchange outcome current
      (packCallWord (callStateFromWord current) (activeCallsFromWord current - 1))
      (.afterDecrement rollback) (.decrementWith rollback))
  | .setLoad nextState andThen => some (shared, .setWith nextState andThen shared.slot.callWord)
  | .setExchange nextState andThen current =>
    some (shared.exchange outcome current (packCallWord nextState (activeCallsFromWord current))
      (.storeTransition andThen) (.setWith nextState andThen))
  | .storeTransition andThen =>
    some ({ shared with slot.lastTransitionUptimeMs := outcome.uptimeMillis }, .continueWith andThen)
  | .unloadLoad andThen => some (shared, .unloadWith andThen shared.slot.callWord)
  | .unloadExchange andThen current =>
    some (shared.exchange outcome current (packCallWord .unloaded 0)
      (.storeTransition (some andThen)) (.unloadWith andThen))
  | .updateLoadStatus update => some (shared, .updateLoadReason update shared.slot.status)
  | .updateLoadReason update status => some (shared, .updateLoadEpoch update status shared.slot.reason)
  | .updateLoadEpoch update status reason =>
    let changed := shared.slot.epoch = 0 ∨ status ≠ update.status ∨ reason ≠ update.reason
    some (shared, .storeStatus update changed (nextEpoch changed shared.slot.epoch))
  | .storeStatus update changed nextEpoch =>
    some ({ shared with slot.status := update.status }, .storeReason update changed nextEpoch)
  | .storeReason update changed nextEpoch =>
    some ({ shared with slot.reason := update.reason }, .storeEpoch update changed nextEpoch)
  | .storeEpoch update changed nextEpoch =>
    some ({ shared with slot.epoch := nextEpoch }, .storeObservedAt update changed)
  | .storeObservedAt update changed =>
    some ({ shared with slot.observedAtSecs := update.observedAtSecs },
      if changed then .storeChangedAt update else .reconcileLoad update)
  | .storeChangedAt update =>
    some ({ shared with slot.changedAtSecs := update.observedAtSecs }, .reconcileLoad update)
  | .reconcileLoad update => some (shared, .reconcileWith update shared.slot.callWord)
  | .reconcileExchange update current =>
    some (shared.exchange outcome current
      (packCallWord (reconciledCallState update.status update.reason (callStateFromWord current))
        (activeCallsFromWord current))
      (.storeTransition none) (.reconcileWith update))

end SharedSlot

/-- The calls that a thread can start. -/
inductive CallStart where
  | tryBegin (allowWhenDegraded : Bool)
  | finishGuard
  | beginDraining
  | finishUnloaded (nowSecs : Nat)
  | markDisabled (nowSecs : Nat)
  | markFailed (nowSecs : Nat)
  | update (update : SlotUpdate)

/-- The guard that is finished is taken from those that nobody is finishing. -/
def SharedSlot.start (shared : SharedSlot) : CallStart → Option (SharedSlot × CallPc)
  | .tryBegin allow => some (shared, .loadStatus allow)
  | .finishGuard =>
    if shared.guards = 0 then none else some ({ shared with guards := shared.guards - 1 }, .decrementLoad false)
  | .beginDraining => some (shared, .setLoad .draining none)
  | .finishUnloaded nowSecs => some (shared, .unloadLoad ⟨.offline, .runtimeNotInitialized, nowSecs⟩)
  | .markDisabled nowSecs => some (shared, .setLoad .disabled (some ⟨.offline, .operatorDisabled, nowSecs⟩))
  | .markFailed nowSecs => some (shared, .setLoad .failed (some ⟨.offline, .workerDead, nowSecs⟩))
  | .update update => some (shared, .updateLoadStatus update)

structure CapabilityThreads (ι : Type*) where
  shared : SharedSlot
  threads : ι → CallPc

inductive ThreadEvent (ι : Type*) where
  | start (i : ι) (call : CallStart)
  | step (i : ι) (outcome : StepOutcome)

namespace CapabilityThreads
variable {ι : Type*} [DecidableEq ι]

def new : CapabilityThreads ι := ⟨⟨.new, 0⟩, fun _ => .idle (.ok ())⟩

/-- Only a thread without a call in progress starts one. -/
@[grind =] def stepEvent (world : CapabilityThreads ι) : ThreadEvent ι → Option (CapabilityThreads ι)
  | .start i call =>
    match world.threads i with
    | .idle _ => (world.shared.start call).map fun (shared, pc) =>
        ⟨shared, Function.update world.threads i pc⟩
    | _ => none
  | .step i outcome => (world.shared.stepPc outcome (world.threads i)).map fun (shared, pc) =>
      ⟨shared, Function.update world.threads i pc⟩

variable (world : CapabilityThreads ι)

def callState : RuntimeCapabilityCallState := world.shared.slot.callState

def activeCalls : Nat := world.shared.slot.activeCalls

variable [Fintype ι]

/-- The guards that are not given back, those that a thread is finishing among them. -/
def liveGuards : Nat := world.shared.guards + ∑ i, (world.threads i).heldGuard

def begunCalls : Nat := ∑ i, (world.threads i).begunCall

end CapabilityThreads
end Beetle.Orchestrator.RuntimeCapability
