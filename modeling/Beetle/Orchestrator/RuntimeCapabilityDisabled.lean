import Beetle.Lib.Run
import Beetle.Orchestrator.RuntimeCapability
import Mathlib.Data.List.Nodup

/-! When a capability that the operator has disabled stays disabled. -/
namespace Beetle.Orchestrator.RuntimeCapability
open Beetle.Lib

namespace RuntimeCapabilitySlot

/-- Offline, in one of the states that an observation of an offline capability keeps out of
the accepting one. -/
structure Closed (slot : RuntimeCapabilitySlot) : Prop where
  status : slot.status = .offline
  accepting : slot.callState ≠ .accepting
  draining : slot.callState ≠ .draining

variable {slot : RuntimeCapabilitySlot} {clock : Clock}

@[simp] theorem callState_moveTo (nextState : RuntimeCapabilityCallState) :
    (slot.moveTo clock nextState).callState = nextState :=
  callStateFromWord_pack _ _

variable (status : RuntimeCapabilityStatus)

section
variable (reason : RuntimeCapabilityReason)
include reason

theorem callState_reconcile :
    (slot.reconcileCallStateAfterUpdate clock status reason).callState =
      if slot.callState = .draining then .draining
      else reconciledCallState status reason slot.callState := by
  unfold reconcileCallStateAfterUpdate
  split_ifs with hdraining hsame
  · exact hdraining
  · exact hsame.symm
  · exact callState_moveTo _

@[simp] theorem status_reconcile : (slot.reconcileCallStateAfterUpdate clock status reason).status = slot.status := by
  unfold reconcileCallStateAfterUpdate
  split_ifs <;> rfl

@[simp] theorem status_update
    (observedAtSecs : Nat) : (slot.update clock status reason observedAtSecs).status = status :=
  status_reconcile _ _

theorem callState_update (observedAtSecs : Nat) :
    (slot.update clock status reason observedAtSecs).callState =
      if slot.callState = .draining then .draining
      else reconciledCallState status reason slot.callState :=
  callState_reconcile _ _

end

theorem callState_setCallState (nextState : RuntimeCapabilityCallState) :
    (slot.setCallState clock nextState).callState = nextState := by
  unfold setCallState
  split_ifs with hsame
  · exact hsame
  · exact callState_moveTo _

@[simp] theorem callState_decrement : slot.decrementActiveCall.callState = slot.callState := by
  unfold decrementActiveCall
  split_ifs
  · rfl
  · exact callStateFromWord_pack _ _

@[simp] theorem status_decrement : slot.decrementActiveCall.status = slot.status := by
  unfold decrementActiveCall
  split_ifs <;> rfl

theorem closed_markDisabled (slot : RuntimeCapabilitySlot) (clock : Clock) :
    (slot.markRuntimeCapabilityDisabled clock).Closed := by
  have hstate : (slot.markRuntimeCapabilityDisabled clock).callState = .disabled := by
    rw [markRuntimeCapabilityDisabled, callState_update, callState_setCallState]
    rfl
  exact ⟨status_update _ _ _, by rw [hstate]; decide, by rw [hstate]; decide⟩

theorem reconciledCallState_offline (reason : RuntimeCapabilityReason)
    (currentState : RuntimeCapabilityCallState) :
    reconciledCallState .offline reason currentState = currentState ∨
      reconciledCallState .offline reason currentState ∈ [.disabled, .failed, .unloaded] := by
  cases reason <;> simp [reconciledCallState]

section
variable (h : slot.Closed)
include h

theorem Closed.update (reason : RuntimeCapabilityReason) (observedAtSecs : Nat) :
    (slot.update clock .offline reason observedAtSecs).Closed := by
  have hstate : (slot.update clock .offline reason observedAtSecs).callState =
      reconciledCallState .offline reason slot.callState := by
    rw [callState_update, if_neg h.draining]
  obtain hsame | hclosed := reconciledCallState_offline reason slot.callState
  · rw [hsame] at hstate
    exact ⟨status_update _ _ _, hstate ▸ h.accepting, hstate ▸ h.draining⟩
  · rw [← hstate] at hclosed
    constructor
    · exact status_update _ _ _
    · intro haccepting
      rw [haccepting] at hclosed
      exact absurd hclosed (by decide)
    · intro hdraining
      rw [hdraining] at hclosed
      exact absurd hclosed (by decide)

theorem Closed.decrement : slot.decrementActiveCall.Closed where
  status := status_decrement.trans h.status
  accepting := by
    rw [callState_decrement]
    exact h.accepting
  draining := by
    rw [callState_decrement]
    exact h.draining

/-- The status alone denies the call. -/
theorem Closed.tryBegin (allowWhenDegraded : Bool) :
    slot.tryBeginRuntimeCapabilityCallInner allowWhenDegraded =
      (slot.recordRuntimeCapabilityDenied, .error .unavailable) := by
  have hdenied : statusAcceptsRuntimeCall slot.status slot.reason allowWhenDegraded = false := by
    rw [h.status]
    exact Bool.and_false _
  rw [tryBeginRuntimeCapabilityCallInner, hdenied]
  rfl

theorem Closed.recordDenied : slot.recordRuntimeCapabilityDenied.Closed :=
  ⟨h.status, h.accepting, h.draining⟩

end

/-- An update that finds the capability other than offline opens it, unless it is draining. -/
theorem callState_update_accepting {status : RuntimeCapabilityStatus} (hstatus : status ≠ .offline)
    (hdraining : slot.callState ≠ .draining) (reason : RuntimeCapabilityReason) (observedAtSecs : Nat) :
    (slot.update clock status reason observedAtSecs).callState = .accepting := by
  rw [callState_update, if_neg hdraining]
  cases status with
  | online => rfl
  | degraded => rfl
  | offline => exact absurd rfl hstatus

end RuntimeCapabilitySlot

open RuntimeCapabilitySlot

/-- Of the capability the operation is at most a health observation or a call. -/
def Operation.OnlyObserves (id : RuntimeCapabilityId) : Operation → Prop
  | .update entry => entry.id = id → entry.reason ≠ .operatorDisabled
  | .observeFailure other reason => other = id → reason ≠ .operatorDisabled
  | .beginDraining other | .markDisabled other | .markFailed other | .finishUnloaded other => other ≠ id
  | .observeSuccess _ | .observeFromPlatform _ | .tryBegin _ _ | .finishCall _ => True

/-- The observation reports that the capability is online or degraded. -/
def Operation.Recovers (clock : Clock) (id : RuntimeCapabilityId)
    (authority : RuntimeCapabilityAuthorityState) (operation : Operation) : Prop :=
  ∃ update ∈ operation.updates clock authority, update.id = id ∧ update.status ≠ .offline

namespace RuntimeCapabilityAuthorityState
variable {authority : RuntimeCapabilityAuthorityState} {clock : Clock} {id other : RuntimeCapabilityId}
  {updates : List RuntimeCapabilityUpdate}

theorem modify_self (f : RuntimeCapabilitySlot → RuntimeCapabilitySlot) :
    authority.modify id f id = f (authority id) :=
  Function.update_self id _ authority

theorem modify_of_ne (h : other ≠ id) (f : RuntimeCapabilitySlot → RuntimeCapabilitySlot) :
    authority.modify other f id = authority id :=
  Function.update_of_ne h.symm _ authority

/-- What one id can see of a list of updates. -/
theorem foldl_update_invariant {P : RuntimeCapabilitySlot → Prop}
    (keep : ∀ update ∈ updates, update.id = id → ∀ slot, P slot →
      P (slot.update clock update.status update.reason update.observedAtSecs))
    (h : P (authority id)) : P (updates.foldl (updateRuntimeCapability clock) authority id) := by
  induction updates generalizing authority with
  | nil => exact h
  | cons update updates ih =>
    apply ih (fun later hlater => keep later (List.mem_cons_of_mem update hlater))
    by_cases hid : update.id = id
    · have hkept := keep update List.mem_cons_self hid _ h
      unfold updateRuntimeCapability
      rw [hid, modify_self]
      exact hkept
    · unfold updateRuntimeCapability
      rw [modify_of_ne hid]
      exact h

/-- One update of the list opens the capability, and the others of the id are like it. -/
theorem foldl_update_accepting (hsame : ∀ update ∈ updates, update.id = id → update.status ≠ .offline)
    (hsome : ∃ update ∈ updates, update.id = id) (hdraining : (authority id).callState ≠ .draining) :
    (updates.foldl (updateRuntimeCapability clock) authority id).callState = .accepting := by
  induction updates generalizing authority with
  | nil => simp at hsome
  | cons update updates ih =>
    by_cases hid : update.id = id
    · have hopen : (updateRuntimeCapability clock authority update id).callState = .accepting := by
        have hupdate := @callState_update_accepting _ clock _
          (hsame update List.mem_cons_self hid) hdraining update.reason update.observedAtSecs
        unfold updateRuntimeCapability
        rw [hid, modify_self]
        exact hupdate
      apply foldl_update_invariant (P := fun slot => slot.callState = .accepting) ?_ hopen
      intro later hlater hlaterId slot hslot
      exact callState_update_accepting (hsame later (List.mem_cons_of_mem update hlater) hlaterId)
        (by rw [hslot]; decide) _ _
    · apply ih (fun later hlater => hsame later (List.mem_cons_of_mem update hlater))
      · simpa [hid] using hsome
      · unfold updateRuntimeCapability
        rw [modify_of_ne hid]
        exact hdraining

end RuntimeCapabilityAuthorityState

open RuntimeCapabilityAuthorityState
variable {authority : RuntimeCapabilityAuthorityState} {clock : Clock} {id : RuntimeCapabilityId}
  {operation : Operation}

/-- The platform observer reports on each capability once, on the storage if it was asked. -/
theorem platform_ids (reading : PlatformReading) (prior : RuntimeCapabilitySlot) (nowSecs : Nat) :
    (observeRuntimeCapabilitiesFromPlatformWithConfig reading prior nowSecs).map (·.id) =
      [.audioOutput, .audioInput, .networkOutboundHttp] ++
        (if reading.storageStateFsReady.isSome then [.storageStateFs] else []) ++
        [.displayOutput, .hardwareGpio, .hardwareI2c, .sensor, .cameraFrame] := by
  obtain ⟨-, -, -, -, -, -, -, -, storageReady⟩ := reading
  cases storageReady <;> rfl

theorem platform_ids_nodup (reading : PlatformReading) (prior : RuntimeCapabilitySlot) (nowSecs : Nat) :
    ((observeRuntimeCapabilitiesFromPlatformWithConfig reading prior nowSecs).map (·.id)).Nodup := by
  rw [platform_ids]
  cases reading.storageStateFsReady.isSome <;> decide

/-- An operation makes the same finding about a capability throughout. -/
theorem updates_agree {first second : RuntimeCapabilityUpdate}
    (hfirst : first ∈ operation.updates clock authority)
    (hsecond : second ∈ operation.updates clock authority) (hid : first.id = second.id) :
    first.status = second.status := by
  cases operation with
  | update entry =>
    rw [List.mem_singleton.mp hfirst, List.mem_singleton.mp hsecond]
  | observeSuccess required =>
    obtain ⟨_, -, rfl⟩ := List.mem_map.mp hfirst
    obtain ⟨_, -, rfl⟩ := List.mem_map.mp hsecond
    rfl
  | observeFailure other reason =>
    rw [List.mem_singleton.mp hfirst, List.mem_singleton.mp hsecond]
  | observeFromPlatform reading =>
    rw [List.inj_on_of_nodup_map (platform_ids_nodup reading _ _) hfirst hsecond hid]
  | tryBegin | finishCall | beginDraining | markDisabled | markFailed | finishUnloaded =>
    cases hfirst

/-- An observation that does not find the capability recovered, or a call, leaves it closed. -/
theorem closed_apply (h : (authority id).Closed) (hobserves : operation.OnlyObserves id)
    (hclosed : ¬operation.Recovers clock id authority) :
    (authority.apply clock operation id).Closed := by
  have hupdates : ((operation.updates clock authority).foldl (updateRuntimeCapability clock)
      authority id).Closed := by
    refine foldl_update_invariant (fun update hupdate hid slot hslot => ?_) h
    have hstatus : update.status = .offline := by_contra fun hstatus =>
      hclosed ⟨update, hupdate, hid, hstatus⟩
    rw [hstatus]
    exact hslot.update _ _
  have hmodify : ∀ other f, (other = id → (f (authority id)).Closed) →
      (authority.modify other f id).Closed := by
    intro other f hf
    by_cases hother : other = id
    · subst hother
      rw [modify_self]
      exact hf rfl
    · rw [modify_of_ne hother]
      exact h
  cases operation with
  | update | observeSuccess | observeFailure | observeFromPlatform => exact hupdates
  | tryBegin other allowWhenDegraded =>
    rw [RuntimeCapabilityAuthorityState.apply]
    apply hmodify
    intro _
    show ((authority id).tryBeginRuntimeCapabilityCallInner allowWhenDegraded).1.Closed
    rw [h.tryBegin]
    exact h.recordDenied
  | finishCall other => exact hmodify _ _ fun _ => h.decrement
  | beginDraining | markDisabled | markFailed | finishUnloaded =>
    rw [RuntimeCapabilityAuthorityState.apply]
    exact hmodify _ _ fun hother => absurd hother hobserves

theorem accepting_apply (h : (authority id).Closed) (hrecovers : operation.Recovers clock id authority) :
    (authority.apply clock operation id).callState = .accepting := by
  obtain ⟨update, hupdate, hid, hstatus⟩ := hrecovers
  have hopen : ((operation.updates clock authority).foldl (updateRuntimeCapability clock)
      authority id).callState = .accepting := by
    refine foldl_update_accepting (fun later hlater hlaterId => ?_) ⟨update, hupdate, hid⟩ h.draining
    rw [updates_agree hlater hupdate (hlaterId.trans hid.symm)]
    exact hstatus
  cases operation with
  | update | observeSuccess | observeFailure | observeFromPlatform => exact hopen
  | tryBegin | finishCall | beginDraining | markDisabled | markFailed | finishUnloaded => cases hupdate

/-- Calls of the capability get an error, and its state is not the accepting one. -/
def StaysDisabled (id : RuntimeCapabilityId) (authority : RuntimeCapabilityAuthorityState) : Prop :=
  (∃ error, (authority id).tryBeginRuntimeCapabilityCall.2 = .error error) ∧
    (authority id).callState ≠ .accepting

/-- An operation and the clock that it reads. -/
abbrev Observation (id : RuntimeCapabilityId) :=
  { entry : Clock × Operation // entry.2.OnlyObserves id }

def observeStep (id : RuntimeCapabilityId) (authority : RuntimeCapabilityAuthorityState)
    (observation : Observation id) : Option RuntimeCapabilityAuthorityState :=
  some (authority.apply observation.1.1 observation.1.2)

/-- A disabled capability stays disabled as long as no observation finds it online or degraded. -/
theorem stays_disabled_iff (authority : RuntimeCapabilityAuthorityState) (id : RuntimeCapabilityId)
    (clock : Clock) (observations : List (Observation id)) :
    Always (observeStep id) (StaysDisabled id) observations
        (authority.apply clock (.markDisabled id)) ↔
      Meets (observeStep id)
        (fun authority observation => ¬observation.1.2.Recovers observation.1.1 id authority)
        observations (authority.apply clock (.markDisabled id)) := by
  refine always_iff_meets (I := fun authority => (authority id).Closed) ?_ ?_ ?_ observations _ ?_
  · rintro before ⟨⟨clock, operation⟩, hobserves⟩ after h hclosed hstep
    cases hstep
    exact closed_apply h hobserves hclosed
  · intro reached h
    refine ⟨⟨.unavailable, ?_⟩, h.accepting⟩
    rw [tryBeginRuntimeCapabilityCall, h.tryBegin]
  · rintro before ⟨⟨clock, operation⟩, hobserves⟩ after h hstep hrecovers hstays
    cases hstep
    exact hstays.2 (accepting_apply h (not_not.mp hrecovers))
  · rw [RuntimeCapabilityAuthorityState.apply, modify_self]
    exact closed_markDisabled _ _

theorem success_reopens_disabled :
    ¬∀ (authority : RuntimeCapabilityAuthorityState) (id : RuntimeCapabilityId) (clock : Clock)
      (observations : List (Observation id)),
      Always (observeStep id) (StaysDisabled id) observations
        (authority.apply clock (.markDisabled id)) := by
  intro hstays
  have hrun := hstays (fun _ => .new) .audioOutput ⟨1700000000, 5000⟩
    [⟨(⟨1700000001, 6000⟩, .observeSuccess [.audioOutput]), trivial⟩]
  exact absurd (hrun.2 _ rfl).2 (by decide)

end Beetle.Orchestrator.RuntimeCapability
