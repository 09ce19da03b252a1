import Beetle.Orchestrator.RuntimeCapabilityThreads

/-! Draining a slot under any interleaving of threads. -/
namespace Beetle.Orchestrator.RuntimeCapability
open Beetle.Lib

theorem packCallWord_unpack (state : RuntimeCapabilityCallState) (activeCalls : Nat) :
    packCallWord (callStateFromWord (packCallWord state activeCalls))
      (activeCallsFromWord (packCallWord state activeCalls)) = packCallWord state activeCalls := by
  rw [callStateFromWord_pack, activeCallsFromWord_pack_mod, packCallWord_eq, packCallWord_eq,
    Nat.mod_mod]

namespace CallPc

/-- What a thread counts for in the word. -/
def weight (pc : CallPc) : Nat := pc.heldGuard + pc.begunCall

/-- What a thread knows of the word that it means to exchange. -/
def Placed : CallPc → Prop
  | incrementExchange _ current =>
    callStateFromWord current = .accepting ∧ activeCallsFromWord current + 1 ≤ callActiveMask
  | decrementExchange _ current => activeCallsFromWord current ≠ 0
  | setLoad nextState _ | setExchange nextState _ _ => nextState ≠ .unloaded
  | unloadExchange _ current => activeCallsFromWord current = 0
  | reconcileExchange _ current => callStateFromWord current ≠ .draining
  | _ => True

variable {current : Nat} {allowWhenDegraded rollback : Bool} {nextState : RuntimeCapabilityCallState}
  {andThen : Option SlotUpdate}

theorem weight_incrementWith : (incrementWith allowWhenDegraded current).weight = 0 := by
  unfold incrementWith
  split_ifs <;> rfl

theorem placed_incrementWith : (incrementWith allowWhenDegraded current).Placed := by
  unfold incrementWith
  split_ifs with haccepts hfull
  · trivial
  · trivial
  · exact ⟨by simpa [RuntimeCapabilityCallState.acceptsNewCalls] using haccepts, Nat.not_lt.mp hfull⟩

theorem weight_afterDecrement : (afterDecrement rollback).weight = 0 := by
  cases rollback <;> rfl

theorem placed_afterDecrement : (afterDecrement rollback).Placed := by
  cases rollback <;> trivial

/-- A thread that finds a call to give back goes on to do so. -/
theorem decrementWith_pos (h : activeCallsFromWord current ≠ 0) :
    decrementWith rollback current = decrementExchange rollback current :=
  if_neg h

theorem weight_decrement : (decrementExchange rollback current).weight = 1 := by
  cases rollback <;> rfl

theorem weight_decrementLoad : (decrementLoad rollback).weight = 1 := by
  cases rollback <;> rfl

theorem weight_continueWith : (continueWith andThen).weight = 0 := by
  cases andThen <;> rfl

theorem placed_continueWith : (continueWith andThen).Placed := by
  cases andThen <;> trivial

theorem weight_setWith : (setWith nextState andThen current).weight = 0 := by
  unfold setWith
  split_ifs
  · exact weight_continueWith
  · rfl

theorem placed_setWith (h : nextState ≠ .unloaded) : (setWith nextState andThen current).Placed := by
  unfold setWith
  split_ifs
  · exact placed_continueWith
  · exact h

theorem weight_unloadWith {andThen : SlotUpdate} : (unloadWith andThen current).weight = 0 := by
  unfold unloadWith
  split_ifs <;> rfl

theorem placed_unloadWith {andThen : SlotUpdate} : (unloadWith andThen current).Placed := by
  unfold unloadWith
  split_ifs with hstate hactive
  · trivial
  · trivial
  · exact not_not.mp hactive

theorem weight_reconcileWith {update : SlotUpdate} : (reconcileWith update current).weight = 0 := by
  unfold reconcileWith
  split_ifs <;> rfl

theorem placed_reconcileWith {update : SlotUpdate} : (reconcileWith update current).Placed := by
  unfold reconcileWith
  split_ifs with hdraining hsame
  · trivial
  · trivial
  · exact hdraining

end CallPc

open CallPc

/-- What a step of one thread can do to the word and to what is counted. -/
inductive StepEffect (before : SharedSlot) (pc : CallPc) (after : SharedSlot) (pc' : CallPc) : Prop
  | kept (hword : after.slot.callWord = before.slot.callWord)
      (hcount : after.guards + pc'.weight = before.guards + pc.weight)
  | incremented
      (hword : after.slot.callWord = packCallWord before.slot.callState (before.slot.activeCalls + 1))
      (hroom : before.slot.activeCalls + 1 ≤ callActiveMask)
      (hcount : after.guards + pc'.weight = before.guards + pc.weight + 1)
  | decremented
      (hword : after.slot.callWord = packCallWord before.slot.callState (before.slot.activeCalls - 1))
      (hpos : before.slot.activeCalls ≠ 0)
      (hcount : after.guards + pc'.weight + 1 = before.guards + pc.weight)
  | moved (state : RuntimeCapabilityCallState)
      (hword : after.slot.callWord = packCallWord state before.slot.activeCalls)
      (hunload : before.slot.callState = .draining → state = .unloaded → before.slot.activeCalls = 0)
      (hcount : after.guards + pc'.weight = before.guards + pc.weight)

namespace SharedSlot
variable {shared after : SharedSlot} {outcome : StepOutcome} {pc pc' : CallPc}

/-- A weak exchange goes through on the word that was read, or the thread reads again. -/
theorem exchange_effect {current next : Nat} {success : CallPc} {failure : Nat → CallPc}
    (hsuccess : shared.slot.callWord = current →
      StepEffect shared pc { shared with slot.callWord := next } success ∧ success.Placed)
    (hfailure : StepEffect shared pc shared (failure shared.slot.callWord) ∧
      (failure shared.slot.callWord).Placed)
    (hstep : some (shared.exchange outcome current next success failure) = some (after, pc')) :
    StepEffect shared pc after pc' ∧ pc'.Placed := by
  unfold exchange at hstep
  split_ifs at hstep with h
  · cases hstep
    exact hsuccess h.1
  · cases hstep
    exact hfailure

/-- A step that neither touches the word nor what the thread counts for. -/
theorem effect_kept (hpc : pc.weight = 0) (hpc' : pc'.weight = 0) (hplaced : pc'.Placed)
    (hword : after.slot.callWord = shared.slot.callWord) (hguards : after.guards = shared.guards) :
    StepEffect shared pc after pc' ∧ pc'.Placed :=
  ⟨.kept hword (by rw [hpc, hpc', hguards]), hplaced⟩

theorem stepPc_effect (hplaced : pc.Placed) (hactive : pc.weight ≤ shared.slot.activeCalls)
    (hstep : shared.stepPc outcome pc = some (after, pc')) :
    StepEffect shared pc after pc' ∧ pc'.Placed := by
  cases pc with
  | idle result => cases hstep
  | loadStatus allow => cases hstep; exact effect_kept rfl rfl trivial rfl rfl
  | loadReason allow status =>
    simp only [stepPc] at hstep
    split at hstep <;> cases hstep <;> exact effect_kept rfl rfl trivial rfl rfl
  | incrementLoad allow =>
    cases hstep
    exact effect_kept rfl weight_incrementWith placed_incrementWith rfl rfl
  | incrementExchange allow current =>
    obtain ⟨haccepting, hroom⟩ := hplaced
    refine exchange_effect ?_ (effect_kept rfl weight_incrementWith placed_incrementWith rfl rfl) hstep
    rintro rfl
    exact ⟨.incremented rfl hroom rfl, trivial⟩
  | loadWordAfterBegin allow => cases hstep; exact ⟨.kept rfl rfl, trivial⟩
  | loadStatusAfterBegin allow word => cases hstep; exact ⟨.kept rfl rfl, trivial⟩
  | loadReasonAfterBegin allow word status =>
    simp only [stepPc] at hstep
    split at hstep
    · cases hstep; exact ⟨.kept rfl rfl, trivial⟩
    · cases hstep; exact ⟨.kept rfl rfl, trivial⟩
  | recordDenied error => cases hstep; exact effect_kept rfl rfl trivial rfl rfl
  | decrementLoad rollback =>
    rw [weight_decrementLoad] at hactive
    have hpos : activeCallsFromWord shared.slot.callWord ≠ 0 := Nat.one_le_iff_ne_zero.mp hactive
    cases hstep
    rw [decrementWith_pos hpos]
    exact ⟨.kept rfl (by rw [weight_decrement, weight_decrementLoad]), hpos⟩
  | decrementExchange rollback current =>
    rw [weight_decrement] at hactive
    have hpos : activeCallsFromWord shared.slot.callWord ≠ 0 := Nat.one_le_iff_ne_zero.mp hactive
    refine exchange_effect ?_ ?_ hstep
    · rintro rfl
      refine ⟨.decremented rfl hpos ?_, placed_afterDecrement⟩
      rw [weight_afterDecrement, weight_decrement]
    · rw [decrementWith_pos hpos]
      exact ⟨.kept rfl (by rw [weight_decrement, weight_decrement]), hpos⟩
  | setLoad nextState andThen =>
    cases hstep
    exact effect_kept rfl weight_setWith (placed_setWith hplaced) rfl rfl
  | setExchange nextState andThen current =>
    refine exchange_effect ?_ (effect_kept rfl weight_setWith (placed_setWith hplaced) rfl rfl) hstep
    rintro rfl
    exact ⟨.moved nextState rfl (fun _ hunloaded => absurd hunloaded hplaced) rfl, trivial⟩
  | storeTransition andThen =>
    cases hstep
    exact effect_kept rfl weight_continueWith placed_continueWith rfl rfl
  | unloadLoad andThen =>
    cases hstep
    exact effect_kept rfl weight_unloadWith placed_unloadWith rfl rfl
  | unloadExchange andThen current =>
    refine exchange_effect ?_ (effect_kept rfl weight_unloadWith placed_unloadWith rfl rfl) hstep
    rintro rfl
    have hzero : shared.slot.activeCalls = 0 := hplaced
    exact ⟨.moved .unloaded (by rw [hzero]) (fun _ _ => hzero) rfl, trivial⟩
  | updateLoadStatus | updateLoadReason | updateLoadEpoch | storeStatus | storeReason | storeEpoch
  | storeChangedAt => cases hstep; exact effect_kept rfl rfl trivial rfl rfl
  | storeObservedAt update changed =>
    cases changed <;> cases hstep <;> exact effect_kept rfl rfl trivial rfl rfl
  | reconcileLoad update =>
    cases hstep
    exact effect_kept rfl weight_reconcileWith placed_reconcileWith rfl rfl
  | reconcileExchange update current =>
    refine exchange_effect ?_ (effect_kept rfl weight_reconcileWith placed_reconcileWith rfl rfl) hstep
    rintro rfl
    exact ⟨.moved _ rfl (fun hdraining _ => absurd hdraining hplaced) rfl, trivial⟩

theorem start_effect {call : CallStart} {result : Except RuntimeCapabilityError Unit}
    (hstart : shared.start call = some (after, pc')) :
    StepEffect shared (.idle result) after pc' ∧ pc'.Placed := by
  cases call with
  | finishGuard =>
    simp only [start] at hstart
    split_ifs at hstart with hguards
    cases hstart
    exact ⟨.kept rfl (Nat.sub_one_add_one hguards), trivial⟩
  | beginDraining => cases hstart; exact effect_kept rfl rfl (by decide : _ ≠ _) rfl rfl
  | markDisabled nowSecs => cases hstart; exact effect_kept rfl rfl (by decide : _ ≠ _) rfl rfl
  | markFailed nowSecs => cases hstart; exact effect_kept rfl rfl (by decide : _ ≠ _) rfl rfl
  | tryBegin | finishUnloaded | update => cases hstart; exact effect_kept rfl rfl trivial rfl rfl

end SharedSlot

namespace StepEffect
variable {before after : SharedSlot} {pc pc' : CallPc}

section
variable (h : StepEffect before pc after pc')
include h

theorem packed (hbefore : before.slot.callWord = packCallWord before.slot.callState before.slot.activeCalls) :
    after.slot.callWord = packCallWord after.slot.callState after.slot.activeCalls := by
  have hpack : ∀ state active, after.slot.callWord = packCallWord state active →
      after.slot.callWord = packCallWord after.slot.callState after.slot.activeCalls := by
    intro state active hword
    rw [RuntimeCapabilitySlot.callState, RuntimeCapabilitySlot.activeCalls, hword, packCallWord_unpack]
  cases h with
  | kept hword => exact hpack _ _ (hword.trans hbefore)
  | incremented hword => exact hpack _ _ hword
  | decremented hword => exact hpack _ _ hword
  | moved state hword => exact hpack _ _ hword

/-- The active calls change as what is counted does, and never together with the state. -/
theorem count :
    after.slot.activeCalls = before.slot.activeCalls ∧
        after.guards + pc'.weight = before.guards + pc.weight ∨
      after.slot.callState = before.slot.callState ∧
        (after.slot.activeCalls = before.slot.activeCalls + 1 ∧
            after.guards + pc'.weight = before.guards + pc.weight + 1 ∨
          before.slot.activeCalls = after.slot.activeCalls + 1 ∧
            before.guards + pc.weight = after.guards + pc'.weight + 1) := by
  have hle : before.slot.activeCalls ≤ callActiveMask := activeCallsFromWord_le _
  have hactive : ∀ state active, after.slot.callWord = packCallWord state active →
      active ≤ callActiveMask → after.slot.activeCalls = active := by
    intro state active hword hbound
    rw [RuntimeCapabilitySlot.activeCalls, hword, activeCallsFromWord_pack state hbound]
  have hstate : ∀ state active, after.slot.callWord = packCallWord state active →
      after.slot.callState = state := by
    intro state active hword
    rw [RuntimeCapabilitySlot.callState, hword, callStateFromWord_pack]
  cases h with
  | kept hword hcount => exact .inl ⟨congrArg activeCallsFromWord hword, hcount⟩
  | incremented hword hroom hcount =>
    exact .inr ⟨hstate _ _ hword, .inl ⟨hactive _ _ hword hroom, hcount⟩⟩
  | decremented hword hpos hcount =>
    have hone := Nat.one_le_iff_ne_zero.mpr hpos
    refine .inr ⟨hstate _ _ hword, .inr ⟨?_, hcount.symm⟩⟩
    rw [hactive _ _ hword (by omega), Nat.sub_add_cancel hone]
  | moved state hword hunload hcount => exact .inl ⟨hactive _ _ hword hle, hcount⟩

/-- The step from draining to unloaded. -/
theorem unloads (hdraining : before.slot.callState = .draining)
    (hunloaded : after.slot.callState = .unloaded) : before.slot.activeCalls = 0 := by
  have hsame : ¬before.slot.callState = after.slot.callState := by
    rw [hdraining, hunloaded]
    decide
  have hstate : ∀ active, after.slot.callWord = packCallWord before.slot.callState active →
      before.slot.callState = after.slot.callState := by
    intro active hword
    rw [RuntimeCapabilitySlot.callState, RuntimeCapabilitySlot.callState, hword, callStateFromWord_pack]
    rfl
  cases h with
  | kept hword => exact absurd (congrArg callStateFromWord hword).symm hsame
  | incremented hword => exact absurd (hstate _ hword) hsame
  | decremented hword => exact absurd (hstate _ hword) hsame
  | moved state hword hunload =>
    apply hunload hdraining
    rw [← hunloaded, RuntimeCapabilitySlot.callState, hword, callStateFromWord_pack]

end

end StepEffect

/-- A call that has not got into the word, and can only end with an error while the slot drains. -/
def CallPc.TurnedAway : CallPc → Prop
  | loadStatus _ | loadReason _ _ | incrementLoad _ | recordDenied _ | idle (.error _) => True
  | _ => False

theorem turnedAway_stepPc {shared after : SharedSlot} {outcome : StepOutcome} {pc pc' : CallPc}
    (hdraining : shared.slot.callState = .draining) (haway : pc.TurnedAway)
    (hstep : shared.stepPc outcome pc = some (after, pc')) : pc'.TurnedAway := by
  cases pc with
  | loadStatus allow => cases hstep; trivial
  | loadReason allow status =>
    simp only [SharedSlot.stepPc] at hstep
    split at hstep <;> cases hstep <;> trivial
  | incrementLoad allow =>
    have hrefused : incrementWith allow shared.slot.callWord = .recordDenied .notAcceptingCalls := by
      rw [incrementWith, show callStateFromWord shared.slot.callWord = .draining from hdraining]
      rfl
    cases hstep
    rw [hrefused]
    trivial
  | recordDenied error => cases hstep; trivial
  | idle result => cases hstep
  | _ => exact absurd haway id

namespace CapabilityThreads
section
variable {ι : Type*} [Fintype ι]

/-- The word has the count of the guards and of the threads that stand for a call. -/
structure Counted (world : CapabilityThreads ι) : Prop where
  count : world.activeCalls = world.shared.guards + ∑ i, (world.threads i).weight
  placed : ∀ i, (world.threads i).Placed
  packed : world.shared.slot.callWord = packCallWord world.callState world.activeCalls

theorem counted_new : (new : CapabilityThreads ι).Counted where
  count := by
    have hidle : ∑ i, ((new : CapabilityThreads ι).threads i).weight = 0 :=
      Finset.sum_eq_zero fun _ _ => rfl
    rw [hidle]
    exact activeCallsFromWord_pack .unloaded (Nat.zero_le _)
  placed _ := trivial
  packed := (packCallWord_unpack .unloaded 0).symm

theorem Counted.live_add_begun {world : CapabilityThreads ι} (h : world.Counted) :
    world.activeCalls = world.liveGuards + world.begunCalls := by
  rw [h.count, liveGuards, begunCalls, Nat.add_assoc, ← Finset.sum_add_distrib]
  rfl

end

variable {ι : Type*} [DecidableEq ι] {world after : CapabilityThreads ι} {event : ThreadEvent ι}

theorem stepEvent_effect (hplaced : ∀ i, (world.threads i).Placed)
    (hactive : ∀ i, (world.threads i).weight ≤ world.activeCalls) (hstep : world.stepEvent event = some after) :
    ∃ i pc', after.threads = Function.update world.threads i pc' ∧
      StepEffect world.shared (world.threads i) after.shared pc' ∧ pc'.Placed := by
  cases event with
  | start i call =>
    cases hpc : world.threads i with
    | idle result =>
      simp only [stepEvent, hpc] at hstep
      obtain ⟨⟨shared, pc'⟩, hstart, rfl⟩ := Option.map_eq_some_iff.mp hstep
      refine ⟨i, pc', rfl, ?_⟩
      rw [hpc]
      exact SharedSlot.start_effect hstart
    | _ => simp [stepEvent, hpc] at hstep
  | step i outcome =>
    obtain ⟨⟨shared, pc'⟩, hthread, rfl⟩ := Option.map_eq_some_iff.mp hstep
    exact ⟨i, pc', rfl, SharedSlot.stepPc_effect (hplaced i) (hactive i) hthread⟩

variable [Fintype ι]

/-- Moving one thread changes the sum by what it counted for. -/
theorem sum_weight_update (threads : ι → CallPc) (i : ι) (pc : CallPc) :
    ∑ j, (Function.update threads i pc j).weight + (threads i).weight =
      ∑ j, (threads j).weight + pc.weight := by
  have hothers : ∑ j ∈ Finset.univ.erase i, (Function.update threads i pc j).weight =
      ∑ j ∈ Finset.univ.erase i, (threads j).weight := by
    apply Finset.sum_congr rfl
    intro j hj
    rw [Function.update_of_ne (Finset.ne_of_mem_erase hj)]
  have hafter := Finset.add_sum_erase Finset.univ
    (fun j => (Function.update threads i pc j).weight) (Finset.mem_univ i)
  have hbefore := Finset.add_sum_erase Finset.univ (fun j => (threads j).weight) (Finset.mem_univ i)
  simp only [Function.update_self] at hafter
  omega

theorem Counted.weight_le (h : world.Counted) (i : ι) : (world.threads i).weight ≤ world.activeCalls := by
  have hsum := Finset.add_sum_erase Finset.univ (fun j => (world.threads j).weight) (Finset.mem_univ i)
  have hcount := h.count
  omega

theorem Counted.stepEvent (h : world.Counted) (hstep : world.stepEvent event = some after) :
    after.Counted := by
  obtain ⟨i, pc', hthreads, heffect, hplaced⟩ := stepEvent_effect h.placed h.weight_le hstep
  have hcount := h.count
  have hsum := sum_weight_update world.threads i pc'
  constructor
  · have hword := heffect.count
    rw [hthreads]
    unfold activeCalls at hcount ⊢
    omega
  · intro j
    rw [hthreads]
    by_cases hj : j = i
    · rw [hj, Function.update_self]
      exact hplaced
    · rw [Function.update_of_ne hj]
      exact h.placed j
  · exact heffect.packed h.packed

end CapabilityThreads

/-- The event starts a call in the thread. -/
def ThreadEvent.Starts {ι : Type*} (i : ι) : ThreadEvent ι → Prop
  | start j _ => j = i
  | step _ _ => False

namespace CapabilityThreads
variable {ι : Type*} [DecidableEq ι] {world after : CapabilityThreads ι} {event : ThreadEvent ι}

theorem turnedAway_stepEvent {i : ι} (hdraining : world.callState = .draining)
    (haway : (world.threads i).TurnedAway) (hevent : ¬event.Starts i)
    (hstep : world.stepEvent event = some after) : (after.threads i).TurnedAway := by
  cases event with
  | start j call =>
    cases hpc : world.threads j with
    | idle result =>
      simp only [stepEvent, hpc] at hstep
      obtain ⟨⟨shared, pc'⟩, -, rfl⟩ := Option.map_eq_some_iff.mp hstep
      show (Function.update world.threads j pc' i).TurnedAway
      rw [Function.update_of_ne fun hij => hevent hij.symm]
      exact haway
    | _ => simp [stepEvent, hpc] at hstep
  | step j outcome =>
    obtain ⟨⟨shared, pc'⟩, hthread, rfl⟩ := Option.map_eq_some_iff.mp hstep
    show (Function.update world.threads j pc' i).TurnedAway
    by_cases hij : i = j
    · subst hij
      rw [Function.update_self]
      exact turnedAway_stepPc hdraining haway hthread
    · rw [Function.update_of_ne hij]
      exact haway

theorem turnedAway_exec {i : ι} (events : List (ThreadEvent ι)) (haway : (world.threads i).TurnedAway)
    (hevents : ∀ event ∈ events, ¬event.Starts i)
    (hdraining : Always stepEvent (fun world => world.callState = .draining) events world)
    (hrun : exec stepEvent events world = some after) : (after.threads i).TurnedAway := by
  induction events generalizing world with
  | nil =>
    cases hrun
    exact haway
  | cons event events ih =>
    obtain ⟨next, hstep, hrest⟩ := Option.bind_eq_some_iff.mp hrun
    have hnext := turnedAway_stepEvent hdraining.1 haway (hevents event List.mem_cons_self) hstep
    exact ih hnext (fun later hlater => hevents later (List.mem_cons_of_mem event hlater))
      (hdraining.2 next hstep) hrest

variable [Fintype ι]

/-- What draining a capability relies on: the word counts the live guards and the calls that
have begun; no step borrows from or carries into the state; only a slot without live guards
is unloaded; and a call all of which happens while the slot drains ends with an error. -/
structure DrainsSafely (world : CapabilityThreads ι) : Prop where
  counted : world.activeCalls = world.liveGuards + world.begunCalls
  packed : world.shared.slot.callWord = packCallWord world.callState world.activeCalls
  exactly : ∀ event after, world.stepEvent event = some after →
    after.activeCalls = world.activeCalls ∨
      after.callState = world.callState ∧
        (after.activeCalls = world.activeCalls + 1 ∨ world.activeCalls = after.activeCalls + 1)
  unloads : ∀ event after, world.stepEvent event = some after →
    world.callState = .draining → after.callState = .unloaded → world.liveGuards = 0
  denies : ∀ i allowWhenDegraded begun, world.callState = .draining →
    world.stepEvent (.start i (.tryBegin allowWhenDegraded)) = some begun →
    ∀ events after, (∀ event ∈ events, ¬event.Starts i) →
      Always stepEvent (fun world => world.callState = .draining) events begun →
      exec stepEvent events begun = some after →
      ∀ result, after.threads i = .idle result → ∃ error, result = .error error

theorem Counted.drainsSafely (h : world.Counted) : world.DrainsSafely where
  counted := h.live_add_begun
  packed := h.packed
  exactly event after hstep := by
    obtain ⟨i, pc', -, heffect, -⟩ := stepEvent_effect h.placed h.weight_le hstep
    obtain ⟨hsame, -⟩ | ⟨hstate, hcount⟩ := heffect.count
    · exact .inl hsame
    · exact .inr ⟨hstate, hcount.imp And.left And.left⟩
  unloads event after hstep hdraining hunloaded := by
    obtain ⟨i, pc', -, heffect, -⟩ := stepEvent_effect h.placed h.weight_le hstep
    have hzero : world.activeCalls = 0 := heffect.unloads hdraining hunloaded
    have hcount := h.live_add_begun
    omega
  denies i allowWhenDegraded begun hdraining hstart events after hevents hdrains hrun result hresult := by
    have haway : (begun.threads i).TurnedAway := by
      cases hpc : world.threads i with
      | idle last =>
        simp only [CapabilityThreads.stepEvent, hpc] at hstart
        obtain ⟨⟨shared, pc'⟩, hcall, rfl⟩ := Option.map_eq_some_iff.mp hstart
        cases hcall
        show (Function.update world.threads i (.loadStatus allowWhenDegraded) i).TurnedAway
        rw [Function.update_self]
        trivial
      | _ => simp [CapabilityThreads.stepEvent, hpc] at hstart
    have hend := turnedAway_exec events haway hevents hdrains hrun
    rw [hresult] at hend
    cases result with
    | ok => exact absurd hend id
    | error error => exact ⟨error, rfl⟩

end CapabilityThreads

/-- Every state that any number of threads can reach drains safely. -/
theorem draining_is_safe (ι : Type) [DecidableEq ι] [Fintype ι] (events : List (ThreadEvent ι)) :
    Always CapabilityThreads.stepEvent CapabilityThreads.DrainsSafely events
      (CapabilityThreads.new : CapabilityThreads ι) := by
  have hcounted : Always CapabilityThreads.stepEvent CapabilityThreads.Counted events
      (CapabilityThreads.new : CapabilityThreads ι) :=
    always_of_invariant (fun _ _ _ h hstep => h.stepEvent hstep) events _ CapabilityThreads.counted_new
  exact hcounted.mono fun _ h => h.drainsSafely

end Beetle.Orchestrator.RuntimeCapability
