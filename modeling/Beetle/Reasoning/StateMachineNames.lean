import Beetle.Reasoning.StateMachineAccepts

/-! State machines whose names are short enough: which of them the validator accepts, and
which it leaves as they are when it sees them again. -/
namespace Beetle.Reasoning
open Beetle.Lib

/-! Seen a second time. -/

def RefsCutCleanly (refs : List String) : Prop := ∀ reference ∈ refs, CutsCleanly stateMachineMaxRefChars reference

theorem normalRefs_again {refs : List String} : normalRefs (normalRefs refs) = normalRefs refs ↔ RefsCutCleanly refs := by
  have hmax : 0 < stateMachineMaxRefChars := by decide
  have hpresent : ∀ reference ∈ normalRefs refs, trimmedToMax reference stateMachineMaxRefChars ≠ "" := by
    intro reference hreference
    obtain ⟨raw, -, hne, rfl⟩ := mem_normalRefs.mp hreference
    exact mt (trimmedToMax_eq_empty hmax).mp (trimStr_trimmedToMax_ne hmax hne)
  have hall : normalRefs (normalRefs refs) =
      (normalRefs refs).map fun reference => trimmedToMax reference stateMachineMaxRefChars := by
    rw [normalRefs, List.filter_eq_self]
    intro reference hreference
    obtain ⟨raw, hraw, rfl⟩ := List.mem_map.mp hreference
    simpa using hpresent raw hraw
  have hid : (normalRefs refs).map id = normalRefs refs := List.map_id _
  rw [hall]
  nth_rewrite 2 [← hid]
  rw [List.map_inj_left]
  constructor
  · intro h raw hraw
    by_cases hblank : trimStr raw = ""
    · exact cutsCleanly_of_blank hblank
    · exact (trimmedToMax_again hmax).mp (h _ (mem_normalRefs.mpr ⟨raw, hraw, hblank, rfl⟩))
  · intro h reference hreference
    obtain ⟨raw, hraw, -, rfl⟩ := mem_normalRefs.mp hreference
    exact (trimmedToMax_again hmax).mpr (h raw hraw)

theorem RefsPresent.again {refs : List String} (h : RefsPresent refs) : RefsPresent (normalRefs refs) := by
  have hmax : 0 < stateMachineMaxRefChars := by decide
  obtain ⟨raw, hraw, hpresent⟩ := h.present
  refine ⟨?_, _, mem_normalRefs.mpr ⟨raw, hraw, hpresent, rfl⟩, trimStr_trimmedToMax_ne hmax hpresent⟩
  apply (List.length_filter_le _ _).trans
  rw [List.length_map]
  exact h.within

theorem AcceptableState.again {state : StateMachineState} (h : AcceptableState state) :
    AcceptableState state.normalForm where
  adjudicated := rfl
  name := trimStr_trimmedToMax_ne (by decide) h.name
  summary := trimStr_trimmedToMax_ne (by decide) h.summary
  evidence := h.evidence.again

theorem AcceptableTransition.again {stateNames : List String} {transition : StateMachineTransition}
    (h : AcceptableTransition stateNames transition)
    (hsource : transition.source.toList.length ≤ stateMachineMaxNameChars)
    (htarget : transition.target.toList.length ≤ stateMachineMaxNameChars) :
    AcceptableTransition stateNames transition.normalForm where
  adjudicated := rfl
  source := trimStr_trimmedToMax_ne (by decide) h.source
  target := trimStr_trimmedToMax_ne (by decide) h.target
  trigger := trimStr_trimmedToMax_ne (by decide) h.trigger
  summary := trimStr_trimmedToMax_ne (by decide) h.summary
  source_mem := by
    rw [StateMachineTransition.normalForm, trimmedToMax_again_of_le (by decide) hsource]
    exact h.source_mem
  target_mem := by
    rw [StateMachineTransition.normalForm, trimmedToMax_again_of_le (by decide) htarget]
    exact h.target_mem
  evidence := h.evidence.again

theorem AcceptableFinding.again {stateNames knownTransitionRefs : List String} {finding : StateMachineFinding}
    (h : AcceptableFinding stateNames knownTransitionRefs finding) (hstates : RefsCutCleanly finding.stateRefs)
    (htransitions : RefsCutCleanly finding.transitionRefs) :
    AcceptableFinding stateNames knownTransitionRefs finding.normalForm where
  adjudicated := rfl
  summary := trimStr_trimmedToMax_ne (by decide) h.summary
  states := h.states.again
  states_mem := by
    rw [StateMachineFinding.normalForm, normalRefs_again.mpr hstates]
    exact h.states_mem
  transitions := by
    apply (List.length_filter_le _ _).trans
    rw [List.length_map]
    exact h.transitions
  transitions_mem := by
    rw [StateMachineFinding.normalForm, normalRefs_again.mpr htransitions]
    exact h.transitions_mem
  evidence := h.evidence.again

/-! Models that name what they refer to. -/

structure NameableTransition (model : StateMachineModel) (transition : StateMachineTransition) : Prop where
  adjudicated : transition.requiresAdjudication = true
  trigger : trimStr transition.trigger ≠ ""
  summary : trimStr transition.summary ≠ ""
  source_mem : transition.source ∈ model.states.map (·.name)
  target_mem : transition.target ∈ model.states.map (·.name)
  trigger_le : transition.trigger.toList.length ≤ stateMachineMaxNameChars
  evidence : RefsPresent transition.evidenceRefs

structure NameableFinding (model : StateMachineModel) (finding : StateMachineFinding) : Prop where
  adjudicated : finding.requiresAdjudication = true
  summary : trimStr finding.summary ≠ ""
  states : RefsPresent finding.stateRefs
  states_mem : ∀ state ∈ finding.stateRefs, state ∈ model.states.map (·.name)
  transitions : finding.transitionRefs.length ≤ stateMachineMaxRefs
  transitions_mem : ∀ reference ∈ finding.transitionRefs, ∃ transition ∈ model.transitions,
    reference = transitionRef transition.source transition.target transition.trigger
  evidence : RefsPresent finding.evidenceRefs

/-- Within the limits on counts and names, with every required text, with references to
what is there, and with adjudication throughout. The ends of a transition are names of
states, and so within their limit too. -/
structure NameableModel (model : StateMachineModel) : Prop where
  adjudicated : model.requiresAdjudication = true
  name : trimStr model.name ≠ ""
  summary : trimStr model.summary ≠ ""
  states_ne : model.states ≠ []
  transitions_ne : model.transitions ≠ []
  states_le : model.states.length ≤ stateMachineMaxStates
  transitions_le : model.transitions.length ≤ stateMachineMaxTransitions
  findings_le : model.findings.length ≤ stateMachineMaxFindings
  states : ∀ state ∈ model.states, AcceptableState state
  names_le : ∀ state ∈ model.states, state.name.toList.length ≤ stateMachineMaxNameChars
  transitions : ∀ transition ∈ model.transitions, NameableTransition model transition
  findings : ∀ finding ∈ model.findings, NameableFinding model finding
  evidence : RefsPresent model.evidenceRefs

structure NameableResult (result : StateMachineResult) : Prop where
  summary : trimStr result.summary ≠ ""
  machines_le : result.machines.length ≤ stateMachineMaxMachines
  machines : ∀ model ∈ result.machines, NameableModel model

/-- A reference, trimmed and cut as a whole, is still that of a transition whose names are
trimmed one by one. -/
def TransitionRefsKept (model : StateMachineModel) : Prop :=
  ∀ finding ∈ model.findings, ∀ reference ∈ finding.transitionRefs,
    trimmedToMax reference stateMachineMaxRefChars ∈ model.transitions.map fun transition =>
      transitionRef (trimStr transition.source) (trimStr transition.target) (trimStr transition.trigger)

/-- No text that has no place to be cut at is left with a space at its end. -/
structure ModelCutsCleanly (model : StateMachineModel) : Prop where
  name : CutsCleanly stateMachineMaxNameChars model.name
  summary : CutsCleanly stateMachineMaxTextChars model.summary
  evidence : RefsCutCleanly model.evidenceRefs
  states : ∀ state ∈ model.states,
    CutsCleanly stateMachineMaxTextChars state.summary ∧ RefsCutCleanly state.evidenceRefs
  transitions : ∀ transition ∈ model.transitions,
    (∀ guard ∈ transition.guard, CutsCleanly stateMachineMaxGuardChars guard) ∧
      CutsCleanly stateMachineMaxTextChars transition.summary ∧ RefsCutCleanly transition.evidenceRefs
  findings : ∀ finding ∈ model.findings,
    CutsCleanly stateMachineMaxTextChars finding.summary ∧ RefsCutCleanly finding.evidenceRefs

section
variable {model : StateMachineModel} {transition : StateMachineTransition} {finding : StateMachineFinding}
  {name : String}

theorem NameableModel.name_of_mem (h : NameableModel model) (hname : name ∈ model.states.map (·.name)) :
    trimStr name ≠ "" ∧ name.toList.length ≤ stateMachineMaxNameChars := by
  obtain ⟨state, hstate, rfl⟩ := List.mem_map.mp hname
  exact ⟨(h.states state hstate).name, h.names_le state hstate⟩

theorem mem_stateNames (hname : name ∈ model.states.map (·.name)) :
    trimmedToMax name stateMachineMaxNameChars ∈ model.stateNames := by
  obtain ⟨state, hstate, rfl⟩ := List.mem_map.mp hname
  exact List.mem_map.mpr ⟨state, hstate, rfl⟩

/-- The names are only trimmed. -/
theorem NameableModel.knownTransitionRefs (h : NameableModel model) :
    model.knownTransitionRefs = model.transitions.map fun transition =>
      transitionRef (trimStr transition.source) (trimStr transition.target) (trimStr transition.trigger) := by
  apply List.map_congr_left
  intro transition htransition
  have hnameable := h.transitions transition htransition
  simp only [StateMachineTransition.normalForm, trimmedToMax_of_le (h.name_of_mem hnameable.source_mem).2,
    trimmedToMax_of_le (h.name_of_mem hnameable.target_mem).2, trimmedToMax_of_le hnameable.trigger_le]

theorem NameableModel.acceptableTransition (h : NameableModel model) (htransition : transition ∈ model.transitions) :
    AcceptableTransition model.stateNames transition := by
  have hnameable := h.transitions transition htransition
  exact ⟨hnameable.adjudicated, (h.name_of_mem hnameable.source_mem).1, (h.name_of_mem hnameable.target_mem).1,
    hnameable.trigger, hnameable.summary, mem_stateNames hnameable.source_mem, mem_stateNames hnameable.target_mem,
    hnameable.evidence⟩

/-- A text with an arrow in it is not blank. -/
theorem trimStr_transitionRef_ne (source target trigger : String) : trimStr (transitionRef source target trigger) ≠ "" := by
  intro hblank
  obtain ⟨front, back, htext, hfront, hback⟩ := eq_append_trimEnds isWhitespace (transitionRef source target trigger).toList
  have hnone : trimEnds isWhitespace (transitionRef source target trigger).toList = [] := by
    rw [← trim_eq_trimEnds, ← String.toList_ofList (l := trim _)]
    exact String.toList_eq_nil_iff.mpr hblank
  have hmem : '-' ∈ (transitionRef source target trigger).toList := by
    simp [transitionRef, String.toList_append]
  rw [htext, hnone, List.append_nil, List.mem_append] at hmem
  rcases hmem with hmem | hmem
  · exact absurd (hfront '-' hmem) (by decide)
  · exact absurd (hback '-' hmem) (by decide)

theorem trimmed_transitionRef {source target trigger : String} (hsource : trimStr source ≠ "")
    (htrigger : trimStr trigger ≠ "") :
    Trimmed (transitionRef (trimStr source) (trimStr target) (trimStr trigger)) := by
  have hhead := trimmed_head source
  have hlast := trimmed_last trigger
  rw [ne_eq, ← String.toList_eq_nil_iff] at hsource htrigger
  rw [trimmed_iff]
  simp only [transitionRef, String.toList_append, List.append_assoc]
  rw [List.head?_append_of_ne_nil _ hsource]
  refine ⟨hhead, ?_⟩
  rw [← List.append_assoc, ← List.append_assoc, ← List.append_assoc, List.getLast?_append_of_ne_nil _ htrigger]
  exact hlast

section
variable (h : NameableModel model)
include h

theorem NameableModel.statesCutCleanly (hfinding : finding ∈ model.findings) : RefsCutCleanly finding.stateRefs := by
  intro reference hreference
  have hlength := (h.name_of_mem ((h.findings finding hfinding).states_mem reference hreference)).2
  exact cutsCleanly_of_le (by decide) (hlength.trans (by decide))

theorem NameableModel.transitionsCutCleanly (hkept : TransitionRefsKept model)
    (hfinding : finding ∈ model.findings) : RefsCutCleanly finding.transitionRefs := by
  intro reference hreference
  obtain ⟨transition, htransition, heq⟩ := List.mem_map.mp (hkept finding hfinding reference hreference)
  have hnameable := h.transitions transition htransition
  rw [← trimmed_trimmedToMax_iff (by decide), ← heq]
  exact trimmed_transitionRef (h.name_of_mem hnameable.source_mem).1 hnameable.trigger

theorem NameableModel.acceptableFinding (hkept : TransitionRefsKept model) (hfinding : finding ∈ model.findings) :
    AcceptableFinding model.stateNames model.knownTransitionRefs finding := by
  have hnameable := h.findings finding hfinding
  refine ⟨hnameable.adjudicated, hnameable.summary, hnameable.states, ?_, hnameable.transitions, ?_, hnameable.evidence⟩
  · intro state hstate
    obtain ⟨raw, hraw, -, rfl⟩ := mem_normalRefs.mp hstate
    have hmem := hnameable.states_mem raw hraw
    have hlength := (h.name_of_mem hmem).2
    have hname := mem_stateNames hmem
    rw [trimmedToMax_of_le hlength] at hname
    rwa [trimmedToMax_of_le (hlength.trans (by decide))]
  · intro reference hreference
    obtain ⟨raw, hraw, -, rfl⟩ := mem_normalRefs.mp hreference
    rw [h.knownTransitionRefs]
    exact hkept finding hfinding raw hraw

theorem NameableModel.acceptable_iff : AcceptableModel model ↔ TransitionRefsKept model := by
  constructor
  · intro hacceptable finding hfinding reference hreference
    obtain ⟨transition, -, heq⟩ := (h.findings finding hfinding).transitions_mem reference hreference
    have hne : trimStr reference ≠ "" := by
      rw [heq]
      exact trimStr_transitionRef_ne _ _ _
    rw [← h.knownTransitionRefs]
    exact (hacceptable.findings finding hfinding).transitions_mem _ (mem_normalRefs.mpr ⟨reference, hreference, hne, rfl⟩)
  · intro hkept
    exact ⟨h.adjudicated, h.name, h.summary, h.states_ne, h.transitions_ne, h.states_le, h.transitions_le,
      h.findings_le, h.states, fun _ => h.acceptableTransition, fun _ => h.acceptableFinding hkept, h.evidence⟩

end

theorem name_again (h : name.toList.length ≤ stateMachineMaxNameChars) :
    trimmedToMax (trimmedToMax name stateMachineMaxNameChars) stateMachineMaxNameChars =
      trimmedToMax name stateMachineMaxNameChars :=
  trimmedToMax_again_of_le (by decide) h

section
variable (h : NameableModel model)
include h

theorem NameableModel.stateNames_normalForm : model.normalForm.stateNames = model.stateNames := by
  simp only [StateMachineModel.stateNames, StateMachineModel.normalForm, List.map_map]
  apply List.map_congr_left
  intro state hstate
  exact trimmedToMax_again_of_le (by decide) (h.names_le state hstate)

theorem NameableModel.knownTransitionRefs_normalForm :
    model.normalForm.knownTransitionRefs = model.knownTransitionRefs := by
  simp only [StateMachineModel.knownTransitionRefs, StateMachineModel.normalForm, List.map_map]
  apply List.map_congr_left
  intro transition htransition
  have hnameable := h.transitions transition htransition
  simp only [Function.comp_apply, StateMachineTransition.normalForm,
    name_again (h.name_of_mem hnameable.source_mem).2,
    name_again (h.name_of_mem hnameable.target_mem).2,
    name_again hnameable.trigger_le]

/-- What was accepted is accepted again. -/
theorem NameableModel.acceptable_normalForm (hkept : TransitionRefsKept model) : AcceptableModel model.normalForm := by
  have hacceptable := h.acceptable_iff.mpr hkept
  refine ⟨rfl, trimStr_trimmedToMax_ne (by decide) h.name, trimStr_trimmedToMax_ne (by decide) h.summary,
    by simpa [StateMachineModel.normalForm] using h.states_ne,
    by simpa [StateMachineModel.normalForm] using h.transitions_ne,
    by simpa [StateMachineModel.normalForm] using h.states_le,
    by simpa [StateMachineModel.normalForm] using h.transitions_le,
    by simpa [StateMachineModel.normalForm] using h.findings_le, ?_, ?_, ?_, h.evidence.again⟩
  · intro state hstate
    obtain ⟨raw, hraw, rfl⟩ := List.mem_map.mp hstate
    exact (h.states raw hraw).again
  · intro transition htransition
    obtain ⟨raw, hraw, rfl⟩ := List.mem_map.mp htransition
    have hnameable := h.transitions raw hraw
    rw [h.stateNames_normalForm]
    exact (hacceptable.transitions raw hraw).again (h.name_of_mem hnameable.source_mem).2
      (h.name_of_mem hnameable.target_mem).2
  · intro finding hfinding
    obtain ⟨raw, hraw, rfl⟩ := List.mem_map.mp hfinding
    rw [h.stateNames_normalForm, h.knownTransitionRefs_normalForm]
    exact (hacceptable.findings raw hraw).again (h.statesCutCleanly hraw) (h.transitionsCutCleanly hkept hraw)

end

/-! What changes the second time. -/

theorem guard_again (guard : Option String) :
    normalGuard (normalGuard guard) = normalGuard guard ↔
      ∀ value ∈ guard, CutsCleanly stateMachineMaxGuardChars value := by
  have hmax : 0 < stateMachineMaxGuardChars := by decide
  have hcut (text : String) (hpresent : trimStr text ≠ "") :
      normalGuard (some text) = some (trimmedToMax text stateMachineMaxGuardChars) := by
    simp [normalGuard, hpresent, trimmedToMax]
  cases guard with
  | none => simp [normalGuard]
  | some text =>
    simp only [Option.mem_some_iff, forall_eq']
    by_cases hblank : trimStr text = ""
    · have hnone : normalGuard (some text) = none := by simp [normalGuard, hblank]
      rw [hnone]
      exact iff_of_true rfl (cutsCleanly_of_blank hblank)
    · rw [hcut text hblank, hcut _ (trimStr_trimmedToMax_ne hmax hblank), Option.some.injEq]
      exact trimmedToMax_again hmax

theorem text_again {text : String} :
    trimmedToMax (trimmedToMax text stateMachineMaxTextChars) stateMachineMaxTextChars =
      trimmedToMax text stateMachineMaxTextChars ↔ CutsCleanly stateMachineMaxTextChars text :=
  trimmedToMax_again (by decide)

theorem state_again {state : StateMachineState} (hname : state.name.toList.length ≤ stateMachineMaxNameChars) :
    state.normalForm.normalForm = state.normalForm ↔
      CutsCleanly stateMachineMaxTextChars state.summary ∧ RefsCutCleanly state.evidenceRefs := by
  simp only [StateMachineState.normalForm, StateMachineState.mk.injEq, normalRefs_again, text_again,
    name_again hname, true_and, and_true]

section
variable (h : NameableModel model)
include h

theorem transition_again (htransition : transition ∈ model.transitions) :
    transition.normalForm.normalForm = transition.normalForm ↔
      (∀ guard ∈ transition.guard, CutsCleanly stateMachineMaxGuardChars guard) ∧
        CutsCleanly stateMachineMaxTextChars transition.summary ∧ RefsCutCleanly transition.evidenceRefs := by
  have hnameable := h.transitions transition htransition
  simp only [StateMachineTransition.normalForm, StateMachineTransition.mk.injEq, normalRefs_again, text_again, guard_again,
    name_again (h.name_of_mem hnameable.source_mem).2,
    name_again (h.name_of_mem hnameable.target_mem).2,
    name_again hnameable.trigger_le, true_and, and_true]

theorem finding_again (hkept : TransitionRefsKept model) (hfinding : finding ∈ model.findings) :
    finding.normalForm.normalForm = finding.normalForm ↔
      CutsCleanly stateMachineMaxTextChars finding.summary ∧ RefsCutCleanly finding.evidenceRefs := by
  simp only [StateMachineFinding.normalForm, StateMachineFinding.mk.injEq,
    normalRefs_again.mpr (h.statesCutCleanly hfinding), normalRefs_again.mpr (h.transitionsCutCleanly hkept hfinding),
    normalRefs_again, text_again, true_and, and_true]

theorem model_again (hkept : TransitionRefsKept model) :
    model.normalForm.normalForm = model.normalForm ↔ ModelCutsCleanly model := by
  have hstates : (∀ state ∈ model.states, state.normalForm.normalForm = state.normalForm) ↔ _ :=
    forall₂_congr fun state hstate => state_again (h.names_le state hstate)
  have htransitions : (∀ transition ∈ model.transitions, transition.normalForm.normalForm = transition.normalForm) ↔ _ :=
    forall₂_congr fun transition htransition => transition_again h htransition
  have hfindings : (∀ finding ∈ model.findings, finding.normalForm.normalForm = finding.normalForm) ↔ _ :=
    forall₂_congr fun finding hfinding => finding_again h hkept hfinding
  simp only [StateMachineModel.normalForm, StateMachineModel.mk.injEq, List.map_map, List.map_inj_left,
    Function.comp_apply, normalRefs_again, text_again, hstates, htransitions, hfindings, and_true]
  rw [trimmedToMax_again (by decide)]
  constructor
  · rintro ⟨hname, hsummary, hstates, htransitions, hfindings, hevidence⟩
    exact ⟨hname, hsummary, hevidence, hstates, htransitions, hfindings⟩
  · intro hclean
    exact ⟨hclean.name, hclean.summary, hclean.states, hclean.transitions, hclean.findings, hclean.evidence⟩

end

end

section
variable {result : StateMachineResult}

section
variable (h : NameableResult result)
include h

theorem NameableResult.acceptable_iff :
    AcceptableResult result ↔ ∀ model ∈ result.machines, TransitionRefsKept model := by
  have hmachines : (∀ model ∈ result.machines, AcceptableModel model) ↔ _ :=
    forall₂_congr fun model hmodel => (h.machines model hmodel).acceptable_iff
  rw [← hmachines]
  exact ⟨fun hacceptable => hacceptable.machines, fun hall => ⟨h.summary, h.machines_le, hall⟩⟩

theorem NameableResult.acceptable_normalForm
    (hkept : ∀ model ∈ result.machines, TransitionRefsKept model) : AcceptableResult result.normalForm := by
  refine ⟨trimStr_trimmedToMax_ne (by decide) h.summary,
    by simpa [StateMachineResult.normalForm] using h.machines_le, ?_⟩
  intro model hmodel
  obtain ⟨raw, hraw, rfl⟩ := List.mem_map.mp hmodel
  exact (h.machines raw hraw).acceptable_normalForm (hkept raw hraw)

theorem result_again (hkept : ∀ model ∈ result.machines, TransitionRefsKept model) :
    result.normalForm.normalForm = result.normalForm ↔
      CutsCleanly stateMachineMaxSummaryChars result.summary ∧ ∀ model ∈ result.machines, ModelCutsCleanly model := by
  have hmachines : (∀ model ∈ result.machines, model.normalForm.normalForm = model.normalForm) ↔ _ :=
    forall₂_congr fun model hmodel => model_again (h.machines model hmodel) (hkept model hmodel)
  simp only [StateMachineResult.normalForm, StateMachineResult.mk.injEq, List.map_map, List.map_inj_left,
    Function.comp_apply, hmachines]
  rw [trimmedToMax_again (by decide)]

end

theorem validate_toJson (message : Json → String) (result result' : StateMachineResult) :
    validateStateMachineResult message result.toJson = .ok result' ↔
      AcceptableResult result ∧ result' = result.normalForm := by
  rw [validateStateMachineResult, StateMachineResult.ofJson_toJson]
  exact normalizeResult_eq_ok result result'

/-- The validator accepts what names what it refers to, and accepts it again as it is, just
when every reference to a transition survives being trimmed and cut as a whole and no cut
leaves a space at the end of a text. -/
theorem validated_again_iff (message : Json → String) (result : StateMachineResult) (h : NameableResult result) :
    (∃ value, validateStateMachineResult message result.toJson = .ok value ∧
        validateStateMachineResult message value.toJson = .ok value) ↔
      (∀ model ∈ result.machines, TransitionRefsKept model) ∧
        CutsCleanly stateMachineMaxSummaryChars result.summary ∧ ∀ model ∈ result.machines, ModelCutsCleanly model := by
  constructor
  · rintro ⟨value, hfirst, hsecond⟩
    obtain ⟨hacceptable, rfl⟩ := (validate_toJson message _ _).mp hfirst
    obtain ⟨-, hagain⟩ := (validate_toJson message _ _).mp hsecond
    have hkept := h.acceptable_iff.mp hacceptable
    exact ⟨hkept, (result_again h hkept).mp hagain.symm⟩
  · rintro ⟨hkept, hclean⟩
    refine ⟨result.normalForm, (validate_toJson message _ _).mpr ⟨h.acceptable_iff.mpr hkept, rfl⟩, ?_⟩
    exact (validate_toJson message _ _).mpr ⟨h.acceptable_normalForm hkept, ((result_again h hkept).mpr hclean).symm⟩

end

/-! A machine of two states. -/

/-- Two states, a transition from the one to the other, and a finding that refers to both. -/
def flow (source target trigger : String) : StateMachineResult where
  summary := "Checked one state machine."
  machines := [{
    name := "boot_flow"
    summary := "Boot state progression."
    states := [⟨source, .initial, "Reset.", ["figure 2"], true⟩, ⟨target, .terminal, "Ready.", ["figure 2"], true⟩]
    transitions := [⟨source, target, trigger, none, "Initialization completes.", ["section 3.1"], true⟩]
    findings := [⟨.unsafeLoop, "Review the retries.", [source], [transitionRef source target trigger], ["section 3.1"], true⟩]
    evidenceRefs := ["figure 2"]
    requiresAdjudication := true }]

theorem nameable_flow {source target trigger : String} (hsource : trimStr source ≠ "") (htarget : trimStr target ≠ "")
    (htrigger : trimStr trigger ≠ "") (hsourceLe : source.toList.length ≤ stateMachineMaxNameChars)
    (htargetLe : target.toList.length ≤ stateMachineMaxNameChars)
    (htriggerLe : trigger.toList.length ≤ stateMachineMaxNameChars) : NameableResult (flow source target trigger) := by
  have hrefs (reference : String) (h : trimStr reference ≠ "") : RefsPresent [reference] :=
    ⟨by simp [stateMachineMaxRefs], reference, by simp, h⟩
  have hfigure : RefsPresent ["figure 2"] := hrefs _ (by decide)
  have hsection : RefsPresent ["section 3.1"] := hrefs _ (by decide)
  have htext : ∀ text ∈ ["Checked one state machine.", "boot_flow", "Boot state progression.", "Reset.", "Ready.",
      "Initialization completes.", "Review the retries."], trimStr text ≠ "" := by decide
  refine ⟨htext _ (by simp [flow]), by simp [flow, stateMachineMaxMachines], ?_⟩
  intro model hmodel
  obtain rfl := List.mem_singleton.mp hmodel
  refine ⟨rfl, htext _ (by simp), htext _ (by simp), by simp, by simp, by simp [stateMachineMaxStates],
    by simp [stateMachineMaxTransitions], by simp [stateMachineMaxFindings], ?_, ?_, ?_, ?_, hfigure⟩
  · simp only [List.forall_mem_cons]
    exact ⟨⟨rfl, hsource, htext _ (by simp), hfigure⟩, ⟨rfl, htarget, htext _ (by simp), hfigure⟩, by simp⟩
  · simp only [List.forall_mem_cons]
    exact ⟨hsourceLe, htargetLe, by simp⟩
  · simp only [List.forall_mem_cons]
    exact ⟨⟨rfl, htrigger, htext _ (by simp), by simp, by simp, htriggerLe, hsection⟩, by simp⟩
  · simp only [List.forall_mem_cons]
    exact ⟨⟨rfl, htext _ (by simp), hrefs source hsource, by simp, by simp [stateMachineMaxRefs], by simp, hsection⟩,
      by simp⟩

theorem boot_flow_validated :
    NameableResult (flow "RESET" "READY" "init_complete") ∧
      ∃ value, validateStateMachineResult (fun _ => "") (flow "RESET" "READY" "init_complete").toJson = .ok value ∧
        validateStateMachineResult (fun _ => "") value.toJson = .ok value := by
  have hnameable : NameableResult (flow "RESET" "READY" "init_complete") :=
    nameable_flow (by decide) (by decide) (by decide) (by decide) (by decide) (by decide)
  have hclean (max : Nat) (hmax : 0 < max) (text : String) (h : text.toList.length ≤ max) : CutsCleanly max text :=
    cutsCleanly_of_le hmax h
  refine ⟨hnameable, (validated_again_iff (fun _ => "") _ hnameable).mpr ⟨?_, hclean _ (by decide) _ (by decide), ?_⟩⟩
  · intro model hmodel
    obtain rfl := List.mem_singleton.mp hmodel
    simp only [TransitionRefsKept, List.forall_mem_cons]
    exact ⟨⟨by decide, by simp⟩, by simp⟩
  · intro model hmodel
    obtain rfl := List.mem_singleton.mp hmodel
    have hrefs (reference : String) (h : reference.toList.length ≤ stateMachineMaxRefChars) : RefsCutCleanly [reference] := by
      intro other hother
      rw [List.mem_singleton.mp hother]
      exact cutsCleanly_of_le (by decide) h
    refine ⟨hclean _ (by decide) _ (by decide), hclean _ (by decide) _ (by decide), hrefs _ (by decide), ?_, ?_, ?_⟩
    · simp only [List.forall_mem_cons]
      exact ⟨⟨hclean _ (by decide) _ (by decide), hrefs _ (by decide)⟩,
        ⟨hclean _ (by decide) _ (by decide), hrefs _ (by decide)⟩, by simp⟩
    · simp only [List.forall_mem_cons]
      exact ⟨⟨by simp, hclean _ (by decide) _ (by decide), hrefs _ (by decide)⟩, by simp⟩
    · simp only [List.forall_mem_cons]
      exact ⟨⟨hclean _ (by decide) _ (by decide), hrefs _ (by decide)⟩, by simp⟩

/-- Two names of sixty characters: the reference to their transition is cut. -/
theorem long_names_refused :
    let result := flow (String.ofList (List.replicate 60 'a')) (String.ofList (List.replicate 60 'b')) "go"
    NameableResult result ∧
      ∀ message : Json → String, ¬ ∃ value, validateStateMachineResult message result.toJson = .ok value := by
  intro result
  have hnameable : NameableResult result :=
    nameable_flow (by decide) (by decide) (by decide) (by decide) (by decide) (by decide)
  refine ⟨hnameable, ?_⟩
  rintro message ⟨value, hvalue⟩
  have hacceptable := ((validate_toJson message result value).mp hvalue).1
  have hkept := hnameable.acceptable_iff.mp hacceptable _ (List.mem_singleton.mpr rfl)
  have hmem := hkept _ (List.mem_singleton.mpr rfl) _ (List.mem_singleton.mpr rfl)
  exact absurd hmem (by decide +kernel)

end Beetle.Reasoning
