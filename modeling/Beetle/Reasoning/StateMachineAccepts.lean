import Beetle.Normalized
import Beetle.Reasoning.StateMachine

/-! Which state machines the validator accepts, and what it makes of them. -/
namespace Beetle.Reasoning
open Beetle.Lib Beetle.Platform.Storage

/-! What is written is read back. -/

theorem asArr_map {α : Type} {write : α → Json} {read : Json → Option α} (h : ∀ a, read (write a) = some a)
    (as : List α) : Json.asArr read (.arr (as.map write)) = some as := by
  rw [Json.asArr]
  induction as with
  | nil => rfl
  | cons a as ih =>
    rw [List.map_cons, List.mapM_cons, h, ih]
    rfl

theorem asText_jsonText (text : String) : asText (jsonText text) = some text := by
  simp [asText, jsonText, Json.asString, Json.string]

theorem asTexts_jsonTexts (texts : List String) : asTexts (jsonTexts texts) = some texts :=
  asArr_map asText_jsonText texts

theorem asRole_label (role : StateNodeRole) : asRole (jsonText role.label) = some role := by
  cases role <;> decide

theorem asFindingKind_label (kind : StateMachineFindingKind) : asFindingKind (jsonText kind.label) = some kind := by
  cases kind <;> decide

theorem StateMachineState.ofJson_toJson (state : StateMachineState) : ofJson state.toJson = some state := by
  have hname : Json.requiredField asText state.members "name" = some state.name := asText_jsonText state.name
  have hrole : Json.requiredField asRole state.members "role" = some state.role := asRole_label state.role
  have hsummary : Json.requiredField asText state.members "summary" = some state.summary := asText_jsonText state.summary
  have hevidence : Json.defaultField asTexts [] state.members "evidence_refs" = some state.evidenceRefs :=
    asTexts_jsonTexts state.evidenceRefs
  have hrequires : Json.defaultField Json.asBool false state.members "requires_adjudication" =
    some state.requiresAdjudication := rfl
  simp only [ofJson, toJson, asStruct, hname, hrole, hsummary, hevidence, hrequires]
  rfl

theorem StateMachineTransition.ofJson_toJson (transition : StateMachineTransition) :
    ofJson transition.toJson = some transition := by
  have hsource : Json.requiredField asText transition.members "from" = some transition.source := by
    rw [members]
    cases transition.guard <;> exact asText_jsonText transition.source
  have htarget : Json.requiredField asText transition.members "to" = some transition.target := by
    rw [members]
    cases transition.guard <;> exact asText_jsonText transition.target
  have htrigger : Json.requiredField asText transition.members "trigger" = some transition.trigger := by
    rw [members]
    cases transition.guard <;> exact asText_jsonText transition.trigger
  have hguard : Json.optionalField asText transition.members "guard" = some transition.guard := by
    rw [members]
    cases transition.guard with
    | none => rfl
    | some guard => exact congrArg (Option.map some) (asText_jsonText guard)
  have hsummary : Json.requiredField asText transition.members "summary" = some transition.summary := by
    rw [members]
    cases transition.guard <;> exact asText_jsonText transition.summary
  have hevidence : Json.defaultField asTexts [] transition.members "evidence_refs" = some transition.evidenceRefs := by
    rw [members]
    cases transition.guard <;> exact asTexts_jsonTexts transition.evidenceRefs
  have hrequires : Json.defaultField Json.asBool false transition.members "requires_adjudication" =
      some transition.requiresAdjudication := by
    rw [members]
    cases transition.guard <;> rfl
  simp only [ofJson, toJson, asStruct, hsource, htarget, htrigger, hguard, hsummary, hevidence, hrequires]
  rfl

theorem StateMachineFinding.ofJson_toJson (finding : StateMachineFinding) : ofJson finding.toJson = some finding := by
  have hkind : Json.requiredField asFindingKind finding.members "kind" = some finding.kind :=
    asFindingKind_label finding.kind
  have hsummary : Json.requiredField asText finding.members "summary" = some finding.summary :=
    asText_jsonText finding.summary
  have hstates : Json.defaultField asTexts [] finding.members "state_refs" = some finding.stateRefs :=
    asTexts_jsonTexts finding.stateRefs
  have htransitions : Json.defaultField asTexts [] finding.members "transition_refs" = some finding.transitionRefs :=
    asTexts_jsonTexts finding.transitionRefs
  have hevidence : Json.defaultField asTexts [] finding.members "evidence_refs" = some finding.evidenceRefs :=
    asTexts_jsonTexts finding.evidenceRefs
  have hrequires : Json.defaultField Json.asBool false finding.members "requires_adjudication" =
    some finding.requiresAdjudication := rfl
  simp only [ofJson, toJson, asStruct, hkind, hsummary, hstates, htransitions, hevidence, hrequires]
  rfl

theorem StateMachineModel.ofJson_toJson (model : StateMachineModel) : ofJson model.toJson = some model := by
  have hname : Json.requiredField asText model.members "name" = some model.name := asText_jsonText model.name
  have hsummary : Json.requiredField asText model.members "summary" = some model.summary := asText_jsonText model.summary
  have hstates : Json.defaultField (Json.asArr StateMachineState.ofJson) [] model.members "states" =
    some model.states := asArr_map StateMachineState.ofJson_toJson model.states
  have htransitions : Json.defaultField (Json.asArr StateMachineTransition.ofJson) [] model.members "transitions" =
    some model.transitions := asArr_map StateMachineTransition.ofJson_toJson model.transitions
  have hfindings : Json.defaultField (Json.asArr StateMachineFinding.ofJson) [] model.members "findings" =
    some model.findings := asArr_map StateMachineFinding.ofJson_toJson model.findings
  have hevidence : Json.defaultField asTexts [] model.members "evidence_refs" = some model.evidenceRefs :=
    asTexts_jsonTexts model.evidenceRefs
  have hrequires : Json.defaultField Json.asBool false model.members "requires_adjudication" =
    some model.requiresAdjudication := rfl
  simp only [ofJson, toJson, asStruct, hname, hsummary, hstates, htransitions, hfindings, hevidence, hrequires]
  rfl

theorem StateMachineResult.ofJson_toJson (result : StateMachineResult) : ofJson result.toJson = some result := by
  have hsummary : Json.requiredField asText result.members "summary" = some result.summary :=
    asText_jsonText result.summary
  have hmachines : Json.defaultField (Json.asArr StateMachineModel.ofJson) [] result.members "machines" =
    some result.machines := asArr_map StateMachineModel.ofJson_toJson result.machines
  simp only [ofJson, toJson, asStruct, hsummary, hmachines]
  rfl

/-! Texts that are trimmed and cut. -/

/-- The character at which the trimmed text is cut is not a space that is left at the end. -/
def CutsCleanly (max : Nat) (text : String) : Prop :=
  ∀ c ∈ (trimStr text).toList[max - 1]?, isWhitespace c = false

section
variable {text : String} {max : Nat}

theorem trimmed_head (text : String) : ∀ c ∈ (trimStr text).toList.head?, isWhitespace c = false := by
  intro c hc
  rw [trimStr, String.toList_ofList, trim_eq_trimEnds] at hc
  exact trimEnds_head isWhitespace text.toList c hc

theorem trimmed_last (text : String) : ∀ c ∈ (trimStr text).toList.getLast?, isWhitespace c = false := by
  intro c hc
  rw [trimStr, String.toList_ofList, trim_eq_trimEnds] at hc
  exact trimEnds_last isWhitespace text.toList c hc

theorem trimmed_iff : Trimmed text ↔ (∀ c ∈ text.toList.head?, isWhitespace c = false) ∧
    ∀ c ∈ text.toList.getLast?, isWhitespace c = false := by
  constructor
  · intro h
    rw [← show trimStr text = text from h]
    exact ⟨trimmed_head text, trimmed_last text⟩
  · rintro ⟨hhead, hlast⟩
    rw [Trimmed, trimStr, trim_eq_trimEnds, trimEnds_eq_self hhead hlast, String.ofList_toList]

theorem toList_trimmedToMax (text : String) (max : Nat) :
    (trimmedToMax text max).toList = (trimStr text).toList.take max := by
  rw [trimmedToMax, truncateContentToMax, String.toList_ofList]

theorem trimmedToMax_eq_empty (hmax : 0 < max) : trimmedToMax text max = "" ↔ trimStr text = "" := by
  rw [← String.toList_eq_nil_iff, ← String.toList_eq_nil_iff, toList_trimmedToMax, List.take_eq_nil_iff]
  simp [hmax.ne']

/-- A text no longer than the limit is only trimmed. -/
theorem trimmedToMax_of_le (h : text.toList.length ≤ max) : trimmedToMax text max = trimStr text := by
  rw [trimmedToMax, truncateContentToMax_eq_self ((length_trimStr_le text).trans h)]

section
variable (hmax : 0 < max)
include hmax

theorem trimmed_trimmedToMax_iff : Trimmed (trimmedToMax text max) ↔ CutsCleanly max text := by
  have hhead := trimmed_head text
  have hlast := trimmed_last text
  rw [trimmed_iff, toList_trimmedToMax, CutsCleanly]
  generalize (trimStr text).toList = cs at hhead hlast
  have htake : (cs.take max).head? = cs.head? := by
    rw [List.head?_take, if_neg hmax.ne']
  rw [htake]
  rcases Nat.lt_or_ge cs.length max with hshort | hlong
  · rw [List.take_of_length_le hshort.le, List.getElem?_eq_none (by omega)]
    exact iff_of_true ⟨hhead, hlast⟩ (by simp)
  · have hend : (cs.take max).getLast? = cs[max - 1]? := by
      rw [List.getLast?_eq_getElem?, List.length_take_of_le hlong, List.getElem?_take_of_lt (by omega)]
    rw [hend]
    exact ⟨fun h => h.2, fun h => ⟨hhead, h⟩⟩

/-- The second time a text is cut at its end, and there is nothing to trim. -/
theorem trimmedToMax_again :
    trimmedToMax (trimmedToMax text max) max = trimmedToMax text max ↔ CutsCleanly max text := by
  rw [← trimmed_trimmedToMax_iff hmax, Trimmed]
  have hlength : (trimmedToMax text max).toList.length ≤ max := by
    rw [toList_trimmedToMax]
    exact List.length_take_le _ _
  rw [trimmedToMax_of_le hlength]

theorem trimmedToMax_again_of_le (h : text.toList.length ≤ max) :
    trimmedToMax (trimmedToMax text max) max = trimmedToMax text max := by
  rw [trimmedToMax_again hmax, ← trimmed_trimmedToMax_iff hmax, trimmedToMax_of_le h]
  exact trimmed_trimStr text

theorem trimStr_trimmedToMax_ne (h : trimStr text ≠ "") : trimStr (trimmedToMax text max) ≠ "" := by
  have hhead := trimmed_head text
  have hlist := toList_trimmedToMax text max
  rw [ne_eq, ← String.toList_eq_nil_iff] at h ⊢
  obtain ⟨c, cs, htext⟩ := List.exists_cons_of_ne_nil h
  obtain ⟨n, rfl⟩ := Nat.exists_eq_succ_of_ne_zero hmax.ne'
  rw [htext] at hhead hlist
  obtain ⟨rest, hrest, -⟩ := exists_trim_cons (hhead c rfl) (cs.take n)
  rw [trimStr, String.toList_ofList, hlist, Nat.succ_eq_add_one, List.take_succ_cons, hrest]
  exact List.cons_ne_nil c rest

theorem cutsCleanly_of_le (h : text.toList.length ≤ max) : CutsCleanly max text :=
  (trimmedToMax_again hmax).mp (trimmedToMax_again_of_le hmax h)

end

theorem cutsCleanly_of_blank (h : trimStr text = "") : CutsCleanly max text := by
  simp [CutsCleanly, h]

end

/-! What the validator asks for, and what it makes of what it accepts. -/

theorem mapM_eq_ok {ε α β : Type} {f : α → Except ε β} {p : α → Prop} {g : α → β}
    (h : ∀ a b, f a = .ok b ↔ p a ∧ b = g a) {as : List α} {bs : List β} :
    as.mapM f = .ok bs ↔ (∀ a ∈ as, p a) ∧ bs = as.map g := by
  induction as generalizing bs with
  | nil =>
    rw [List.mapM_nil]
    exact ⟨fun hok => ⟨by simp, (Except.ok.inj hok).symm⟩, fun hok => congrArg Except.ok hok.2.symm⟩
  | cons a as ih =>
    rw [List.mapM_cons, except_bind_eq_ok, List.map_cons, List.forall_mem_cons]
    constructor
    · rintro ⟨b, hb, hbind⟩
      obtain ⟨rest, hrest, hok⟩ := except_bind_eq_ok.mp hbind
      obtain ⟨hp, rfl⟩ := (h a b).mp hb
      obtain ⟨hall, rfl⟩ := ih.mp hrest
      exact ⟨⟨hp, hall⟩, (Except.ok.inj hok).symm⟩
    · rintro ⟨⟨hp, hall⟩, rfl⟩
      exact ⟨g a, (h a _).mpr ⟨hp, rfl⟩, except_bind_eq_ok.mpr ⟨as.map g, ih.mpr ⟨hall, rfl⟩, rfl⟩⟩

def normalRefs (refs : List String) : List String :=
  (refs.map fun reference => trimmedToMax reference stateMachineMaxRefChars).filter (· ≠ "")

/-- No more than there may be, and at least one that is not blank. -/
structure RefsPresent (refs : List String) : Prop where
  within : refs.length ≤ stateMachineMaxRefs
  present : ∃ reference ∈ refs, trimStr reference ≠ ""

theorem mem_normalRefs {refs : List String} {reference : String} :
    reference ∈ normalRefs refs ↔
      ∃ raw ∈ refs, trimStr raw ≠ "" ∧ trimmedToMax raw stateMachineMaxRefChars = reference := by
  have hblank (raw : String) : trimmedToMax raw stateMachineMaxRefChars = "" ↔ _ := trimmedToMax_eq_empty (by decide)
  simp only [normalRefs, List.mem_filter, List.mem_map, ne_eq, decide_eq_true_eq]
  constructor
  · rintro ⟨⟨raw, hraw, rfl⟩, hne⟩
    exact ⟨raw, hraw, mt (hblank raw).mpr hne, rfl⟩
  · rintro ⟨raw, hraw, hne, rfl⟩
    exact ⟨⟨raw, hraw, rfl⟩, mt (hblank raw).mp hne⟩

theorem normalRefs_ne_nil_iff {refs : List String} : normalRefs refs ≠ [] ↔ ∃ reference ∈ refs, trimStr reference ≠ "" := by
  constructor
  · intro hne
    obtain ⟨reference, hmem⟩ := List.exists_mem_of_ne_nil _ hne
    obtain ⟨raw, hraw, hpresent, -⟩ := mem_normalRefs.mp hmem
    exact ⟨raw, hraw, hpresent⟩
  · rintro ⟨raw, hraw, hpresent⟩
    exact List.ne_nil_of_mem (mem_normalRefs.mpr ⟨raw, hraw, hpresent, rfl⟩)

theorem normalizeOptionalRefs_eq_ok {refs refs' : List String} {stage : String} :
    normalizeOptionalRefs refs stage = .ok refs' ↔ refs.length ≤ stateMachineMaxRefs ∧ refs' = normalRefs refs := by
  rw [normalizeOptionalRefs]
  split
  · rename_i hmany
    exact iff_of_false (by simp) fun h => absurd h.1 (Nat.not_le.mpr hmany)
  · rename_i hfew
    exact ⟨fun h => ⟨Nat.not_lt.mp hfew, (Except.ok.inj h).symm⟩, fun h => congrArg Except.ok h.2.symm⟩

theorem normalizeRefs_eq_ok {refs refs' : List String} {stage message : String} :
    normalizeRefs refs stage message = .ok refs' ↔ RefsPresent refs ∧ refs' = normalRefs refs := by
  rw [normalizeRefs, except_bind_eq_ok]
  constructor
  · rintro ⟨out, hout, h⟩
    obtain ⟨hwithin, rfl⟩ := normalizeOptionalRefs_eq_ok.mp hout
    split at h
    · cases h
    · rename_i hpresent
      exact ⟨⟨hwithin, normalRefs_ne_nil_iff.mp hpresent⟩, (Except.ok.inj h).symm⟩
  · rintro ⟨hrefs, rfl⟩
    exact ⟨_, normalizeOptionalRefs_eq_ok.mpr ⟨hrefs.within, rfl⟩, if_neg (normalRefs_ne_nil_iff.mpr hrefs.present)⟩

structure AcceptableState (state : StateMachineState) : Prop where
  adjudicated : state.requiresAdjudication = true
  name : trimStr state.name ≠ ""
  summary : trimStr state.summary ≠ ""
  evidence : RefsPresent state.evidenceRefs

@[grind =] def StateMachineState.normalForm (state : StateMachineState) : StateMachineState where
  name := trimmedToMax state.name stateMachineMaxNameChars
  role := state.role
  summary := trimmedToMax state.summary stateMachineMaxTextChars
  evidenceRefs := normalRefs state.evidenceRefs
  requiresAdjudication := true

theorem normalizeState_eq_ok (state state' : StateMachineState) :
    normalizeStateMachineState state = .ok state' ↔ AcceptableState state ∧ state' = state.normalForm := by
  have hname : trimmedToMax state.name stateMachineMaxNameChars = "" ↔ _ := trimmedToMax_eq_empty (by decide)
  have hsummary : trimmedToMax state.summary stateMachineMaxTextChars = "" ↔ _ := trimmedToMax_eq_empty (by decide)
  simp only [normalizeStateMachineState, hname, hsummary]
  split
  · rename_i hfree
    exact iff_of_false (by simp) fun h => by simp [h.1.adjudicated] at hfree
  · rename_i hadjudicated
    split
    · rename_i hblank
      exact iff_of_false (by simp) fun h => hblank.elim h.1.name h.1.summary
    · rename_i htexts
      obtain ⟨hname, hsummary⟩ := not_or.mp htexts
      rw [except_bind_eq_ok]
      constructor
      · rintro ⟨refs, hrefs, h⟩
        obtain ⟨hevidence, rfl⟩ := normalizeRefs_eq_ok.mp hrefs
        exact ⟨⟨by simpa using hadjudicated, hname, hsummary, hevidence⟩, (Except.ok.inj h).symm⟩
      · rintro ⟨h, rfl⟩
        exact ⟨_, normalizeRefs_eq_ok.mpr ⟨h.evidence, rfl⟩, rfl⟩

structure AcceptableTransition (stateNames : List String) (transition : StateMachineTransition) : Prop where
  adjudicated : transition.requiresAdjudication = true
  source : trimStr transition.source ≠ ""
  target : trimStr transition.target ≠ ""
  trigger : trimStr transition.trigger ≠ ""
  summary : trimStr transition.summary ≠ ""
  source_mem : trimmedToMax transition.source stateMachineMaxNameChars ∈ stateNames
  target_mem : trimmedToMax transition.target stateMachineMaxNameChars ∈ stateNames
  evidence : RefsPresent transition.evidenceRefs

def normalGuard (guard : Option String) : Option String :=
  ((guard.map trimStr).filter (· ≠ "")).map fun value => truncateContentToMax value stateMachineMaxGuardChars

@[grind =] def StateMachineTransition.normalForm (transition : StateMachineTransition) : StateMachineTransition where
  source := trimmedToMax transition.source stateMachineMaxNameChars
  target := trimmedToMax transition.target stateMachineMaxNameChars
  trigger := trimmedToMax transition.trigger stateMachineMaxNameChars
  guard := normalGuard transition.guard
  summary := trimmedToMax transition.summary stateMachineMaxTextChars
  evidenceRefs := normalRefs transition.evidenceRefs
  requiresAdjudication := true

theorem normalizeTransition_eq_ok (stateNames : List String) (transition transition' : StateMachineTransition) :
    normalizeStateMachineTransition stateNames transition = .ok transition' ↔
      AcceptableTransition stateNames transition ∧ transition' = transition.normalForm := by
  have hblank (text : String) : trimmedToMax text stateMachineMaxNameChars = "" ↔ _ := trimmedToMax_eq_empty (by decide)
  have hsummary : trimmedToMax transition.summary stateMachineMaxTextChars = "" ↔ _ :=
    trimmedToMax_eq_empty (by decide)
  simp only [normalizeStateMachineTransition, hblank, hsummary]
  split
  · rename_i hfree
    exact iff_of_false (by simp) fun h => by simp [h.1.adjudicated] at hfree
  · rename_i hadjudicated
    split
    · rename_i hmissing
      refine iff_of_false (by simp) fun h => ?_
      rcases hmissing with hsource | htarget | htrigger | htext
      · exact h.1.source hsource
      · exact h.1.target htarget
      · exact h.1.trigger htrigger
      · exact h.1.summary htext
    · rename_i htexts
      simp only [not_or] at htexts
      obtain ⟨hsource, htarget, htrigger, htext⟩ := htexts
      split
      · rename_i hunknown
        exact iff_of_false (by simp) fun h => hunknown.elim (fun hnot => hnot h.1.source_mem) fun hnot => hnot h.1.target_mem
      · rename_i hknown
        obtain ⟨hsourceMem, htargetMem⟩ := not_or.mp hknown
        rw [except_bind_eq_ok]
        constructor
        · rintro ⟨refs, hrefs, h⟩
          obtain ⟨hevidence, rfl⟩ := normalizeRefs_eq_ok.mp hrefs
          exact ⟨⟨by simpa using hadjudicated, hsource, htarget, htrigger, htext, not_not.mp hsourceMem,
            not_not.mp htargetMem, hevidence⟩, (Except.ok.inj h).symm⟩
        · rintro ⟨h, rfl⟩
          exact ⟨_, normalizeRefs_eq_ok.mpr ⟨h.evidence, rfl⟩, rfl⟩

structure AcceptableFinding (stateNames knownTransitionRefs : List String) (finding : StateMachineFinding) : Prop where
  adjudicated : finding.requiresAdjudication = true
  summary : trimStr finding.summary ≠ ""
  states : RefsPresent finding.stateRefs
  states_mem : ∀ state ∈ normalRefs finding.stateRefs, state ∈ stateNames
  transitions : finding.transitionRefs.length ≤ stateMachineMaxRefs
  transitions_mem : ∀ reference ∈ normalRefs finding.transitionRefs, reference ∈ knownTransitionRefs
  evidence : RefsPresent finding.evidenceRefs

@[grind =] def StateMachineFinding.normalForm (finding : StateMachineFinding) : StateMachineFinding where
  kind := finding.kind
  summary := trimmedToMax finding.summary stateMachineMaxTextChars
  stateRefs := normalRefs finding.stateRefs
  transitionRefs := normalRefs finding.transitionRefs
  evidenceRefs := normalRefs finding.evidenceRefs
  requiresAdjudication := true

theorem normalizeFinding_eq_ok (stateNames knownTransitionRefs : List String) (finding finding' : StateMachineFinding) :
    normalizeStateMachineFinding stateNames knownTransitionRefs finding = .ok finding' ↔
      AcceptableFinding stateNames knownTransitionRefs finding ∧ finding' = finding.normalForm := by
  have hsummary : trimmedToMax finding.summary stateMachineMaxTextChars = "" ↔ _ := trimmedToMax_eq_empty (by decide)
  simp only [normalizeStateMachineFinding, hsummary]
  split
  · rename_i hfree
    exact iff_of_false (by simp) fun h => by simp [h.1.adjudicated] at hfree
  · rename_i hadjudicated
    split
    · rename_i hblank
      exact iff_of_false (by simp) fun h => h.1.summary hblank
    · rename_i htext
      rw [except_bind_eq_ok]
      constructor
      · rintro ⟨states, hstateRefs, h⟩
        obtain ⟨hstates, rfl⟩ := normalizeRefs_eq_ok.mp hstateRefs
        split at h
        · cases h
        · rename_i hknown
          obtain ⟨transitions, htransitions, h⟩ := except_bind_eq_ok.mp h
          obtain ⟨hwithin, rfl⟩ := normalizeOptionalRefs_eq_ok.mp htransitions
          obtain ⟨evidence, hevidenceRefs, h⟩ := except_bind_eq_ok.mp h
          obtain ⟨hevidence, rfl⟩ := normalizeRefs_eq_ok.mp hevidenceRefs
          split at h
          · cases h
          · rename_i hreferences
            simp only [not_exists, not_and, not_not] at hknown hreferences
            exact ⟨⟨by simpa using hadjudicated, htext, hstates, hknown, hwithin, hreferences, hevidence⟩,
              (Except.ok.inj h).symm⟩
      · rintro ⟨h, rfl⟩
        have hknown : ¬ ∃ state ∈ normalRefs finding.stateRefs, state ∉ stateNames := by
          rintro ⟨state, hstate, hnot⟩
          exact hnot (h.states_mem state hstate)
        have hreferences : ¬ ∃ reference ∈ normalRefs finding.transitionRefs, reference ∉ knownTransitionRefs := by
          rintro ⟨reference, hreference, hnot⟩
          exact hnot (h.transitions_mem reference hreference)
        refine ⟨_, normalizeRefs_eq_ok.mpr ⟨h.states, rfl⟩, ?_⟩
        rw [if_neg hknown, except_bind_eq_ok]
        refine ⟨_, normalizeOptionalRefs_eq_ok.mpr ⟨h.transitions, rfl⟩, ?_⟩
        rw [except_bind_eq_ok]
        exact ⟨_, normalizeRefs_eq_ok.mpr ⟨h.evidence, rfl⟩, if_neg hreferences⟩

namespace StateMachineModel

def stateNames (model : StateMachineModel) : List String := model.states.map (·.normalForm.name)

/-- What the references of the findings are compared with. -/
def knownTransitionRefs (model : StateMachineModel) : List String :=
  model.transitions.map fun transition =>
    transitionRef transition.normalForm.source transition.normalForm.target transition.normalForm.trigger

@[grind =] def normalForm (model : StateMachineModel) : StateMachineModel where
  name := trimmedToMax model.name stateMachineMaxNameChars
  summary := trimmedToMax model.summary stateMachineMaxTextChars
  states := model.states.map (·.normalForm)
  transitions := model.transitions.map (·.normalForm)
  findings := model.findings.map (·.normalForm)
  evidenceRefs := normalRefs model.evidenceRefs
  requiresAdjudication := true

end StateMachineModel

structure AcceptableModel (model : StateMachineModel) : Prop where
  adjudicated : model.requiresAdjudication = true
  name : trimStr model.name ≠ ""
  summary : trimStr model.summary ≠ ""
  states_ne : model.states ≠ []
  transitions_ne : model.transitions ≠ []
  states_le : model.states.length ≤ stateMachineMaxStates
  transitions_le : model.transitions.length ≤ stateMachineMaxTransitions
  findings_le : model.findings.length ≤ stateMachineMaxFindings
  states : ∀ state ∈ model.states, AcceptableState state
  transitions : ∀ transition ∈ model.transitions, AcceptableTransition model.stateNames transition
  findings : ∀ finding ∈ model.findings, AcceptableFinding model.stateNames model.knownTransitionRefs finding
  evidence : RefsPresent model.evidenceRefs

theorem normalizeModel_eq_ok (model model' : StateMachineModel) :
    normalizeStateMachineModel model = .ok model' ↔ AcceptableModel model ∧ model' = model.normalForm := by
  have hname : trimmedToMax model.name stateMachineMaxNameChars = "" ↔ _ := trimmedToMax_eq_empty (by decide)
  have hsummary : trimmedToMax model.summary stateMachineMaxTextChars = "" ↔ _ := trimmedToMax_eq_empty (by decide)
  have hnames : (model.states.map (·.normalForm)).map (·.name) = model.stateNames := List.map_map
  have hrefs : (model.transitions.map (·.normalForm)).map (fun transition =>
      transitionRef transition.source transition.target transition.trigger) = model.knownTransitionRefs := List.map_map
  simp only [normalizeStateMachineModel, hname, hsummary]
  constructor
  · intro h
    -- each test has to fail before the lists are looked at
    split at h
    · cases h
    rename_i hadjudicated
    split at h
    · cases h
    rename_i htexts
    split at h
    · cases h
    rename_i hstatesNe
    split at h
    · cases h
    rename_i htransitionsNe
    split at h
    · cases h
    rename_i hstatesLe
    split at h
    · cases h
    rename_i htransitionsLe
    split at h
    · cases h
    rename_i hfindingsLe
    obtain ⟨hname, hsummary⟩ := not_or.mp htexts
    obtain ⟨states, hmapped, h⟩ := except_bind_eq_ok.mp h
    obtain ⟨hstates, rfl⟩ := (mapM_eq_ok normalizeState_eq_ok).mp hmapped
    rw [hnames] at h
    obtain ⟨transitions, hmapped, h⟩ := except_bind_eq_ok.mp h
    obtain ⟨htransitions, rfl⟩ := (mapM_eq_ok (normalizeTransition_eq_ok _)).mp hmapped
    rw [hrefs] at h
    obtain ⟨findings, hmapped, h⟩ := except_bind_eq_ok.mp h
    obtain ⟨hfindings, rfl⟩ := (mapM_eq_ok (normalizeFinding_eq_ok _ _)).mp hmapped
    obtain ⟨evidence, hevidenceRefs, h⟩ := except_bind_eq_ok.mp h
    obtain ⟨hevidence, rfl⟩ := normalizeRefs_eq_ok.mp hevidenceRefs
    exact ⟨⟨by simpa using hadjudicated, hname, hsummary, hstatesNe, htransitionsNe, Nat.not_lt.mp hstatesLe,
      Nat.not_lt.mp htransitionsLe, Nat.not_lt.mp hfindingsLe, hstates, htransitions, hfindings, hevidence⟩,
      (Except.ok.inj h).symm⟩
  · rintro ⟨h, rfl⟩
    rw [if_neg (by simp [h.adjudicated]), if_neg (not_or.mpr ⟨h.name, h.summary⟩), if_neg h.states_ne,
      if_neg h.transitions_ne, if_neg (Nat.not_lt.mpr h.states_le), if_neg (Nat.not_lt.mpr h.transitions_le),
      if_neg (Nat.not_lt.mpr h.findings_le), except_bind_eq_ok]
    refine ⟨_, (mapM_eq_ok normalizeState_eq_ok).mpr ⟨h.states, rfl⟩, ?_⟩
    rw [hnames, except_bind_eq_ok]
    refine ⟨_, (mapM_eq_ok (normalizeTransition_eq_ok _)).mpr ⟨h.transitions, rfl⟩, ?_⟩
    rw [hrefs, except_bind_eq_ok]
    refine ⟨_, (mapM_eq_ok (normalizeFinding_eq_ok _ _)).mpr ⟨h.findings, rfl⟩, ?_⟩
    rw [except_bind_eq_ok]
    exact ⟨_, normalizeRefs_eq_ok.mpr ⟨h.evidence, rfl⟩, rfl⟩

@[grind =] def StateMachineResult.normalForm (result : StateMachineResult) : StateMachineResult where
  summary := trimmedToMax result.summary stateMachineMaxSummaryChars
  machines := result.machines.map (·.normalForm)

structure AcceptableResult (result : StateMachineResult) : Prop where
  summary : trimStr result.summary ≠ ""
  machines_le : result.machines.length ≤ stateMachineMaxMachines
  machines : ∀ model ∈ result.machines, AcceptableModel model

theorem normalizeResult_eq_ok (result result' : StateMachineResult) :
    normalizeStateMachineResult result = .ok result' ↔ AcceptableResult result ∧ result' = result.normalForm := by
  have hsummary : trimmedToMax result.summary stateMachineMaxSummaryChars = "" ↔ _ := trimmedToMax_eq_empty (by decide)
  simp only [normalizeStateMachineResult, hsummary]
  constructor
  · intro h
    split at h
    · cases h
    rename_i htext
    split at h
    · cases h
    rename_i hmachinesLe
    obtain ⟨machines, hmapped, h⟩ := except_bind_eq_ok.mp h
    obtain ⟨hmachines, rfl⟩ := (mapM_eq_ok normalizeModel_eq_ok).mp hmapped
    exact ⟨⟨htext, Nat.not_lt.mp hmachinesLe, hmachines⟩, (Except.ok.inj h).symm⟩
  · rintro ⟨h, rfl⟩
    rw [if_neg h.summary, if_neg (Nat.not_lt.mpr h.machines_le), except_bind_eq_ok]
    exact ⟨_, (mapM_eq_ok normalizeModel_eq_ok).mpr ⟨h.machines, rfl⟩, rfl⟩

end Beetle.Reasoning
