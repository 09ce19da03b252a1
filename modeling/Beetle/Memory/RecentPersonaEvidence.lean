import Mathlib.Data.String.Basic
import Beetle.Memory.TurnLedger

/-! What the recent turns of a chat show of the persona. -/
namespace Beetle.Memory
open Beetle.Lib

def recentPersonaEvidenceMeaningfulTurns : Nat := 12
def recentPersonaEvidenceHistoryLookback : Nat := 32
def personaEvidenceTextMaxChars : Nat := 120

structure RecentPersonaEvidence where
  sampledTurns : Nat
  meaningfulTurns : Nat
  repeatedPriorityOrder : List String
  repeatedResponseMode : String
  repeatedTaskScope : String
  repeatedInitiativePosture : String
  repeatedRelationshipPosture : String
  repeatedReplyScope : String
  repeatedDisclosureAction : String
  pressurePattern : String
  toolUsagePattern : String
  volatilityFlags : List String
  updatedAt : Nat

def RecentPersonaEvidence.default : RecentPersonaEvidence :=
  ⟨0, 0, [], "", "", "", "", "", "", "", "", [], 0⟩

def RecentPersonaEvidence.hasExecutionContinuitySignals (evidence : RecentPersonaEvidence) : Bool :=
  !evidence.repeatedPriorityOrder.isEmpty ||
    [evidence.repeatedResponseMode, evidence.repeatedTaskScope, evidence.repeatedInitiativePosture,
      evidence.repeatedRelationshipPosture, evidence.repeatedReplyScope, evidence.repeatedDisclosureAction,
      evidence.pressurePattern, evidence.toolUsagePattern].any fun signal => trimStr signal ≠ ""

def RecentPersonaEvidence.isMeaningful (evidence : RecentPersonaEvidence) : Bool :=
  0 < evidence.sampledTurns || 0 < evidence.meaningfulTurns || evidence.hasExecutionContinuitySignals ||
    !evidence.volatilityFlags.isEmpty

def MentalPrivacyShareAction.label : MentalPrivacyShareAction → String
  | allowOriginal => "allow_original"
  | allowRaw => "allow_raw"
  | allowSummary => "allow_summary"
  | allowRedactedExcerpt => "allow_redacted_excerpt"
  | explainWithoutQuote => "explain_without_quote"
  | refuse => "refuse"
  | defer => "defer"

/-- The value that occurs most often, the smallest one of these, if it occurs twice. -/
def mostCommon {α : Type} [DecidableEq α] [LT α] [DecidableLT α] (values : List α) : Option α :=
  let better (best : Option α) (value : α) : Option α :=
    match best with
    | none => some value
    | some b =>
      if values.count b < values.count value ∨ values.count b = values.count value ∧ value < b then some value
      else some b
  (values.dedup.foldl better none).filter fun value => 2 ≤ values.count value

def mostCommonText (values : List String) : String :=
  (mostCommon ((values.map fun value =>
    trimStr (truncateContentToMax (trimStr value) personaEvidenceTextMaxChars)).filter (· ≠ ""))).getD ""

def mostCommonVec (values : List (List String)) : List String :=
  (mostCommon ((values.map fun value =>
    (value.map fun item => trimStr (truncateContentToMax (trimStr item) 48)).filter (· ≠ "")).filter
      (· ≠ []))).getD []

def distinctCount (values : List String) : Nat := ((values.map trimStr).filter (· ≠ "")).dedup.length

section
variable {D : Type} {ledgers : List (TurnLedger D)} {evidence : RecentPersonaEvidence}

def TurnLedger.priority (ledger : TurnLedger D) : Option TurnPersonaPriorityLedger :=
  ledger.persona.bind (·.priority)

def TurnLedger.disclosure (ledger : TurnLedger D) : Option MentalPrivacyShareAction :=
  ledger.persona.bind (·.disclosure)

/-- The turns that the evidence is drawn from. -/
def TurnLedger.isRelevant (ledger : TurnLedger D) : Bool :=
  ledger.ingress = .user && ledger.status.isTerminal && ledger.persona.any (·.isMeaningful)

def ledgerSupportsPromotablePersonaGrowth (ledger : TurnLedger D) : Bool :=
  ledger.ingress = .user && ledger.status = .answered && ledger.finalReplyDelivered &&
    trimStr ledger.canonicalReplySource ≠ "" && ledger.persona.any (·.pressure ≠ .critical)

def summarizePressurePattern (ledgers : List (TurnLedger D)) : String :=
  let levels := ledgers.filterMap fun ledger => ledger.persona.map (·.pressure)
  let part (name : String) (level : TurnPersonaPressureLevel) : List String :=
    if 0 < levels.count level then [name ++ "=" ++ toString (levels.count level)] else []
  " ".intercalate (part "normal" .normal ++ part "cautious" .cautious ++ part "critical" .critical)

def summarizeToolUsagePattern (ledgers : List (TurnLedger D)) : String :=
  let toolTurns := ledgers.countP fun ledger => ledger.persona.any (0 < ·.toolCalls)
  let total := ledgers.length
  if toolTurns = 0 then "tools_absent"
  else if total ≤ toolTurns * 2 then "tools_common (" ++ toString toolTurns ++ "/" ++ toString total ++ ")"
  else "tools_present (" ++ toString toolTurns ++ "/" ++ toString total ++ ")"

def collectVolatilityFlags (ledgers : List (TurnLedger D)) : List String :=
  let flag (name : String) (values : List String) : List String :=
    if 1 < distinctCount values then [name] else []
  let priorities := ledgers.filterMap (·.priority)
  flag "priority_order_mixed" (priorities.map fun priority => ">".intercalate priority.priorityOrder) ++
    flag "task_scope_mixed" (priorities.map (·.taskScope)) ++
    flag "relationship_posture_mixed" (priorities.map (·.relationshipPosture)) ++
    flag "boundary_action_mixed" (ledgers.filterMap fun ledger => ledger.disclosure.map (·.label)) ++
    flag "reply_scope_mixed" (ledgers.filterMap fun ledger => ledger.persona.map (·.replyScope)) ++
    flag "pressure_mixed" (ledgers.filterMap fun ledger => ledger.persona.map fun persona =>
      match persona.pressure with
      | .normal => "normal"
      | .cautious => "cautious"
      | .critical => "critical")

/-- The evidence that the sampled turns give, newest first. -/
def evidenceOf (relevant : List (TurnLedger D)) : RecentPersonaEvidence :=
  let promotableGrowth := relevant.filter ledgerSupportsPromotablePersonaGrowth
  let priorities := relevant.filterMap (·.priority)
  let promotablePriorities := promotableGrowth.filterMap (·.priority)
  { sampledTurns := relevant.length
    meaningfulTurns := relevant.length
    repeatedPriorityOrder := mostCommonVec ((promotablePriorities.map (·.priorityOrder)).filter (· ≠ []))
    repeatedResponseMode := mostCommonText (priorities.map (·.responseMode))
    repeatedTaskScope := mostCommonText (priorities.map (·.taskScope))
    repeatedInitiativePosture := mostCommonText (priorities.map (·.initiativePosture))
    repeatedRelationshipPosture := mostCommonText (promotablePriorities.map (·.relationshipPosture))
    repeatedReplyScope := mostCommonText (relevant.map fun ledger => (ledger.persona.map (·.replyScope)).getD "")
    repeatedDisclosureAction := mostCommonText (promotableGrowth.filterMap fun ledger => ledger.disclosure.map (·.label))
    pressurePattern := summarizePressurePattern relevant
    toolUsagePattern := summarizeToolUsagePattern relevant
    volatilityFlags := collectVolatilityFlags relevant
    updatedAt := (relevant.map turnLedgerObservedAtMs).foldl max 0 / 1000 }

/-- The relevant turns of a list, newest first. -/
def relevantTurns (ledgers : List (TurnLedger D)) : List (TurnLedger D) :=
  (ledgers.filter (·.isRelevant)).mergeSort fun a b => turnLedgerObservedAtMs b ≤ turnLedgerObservedAtMs a

def deriveRecentPersonaEvidence (ledgers : List (TurnLedger D)) (maxMeaningfulTurns : Nat) :
    Option RecentPersonaEvidence :=
  if maxMeaningfulTurns = 0 then none
  else
    let relevant := relevantTurns ledgers
    if relevant = [] then none
    else some (evidenceOf (relevant.take maxMeaningfulTurns)) |>.filter (·.isMeaningful)

theorem isMeaningful_evidenceOf {relevant : List (TurnLedger D)} (h : relevant ≠ []) :
    (evidenceOf relevant).isMeaningful = true := by
  have hpos := List.length_pos_iff.mpr h
  simp [RecentPersonaEvidence.isMeaningful, evidenceOf, hpos]

theorem length_relevantTurns (ledgers : List (TurnLedger D)) :
    (relevantTurns ledgers).length = ledgers.countP (·.isRelevant) := by
  rw [relevantTurns, List.length_mergeSort, List.countP_eq_length_filter]

theorem derive_eq (ledgers : List (TurnLedger D)) :
    deriveRecentPersonaEvidence ledgers recentPersonaEvidenceMeaningfulTurns =
      if relevantTurns ledgers = [] then none
      else some (evidenceOf ((relevantTurns ledgers).take recentPersonaEvidenceMeaningfulTurns)) := by
  have hturns : recentPersonaEvidenceMeaningfulTurns ≠ 0 := by decide
  simp only [deriveRecentPersonaEvidence, hturns, if_false]
  split
  · rfl
  · rename_i hsome
    have htake : (relevantTurns ledgers).take recentPersonaEvidenceMeaningfulTurns ≠ [] := by
      rw [Ne, List.take_eq_nil_iff, not_or]
      exact ⟨hturns, hsome⟩
    rw [Option.filter_some, if_pos (isMeaningful_evidenceOf htake)]

theorem isMeaningful_derive {n : Nat}
    (h : deriveRecentPersonaEvidence ledgers n = some evidence) : evidence.isMeaningful = true := by
  simp only [deriveRecentPersonaEvidence] at h
  split at h
  · cases h
  · split at h
    · cases h
    · exact (Option.filter_eq_some_iff.mp h).2

theorem derive_eq_none_iff (ledgers : List (TurnLedger D)) :
    deriveRecentPersonaEvidence ledgers recentPersonaEvidenceMeaningfulTurns = none ↔
      ledgers.countP (·.isRelevant) = 0 := by
  rw [derive_eq, ← length_relevantTurns, List.length_eq_zero_iff]
  split <;> simp [*]

/-- The evidence says from how many turns it is drawn. -/
theorem sampledTurns_derive
    (h : deriveRecentPersonaEvidence ledgers recentPersonaEvidenceMeaningfulTurns = some evidence) :
    evidence.sampledTurns = min recentPersonaEvidenceMeaningfulTurns (ledgers.countP (·.isRelevant)) := by
  rw [derive_eq] at h
  split at h
  · cases h
  · cases h
    rw [← length_relevantTurns]
    exact List.length_take

theorem derive_eq_of_filter {a b : List (TurnLedger D)} (h : a.filter (·.isRelevant) = b.filter (·.isRelevant))
    (n : Nat) : deriveRecentPersonaEvidence a n = deriveRecentPersonaEvidence b n := by
  have hturns : relevantTurns a = relevantTurns b := by simp only [relevantTurns, h]
  unfold deriveRecentPersonaEvidence
  rw [hturns]

/-- A list gives the evidence of one of its turns alone just when no other is relevant. -/
theorem derive_singleton_iff {ledger : TurnLedger D} (hmem : ledger ∈ ledgers) :
    deriveRecentPersonaEvidence [ledger] recentPersonaEvidenceMeaningfulTurns =
        deriveRecentPersonaEvidence ledgers recentPersonaEvidenceMeaningfulTurns ↔
      ledgers.countP (·.isRelevant) = [ledger].countP (·.isRelevant) := by
  cases hrelevant : ledger.isRelevant with
  | false =>
    have hone : [ledger].countP (·.isRelevant) = 0 := by simp [hrelevant]
    rw [(derive_eq_none_iff [ledger]).mpr hone, hone, eq_comm, derive_eq_none_iff]
  | true =>
    have hone : [ledger].countP (·.isRelevant) = 1 := by simp [hrelevant]
    rw [hone]
    constructor
    · intro h
      obtain ⟨evidence, hevidence⟩ := Option.ne_none_iff_exists'.mp
        (mt (derive_eq_none_iff [ledger]).mp (by omega))
      have hsampled := sampledTurns_derive hevidence
      rw [sampledTurns_derive (h.symm.trans hevidence), hone] at hsampled
      simp only [recentPersonaEvidenceMeaningfulTurns] at hsampled
      omega
    · intro h
      obtain ⟨front, back, rfl⟩ := List.append_of_mem hmem
      refine derive_eq_of_filter ?_ _
      have hnone : front.countP (·.isRelevant) = 0 ∧ back.countP (·.isRelevant) = 0 := by
        simp only [List.countP_append, List.countP_cons, hrelevant, if_true] at h
        omega
      have hfront : front.filter (·.isRelevant) = [] := List.filter_eq_nil_iff.mpr (List.countP_eq_zero.mp hnone.1)
      have hback : back.filter (·.isRelevant) = [] := List.filter_eq_nil_iff.mpr (List.countP_eq_zero.mp hnone.2)
      simp [hfront, hback, hrelevant]

end
end Beetle.Memory
