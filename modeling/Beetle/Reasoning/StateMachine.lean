import Beetle.Platform.TaskLedger
import Beetle.Util

/-! The checker of structured state machines: what is read of a value and how it is
normalized. -/
namespace Beetle.Reasoning
open Beetle.Lib Beetle.Platform.Storage

def stateMachineMaxSummaryChars : Nat := 220
def stateMachineMaxMachines : Nat := 8
def stateMachineMaxStates : Nat := 24
def stateMachineMaxTransitions : Nat := 32
def stateMachineMaxFindings : Nat := 12
def stateMachineMaxNameChars : Nat := 64
def stateMachineMaxTextChars : Nat := 160
def stateMachineMaxGuardChars : Nat := 120
def stateMachineMaxRefs : Nat := 8
def stateMachineMaxRefChars : Nat := 120

inductive StateNodeRole where
  | initial | intermediate | terminal | error
  deriving DecidableEq

inductive StateMachineFindingKind where
  | missingTransition | contradictoryTransition | deadState | unsafeLoop
  deriving DecidableEq

structure StateMachineState where
  name : String
  role : StateNodeRole
  summary : String
  evidenceRefs : List String
  requiresAdjudication : Bool

structure StateMachineTransition where
  source : String
  target : String
  trigger : String
  guard : Option String
  summary : String
  evidenceRefs : List String
  requiresAdjudication : Bool

structure StateMachineFinding where
  kind : StateMachineFindingKind
  summary : String
  stateRefs : List String
  transitionRefs : List String
  evidenceRefs : List String
  requiresAdjudication : Bool

structure StateMachineModel where
  name : String
  summary : String
  states : List StateMachineState
  transitions : List StateMachineTransition
  findings : List StateMachineFinding
  evidenceRefs : List String
  requiresAdjudication : Bool

structure StateMachineResult where
  summary : String
  machines : List StateMachineModel

/-! How serde writes and reads them. -/

def StateNodeRole.label : StateNodeRole → String
  | .initial => "initial"
  | .intermediate => "intermediate"
  | .terminal => "terminal"
  | .error => "error"

def StateMachineFindingKind.label : StateMachineFindingKind → String
  | .missingTransition => "missing_transition"
  | .contradictoryTransition => "contradictory_transition"
  | .deadState => "dead_state"
  | .unsafeLoop => "unsafe_loop"

def asText (json : Json) : Option String := (Json.asString json).map String.ofList

def asTexts : Json → Option (List String) := Json.asArr asText

def asRole : Json → Option StateNodeRole :=
  asVariant StateNodeRole.label [.initial, .intermediate, .terminal, .error]

def asFindingKind : Json → Option StateMachineFindingKind :=
  asVariant StateMachineFindingKind.label [.missingTransition, .contradictoryTransition, .deadState, .unsafeLoop]

/-- A struct may also be given as the array of its first fields. -/
@[grind =]
def asStruct {α : Type} (fields : List String) (read : List (JsonString × Json) → Option α) : Json → Option α
  | .obj members => read members
  | .arr items =>
    if items.length ≤ fields.length then read ((fields.map fun name => Json.string name.toList).zip items) else none
  | _ => none

def jsonTexts (texts : List String) : Json := .arr (texts.map jsonText)

def member (key : String) (value : Json) : JsonString × Json := (Json.string key.toList, value)

namespace StateMachineState

def members (state : StateMachineState) : List (JsonString × Json) :=
  [member "name" (jsonText state.name), member "role" (jsonText state.role.label),
    member "summary" (jsonText state.summary), member "evidence_refs" (jsonTexts state.evidenceRefs),
    member "requires_adjudication" (.bool state.requiresAdjudication)]

@[grind =] def toJson (state : StateMachineState) : Json := .obj state.members

@[grind =] def ofJson : Json → Option StateMachineState :=
  asStruct ["name", "role", "summary", "evidence_refs", "requires_adjudication"] fun members => do
    let name ← Json.requiredField asText members "name"
    let role ← Json.requiredField asRole members "role"
    let summary ← Json.requiredField asText members "summary"
    let evidenceRefs ← Json.defaultField asTexts [] members "evidence_refs"
    let requiresAdjudication ← Json.defaultField Json.asBool false members "requires_adjudication"
    return { name, role, summary, evidenceRefs, requiresAdjudication }

end StateMachineState

namespace StateMachineTransition

/-- A guard that is not there is not written. -/
def members (transition : StateMachineTransition) : List (JsonString × Json) :=
  [member "from" (jsonText transition.source), member "to" (jsonText transition.target),
    member "trigger" (jsonText transition.trigger)] ++
  (transition.guard.map fun guard => member "guard" (jsonText guard)).toList ++
  [member "summary" (jsonText transition.summary), member "evidence_refs" (jsonTexts transition.evidenceRefs),
    member "requires_adjudication" (.bool transition.requiresAdjudication)]

@[grind =] def toJson (transition : StateMachineTransition) : Json := .obj transition.members

@[grind =] def ofJson : Json → Option StateMachineTransition :=
  asStruct ["from", "to", "trigger", "guard", "summary", "evidence_refs", "requires_adjudication"] fun members => do
    let source ← Json.requiredField asText members "from"
    let target ← Json.requiredField asText members "to"
    let trigger ← Json.requiredField asText members "trigger"
    let guard ← Json.optionalField asText members "guard"
    let summary ← Json.requiredField asText members "summary"
    let evidenceRefs ← Json.defaultField asTexts [] members "evidence_refs"
    let requiresAdjudication ← Json.defaultField Json.asBool false members "requires_adjudication"
    return { source, target, trigger, guard, summary, evidenceRefs, requiresAdjudication }

end StateMachineTransition

namespace StateMachineFinding

def members (finding : StateMachineFinding) : List (JsonString × Json) :=
  [member "kind" (jsonText finding.kind.label), member "summary" (jsonText finding.summary),
    member "state_refs" (jsonTexts finding.stateRefs), member "transition_refs" (jsonTexts finding.transitionRefs),
    member "evidence_refs" (jsonTexts finding.evidenceRefs),
    member "requires_adjudication" (.bool finding.requiresAdjudication)]

@[grind =] def toJson (finding : StateMachineFinding) : Json := .obj finding.members

@[grind =] def ofJson : Json → Option StateMachineFinding :=
  asStruct ["kind", "summary", "state_refs", "transition_refs", "evidence_refs", "requires_adjudication"] fun members => do
    let kind ← Json.requiredField asFindingKind members "kind"
    let summary ← Json.requiredField asText members "summary"
    let stateRefs ← Json.defaultField asTexts [] members "state_refs"
    let transitionRefs ← Json.defaultField asTexts [] members "transition_refs"
    let evidenceRefs ← Json.defaultField asTexts [] members "evidence_refs"
    let requiresAdjudication ← Json.defaultField Json.asBool false members "requires_adjudication"
    return { kind, summary, stateRefs, transitionRefs, evidenceRefs, requiresAdjudication }

end StateMachineFinding

namespace StateMachineModel

def members (model : StateMachineModel) : List (JsonString × Json) :=
  [member "name" (jsonText model.name), member "summary" (jsonText model.summary),
    member "states" (.arr (model.states.map (·.toJson))),
    member "transitions" (.arr (model.transitions.map (·.toJson))),
    member "findings" (.arr (model.findings.map (·.toJson))), member "evidence_refs" (jsonTexts model.evidenceRefs),
    member "requires_adjudication" (.bool model.requiresAdjudication)]

@[grind =] def toJson (model : StateMachineModel) : Json := .obj model.members

@[grind =] def ofJson : Json → Option StateMachineModel :=
  asStruct ["name", "summary", "states", "transitions", "findings", "evidence_refs", "requires_adjudication"]
    fun members => do
      let name ← Json.requiredField asText members "name"
      let summary ← Json.requiredField asText members "summary"
      let states ← Json.defaultField (Json.asArr StateMachineState.ofJson) [] members "states"
      let transitions ← Json.defaultField (Json.asArr StateMachineTransition.ofJson) [] members "transitions"
      let findings ← Json.defaultField (Json.asArr StateMachineFinding.ofJson) [] members "findings"
      let evidenceRefs ← Json.defaultField asTexts [] members "evidence_refs"
      let requiresAdjudication ← Json.defaultField Json.asBool false members "requires_adjudication"
      return { name, summary, states, transitions, findings, evidenceRefs, requiresAdjudication }

end StateMachineModel

namespace StateMachineResult

def members (result : StateMachineResult) : List (JsonString × Json) :=
  [member "summary" (jsonText result.summary), member "machines" (.arr (result.machines.map (·.toJson)))]

@[grind =] def toJson (result : StateMachineResult) : Json := .obj result.members

@[grind =] def ofJson : Json → Option StateMachineResult :=
  asStruct ["summary", "machines"] fun members => do
    let summary ← Json.requiredField asText members "summary"
    let machines ← Json.defaultField (Json.asArr StateMachineModel.ofJson) [] members "machines"
    return { summary, machines }

end StateMachineResult

/-! The validator. -/

/-- `truncate_content_to_max(text.trim(), max)`. -/
def trimmedToMax (text : String) (max : Nat) : String := truncateContentToMax (trimStr text) max

def normalizeOptionalRefs (refs : List String) (stage : String) : Except Error (List String) :=
  if stateMachineMaxRefs < refs.length then .error (.config s!"refs exceeds {stateMachineMaxRefs}" stage)
  else .ok ((refs.map fun reference => trimmedToMax reference stateMachineMaxRefChars).filter (· ≠ ""))

def normalizeRefs (refs : List String) (stage missingMessage : String) : Except Error (List String) := do
  let refs ← normalizeOptionalRefs refs stage
  if refs = [] then .error (.config missingMessage stage)
  else .ok refs

def normalizeStateMachineState (state : StateMachineState) : Except Error StateMachineState :=
  if state.requiresAdjudication = false then
    .error (.config "state machine state must require adjudication" "state_machine_state_validate")
  else
    let name := trimmedToMax state.name stateMachineMaxNameChars
    let summary := trimmedToMax state.summary stateMachineMaxTextChars
    if name = "" ∨ summary = "" then
      .error (.config "state machine state requires name and summary" "state_machine_state_validate")
    else do
      let evidenceRefs ← normalizeRefs state.evidenceRefs "state_machine_state_validate"
        "state machine state requires evidence_refs"
      .ok { name, role := state.role, summary, evidenceRefs, requiresAdjudication := true }

def normalizeStateMachineTransition (stateNames : List String) (transition : StateMachineTransition) :
    Except Error StateMachineTransition :=
  if transition.requiresAdjudication = false then
    .error (.config "state machine transition must require adjudication" "state_machine_transition_validate")
  else
    let source := trimmedToMax transition.source stateMachineMaxNameChars
    let target := trimmedToMax transition.target stateMachineMaxNameChars
    let trigger := trimmedToMax transition.trigger stateMachineMaxNameChars
    let summary := trimmedToMax transition.summary stateMachineMaxTextChars
    if source = "" ∨ target = "" ∨ trigger = "" ∨ summary = "" then
      .error (.config "state machine transition requires from, to, trigger, and summary"
        "state_machine_transition_validate")
    else if source ∉ stateNames ∨ target ∉ stateNames then
      .error (.config "state machine transition references unknown state" "state_machine_transition_validate")
    else do
      let guard := ((transition.guard.map trimStr).filter (· ≠ "")).map fun value =>
        truncateContentToMax value stateMachineMaxGuardChars
      let evidenceRefs ← normalizeRefs transition.evidenceRefs "state_machine_transition_validate"
        "state machine transition requires evidence_refs"
      .ok { source, target, trigger, guard, summary, evidenceRefs, requiresAdjudication := true }

def normalizeStateMachineFinding (stateNames knownTransitionRefs : List String) (finding : StateMachineFinding) :
    Except Error StateMachineFinding :=
  if finding.requiresAdjudication = false then
    .error (.config "state machine finding must require adjudication" "state_machine_finding_validate")
  else
    let summary := trimmedToMax finding.summary stateMachineMaxTextChars
    if summary = "" then
      .error (.config "state machine finding requires summary" "state_machine_finding_validate")
    else do
      let stateRefs ← normalizeRefs finding.stateRefs "state_machine_finding_validate"
        "state machine finding requires state_refs"
      if ∃ state ∈ stateRefs, state ∉ stateNames then
        .error (.config "state machine finding references unknown state" "state_machine_finding_validate")
      else
        let transitionRefs ← normalizeOptionalRefs finding.transitionRefs "state_machine_finding_validate"
        let evidenceRefs ← normalizeRefs finding.evidenceRefs "state_machine_finding_validate"
          "state machine finding requires evidence_refs"
        if ∃ reference ∈ transitionRefs, reference ∉ knownTransitionRefs then
          .error (.config "state machine finding references unknown transition" "state_machine_finding_validate")
        else
          .ok { kind := finding.kind, summary, stateRefs, transitionRefs, evidenceRefs, requiresAdjudication := true }

def transitionRef (source target trigger : String) : String := source ++ "->" ++ target ++ ":" ++ trigger

def normalizeStateMachineModel (model : StateMachineModel) : Except Error StateMachineModel :=
  let stage := "state_machine_model_validate"
  if model.requiresAdjudication = false then
    .error (.config "state machine model must require adjudication" stage)
  else
    let name := trimmedToMax model.name stateMachineMaxNameChars
    let summary := trimmedToMax model.summary stateMachineMaxTextChars
    if name = "" ∨ summary = "" then .error (.config "state machine model requires name and summary" stage)
    else if model.states = [] then .error (.config "state machine model requires at least one state" stage)
    else if model.transitions = [] then .error (.config "state machine model requires at least one transition" stage)
    else if stateMachineMaxStates < model.states.length then
      .error (.config s!"states exceeds {stateMachineMaxStates}" stage)
    else if stateMachineMaxTransitions < model.transitions.length then
      .error (.config s!"transitions exceeds {stateMachineMaxTransitions}" stage)
    else if stateMachineMaxFindings < model.findings.length then
      .error (.config s!"findings exceeds {stateMachineMaxFindings}" stage)
    else do
      let states ← model.states.mapM normalizeStateMachineState
      let stateNames := states.map (·.name)
      let transitions ← model.transitions.mapM (normalizeStateMachineTransition stateNames)
      let transitionRefs := transitions.map fun transition =>
        transitionRef transition.source transition.target transition.trigger
      let findings ← model.findings.mapM (normalizeStateMachineFinding stateNames transitionRefs)
      let evidenceRefs ← normalizeRefs model.evidenceRefs stage "state machine model requires evidence_refs"
      .ok { name, summary, states, transitions, findings, evidenceRefs, requiresAdjudication := true }

def normalizeStateMachineResult (result : StateMachineResult) : Except Error StateMachineResult :=
  let stage := "state_machine_result_validate"
  let summary := trimmedToMax result.summary stateMachineMaxSummaryChars
  if summary = "" then .error (.config "missing summary" stage)
  else if stateMachineMaxMachines < result.machines.length then
    .error (.config s!"machines exceeds {stateMachineMaxMachines}" stage)
  else do
    let machines ← result.machines.mapM normalizeStateMachineModel
    .ok { summary, machines }

/-- `message` is what serde says of a value that it cannot read. -/
def validateStateMachineResult (message : Json → String) (value : Json) : Except Error StateMachineResult :=
  match StateMachineResult.ofJson value with
  | none => .error (.config (message value) "state_machine_result_decode")
  | some result => normalizeStateMachineResult result

end Beetle.Reasoning
