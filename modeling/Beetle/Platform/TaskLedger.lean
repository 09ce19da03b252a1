import Beetle.Lib.JsonPrint
import Beetle.Lib.JsonRead
import Beetle.Platform.CachedJson

/-! The ledger of a task run: a file of JSON lines that is only appended to. -/
namespace Beetle.Platform.Storage
open Beetle.Lib

inductive TaskLedgerKind where
  | runCreated
  | planAccepted
  | planRevised
  | stepStarted
  | stepResultRecorded
  | stepReviewRecorded
  | runFinished
  deriving DecidableEq

inductive TaskRunStatus where
  | planning
  | running
  | completed
  | partialComplete
  | blocked
  | failed
  | aborted
  deriving DecidableEq

def TaskLedgerKind.name : TaskLedgerKind → String
  | runCreated => "run_created"
  | planAccepted => "plan_accepted"
  | planRevised => "plan_revised"
  | stepStarted => "step_started"
  | stepResultRecorded => "step_result_recorded"
  | stepReviewRecorded => "step_review_recorded"
  | runFinished => "run_finished"

def TaskRunStatus.name : TaskRunStatus → String
  | planning => "planning"
  | running => "running"
  | completed => "completed"
  | partialComplete => "partial_complete"
  | blocked => "blocked"
  | failed => "failed"
  | aborted => "aborted"

structure TaskExecutionLedgerEntry where
  sequence : UInt32
  runId : List Char
  stepId : List Char
  kind : TaskLedgerKind
  runStatus : TaskRunStatus
  message : List Char
  recordedAt : UInt64

/-! The JSON of an entry. -/

def kinds : List TaskLedgerKind :=
  [.runCreated, .planAccepted, .planRevised, .stepStarted, .stepResultRecorded, .stepReviewRecorded, .runFinished]

def statuses : List TaskRunStatus :=
  [.planning, .running, .completed, .partialComplete, .blocked, .failed, .aborted]

/-- A variant without data, by its name. -/
def asVariant {α : Type} (name : α → String) (variants : List α) : Json → Option α
  | .str s => variants.find? fun variant => (name variant).toList = s.value
  | .obj [(key, .null)] => variants.find? fun variant => (name variant).toList = key.value
  | _ => none

def asU32 (json : Json) : Option UInt32 :=
  (Json.asU64 json).bind fun n => if n < 2 ^ 32 then some (.ofNat n) else none

def jsonText (s : String) : Json := .str (Json.string s.toList)

namespace TaskExecutionLedgerEntry

def members (entry : TaskExecutionLedgerEntry) : List (JsonString × Json) :=
  [
    (Json.string "sequence".toList, .num (decimal entry.sequence.toNat)),
    (Json.string "run_id".toList, .str (Json.string entry.runId)),
    (Json.string "step_id".toList, .str (Json.string entry.stepId)),
    (Json.string "kind".toList, jsonText entry.kind.name),
    (Json.string "run_status".toList, jsonText entry.runStatus.name),
    (Json.string "message".toList, .str (Json.string entry.message)),
    (Json.string "recorded_at".toList, .num (decimal entry.recordedAt.toNat))]

def toJson (entry : TaskExecutionLedgerEntry) : Json := .obj entry.members

def ofJson : Json → Option TaskExecutionLedgerEntry :=
  Json.asObj fun members => do
    let sequence ← Json.requiredField asU32 members "sequence"
    let runId ← Json.requiredField Json.asString members "run_id"
    let stepId ← Json.defaultField Json.asString [] members "step_id"
    let kind ← Json.requiredField (asVariant TaskLedgerKind.name kinds) members "kind"
    let runStatus ← Json.requiredField (asVariant TaskRunStatus.name statuses) members "run_status"
    let message ← Json.defaultField Json.asString [] members "message"
    let recordedAt ← Json.defaultField Json.asU64 0 members "recorded_at"
    return ⟨sequence, runId, stepId, kind, runStatus, message, .ofNat recordedAt⟩

/-- `serde_json::to_string` -/
def text (entry : TaskExecutionLedgerEntry) : List Char := Json.print .compact 0 entry.toJson

/-- `serde_json::from_str` -/
def fromStr (text : List Char) : Option TaskExecutionLedgerEntry := (Json.fromStr 127 text).bind ofJson

def line (entry : TaskExecutionLedgerEntry) : Bytes := utf8 entry.text

end TaskExecutionLedgerEntry

/-- `str::lines` -/
def textLines (content : List Char) : List (List Char) :=
  let pieces := content.splitOn '\n'
  let ended := pieces.dropLast.map fun line => if line.getLast? = some '\r' then line.dropLast else line
  ended ++ pieces.getLast?.toList.filter (· ≠ [])

/-- How an append fails: before anything is written, or after so many bytes. -/
inductive LineFault where
  | before (e : Error)
  | within (written : Nat) (e : Error)

section
variable (maxWriteSize : Nat)

/-- The newline that a file lacks which does not end with one. -/
def separator (file : Bytes) : Bytes := if file ≠ [] ∧ file.getLast? ≠ some lf then [lf] else []

/-- What `append_line_file` adds to a file. -/
def appended (file line : Bytes) : Bytes := separator file ++ (line ++ [lf])

def appendLineFile (disk : Option Bytes) (line : Bytes) (fault : Option LineFault) : Option Bytes × Except Error Unit :=
  if maxWriteSize < line.length + 2 then
    (disk, .error (.config ("append line size " ++ toString line.length ++ " exceeds limit " ++ toString maxWriteSize)
      "storage_append_line"))
  else
    match fault with
    | none => (some (disk.getD [] ++ appended (disk.getD []) line), .ok ())
    | some (.before e) => (disk, .error e)
    | some (.within written e) => (some (disk.getD [] ++ (appended (disk.getD []) line).take written), .error e)

end

/-- The ledger of one run, with the texts that the libraries give to their errors. -/
structure StorageTaskExecutionLedgerStore where
  maxWriteSize : Nat
  utf8Error : Bytes → String
  jsonError : List Char → String

namespace StorageTaskExecutionLedgerStore
variable (store : StorageTaskExecutionLedgerStore)

def append (disk : Option Bytes) (entry : TaskExecutionLedgerEntry) (fault : Option LineFault) :
    Option Bytes × Except Error Unit :=
  let (disk, result) := appendLineFile store.maxWriteSize disk entry.line fault
  (disk, result.mapError (Error.withStage "task_execution_ledger_write"))

/-- The loop over the lines, the last one first. -/
def entries : List (List Char) → Except Error (List TaskExecutionLedgerEntry)
  | [] => .ok []
  | line :: lines =>
    if trim line = [] then entries lines
    else
      match TaskExecutionLedgerEntry.fromStr (trim line) with
      | none => .error (.config (store.jsonError (trim line)) "task_execution_ledger_read")
      | some entry => (entries lines).map (entry :: ·)

def list (disk : Option Bytes) (limit : Nat) (fault : Option { e : Error // e.isNotFound = false }) :
    Except Error (List TaskExecutionLedgerEntry) :=
  match readFile store.maxWriteSize disk fault with
  | .error e => if e.isNotFound then .ok [] else .error (e.withStage "task_execution_ledger_read")
  | .ok buf =>
    if buf = [] then .ok []
    else
      match fromUtf8 buf with
      | none => .error (.config (store.utf8Error buf) "task_execution_ledger_utf8")
      | some content =>
        (store.entries ((textLines content).reverse.take (max limit 1))).map List.reverse

end StorageTaskExecutionLedgerStore

end Beetle.Platform.Storage
