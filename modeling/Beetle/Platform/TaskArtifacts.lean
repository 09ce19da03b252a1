import Beetle.Lib.Ranking
import Beetle.Platform.EspPaths
import Beetle.Platform.TaskLedger

/-! The artifacts of task runs: a file for each, in a directory of its run or in a flat one for all runs. -/
namespace Beetle.Platform.Storage
open Beetle.Lib Beetle.Tools

inductive TaskArtifactKind where
  | plan
  | stepResult
  | review
  | finalReply
  | evidence
  deriving DecidableEq

def TaskArtifactKind.name : TaskArtifactKind → String
  | plan => "plan"
  | stepResult => "step_result"
  | review => "review"
  | finalReply => "final_reply"
  | evidence => "evidence"

def artifactKinds : List TaskArtifactKind := [.plan, .stepResult, .review, .finalReply, .evidence]

structure TaskArtifact where
  artifactId : List Char
  runId : List Char
  stepId : List Char
  kind : TaskArtifactKind
  summary : List Char
  contentRef : List Char
  provenance : List Char
  createdAt : UInt64
  deriving DecidableEq

structure TaskArtifactRecord where
  artifact : TaskArtifact
  content : List Char
  deriving DecidableEq

/-! The JSON of an artifact. -/

namespace TaskArtifact

def members (artifact : TaskArtifact) : List (JsonString × Json) :=
  [
    (Json.string "artifact_id".toList, .str (Json.string artifact.artifactId)),
    (Json.string "run_id".toList, .str (Json.string artifact.runId)),
    (Json.string "step_id".toList, .str (Json.string artifact.stepId)),
    (Json.string "kind".toList, jsonText artifact.kind.name),
    (Json.string "summary".toList, .str (Json.string artifact.summary)),
    (Json.string "content_ref".toList, .str (Json.string artifact.contentRef)),
    (Json.string "provenance".toList, .str (Json.string artifact.provenance)),
    (Json.string "created_at".toList, .num (Lib.decimal artifact.createdAt.toNat))]

def toJson (artifact : TaskArtifact) : Json := .obj artifact.members

def ofJson : Json → Option TaskArtifact :=
  Json.asObj fun members => do
    let artifactId ← Json.requiredField Json.asString members "artifact_id"
    let runId ← Json.requiredField Json.asString members "run_id"
    let stepId ← Json.defaultField Json.asString [] members "step_id"
    let kind ← Json.requiredField (asVariant TaskArtifactKind.name artifactKinds) members "kind"
    let summary ← Json.requiredField Json.asString members "summary"
    let contentRef ← Json.requiredField Json.asString members "content_ref"
    let provenance ← Json.defaultField Json.asString [] members "provenance"
    let createdAt ← Json.defaultField Json.asU64 0 members "created_at"
    return ⟨artifactId, runId, stepId, kind, summary, contentRef, provenance, .ofNat createdAt⟩

theorem ofJson_toJson (artifact : TaskArtifact) : ofJson artifact.toJson = some artifact := by
  have hkindName : asVariant TaskArtifactKind.name artifactKinds (jsonText artifact.kind.name) = some artifact.kind := by
    cases artifact.kind <;> decide
  have hartifactId : Json.requiredField Json.asString artifact.members "artifact_id" = some artifact.artifactId := rfl
  have hrunId : Json.requiredField Json.asString artifact.members "run_id" = some artifact.runId := rfl
  have hstepId : Json.defaultField Json.asString [] artifact.members "step_id" = some artifact.stepId := rfl
  have hkind : Json.requiredField (asVariant TaskArtifactKind.name artifactKinds) artifact.members "kind" =
      some artifact.kind := hkindName
  have hsummary : Json.requiredField Json.asString artifact.members "summary" = some artifact.summary := rfl
  have hcontentRef : Json.requiredField Json.asString artifact.members "content_ref" = some artifact.contentRef := rfl
  have hprovenance : Json.defaultField Json.asString [] artifact.members "provenance" = some artifact.provenance := rfl
  have hcreatedAt : Json.defaultField Json.asU64 0 artifact.members "created_at" = some artifact.createdAt.toNat :=
    asU64_decimal artifact.createdAt.toNat_lt
  rw [ofJson, toJson, Json.asObj, hartifactId, hrunId, hstepId, hkind, hsummary, hcontentRef, hprovenance, hcreatedAt]
  simp only [Option.bind_eq_bind, Option.bind_some, UInt64.ofNat_toNat]
  rfl

end TaskArtifact

namespace TaskArtifactRecord

def createdAt (record : TaskArtifactRecord) : Nat := record.artifact.createdAt.toNat

def members (record : TaskArtifactRecord) : List (JsonString × Json) :=
  [
    (Json.string "artifact".toList, record.artifact.toJson),
    (Json.string "content".toList, .str (Json.string record.content))]

def toJson (record : TaskArtifactRecord) : Json := .obj record.members

def ofJson : Json → Option TaskArtifactRecord :=
  Json.asObj fun members => do
    let artifact ← Json.requiredField TaskArtifact.ofJson members "artifact"
    let content ← Json.defaultField Json.asString [] members "content"
    return ⟨artifact, content⟩

/-- `serde_json::to_vec` -/
def toVec (record : TaskArtifactRecord) : Bytes := utf8 (Json.print .compact 0 record.toJson)

/-- `serde_json::from_slice` -/
def fromSlice (buf : Bytes) : Option TaskArtifactRecord :=
  (fromUtf8 buf).bind fun text => (Json.fromStr 127 text).bind ofJson

variable (record : TaskArtifactRecord)

theorem printed_toJson : record.toJson.Printed :=
  ⟨rfl, ⟨rfl, rfl, rfl, rfl, rfl, rfl, rfl, rfl, rfl, rfl, rfl, rfl, rfl, rfl, rfl, isNumber_decimal _, trivial⟩, rfl, rfl,
    trivial⟩

theorem ofJson_toJson : ofJson record.toJson = some record := by
  have hartifact : Json.requiredField TaskArtifact.ofJson record.members "artifact" = some record.artifact :=
    record.artifact.ofJson_toJson
  have hcontent : Json.defaultField Json.asString [] record.members "content" = some record.content := rfl
  rw [ofJson, toJson, Json.asObj, hartifact, hcontent]
  rfl

theorem fromSlice_toVec : fromSlice record.toVec = some record := by
  have hdepth : record.toJson.depth = 2 := rfl
  have hread : Json.fromStr 127 ([] ++ (Json.print .compact 0 record.toJson ++ [])) = some record.toJson :=
    Json.fromStr_print .compact record.printed_toJson (by rw [hdepth]; decide) 0 nofun nofun
  rw [List.nil_append, List.append_nil] at hread
  rw [fromSlice, toVec, fromUtf8_utf8, Option.bind_some, hread, Option.bind_some, ofJson_toJson]

theorem toVec_ne_nil : record.toVec ≠ [] := by
  intro hnil
  have hempty : fromSlice [] = none := by decide
  have hread := record.fromSlice_toVec
  rw [hnil, hempty] at hread
  cases hread

end TaskArtifactRecord

/-! Where the files are. -/

inductive StateLayout where
  | linux
  | esp32

/-- `REL_DIR_TASK_ARTIFACT_FILES` -/
def StateLayout.relDirTaskArtifactFiles : StateLayout → List Char
  | linux => "memory/task_artifacts".toList
  | esp32 => "x/a".toList

/-- The path of a file below the mount point. -/
@[grind =] def statePathJoin : StateLayout → List Char → StatePath
  | .linux, rel => pathComponents rel
  | .esp32, rel => pathComponents (espStorageRelPath rel)

/-- The directory that is listed for a run. -/
def StateLayout.artifactDir (layout : StateLayout) (runId : List Char) : List Char :=
  match layout with
  | linux => layout.relDirTaskArtifactFiles ++ '/' :: runId
  | esp32 => layout.relDirTaskArtifactFiles

def StateLayout.artifactFileName (layout : StateLayout) (runId artifactId : List Char) : List Char :=
  match layout with
  | linux => artifactId ++ ".json".toList
  | esp32 => runId ++ '_' :: (artifactId ++ ".j".toList)

/-- A name in the directory, as a path. -/
def StateLayout.artifactEntry (layout : StateLayout) (runId name : List Char) : List Char :=
  layout.artifactDir runId ++ '/' :: name

def StateLayout.artifactFilePath (layout : StateLayout) (runId artifactId : List Char) : StatePath :=
  statePathJoin layout (layout.artifactEntry runId (layout.artifactFileName runId artifactId))

/-! The store. -/

/-- The bytes of each file, `none` where there is none. -/
abbrev Files := StatePath → Option Bytes

/-- What the environment does to the file operations of a `put`. -/
structure PutFaults where
  parent : Option IoError
  write : WriteOutcome

def PutFaults.none : PutFaults := ⟨.none, .done⟩

def ensureParentDir (layout : StateLayout) (fault : Option IoError) (stage : String) : Except Error Unit :=
  match layout, fault with
  | .linux, some e => .error (.io e stage)
  | _, _ => .ok ()

def listDirOptional (listed : Except Error (List (List Char))) (stage : String) : Except Error (List (List Char)) :=
  match listed with
  | .ok entries => .ok entries
  | .error e => if e.isNotFound then .ok [] else .error (e.withStage stage)

structure StorageTaskArtifactStore where
  layout : StateLayout
  maxWriteSize : Nat
  jsonError : Bytes → String

namespace StorageTaskArtifactStore
variable (store : StorageTaskArtifactStore)

def recordPath (record : TaskArtifactRecord) : StatePath :=
  store.layout.artifactFilePath record.artifact.runId record.artifact.artifactId

def put (files : Files) (record : TaskArtifactRecord) (faults : PutFaults) : Files × Except Error Unit :=
  match ensureParentDir store.layout faults.parent "task_artifact_dir" with
  | .error e => (files, .error e)
  | .ok () =>
    let (file, written) := writeFileUnlocked store.maxWriteSize (files (store.recordPath record)) record.toVec
      "storage_write_json" faults.write
    (Function.update files (store.recordPath record) file, written)

def readOptionalJson (file : Option Bytes) (stage : String) (fault : Option { e : Error // e.isNotFound = false }) :
    Except Error (Option TaskArtifactRecord) :=
  match readFile store.maxWriteSize file fault with
  | .error e => if e.isNotFound then .ok none else .error (e.withStage stage)
  | .ok buf =>
    if buf = [] then .ok none
    else
      match TaskArtifactRecord.fromSlice buf with
      | none => .error (.config (store.jsonError buf) stage)
      | some record => .ok (some record)

/-- The loop over the names. -/
def readRecords (files : Files) (runId : List Char) (faults : StatePath → Option { e : Error // e.isNotFound = false }) :
    List (List Char) → Except Error (List TaskArtifactRecord)
  | [] => .ok []
  | name :: names =>
    let path := statePathJoin store.layout (store.layout.artifactEntry runId name)
    match store.readOptionalJson (files path) "task_artifact_read" (faults path) with
    | .error e => .error e
    | .ok record => (readRecords files runId faults names).map (record.toList ++ ·)

/-- The names that are taken for files of the run. -/
def namesOfRun (runId : List Char) (names : List (List Char)) : List (List Char) :=
  match store.layout with
  | .linux => names
  | .esp32 => names.filter fun name => runId.isPrefixOf name

def listForRun (files : Files) (listed : Except Error (List (List Char)))
    (faults : StatePath → Option { e : Error // e.isNotFound = false }) (runId : List Char) (limit : Nat) :
    Except Error (List TaskArtifactRecord) := do
  let names ← listDirOptional listed "task_artifact_list_dir"
  let out ← store.readRecords files runId faults ((store.namesOfRun runId names).take (max limit 1))
  let out := sortDescending TaskArtifactRecord.createdAt out
  return if limit < out.length then out.take limit else out

end StorageTaskArtifactStore

end Beetle.Platform.Storage
