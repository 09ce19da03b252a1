import Beetle.Util
import Mathlib.Data.List.Dedup
import Mathlib.Data.List.Sort

/-! Cron expressions of five fields, and when they match next. -/
namespace Beetle.Tools
open Beetle.Lib

/-- How a tool can fail to answer: with an error, or by a panic. -/
inductive Fault where
  | error (e : Error)
  | panic

def cronError (message : String) : Fault := .error (.config message "tool_cron")

/-- `(lo..=hi).step_by(step)`, which panics at a step of zero. -/
def stepRange (lo hi step : Nat) : Except Fault (List Nat) :=
  if step = 0 then .error .panic else .ok ((List.range' lo (hi + 1 - lo)).filter fun v => (v - lo) % step = 0)

/-- The bounds of a range, or of a single number. -/
def parseCronRange (range : List Char) (minVal maxVal : Nat) : Except Fault (Nat × Nat) :=
  match splitOnce '-' range with
  | some (a, b) =>
    match parseU32 (trim a), parseU32 (trim b) with
    | some a, some b =>
      if a > b ∨ b > maxVal ∨ a < minVal then .error (cronError "range out of bounds") else .ok (a, b)
    | _, _ => .error (cronError "invalid range")
  | none =>
    match parseU32 range with
    | some v => if v < minVal ∨ v > maxVal then .error (cronError "value out of bounds") else .ok (v, v)
    | none => .error (cronError "invalid number")

/-- The values of one part of a field, between commas. -/
def parseCronPart (part : List Char) (minVal maxVal : Nat) : Except Fault (List Nat) := do
  let part := trim part
  let (range, step) ← match splitOnce '/' part with
    | some (r, st) =>
      match parseU32 (trim st) with
      | some step => Except.ok (trim r, step)
      | none => .error (cronError "invalid step")
    | none => .ok (part, 1)
  if range = ['*'] then stepRange minVal maxVal step
  else
    let (lo, hi) ← parseCronRange range minVal maxVal
    stepRange lo hi step

/-- The values that a field allows, in order. -/
@[grind =] def parseCronField (s : List Char) (minVal maxVal : Nat) : Except Fault (List Nat) := do
  let s := trim s
  if s = [] then .error (cronError "empty cron field")
  else if s = ['*'] then .ok (List.range' minVal (maxVal + 1 - minVal))
  else
    let out := (← (s.splitOn ',').mapM fun part => parseCronPart part minVal maxVal).flatten
    let out := (out.insertionSort (· ≤ ·)).dedup
    if out = [] then .error (cronError "field has no valid value") else .ok out

/-- An expression with its fields read. -/
structure CronFields where
  minutes : List Nat
  hours : List Nat
  doms : List Nat
  months : List Nat
  dows : List Nat
  deriving DecidableEq

/-- The fields of an expression that has five of them; `none` for any other number. -/
def parseCronFields (expr : String) : Option (Except Fault CronFields) :=
  match splitWhitespace expr.toList with
  | [minute, hour, dom, month, dow] => some do
    let minutes ← parseCronField minute 0 59
    let hours ← parseCronField hour 0 23
    let doms ← parseCronField dom 1 31
    let months ← parseCronField month 1 12
    let dows ← parseCronField dow 0 6
    return ⟨minutes, hours, doms, months, dows⟩
  | _ => none

/-- The day of the week, 0 for Sunday; the first day of all was a Thursday. -/
def dayOfWeek (secs : Nat) : Nat := (secs / 86400 % 2 ^ 32 + 4) % 7

/-- The date matches by the day of the month or by that of the week. -/
def CronFields.matches (fields : CronFields) (minute hour dom month dow : Nat) : Bool :=
  minute ∈ fields.minutes && hour ∈ fields.hours && (dom ∈ fields.doms || dow ∈ fields.dows) &&
    month ∈ fields.months

def CronFields.matchesAt (fields : CronFields) (secs : Nat) : Bool :=
  let t := epochToYmdhms secs
  fields.matches t.min t.hour t.day t.month (dayOfWeek secs)

/-- The first minute that matches, from `secs` on and below the limit. -/
def CronFields.nextFrom (fields : CronFields) (secs limit : Nat) : Option Nat :=
  if _h : secs < limit then
    if fields.matchesAt secs then some secs else fields.nextFrom (secs + 60) limit
  else none
termination_by limit - secs

/-- `next_cron_trigger`, less the text of the time. -/
def nextCronTrigger (expr : String) (nowSecs : Nat) : Except Fault Nat :=
  match parseCronFields expr with
  | none => .error (cronError "expr must have exactly 5 fields: min hour dom month dow")
  | some fields => do
    let fields ← fields
    match fields.nextFrom ((nowSecs / 60 + 1) * 60) (nowSecs + 366 * 86400) with
    | some secs => .ok secs
    | none => .error (cronError "no matching time within 1 year")

/-- Whether an expression matches is a matter of the minute. -/
theorem CronFields.matchesAt_minute (fields : CronFields) (secs : Nat) :
    fields.matchesAt secs = fields.matchesAt (secs / 60 * 60) := by
  have hday : dayOfWeek (secs / 60 * 60) = dayOfWeek secs := by
    unfold dayOfWeek
    rw [show secs / 60 * 60 / 86400 = secs / 86400 by omega]
  rw [matchesAt, matchesAt, epochToYmdhms_minute secs, hday]

/-! The tool that manages the persisted cron tasks, and the note that they are kept in. -/

def cronTasksMaxEntries : Nat := 16
def cronTaskMaxActionLen : Nat := 512
def maxMemoryContentLen : Nat := 256 * 1024

/-- How deep `serde_json` follows containers. -/
def serdeMaxDepth : Nat := 127

structure CronTask where
  id : String
  expr : String
  action : String
  channel : String
  chatId : String
  enabled : Bool
  deriving DecidableEq

def jsonText (s : String) : Json := .str (Json.string s.toList)

def jsonObject (members : List (String × Json)) : Json :=
  .obj (members.map fun (key, value) => (Json.string key.toList, value))

def CronTask.toJson (task : CronTask) : Json :=
  jsonObject [("id", jsonText task.id), ("expr", jsonText task.expr), ("action", jsonText task.action),
    ("channel", jsonText task.channel), ("chat_id", jsonText task.chatId), ("enabled", .bool task.enabled)]

def CronTask.fromJson : Json → Option CronTask
  | .obj members => do
    let text (key : String) : Option String :=
      ((Json.field members key.toList).join.bind Json.asString).map String.ofList
    let id ← text "id"
    let expr ← text "expr"
    let action ← text "action"
    let channel ← text "channel"
    let chatId ← text "chat_id"
    let enabled ← (Json.field members "enabled".toList).join.bind Json.asBool
    return ⟨id, expr, action, channel, chatId, enabled⟩
  | _ => none

/-- `serde_json::to_string_pretty` of the tasks. -/
def cronTasksToString (tasks : List CronTask) : List Char :=
  Json.print .pretty 0 (.arr (tasks.map CronTask.toJson))

def cronTasksFromStr (text : List Char) : Option (List CronTask) :=
  match Json.fromStr serdeMaxDepth text with
  | some (.arr items) => items.mapM CronTask.fromJson
  | _ => none

/-- The note, where there is one, and whether reading it fails. -/
def getDailyNote (note : Option (List Char)) (readFails : Bool) : Except Error (List Char) :=
  if readFails then .error (.io ⟨.other, none⟩ "storage_read")
  else
    match note with
    | some content => .ok content
    | none => .error (.io ⟨.notFound, some 2⟩ "storage_read")

def writeDailyNote (note : Option (List Char)) (content : List Char) : Option (List Char) × Except Error Unit :=
  let len := (utf8 content).length
  if len > maxMemoryContentLen then
    (note, .error (.config s!"content length {len} exceeds {maxMemoryContentLen}" "write_daily_note"))
  else (some content, .ok ())

def cronManageError (message : String) : Fault := .error (.config message "tool_cron_manage")

/-- `jsonErrorText` is what `serde_json` says of a text that it cannot read. -/
structure CronManageTool where
  jsonErrorText : List Char → String

/-- A call of the tool: its arguments, the time, the conversation it comes from and
whether the note can be read. -/
structure CronManageCall where
  args : List Char
  now : Nat
  channel : Option String
  chatId : Option String
  readFails : Bool

inductive CronManageReply where
  | added (id : String)
  | listed (tasks : List (CronTask × Option Nat))
  | removed (id : String)
  | notFound
  | updated (id : String) (fields : List String)
  | nothingToUpdate

/-- Any failure counts as an empty list, as a note that is not there yet does. -/
def CronManageTool.loadTasks (tool : CronManageTool) (note : Option (List Char)) (readFails : Bool) :
    Except Fault (List CronTask) :=
  match getDailyNote note readFails with
  | .ok s =>
    if s = [] then .ok []
    else
      match cronTasksFromStr s with
      | some tasks => .ok tasks
      | none => .error (cronManageError (tool.jsonErrorText s))
  | .error _ => .ok []

def saveTasks (note : Option (List Char)) (tasks : List CronTask) : Option (List Char) × Except Fault Unit :=
  let (note, result) := writeDailyNote note (cronTasksToString tasks)
  (note, result.mapError .error)

def validateCronExpr (expr : String) : Except Fault Unit :=
  match parseCronFields expr with
  | none => .error (cronManageError "expr must have exactly 5 fields: min hour dom month dow")
  | some fields => fields.map fun _ => ()

def argStr (members : List (JsonString × Json)) (key : String) : Option String :=
  ((Json.get members key.toList).bind Json.asString).map String.ofList

def argBool (members : List (JsonString × Json)) (key : String) : Option Bool :=
  (Json.get members key.toList).bind Json.asBool

def checkAction (action : String) : Except Fault Unit :=
  if (utf8 action.toList).length > cronTaskMaxActionLen then
    .error (cronManageError s!"action exceeds {cronTaskMaxActionLen} bytes")
  else .ok ()

/-- The expression and the action of an `add`, once they are checked. -/
def addRequest (members : List (JsonString × Json)) : Except Fault (String × String) :=
  match argStr members "expr", argStr members "action" with
  | none, _ => .error (cronManageError "missing expr")
  | some _, none => .error (cronManageError "missing action")
  | some expr, some action => do
    checkAction action
    validateCronExpr expr
    return (expr, action)

def CronManageCall.newTask (call : CronManageCall) (expr action : String) : CronTask :=
  ⟨"ct_" ++ toString call.now, expr, action, call.channel.getD "cron", call.chatId.getD "cron", true⟩

/-- A task, and the names of the fields that are changed so far. -/
abbrev CronTaskChange := CronTask × List String

def updateExpr (members : List (JsonString × Json)) (change : CronTaskChange) : Except Fault CronTaskChange :=
  match argStr members "expr" with
  | some expr => (validateCronExpr expr).map fun _ => ({ change.1 with expr }, change.2 ++ ["expr"])
  | none => .ok change

def updateAction (members : List (JsonString × Json)) (change : CronTaskChange) : Except Fault CronTaskChange :=
  match argStr members "action" with
  | some action => (checkAction action).map fun _ => ({ change.1 with action }, change.2 ++ ["action"])
  | none => .ok change

def updateEnabled (members : List (JsonString × Json)) (change : CronTaskChange) : CronTaskChange :=
  match argBool members "enabled" with
  | some enabled => ({ change.1 with enabled }, change.2 ++ ["enabled"])
  | none => change

def updateTask (members : List (JsonString × Json)) (task : CronTask) : Except Fault CronTaskChange :=
  ((updateExpr members (task, [])).bind (updateAction members)).map (updateEnabled members)

namespace CronManageTool
variable (tool : CronManageTool)

def add (note : Option (List Char)) (call : CronManageCall) (members : List (JsonString × Json)) :
    Option (List Char) × Except Fault CronManageReply :=
  match addRequest members with
  | .error fault => (note, .error fault)
  | .ok (expr, action) =>
    match tool.loadTasks note call.readFails with
    | .error fault => (note, .error fault)
    | .ok tasks =>
      if cronTasksMaxEntries ≤ tasks.length then
        (note, .error (cronManageError s!"max {cronTasksMaxEntries} tasks reached"))
      else
        let task := call.newTask expr action
        let (note, saved) := saveTasks note (tasks ++ [task])
        (note, saved.map fun _ => .added task.id)

def list (note : Option (List Char)) (call : CronManageCall) : Except Fault CronManageReply := do
  let tasks ← tool.loadTasks note call.readFails
  return .listed (tasks.map fun task =>
    (task, if task.enabled then (nextCronTrigger task.expr call.now).toOption else none))

def remove (note : Option (List Char)) (call : CronManageCall) (members : List (JsonString × Json)) :
    Option (List Char) × Except Fault CronManageReply :=
  match argStr members "id" with
  | none => (note, .error (cronManageError "missing id"))
  | some id =>
    match tool.loadTasks note call.readFails with
    | .error fault => (note, .error fault)
    | .ok tasks =>
      let rest := tasks.filter fun task => task.id ≠ id
      if rest.length = tasks.length then (note, .ok .notFound)
      else
        let (note, saved) := saveTasks note rest
        (note, saved.map fun _ => .removed id)

def update (note : Option (List Char)) (call : CronManageCall) (members : List (JsonString × Json)) :
    Option (List Char) × Except Fault CronManageReply :=
  match argStr members "id" with
  | none => (note, .error (cronManageError "missing id"))
  | some id =>
    match tool.loadTasks note call.readFails with
    | .error fault => (note, .error fault)
    | .ok tasks =>
      match tasks.find? fun task => task.id = id with
      | none => (note, .error (cronManageError "task not found"))
      | some task =>
        match updateTask members task with
        | .error fault => (note, .error fault)
        | .ok (task, updated) =>
          if updated = [] then (note, .ok .nothingToUpdate)
          else
            let tasks := modifyFirst (fun task => task.id = id) (fun _ => task) tasks
            let (note, saved) := saveTasks note tasks
            (note, saved.map fun _ => .updated id updated)

def execute (note : Option (List Char)) (call : CronManageCall) :
    Option (List Char) × Except Fault CronManageReply :=
  match Json.fromStr serdeMaxDepth call.args with
  | some (.obj members) =>
    match argStr members "op" with
    | none => (note, .error (cronManageError "missing op"))
    | some op =>
      if op = "add" then tool.add note call members
      else if op = "list" then (note, tool.list note call)
      else if op = "remove" then tool.remove note call members
      else if op = "update" then tool.update note call members
      else (note, .error (cronManageError s!"unknown op: {op}"))
  | _ => (note, .error (.error (.other none "tool_cron_manage")))

end CronManageTool

/-- What the cron loop reads, with nothing for an error. -/
def loadPersistedCronTasks (note : Option (List Char)) (readFails : Bool) : List CronTask :=
  match getDailyNote note readFails with
  | .ok s => if s = [] then [] else (cronTasksFromStr s).getD []
  | .error _ => []

/-! The note is read back. -/

variable (task : CronTask)

theorem CronTask.fromJson_toJson : fromJson task.toJson = some task := by
  simp [fromJson, toJson, jsonObject, jsonText, Json.field, Json.string, Json.asString, Json.asBool]

theorem CronTask.printed_toJson : task.toJson.Printed := by
  simp [toJson, jsonObject, Json.Printed, Json.PrintedMembers, jsonText, Json.string]

theorem CronTask.depth_toJson : task.toJson.depth = 1 := by
  simp [toJson, jsonObject, Json.depth, Json.depthMembers, jsonText]

variable (tasks : List CronTask)

theorem printed_cronTasks :
    (Json.arr (tasks.map CronTask.toJson)).Printed ∧ (Json.arr (tasks.map CronTask.toJson)).depth ≤ 2 := by
  simp only [Json.Printed, Json.depth]
  induction tasks with
  | nil => exact ⟨trivial, by simp [Json.depthItems]⟩
  | cons task tasks ih =>
    obtain ⟨hprinted, hdepth⟩ := ih
    refine ⟨⟨task.printed_toJson, hprinted⟩, ?_⟩
    simp only [List.map_cons, Json.depthItems, task.depth_toJson]
    omega

theorem mapM_fromJson_toJson : (tasks.map CronTask.toJson).mapM CronTask.fromJson = some tasks := by
  induction tasks with
  | nil => rfl
  | cons task tasks ih => simp [CronTask.fromJson_toJson, ih]

theorem cronTasksFromStr_toString : cronTasksFromStr (cronTasksToString tasks) = some tasks := by
  obtain ⟨hprinted, hdepth⟩ := printed_cronTasks tasks
  have hread : Json.fromStr serdeMaxDepth (cronTasksToString tasks) =
      some (.arr (tasks.map CronTask.toJson)) := by
    have hnil : Json.Spaces [] := by simp [Json.Spaces]
    have hprint := Json.fromStr_print .pretty hprinted
      (show (Json.arr (tasks.map CronTask.toJson)).depth ≤ serdeMaxDepth by rw [serdeMaxDepth]; omega) 0 hnil hnil
    simpa [cronTasksToString] using hprint
  simp only [cronTasksFromStr, hread, mapM_fromJson_toJson]

theorem cronTasksToString_ne_nil : cronTasksToString tasks ≠ [] := by
  obtain ⟨c, text, hprint, -⟩ := Json.print_eq_cons .pretty 0 (printed_cronTasks tasks).1
  rw [cronTasksToString, hprint]
  exact List.cons_ne_nil _ _

/-- A note that is not there yet, or as the tool has written it. -/
def NoteHolds (note : Option (List Char)) (tasks : List CronTask) : Prop :=
  (note = none ∧ tasks = []) ∨ note = some (cronTasksToString tasks)

theorem NoteHolds.loadPersisted {note : Option (List Char)} {tasks : List CronTask} (h : NoteHolds note tasks) :
    loadPersistedCronTasks note false = tasks := by
  rcases h with ⟨rfl, rfl⟩ | rfl
  · rfl
  · simp [loadPersistedCronTasks, getDailyNote, cronTasksToString_ne_nil, cronTasksFromStr_toString]

theorem NoteHolds.loadTasks {note : Option (List Char)} {tasks : List CronTask} (h : NoteHolds note tasks)
    (tool : CronManageTool) (readFails : Bool) :
    tool.loadTasks note readFails = .ok (if readFails then [] else tasks) := by
  cases readFails with
  | true => rfl
  | false =>
    rcases h with ⟨rfl, rfl⟩ | rfl
    · rfl
    · simp [CronManageTool.loadTasks, getDailyNote, cronTasksToString_ne_nil, cronTasksFromStr_toString]

end Beetle.Tools
