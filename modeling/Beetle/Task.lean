import Beetle.Util

/-! Task records, the form they are stored in, and queries on them. -/
namespace Beetle.Task

def maxTaskTitleChars : Nat := 120
def maxTaskDetailChars : Nat := 512
def maxTaskProjectChars : Nat := 80
def maxTaskIdChars : Nat := 128
def maxTaskChannelChars : Nat := 32
def maxTaskChatIdChars : Nat := 160
def maxTaskCalendarEventIdChars : Nat := 128
def maxTaskCalendarProviderChars : Nat := 32
def maxTaskCalendarAccountKeyChars : Nat := 128
def maxTaskCalendarTargetIdChars : Nat := 64
def maxTaskCalendarRemoteIdChars : Nat := 128

inductive TaskStatus where
  | openTask
  | inProgress
  | completed
  | cancelled
  deriving DecidableEq

def TaskStatus.isTerminal : TaskStatus → Bool
  | completed | cancelled => true
  | openTask | inProgress => false

inductive TaskPriority where
  | low
  | normal
  | high
  deriving DecidableEq

structure TaskItem where
  id : String
  channel : String
  chatId : String
  title : String
  detail : String
  project : String
  status : TaskStatus
  priority : TaskPriority
  dueAtUnixSecs : Nat
  dueNotifiedAtUnixSecs : Nat
  calendarEventId : String
  calendarProvider : String
  calendarAccountKey : String
  calendarCalendarId : String
  calendarRemoteId : String
  calendarStartAtUnixSecs : Nat
  calendarEndAtUnixSecs : Nat
  calendarTimezone : String
  calendarLocation : String
  calendarNotes : String
  completedAtUnixSecs : Nat
  updatedAt : Nat
  deriving DecidableEq

def TaskItem.default : TaskItem :=
  ⟨"", "", "", "", "", "", .openTask, .normal, 0, 0, "", "", "", "", "", 0, 0, "", "", "", 0, 0⟩

structure TaskQuery where
  status : Option TaskStatus
  project : String
  includeCompleted : Bool
  limit : Nat

def normalizeField (value : String) (maxChars : Nat) : String :=
  trimStr (truncateContentToMax (trimStr value) maxChars)

def normalizeTaskItem (task : TaskItem) : Except Error TaskItem :=
  let id := normalizeField task.id maxTaskIdChars
  if id = "" then .error (.config "id must not be empty" "task_item")
  else
    let channel := normalizeField task.channel maxTaskChannelChars
    if channel = "" then .error (.config "channel must not be empty" "task_item")
    else
      let chatId := normalizeField task.chatId maxTaskChatIdChars
      if chatId = "" then .error (.config "chat_id must not be empty" "task_item")
      else
        let title := normalizeField task.title maxTaskTitleChars
        if title = "" then .error (.config "title must not be empty" "task_item")
        else if task.calendarStartAtUnixSecs = 0 ∧ task.calendarEndAtUnixSecs ≠ 0 then
          .error (.config "calendar_start_at_unix_secs must be set when calendar_end_at_unix_secs is set" "task_item")
        else if task.calendarStartAtUnixSecs ≠ 0 ∧ task.calendarEndAtUnixSecs = 0 then
          .error (.config "calendar_end_at_unix_secs must be set when calendar_start_at_unix_secs is set" "task_item")
        else if task.calendarStartAtUnixSecs ≠ 0 ∧ task.calendarEndAtUnixSecs ≤ task.calendarStartAtUnixSecs then
          .error (.config "calendar_end_at_unix_secs must be greater than calendar_start_at_unix_secs" "task_item")
        else
          .ok { task with
            id, channel, chatId, title
            detail := normalizeField task.detail maxTaskDetailChars
            project := normalizeField task.project maxTaskProjectChars
            calendarEventId := normalizeField task.calendarEventId maxTaskCalendarEventIdChars
            calendarProvider := normalizeField task.calendarProvider maxTaskCalendarProviderChars
            calendarAccountKey := normalizeField task.calendarAccountKey maxTaskCalendarAccountKeyChars
            calendarCalendarId := normalizeField task.calendarCalendarId maxTaskCalendarTargetIdChars
            calendarRemoteId := normalizeField task.calendarRemoteId maxTaskCalendarRemoteIdChars
            calendarTimezone := normalizeField task.calendarTimezone maxTaskDetailChars
            calendarLocation := normalizeField task.calendarLocation maxTaskDetailChars
            calendarNotes := normalizeField task.calendarNotes maxTaskDetailChars
            dueNotifiedAtUnixSecs := if task.dueAtUnixSecs = 0 then 0 else task.dueNotifiedAtUnixSecs
            completedAtUnixSecs := if task.status ≠ .completed then 0 else task.completedAtUnixSecs }

def taskStatusRank : TaskStatus → Nat
  | .inProgress => 0
  | .openTask => 1
  | .completed => 2
  | .cancelled => 3

/-- Tasks without a due time come last: the key is `(1, u64::MAX)` there. -/
def taskDueSortKey (task : TaskItem) : Nat × Nat :=
  if task.dueAtUnixSecs = 0 then (1, 2 ^ 64 - 1) else (0, task.dueAtUnixSecs)

def compareTasks (left right : TaskItem) : Ordering :=
  (compare (taskStatusRank left.status) (taskStatusRank right.status)).then <|
    (compare (taskDueSortKey left).1 (taskDueSortKey right).1).then <|
      (compare (taskDueSortKey left).2 (taskDueSortKey right).2).then <|
        (compare right.updatedAt left.updatedAt).then <| compare left.id right.id

def TaskQuery.selects (query : TaskQuery) (task : TaskItem) : Bool :=
  (match query.status with
    | some status => task.status = status
    | none => query.includeCompleted || !task.status.isTerminal) &&
  (trimStr query.project = "" || task.project = trimStr query.project)

def filterTasks (tasks : List TaskItem) (query : TaskQuery) : List TaskItem :=
  let limit := max 1 (min query.limit 50)
  ((tasks.filter query.selects).mergeSort fun left right => compareTasks left right != .gt).take limit

/-- The chat a task is of. -/
def TaskItem.owner (task : TaskItem) : String × String := (task.channel, task.chatId)

end Beetle.Task
