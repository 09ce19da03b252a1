import Beetle.Lib.Run
import Beetle.Tools.Cron

/-! When no sequence of calls of the tool loses a cron task or gives two of them one id. -/
namespace Beetle.Tools
open Beetle.Lib

/-- What the note holds. -/
def storedTasks (note : Option (List Char)) : List CronTask := loadPersistedCronTasks note false

def taskIds (tasks : List CronTask) : List String := tasks.map (·.id)

/-- What an answer says of the list: `add` puts one task at its end, `remove` takes one out,
`update` changes one and leaves it its id, and nothing else changes it. -/
def KeepsTasks (before after : List CronTask) : Except Fault CronManageReply → Prop
  | .ok (.added id) => ∃ task, task.id = id ∧ after = before ++ [task]
  | .ok (.removed id) => ∃ front task back, before = front ++ task :: back ∧ task.id = id ∧ after = front ++ back
  | .ok (.updated id _) => ∃ front task task' back, before = front ++ task :: back ∧
    after = front ++ task' :: back ∧ task.id = id ∧ task'.id = id
  | _ => after = before

namespace CronManageTool
variable (tool : CronManageTool)

def step (note : Option (List Char)) (call : CronManageCall) : Option (Option (List Char)) :=
  some (tool.execute note call).1

/-- The call keeps the tasks, and their ids apart. -/
def KeepsList (note : Option (List Char)) (call : CronManageCall) : Prop :=
  KeepsTasks (storedTasks note) (storedTasks (tool.execute note call).1) (tool.execute note call).2 ∧
    (taskIds (storedTasks (tool.execute note call).1)).Nodup

end CronManageTool

/-- The task that the call is to add, if it passes the checks. -/
def CronManageCall.addedTask? (call : CronManageCall) : Option CronTask :=
  match Json.fromStr serdeMaxDepth call.args with
  | some (.obj members) =>
    if argStr members "op" = some "add" then
      match addRequest members with
      | .ok (expr, action) => some (call.newTask expr action)
      | .error _ => none
    else none
  | _ => none

/-- An `add` that gets as far as the note does not fail to read one with tasks in it,
and comes in a second that no stored task has its id from. -/
def SafeAdd (note : Option (List Char)) (call : CronManageCall) : Prop :=
  ∀ task, call.addedTask? = some task →
    let seen := if call.readFails then [] else storedTasks note
    seen.length < cronTasksMaxEntries →
    (utf8 (cronTasksToString (seen ++ [task]))).length ≤ maxMemoryContentLen →
    (call.readFails = true → storedTasks note = []) ∧ task.id ∉ taskIds (storedTasks note)

section
variable {tool : CronManageTool} {note : Option (List Char)} {tasks : List CronTask}

theorem NoteHolds.stored (h : NoteHolds note tasks) : storedTasks note = tasks := h.loadPersisted

/-- A list that is too long for the note is not saved. -/
theorem saveTasks_cases (note : Option (List Char)) (after : List CronTask) :
    (∃ text, saveTasks note after = (note, .error (.error (.config text "write_daily_note"))) ∧
      maxMemoryContentLen < (utf8 (cronTasksToString after)).length) ∨
    (saveTasks note after = (some (cronTasksToString after), .ok ()) ∧
      (utf8 (cronTasksToString after)).length ≤ maxMemoryContentLen) := by
  unfold saveTasks writeDailyNote
  dsimp only
  split
  · rename_i hlong
    exact .inl ⟨_, rfl, hlong⟩
  · rename_i hshort
    exact .inr ⟨rfl, by omega⟩

/-- The list that a call's `add` puts its task into. -/
def CronManageCall.seen (call : CronManageCall) (tasks : List CronTask) : List CronTask :=
  if call.readFails then [] else tasks

/-- What a call can do to a note with these tasks in it. -/
inductive CallEffect (note : Option (List Char)) (tasks : List CronTask) (call : CronManageCall) :
    Option (List Char) × Except Fault CronManageReply → Prop
  | kept {answer : Except Fault CronManageReply} (hkeeps : KeepsTasks tasks tasks answer) :
      CallEffect note tasks call (note, answer)
  | added {task : CronTask} (htask : call.addedTask? = some task)
      (hroom : (call.seen tasks).length < cronTasksMaxEntries)
      (hshort : (utf8 (cronTasksToString (call.seen tasks ++ [task]))).length ≤ maxMemoryContentLen) :
      CallEffect note tasks call (some (cronTasksToString (call.seen tasks ++ [task])), .ok (.added task.id))
  | removed (id : String) (hsome : (tasks.filter fun task => task.id ≠ id).length ≠ tasks.length) :
      CallEffect note tasks call
        (some (cronTasksToString (tasks.filter fun task => task.id ≠ id)), .ok (.removed id))
  | updated (front : List CronTask) {task task' : CronTask} (back : List CronTask) (fields : List String)
      (htasks : tasks = front ++ task :: back) {members : List (JsonString × Json)}
      (hupdate : updateTask members task = .ok (task', fields)) :
      CallEffect note tasks call
        (some (cronTasksToString (front ++ task' :: back)), .ok (.updated task.id fields))

theorem keepsTasks_error (tasks : List CronTask) (fault : Fault) : KeepsTasks tasks tasks (.error fault) := rfl

section
variable {members : List (JsonString × Json)} {change change' : CronTaskChange}

theorem updateExpr_id (h : updateExpr members change = .ok change') : change'.1.id = change.1.id := by
  unfold updateExpr at h
  split at h
  · obtain ⟨-, -, hset⟩ := except_map_ok h
    rw [← hset]
  · cases h
    rfl

theorem updateAction_id (h : updateAction members change = .ok change') : change'.1.id = change.1.id := by
  unfold updateAction at h
  split at h
  · obtain ⟨-, -, hset⟩ := except_map_ok h
    rw [← hset]
  · cases h
    rfl

theorem updateEnabled_id : (updateEnabled members change).1.id = change.1.id := by
  unfold updateEnabled
  split <;> rfl

theorem updateTask_id {task : CronTask} (h : updateTask members task = .ok change') : change'.1.id = task.id := by
  obtain ⟨withAction, haction, rfl⟩ := except_map_ok h
  obtain ⟨withExpr, hexpr, haction⟩ := except_bind_ok haction
  rw [updateEnabled_id, updateAction_id haction, updateExpr_id hexpr]

end

theorem noteHolds_some (tasks : List CronTask) : NoteHolds (some (cronTasksToString tasks)) tasks := .inr rfl

variable {call : CronManageCall} {members : List (JsonString × Json)}
  {result : Option (List Char) × Except Fault CronManageReply}

section
variable (h : NoteHolds note tasks)
include h

theorem NoteHolds.add (tool : CronManageTool) (call : CronManageCall)
    {expr action : String} (hrequest : addRequest members = .ok (expr, action)) : let task := call.newTask expr action
    let after := call.seen tasks ++ [task]
    if (call.seen tasks).length < cronTasksMaxEntries ∧ (utf8 (cronTasksToString after)).length ≤ maxMemoryContentLen
    then tool.add note call members = (some (cronTasksToString after), .ok (.added task.id))
    else ∃ fault, tool.add note call members = (note, .error fault) := by
  intro task after
  have hload : tool.loadTasks note call.readFails = .ok (call.seen tasks) := h.loadTasks tool call.readFails
  simp only [CronManageTool.add, hrequest, hload]
  by_cases hfull : cronTasksMaxEntries ≤ (call.seen tasks).length
  · rw [if_neg (by omega), if_pos hfull]
    exact ⟨_, rfl⟩
  · rw [if_neg hfull]
    rcases saveTasks_cases note after with ⟨text, hsave, hlong⟩ | ⟨hsave, hshort⟩
    · rw [if_neg (by omega)]
      exact ⟨.error (.config text "write_daily_note"), by simp only [after, task] at hsave; rw [hsave]; rfl⟩
    · rw [if_pos ⟨by omega, hshort⟩]
      simp only [after, task] at hsave
      rw [hsave]
      rfl

theorem NoteHolds.remove : CallEffect note tasks call (tool.remove note call members) := by
  unfold CronManageTool.remove
  cases argStr members "id" with
  | none => exact .kept (keepsTasks_error tasks _)
  | some id =>
    rw [h.loadTasks tool call.readFails]
    cases call.readFails with
    | true => exact .kept rfl
    | false =>
      simp only [Bool.false_eq_true, ite_false]
      split
      · exact .kept rfl
      · rename_i hfewer
        rcases saveTasks_cases note (tasks.filter fun task => task.id ≠ id) with ⟨text, hsave, -⟩ | ⟨hsave, -⟩
        · rw [hsave]
          exact .kept (keepsTasks_error tasks _)
        · rw [hsave]
          exact .removed id hfewer

theorem NoteHolds.update : CallEffect note tasks call (tool.update note call members) := by
  unfold CronManageTool.update
  cases argStr members "id" with
  | none => exact .kept (keepsTasks_error tasks _)
  | some id =>
    rw [h.loadTasks tool call.readFails]
    dsimp only
    split
    · exact .kept (keepsTasks_error tasks _)
    · rename_i task hfind
      cases hupdate : updateTask members task with
      | error fault => exact .kept (keepsTasks_error tasks fault)
      | ok changed =>
        obtain ⟨task', fields⟩ := changed
        dsimp only
        split
        · exact .kept rfl
        · cases hread : call.readFails with
          | true => simp [hread] at hfind
          | false =>
            simp only [hread, Bool.false_eq_true, if_false] at hfind ⊢
            obtain ⟨hid, front, back, rfl, hfront⟩ := List.find?_eq_some_iff_append.mp hfind
            have hid : task.id = id := by simpa using hid
            rw [modifyFirst_append_cons back (by simpa using hfront) (by simpa using hid)]
            rcases saveTasks_cases note (front ++ task' :: back) with ⟨text, hsave, -⟩ | ⟨hsave, -⟩
            · rw [hsave]
              exact .kept (keepsTasks_error _ _)
            · rw [hsave]
              subst hid
              exact .updated front back fields rfl hupdate

/-- Every call does one of the four things. -/
theorem NoteHolds.execute (tool : CronManageTool) (call : CronManageCall) :
    CallEffect note tasks call (tool.execute note call) := by
  unfold CronManageTool.execute
  split
  · rename_i members hargs
    cases hop : argStr members "op" with
    | none => exact .kept (keepsTasks_error tasks _)
    | some op =>
      dsimp only
      split
      · rename_i hadd
        cases hrequest : addRequest members with
        | error fault =>
          simp only [CronManageTool.add, hrequest]
          exact .kept (keepsTasks_error tasks fault)
        | ok request =>
          obtain ⟨expr, action⟩ := request
          have htask : call.addedTask? = some (call.newTask expr action) := by
            simp only [CronManageCall.addedTask?, hargs, hop, hadd, if_true, hrequest]
          have heffect := h.add tool call hrequest
          dsimp only at heffect
          split at heffect
          · rename_i hsaved
            rw [heffect]
            exact .added htask hsaved.1 hsaved.2
          · obtain ⟨fault, hfault⟩ := heffect
            rw [hfault]
            exact .kept (keepsTasks_error tasks fault)
      · split
        · cases hlist : tool.list note call with
          | error fault => exact .kept (keepsTasks_error tasks fault)
          | ok reply =>
            obtain ⟨listed, _, hreply⟩ := except_bind_ok hlist
            cases hreply
            exact .kept rfl
        · split
          · exact h.remove
          · split
            · exact h.update
            · exact .kept (keepsTasks_error tasks _)
  · exact .kept (keepsTasks_error tasks _)

/-- An `add` that passes the checks and has room is carried out. -/
theorem NoteHolds.execute_add (tool : CronManageTool) {task : CronTask} (htask : call.addedTask? = some task)
    (hroom : (call.seen tasks).length < cronTasksMaxEntries)
    (hshort : (utf8 (cronTasksToString (call.seen tasks ++ [task]))).length ≤ maxMemoryContentLen) :
    tool.execute note call = (some (cronTasksToString (call.seen tasks ++ [task])), .ok (.added task.id)) := by
  unfold CronManageCall.addedTask? at htask
  split at htask
  · rename_i members hargs
    split at htask
    · rename_i hop
      split at htask
      · rename_i expr action hrequest
        cases htask
        have heffect := h.add tool call hrequest
        dsimp only at heffect
        rw [if_pos ⟨hroom, hshort⟩] at heffect
        simp only [CronManageTool.execute, hargs, hop, if_true, heffect]
      · cases htask
    · cases htask
  · cases htask

theorem CallEffect.noteHolds (heffect : CallEffect note tasks call result) : ∃ after, NoteHolds result.1 after := by
  cases heffect with
  | kept hkeeps => exact ⟨tasks, h⟩
  | added htask hroom hshort => exact ⟨_, noteHolds_some _⟩
  | removed id hsome => exact ⟨_, noteHolds_some _⟩
  | updated front back fields htasks hupdate => exact ⟨_, noteHolds_some _⟩

/-- A call that meets the condition keeps the tasks and their ids apart. -/
theorem CallEffect.keepsList (hids : (taskIds tasks).Nodup) (hsafe : SafeAdd note call)
    (heffect : CallEffect note tasks call result) :
    KeepsTasks tasks (storedTasks result.1) result.2 ∧ (taskIds (storedTasks result.1)).Nodup := by
  cases heffect with
  | kept hkeeps =>
    rw [h.stored]
    exact ⟨hkeeps, hids⟩
  | @added task htask hroom hshort =>
    have hstored : storedTasks note = tasks := h.stored
    obtain ⟨hread, hfresh⟩ := hsafe task htask (by simpa [CronManageCall.seen, hstored] using hroom)
      (by simpa [CronManageCall.seen, hstored] using hshort)
    have hseen : call.seen tasks = tasks := by
      unfold CronManageCall.seen
      split
      · rename_i hfails
        rw [← hstored, hread hfails]
      · rfl
    rw [hstored] at hfresh
    rw [hseen, (noteHolds_some _).stored]
    refine ⟨⟨task, rfl, rfl⟩, ?_⟩
    rw [taskIds, List.map_append]
    exact hids.append (List.nodup_singleton _) (by simpa [taskIds] using hfresh)
  | removed id hsome =>
    rw [(noteHolds_some _).stored]
    rcases filter_key_ne hids id with hsame | ⟨front, task, back, htasks, hid, hrest⟩
    · exact absurd (congrArg List.length hsame) hsome
    · refine ⟨⟨front, task, back, htasks, hid, hrest⟩, ?_⟩
      exact hids.sublist (List.filter_sublist.map _)
  | @updated front task task' back fields htasks members hupdate =>
    have hid : task'.id = task.id := updateTask_id hupdate
    rw [(noteHolds_some _).stored]
    refine ⟨⟨front, task, task', back, htasks, rfl, rfl, hid⟩, ?_⟩
    have hsame : taskIds (front ++ task' :: back) = taskIds tasks := by
      simp [taskIds, htasks, hid]
    rw [hsame]
    exact hids

/-- A call that keeps the tasks and their ids apart meets the condition. -/
theorem NoteHolds.safeAdd (hkeeps : tool.KeepsList note call) : SafeAdd note call := by
  intro task htask seen hroom hshort
  have hseen : call.seen tasks = seen := by
    simp only [CronManageCall.seen, seen, h.stored]
  have hrun := h.execute_add tool htask (by rw [hseen]; exact hroom) (by rw [hseen]; exact hshort)
  obtain ⟨hlist, hids⟩ := hkeeps
  rw [hrun, hseen] at hlist hids
  rw [(noteHolds_some _).stored] at hlist hids
  obtain ⟨task', hid, hafter⟩ := hlist
  have hbefore : seen = storedTasks note := (List.append_inj' hafter rfl).1
  constructor
  · intro hfails
    simpa [seen, hfails] using hbefore.symm
  · rw [hbefore, taskIds, List.map_append, List.nodup_append] at hids
    simpa [taskIds] using hids.2.2

end

end

/-! What the tool checks before it stores a task. -/

/-- The fields of an expression that is valid. -/
def CronTask.fields? (task : CronTask) : Option CronFields := (parseCronFields task.expr).bind Except.toOption

/-- A task as the tool stores it, with the digits of a 64-bit clock in its id. -/
structure CronTask.Checked (task : CronTask) : Prop where
  valid : task.fields?.isSome
  action : (utf8 task.action.toList).length ≤ cronTaskMaxActionLen
  id : task.id.length ≤ 23

theorem valid_of_validateCronExpr {expr : String} (h : validateCronExpr expr = .ok ()) :
    ((parseCronFields expr).bind Except.toOption).isSome := by
  unfold validateCronExpr at h
  cases hfields : parseCronFields expr with
  | none => simp [hfields] at h
  | some fields =>
    rw [hfields] at h
    obtain ⟨fields, rfl, -⟩ := except_map_ok h
    rfl

theorem length_of_checkAction {action : String} (h : checkAction action = .ok ()) :
    (utf8 action.toList).length ≤ cronTaskMaxActionLen := by
  unfold checkAction at h
  split at h
  · cases h
  · omega

/-- The request of an `add` has passed both checks. -/
theorem addRequest_checked {members : List (JsonString × Json)} {expr action : String}
    (h : addRequest members = .ok (expr, action)) :
    validateCronExpr expr = .ok () ∧ checkAction action = .ok () := by
  unfold addRequest at h
  split at h
  · cases h
  · cases h
  · obtain ⟨_, haction, h⟩ := except_bind_ok h
    obtain ⟨_, hexpr, h⟩ := except_bind_ok h
    cases h
    exact ⟨hexpr, haction⟩

theorem CronManageCall.checked_addedTask? {call : CronManageCall} {task : CronTask} (hclock : call.now < 2 ^ 64)
    (h : call.addedTask? = some task) : task.Checked := by
  unfold CronManageCall.addedTask? at h
  split at h
  · split at h
    · split at h
      · rename_i expr action hrequest
        cases h
        obtain ⟨hexpr, haction⟩ := addRequest_checked hrequest
        refine ⟨valid_of_validateCronExpr hexpr, length_of_checkAction haction, ?_⟩
        have hdigits : (toString call.now).length ≤ 20 := by
          rw [Nat.toString_eq_repr, Nat.length_repr_le_iff (by omega)]
          omega
        simp only [CronManageCall.newTask, String.length_append]
        have hprefix : "ct_".length = 3 := rfl
        omega
      · cases h
    · cases h
  · cases h

section
variable {members : List (JsonString × Json)} {change change' : CronTaskChange}

theorem updateExpr_checked (h : updateExpr members change = .ok change') (hchecked : change.1.Checked) :
    change'.1.Checked := by
  unfold updateExpr at h
  split at h
  · obtain ⟨_, hexpr, hset⟩ := except_map_ok h
    rw [← hset]
    exact ⟨valid_of_validateCronExpr hexpr, hchecked.action, hchecked.id⟩
  · cases h
    exact hchecked

theorem updateAction_checked (h : updateAction members change = .ok change') (hchecked : change.1.Checked) :
    change'.1.Checked := by
  unfold updateAction at h
  split at h
  · obtain ⟨_, haction, hset⟩ := except_map_ok h
    rw [← hset]
    exact ⟨hchecked.valid, length_of_checkAction haction, hchecked.id⟩
  · cases h
    exact hchecked

theorem updateTask_checked {task : CronTask} (h : updateTask members task = .ok change') (hchecked : task.Checked) :
    change'.1.Checked := by
  obtain ⟨withAction, haction, rfl⟩ := except_map_ok h
  obtain ⟨withExpr, hexpr, haction⟩ := except_bind_ok haction
  have hdone : withAction.1.Checked := updateAction_checked haction (updateExpr_checked hexpr hchecked)
  unfold updateEnabled
  split
  · exact ⟨hdone.valid, hdone.action, hdone.id⟩
  · exact hdone

end

/-- Whatever a call does, the list has checked tasks only. -/
theorem CallEffect.checked {note : Option (List Char)} {tasks : List CronTask} {call : CronManageCall}
    {result : Option (List Char) × Except Fault CronManageReply} (h : NoteHolds note tasks)
    (hclock : call.now < 2 ^ 64) (hchecked : ∀ task ∈ tasks, task.Checked) (heffect : CallEffect note tasks call result) :
    ∀ task ∈ storedTasks result.1, task.Checked := by
  intro task htask
  cases heffect with
  | kept hkeeps =>
    rw [h.stored] at htask
    exact hchecked task htask
  | added hadded hroom hshort =>
    rw [(noteHolds_some _).stored] at htask
    rcases List.mem_append.mp htask with hold | hnew
    · refine hchecked task ?_
      unfold CronManageCall.seen at hold
      split at hold
      · cases hold
      · exact hold
    · rw [List.mem_singleton.mp hnew]
      exact call.checked_addedTask? hclock hadded
  | removed id hsome =>
    rw [(noteHolds_some _).stored] at htask
    exact hchecked task (List.mem_of_mem_filter htask)
  | updated front back fields htasks hupdate =>
    rw [(noteHolds_some _).stored] at htask
    subst htasks
    rcases List.mem_append.mp htask with hfront | hback
    · exact hchecked task (List.mem_append_left _ hfront)
    · rcases List.mem_cons.mp hback with rfl | hback
      · exact updateTask_checked hupdate (hchecked _ (by simp))
      · exact hchecked task (by simp [hback])

/-- Over every run of the tool: no task is lost and no two have one id exactly when every
`add` that is carried out has read the list and comes in a second of its own. -/
theorem cron_list_kept_iff (tool : CronManageTool) (calls : List CronManageCall) :
    Meets tool.step tool.KeepsList calls none ↔ Meets tool.step SafeAdd calls none := by
  have hstart : NoteHolds none [] := .inl ⟨rfl, rfl⟩
  constructor
  · apply meets_of_meets (I := fun note => ∃ tasks, NoteHolds note tasks)
    · rintro note call t ⟨tasks, hnote⟩ - hstep
      cases hstep
      exact (hnote.execute tool call).noteHolds hnote
    · rintro note call t ⟨tasks, hnote⟩ hkeeps -
      exact hnote.safeAdd hkeeps
    · exact ⟨[], hstart⟩
  · apply meets_of_meets (I := fun note => ∃ tasks, NoteHolds note tasks ∧ (taskIds tasks).Nodup)
    · rintro note call t ⟨tasks, hnote, hids⟩ hsafe hstep
      cases hstep
      obtain ⟨after, hafter⟩ := (hnote.execute tool call).noteHolds hnote
      have hkept := (hnote.execute tool call).keepsList hnote hids hsafe
      rw [hafter.stored] at hkept
      exact ⟨after, hafter, hkept.2⟩
    · rintro note call t ⟨tasks, hnote, hids⟩ hsafe -
      have hkept := (hnote.execute tool call).keepsList hnote hids hsafe
      rw [← hnote.stored] at hkept
      exact hkept
    · exact ⟨[], hstart, List.nodup_nil⟩

/-- A call to add a task for every minute. -/
def everyMinute (now : Nat) (readFails : Bool) : CronManageCall where
  args := Json.print .compact 0 (jsonObject
    [("op", jsonText "add"), ("expr", jsonText "* * * * *"), ("action", jsonText "report")])
  now := now
  channel := none
  chatId := none
  readFails := readFails

/-- The task it adds. -/
def everyMinuteTask (now : Nat) : CronTask := ⟨"ct_" ++ toString now, "* * * * *", "report", "cron", "cron", true⟩

theorem everyMinute_execute (tool : CronManageTool) :
    tool.execute none (everyMinute 10 false) =
      (some (cronTasksToString [everyMinuteTask 10]), .ok (.added (everyMinuteTask 10).id)) ∧
    tool.execute (some (cronTasksToString [everyMinuteTask 10])) (everyMinute 10 false) =
      (some (cronTasksToString [everyMinuteTask 10, everyMinuteTask 10]), .ok (.added (everyMinuteTask 10).id)) ∧
    tool.execute (some (cronTasksToString [everyMinuteTask 10])) (everyMinute 20 true) =
      (some (cronTasksToString [everyMinuteTask 20]), .ok (.added (everyMinuteTask 20).id)) := by
  refine ⟨?_, ?_, ?_⟩
  · exact NoteHolds.execute_add (.inl ⟨rfl, rfl⟩) tool (by decide +kernel) (by decide +kernel) (by decide +kernel)
  · exact (noteHolds_some [everyMinuteTask 10]).execute_add tool
      (by decide +kernel) (by decide +kernel) (by decide +kernel)
  · exact (noteHolds_some [everyMinuteTask 10]).execute_add tool
      (by decide +kernel) (by decide +kernel) (by decide +kernel)

theorem KeepsList.second {tool : CronManageTool} {first second : CronManageCall}
    (h : Meets tool.step tool.KeepsList [first, second] none) : tool.KeepsList (tool.execute none first).1 second :=
  ((h _ rfl).2 _ rfl).1

/-- Two tasks of one second have one id, and a task that is added while the note cannot be
read takes the place of all that were there. -/
theorem cron_list_confused_or_lost :
    (¬ ∀ (tool : CronManageTool) (calls : List CronManageCall),
      (∀ call ∈ calls, call.readFails = false) → Meets tool.step tool.KeepsList calls none) ∧
    (¬ ∀ (tool : CronManageTool) (calls : List CronManageCall),
      (calls.map (·.now)).Nodup → Meets tool.step tool.KeepsList calls none) := by
  have hruns := everyMinute_execute ⟨fun _ => ""⟩
  obtain ⟨hfirst, hsame, hunread⟩ := hruns
  constructor
  · intro h
    have hcalls : ∀ call ∈ [everyMinute 10 false, everyMinute 10 false], call.readFails = false := by
      intro call hcall
      rcases List.mem_pair.mp hcall with rfl | rfl <;> rfl
    have hkeeps := KeepsList.second (h ⟨fun _ => ""⟩ _ hcalls)
    rw [hfirst, CronManageTool.KeepsList, hsame, (noteHolds_some _).stored] at hkeeps
    exact absurd hkeeps.2 (by decide +kernel)
  · intro h
    have hcalls : ([everyMinute 10 false, everyMinute 20 true].map (·.now)).Nodup := by decide
    have hkeeps := KeepsList.second (h ⟨fun _ => ""⟩ _ hcalls)
    rw [hfirst, CronManageTool.KeepsList, hunread, (noteHolds_some _).stored, (noteHolds_some _).stored] at hkeeps
    obtain ⟨task, -, hafter⟩ := hkeeps.1
    exact absurd hafter (by simp)

end Beetle.Tools
