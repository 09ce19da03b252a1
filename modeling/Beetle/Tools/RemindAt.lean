import Beetle.Normalized
import Beetle.Tools.ToolArgs

/-! The tool that manages reminders, each of which may be linked to a calendar event. -/
namespace Beetle.Tools.RemindAt
open Beetle.Lib Beetle.Reminder Beetle.Calendar

def defaultReminderCalendarDurationSecs : Nat := 15 * 60

/-- `u64::saturating_add`. -/
def saturatingAdd (a b : Nat) : Nat := min (a + b) (2 ^ 64 - 1)

/-- What the tool calls of the store of reminders. -/
structure RemindAtStore (ρ : Type) where
  get : ρ → String → String → String → ρ × Except Error (Option ReminderItem)
  upsert : ρ → ReminderItem → ρ × Except Error Unit
  delete : ρ → String → String → String → ρ × Except Error Bool

structure RemindAtTool (ρ σ : Type) where
  store : RemindAtStore ρ
  localCalendarStore : Option (CalendarStore σ)
  calendarService : Option (CalendarService σ)

/-- What a call answers that does not go through: an error, a request to the user, or a failure
at a provider, out of which the office layer makes its own answer. -/
inductive RemindStop where
  | failed (error : Error)
  | blocked (op warning : String)
  | officeFailure (op provider : String) (accountKey : Option String) (error : Error)

structure ReminderCalendarLink where
  provider : String
  accountKey : String
  eventId : String
  calendarId : String
  remoteId : String

namespace ReminderCalendarLink

def default : ReminderCalendarLink := ⟨"", "", "", "", ""⟩

def fromReminder (reminder : ReminderItem) : ReminderCalendarLink where
  provider := reminder.calendarProvider
  accountKey := reminder.calendarAccountKey
  eventId := reminder.calendarEventId
  calendarId := reminder.calendarCalendarId
  remoteId := reminder.calendarRemoteId

def isEmpty (link : ReminderCalendarLink) : Bool := trimStr link.eventId = "" || trimStr link.provider = ""

def isLocal (link : ReminderCalendarLink) : Bool := link.provider = calendarProviderLocal

end ReminderCalendarLink

def configError {α : Type} (message : String) : Except Error α := .error (.config message "remind_at")

def unavailableError (provider : String) : Error :=
  .config ("calendar provider '" ++ provider ++ "' is unavailable in this runtime") "remind_at"

/-- The account key where it has more than white space. -/
def givenKey (accountKey : String) : Option String := if trimStr accountKey = "" then none else some accountKey

def nonEmptyStr (accountKey : String) : Option String := if accountKey = "" then none else some accountKey

def nullableString (obj : ToolArgs) (key : String) : String := ((obj.str key).map trimStr).getD ""

def parseAtToUnixSecs : Json → Except Error Nat
  | .num literal =>
    match Json.asU64 (.num literal) with
    | some n => .ok n
    | none => configError "at must be non-negative number"
  | .str s =>
    match parseIso8601 (String.ofList s.value) with
    | some n => .ok n
    | none => configError "at must be Unix seconds or ISO8601 string"
  | _ => configError "at must be number or string"

def parseOptionalTime (value : Option Json) (field : String) : Except Error (Option Nat) :=
  match value with
  | none => .ok none
  | some .null => .ok none
  | some (.num literal) =>
    match Json.asU64 (.num literal) with
    | some n => .ok (some n)
    | none => configError (field ++ " must be non-negative")
  | some (.str s) =>
    match parseIso8601 (String.ofList s.value) with
    | some n => .ok (some n)
    | none => configError (field ++ " must be Unix seconds or ISO8601 string")
  | some _ => configError (field ++ " must be number, string, or null")

def explicitCalendarSignal (obj : ToolArgs) : Bool :=
  nullableString obj "calendar_provider" != "" || nullableString obj "calendar_account_key" != "" ||
    nullableString obj "calendar_id" != "" || nullableString obj "calendar_timezone" != "" ||
    nullableString obj "calendar_location" != "" || nullableString obj "calendar_notes" != "" ||
    obj.containsKey "calendar_end_at"

def populateCalendarRequest (reminder : ReminderItem) (obj : ToolArgs) (atSecs : Nat) : Except Error ReminderItem :=
  let provider := nullableString obj "calendar_provider"
  if explicitCalendarSignal obj = false then .ok reminder
  else if provider = "" then configError "calendar_provider is required when calendar bridge fields are provided"
  else do
    let endAt ← parseOptionalTime (obj.get "calendar_end_at") "calendar_end_at"
    .ok { reminder with
      calendarProvider := provider
      calendarAccountKey := nullableString obj "calendar_account_key"
      calendarCalendarId := nullableString obj "calendar_id"
      calendarStartAtUnixSecs := atSecs
      calendarEndAtUnixSecs := endAt.getD (saturatingAdd atSecs defaultReminderCalendarDurationSecs)
      calendarTimezone := nullableString obj "calendar_timezone"
      calendarLocation := nullableString obj "calendar_location"
      calendarNotes := nullableString obj "calendar_notes" }

def desiredCalendarProvider (reminder : ReminderItem) : Option String :=
  let provider := trimStr reminder.calendarProvider
  if provider = "" then none else some provider

def clearCalendarLink (reminder : ReminderItem) : ReminderItem :=
  { reminder with
    calendarEventId := ""
    calendarProvider := ""
    calendarAccountKey := ""
    calendarCalendarId := ""
    calendarRemoteId := ""
    calendarStartAtUnixSecs := 0
    calendarEndAtUnixSecs := 0
    calendarTimezone := ""
    calendarLocation := ""
    calendarNotes := "" }

/-- The range that `apply_calendar_link` falls back to. -/
def withDefaultRange (reminder : ReminderItem) : ReminderItem :=
  if reminder.calendarStartAtUnixSecs = 0 ∧ reminder.calendarEndAtUnixSecs = 0 then
    { reminder with
      calendarStartAtUnixSecs := reminder.atUnixSecs
      calendarEndAtUnixSecs := saturatingAdd reminder.atUnixSecs defaultReminderCalendarDurationSecs }
  else reminder

def linkChanged (previousLink : ReminderCalendarLink) (provider : String) (reminder : ReminderItem) : Bool :=
  let desiredAccountKey := if provider = calendarProviderLocal then "" else reminder.calendarAccountKey
  !previousLink.isEmpty && (previousLink.provider != provider || previousLink.accountKey != desiredAccountKey)

/-- A link that stays keeps the identity of its event. -/
def keepLink (previousLink : ReminderCalendarLink) (reminder : ReminderItem) : ReminderItem :=
  if previousLink.isEmpty then reminder
  else
    { reminder with
      calendarEventId := previousLink.eventId
      calendarCalendarId := previousLink.calendarId
      calendarRemoteId := previousLink.remoteId }

/-- The event of a reminder, as it is before it is normalized. -/
def calendarEvent (reminder : ReminderItem) (provider : String) : CalendarEvent where
  id := if reminder.calendarEventId = "" then "remcal_" ++ reminder.id else reminder.calendarEventId
  title := reminder.context
  startAtUnixSecs := reminder.calendarStartAtUnixSecs
  endAtUnixSecs := reminder.calendarEndAtUnixSecs
  timezone := reminder.calendarTimezone
  location := reminder.calendarLocation
  notes := if trimStr reminder.calendarNotes = "" then reminder.context else reminder.calendarNotes
  provider := provider
  calendarId := reminder.calendarCalendarId
  remoteId := reminder.calendarRemoteId
  status := .confirmed
  updatedAt := reminder.updatedAt

/-- The reminder linked to the event as it was stored. -/
def linkTo (reminder : ReminderItem) (stored : CalendarEvent) (accountKey : String) : ReminderItem :=
  { reminder with
    calendarEventId := stored.id
    calendarProvider := stored.provider
    calendarAccountKey := accountKey
    calendarCalendarId := stored.calendarId
    calendarRemoteId := stored.remoteId }

def patchAt (obj : ToolArgs) (reminder : ReminderItem) : Except Error (ReminderItem × Bool) :=
  match obj.get "at" with
  | none => .ok (reminder, false)
  | some value => do
    let newAt ← parseAtToUnixSecs value
    if reminder.atUnixSecs = newAt then .ok (reminder, false)
    else
      let oldStart := reminder.calendarStartAtUnixSecs
      let oldEnd := reminder.calendarEndAtUnixSecs
      if oldStart ≠ 0 ∧ oldStart < oldEnd ∧ obj.containsKey "calendar_end_at" = false then
        .ok ({ reminder with
          atUnixSecs := newAt
          calendarStartAtUnixSecs := newAt
          calendarEndAtUnixSecs := saturatingAdd newAt (oldEnd - oldStart) }, true)
      else .ok ({ reminder with atUnixSecs := newAt }, true)

/-- Notes that are the old context follow the new one. -/
def patchContext (obj : ToolArgs) (reminder : ReminderItem) : Except Error (ReminderItem × Bool) :=
  match obj.str "context" with
  | none => .ok (reminder, false)
  | some context =>
    let context := trimStr context
    if context = "" then configError "context must not be empty"
    else if reminder.context = context then .ok (reminder, false)
    else
      let notes := if reminder.calendarNotes = reminder.context then context else reminder.calendarNotes
      .ok ({ reminder with context, calendarNotes := notes }, true)

/-- The value of a text field after the update. -/
def patchedField (obj : ToolArgs) (key old : String) : String :=
  if obj.containsKey key = true then nullableString obj key else old

/-- An end sets the start to the time of the reminder, and a null takes both away. -/
def patchRange (obj : ToolArgs) (reminder : ReminderItem) : Except Error ReminderItem :=
  if obj.containsKey "calendar_end_at" = true then do
    match ← parseOptionalTime (obj.get "calendar_end_at") "calendar_end_at" with
    | some endAt =>
      .ok { reminder with calendarStartAtUnixSecs := reminder.atUnixSecs, calendarEndAtUnixSecs := endAt }
    | none => .ok { reminder with calendarStartAtUnixSecs := 0, calendarEndAtUnixSecs := 0 }
  else .ok reminder

/-- With it, whether the patch changed any field. -/
def applyCalendarUpdatePatch (obj : ToolArgs) (reminder : ReminderItem) : Except Error (ReminderItem × Bool) := do
  let patched := { reminder with
    calendarProvider := patchedField obj "calendar_provider" reminder.calendarProvider
    calendarAccountKey := patchedField obj "calendar_account_key" reminder.calendarAccountKey
    calendarCalendarId := patchedField obj "calendar_id" reminder.calendarCalendarId
    calendarTimezone := patchedField obj "calendar_timezone" reminder.calendarTimezone
    calendarLocation := patchedField obj "calendar_location" reminder.calendarLocation
    calendarNotes := patchedField obj "calendar_notes" reminder.calendarNotes }
  let patched ← patchRange obj patched
  .ok (patched, decide (patched ≠ reminder))

namespace RemindAtTool
variable {ρ σ : Type} (tool : RemindAtTool ρ σ)

def officeOperationFailure (op provider : String) (accountKey : Option String) (error : Error) :
    RemindStop :=
  match tool.calendarService with
  | none => .failed (unavailableError provider)
  | some _ => .officeFailure op provider accountKey error

def upsertRemoteCalendarLink (calendars : σ) (reminder : ReminderItem) (provider : String) (event : CalendarEvent)
    (isCreate : Bool) : σ × Except Error ReminderItem :=
  match tool.calendarService with
  | none => (calendars, .error (unavailableError provider))
  | some service =>
    match service.resolveAccountKeyForProvider calendars provider (givenKey reminder.calendarAccountKey) with
    | .error e => (calendars, .error e)
    | .ok none => (calendars, .error (unavailableError provider))
    | .ok (some resolvedAccountKey) =>
      match service.upsert calendars provider (some resolvedAccountKey) event isCreate with
      | (calendars, .error e) => (calendars, .error e)
      | (calendars, .ok stored) => (calendars, .ok (linkTo reminder stored resolvedAccountKey))

def deleteRemoteCalendarLink (calendars : σ) (link : ReminderCalendarLink) : σ × Except Error Unit :=
  match tool.calendarService with
  | none => (calendars, .error (unavailableError link.provider))
  | some service =>
    let (calendars, result) := service.delete calendars link.provider (nonEmptyStr link.accountKey) link.eventId
    (calendars, result.map fun _ => ())

def deleteCalendarLink (calendars : σ) (link : ReminderCalendarLink) : σ × Except Error Unit :=
  if link.isEmpty then (calendars, .ok ())
  else if link.isLocal then
    match tool.localCalendarStore with
    | none => (calendars, .ok ())
    | some localStore =>
      let (calendars, result) := localStore.delete calendars link.eventId
      (calendars, result.map fun _ => ())
  else tool.deleteRemoteCalendarLink calendars link

/-- The event is written to the local calendar and read back from it. -/
def upsertLocalCalendarLink (calendars : σ) (reminder : ReminderItem) (event : CalendarEvent) :
    σ × Except Error ReminderItem :=
  match tool.localCalendarStore with
  | none => (calendars, configError "local calendar store unavailable for reminder bridge")
  | some localStore =>
    match localStore.upsert calendars event with
    | (calendars, .error e) => (calendars, .error e)
    | (calendars, .ok ()) =>
      match localStore.get calendars event.id with
      | (calendars, .error e) => (calendars, .error e)
      | (calendars, .ok none) => (calendars, configError "calendar event missing after reminder upsert")
      | (calendars, .ok (some stored)) => (calendars, .ok (linkTo reminder stored ""))

/-- The part of `apply_calendar_link` that writes the event. -/
def writeCalendarEvent (calendars : σ) (reminder : ReminderItem) (provider : String) (isCreate : Bool) :
    σ × Except Error ReminderItem :=
  match normalizeCalendarEvent (calendarEvent reminder provider) with
  | .error e => (calendars, .error e)
  | .ok event =>
    if provider = calendarProviderLocal then tool.upsertLocalCalendarLink calendars reminder event
    else tool.upsertRemoteCalendarLink calendars reminder provider event isCreate

/-- Beside the result, the reminder that a failure leaves behind. -/
def applyCalendarLink (calendars : σ) (reminder : ReminderItem) (previousLink : ReminderCalendarLink) :
    σ × ReminderItem × Except Error ReminderItem :=
  match desiredCalendarProvider reminder with
  | none =>
    match tool.deleteCalendarLink calendars previousLink with
    | (calendars, .error e) => (calendars, reminder, .error e)
    | (calendars, .ok ()) => (calendars, clearCalendarLink reminder, .ok (clearCalendarLink reminder))
  | some provider =>
    let reminder := withDefaultRange reminder
    if linkChanged previousLink provider reminder then
      match tool.deleteCalendarLink calendars previousLink with
      | (calendars, .error e) => (calendars, reminder, .error e)
      | (calendars, .ok ()) =>
        let reminder := clearCalendarLink reminder
        let (calendars, result) := tool.writeCalendarEvent calendars reminder provider true
        (calendars, reminder, result)
    else
      let reminder := keepLink previousLink reminder
      let (calendars, result) := tool.writeCalendarEvent calendars reminder provider previousLink.isEmpty
      (calendars, reminder, result)

/-- How a failed `apply_calendar_link` of an update is answered. -/
def updateFailure (reminder : ReminderItem) (previousLink : ReminderCalendarLink) (error : Error) : RemindStop :=
  let provider := (desiredCalendarProvider reminder).orElse fun _ => nonEmptyStr previousLink.provider
  match provider with
  | none => .failed error
  | some provider =>
    if provider = calendarProviderLocal then .failed error
    else
      let accountKey := (givenKey reminder.calendarAccountKey).orElse fun _ => nonEmptyStr previousLink.accountKey
      tool.officeOperationFailure "update" provider accountKey error

/-- How a failed deletion of a link is answered. -/
def deleteFailure (link : ReminderCalendarLink) (error : Error) : RemindStop :=
  if link.isLocal then .failed error
  else tool.officeOperationFailure "delete" link.provider (nonEmptyStr link.accountKey) error

/-- How a failed `apply_calendar_link` of a schedule is answered. -/
def scheduleFailure (reminder : ReminderItem) (error : Error) : RemindStop :=
  match desiredCalendarProvider reminder with
  | none => .failed error
  | some provider =>
    if provider = calendarProviderLocal then .failed error
    else tool.officeOperationFailure "schedule" provider (givenKey reminder.calendarAccountKey) error

end RemindAtTool

/-- A new reminder of a chat, before its calendar fields. -/
def newReminder (id channel chatId : String) (atSecs : Nat) (context : String) (nowSecs : Nat) : ReminderItem :=
  { ReminderItem.default with id, channel, chatId, atUnixSecs := atSecs, context, updatedAt := nowSecs }

/-- The time and the context that a schedule has to ask for before it takes an id. -/
def scheduleRequest (obj : ToolArgs) : Except RemindStop (Nat × String) :=
  match obj.get "at", obj.requiredStr "context" with
  | none, _ => .error (.blocked "schedule" "remind_at: missing at")
  | some _, none => .error (.blocked "schedule" "remind_at: missing context")
  | some value, some context => ((parseAtToUnixSecs value).map fun atSecs => (atSecs, context)).mapError .failed

/-- The last part of an update before it stores the reminder. -/
def finishUpdate (nowSecs : Nat) (reminder : ReminderItem) (changed : Bool) : Except RemindStop ReminderItem :=
  if !changed then .error (.failed (.config "no fields to update" "remind_at"))
  else (normalizeReminderItem { reminder with updatedAt := nowSecs }).mapError .failed

namespace RemindAtTool
variable {ρ σ : Type} (tool : RemindAtTool ρ σ)

/-- What a schedule does from the new id to the normalized reminder. -/
def prepareSchedule (calendars : σ) (obj : ToolArgs) (reminder : ReminderItem) : σ × Except RemindStop ReminderItem :=
  match populateCalendarRequest reminder obj reminder.atUnixSecs with
  | .error e => (calendars, .error (.failed e))
  | .ok reminder =>
    match tool.applyCalendarLink calendars reminder .default with
    | (calendars, reminder, .error e) => (calendars, .error (tool.scheduleFailure reminder e))
    | (calendars, _, .ok reminder) => (calendars, (normalizeReminderItem reminder).mapError .failed)

/-- What an update does between reading the reminder and storing the new one. -/
def prepareUpdate (calendars : σ) (obj : ToolArgs) (reminder : ReminderItem) (nowSecs : Nat) :
    σ × Except RemindStop ReminderItem :=
  let previousLink := ReminderCalendarLink.fromReminder reminder
  match patchAt obj reminder with
  | .error e => (calendars, .error (.failed e))
  | .ok (reminder, newAt) =>
    match patchContext obj reminder with
    | .error e => (calendars, .error (.failed e))
    | .ok (reminder, newContext) =>
      if obj.flag "clear_calendar" then
        match tool.deleteCalendarLink calendars previousLink with
        | (calendars, .error e) => (calendars, .error (tool.deleteFailure previousLink e))
        | (calendars, .ok ()) => (calendars, finishUpdate nowSecs (clearCalendarLink reminder) true)
      else
        match applyCalendarUpdatePatch obj reminder with
        | .error e => (calendars, .error (.failed e))
        | .ok (reminder, newCalendar) =>
          let changed := newAt || newContext || newCalendar
          if changed || !previousLink.isEmpty then
            match tool.applyCalendarLink calendars reminder previousLink with
            | (calendars, reminder, .error e) => (calendars, .error (tool.updateFailure reminder previousLink e))
            | (calendars, _, .ok reminder) => (calendars, finishUpdate nowSecs reminder changed)
          else (calendars, finishUpdate nowSecs reminder changed)

def storeReminder (reminders : ρ) (reminder : ReminderItem) : ρ × Except RemindStop ReminderItem :=
  let (reminders, result) := tool.store.upsert reminders reminder
  (reminders, (result.map fun _ => reminder).mapError .failed)

section
variable (reminders : ρ) (calendars : σ) (channel chatId : String) (obj : ToolArgs)

/-- The id is the one that `next_reminder_id` gives. -/
def executeSchedule (id : String) (nowSecs : Nat) : ρ × σ × Except RemindStop ReminderItem :=
  match scheduleRequest obj with
  | .error stop => (reminders, calendars, .error stop)
  | .ok (atSecs, context) =>
    match tool.prepareSchedule calendars obj (newReminder id channel chatId atSecs context nowSecs) with
    | (calendars, .error stop) => (reminders, calendars, .error stop)
    | (calendars, .ok reminder) =>
      let (reminders, result) := tool.storeReminder reminders reminder
      (reminders, calendars, result)

@[grind =] def executeUpdate (nowSecs : Nat) : ρ × σ × Except RemindStop ReminderItem :=
  match obj.requiredStr "id" with
  | none => (reminders, calendars, .error (.blocked "update" "remind_at: missing id"))
  | some id =>
    match tool.store.get reminders channel chatId id with
    | (reminders, .error e) => (reminders, calendars, .error (.failed e))
    | (reminders, .ok none) => (reminders, calendars, .error (.blocked "update" "remind_at: reminder not found"))
    | (reminders, .ok (some reminder)) =>
      match tool.prepareUpdate calendars obj reminder nowSecs with
      | (calendars, .error stop) => (reminders, calendars, .error stop)
      | (calendars, .ok reminder) =>
        let (reminders, result) := tool.storeReminder reminders reminder
        (reminders, calendars, result)

def executeDelete : ρ × σ × Except RemindStop ReminderItem :=
  match obj.requiredStr "id" with
  | none => (reminders, calendars, .error (.blocked "delete" "remind_at: missing id"))
  | some id =>
    match tool.store.get reminders channel chatId id with
    | (reminders, .error e) => (reminders, calendars, .error (.failed e))
    | (reminders, .ok none) => (reminders, calendars, .error (.blocked "delete" "remind_at: reminder not found"))
    | (reminders, .ok (some reminder)) =>
      let link := ReminderCalendarLink.fromReminder reminder
      match tool.deleteCalendarLink calendars link with
      | (calendars, .error e) => (reminders, calendars, .error (tool.deleteFailure link e))
      | (calendars, .ok ()) =>
        match tool.store.delete reminders channel chatId id with
        | (reminders, .error e) => (reminders, calendars, .error (.failed e))
        | (reminders, .ok false) =>
          (reminders, calendars, .error (.failed (.config "failed to delete reminder" "remind_at")))
        | (reminders, .ok true) => (reminders, calendars, .ok reminder)

end
end RemindAtTool

/-! What has to do with the calendar changes nothing else in a reminder. -/

section
variable {reminder reminder' : ReminderItem}

@[simp] theorem clearCalendarLink_clearCalendarLink :
    clearCalendarLink (clearCalendarLink reminder) = clearCalendarLink reminder := rfl

@[simp] theorem clearCalendarLink_withDefaultRange :
    clearCalendarLink (withDefaultRange reminder) = clearCalendarLink reminder := by
  unfold withDefaultRange
  split <;> rfl

@[simp] theorem clearCalendarLink_keepLink (link : ReminderCalendarLink) :
    clearCalendarLink (keepLink link reminder) = clearCalendarLink reminder := by
  unfold keepLink
  split <;> rfl

@[simp] theorem clearCalendarLink_linkTo (stored : CalendarEvent) (accountKey : String) :
    clearCalendarLink (linkTo reminder stored accountKey) = clearCalendarLink reminder := rfl

theorem clearCalendarLink_of_populate {obj : ToolArgs} {atSecs : Nat}
    (h : populateCalendarRequest reminder obj atSecs = .ok reminder') :
    clearCalendarLink reminder' = clearCalendarLink reminder := by
  simp only [populateCalendarRequest] at h
  split at h
  · cases h
    rfl
  · split at h
    · cases h
    · cases hend : parseOptionalTime (obj.get "calendar_end_at") "calendar_end_at" with
      | error e =>
        rw [hend] at h
        cases h
      | ok endAt =>
        rw [hend] at h
        cases h
        rfl

end

namespace RemindAtTool
variable {ρ σ : Type} {tool : RemindAtTool ρ σ} {calendars calendars' : σ} {reminder reminder' : ReminderItem}

/-- A reminder that comes out of the calendar is linked to what the calendar has stored. -/
theorem writeCalendarEvent_eq_ok {provider : String} {isCreate : Bool}
    (h : (tool.writeCalendarEvent calendars reminder provider isCreate).2 = .ok reminder') :
    ∃ stored accountKey, reminder' = linkTo reminder stored accountKey := by
  unfold writeCalendarEvent at h
  split at h
  · cases h
  · split at h
    · unfold upsertLocalCalendarLink at h
      split at h
      · cases h
      · split at h
        · cases h
        · split at h
          · cases h
          · cases h
          · rename_i stored _
            cases h
            exact ⟨stored, "", rfl⟩
    · unfold upsertRemoteCalendarLink at h
      split at h
      · cases h
      · split at h
        · cases h
        · cases h
        · rename_i accountKey _
          split at h
          · cases h
          · rename_i stored _
            cases h
            exact ⟨stored, accountKey, rfl⟩

theorem clearCalendarLink_of_applyCalendarLink {left : ReminderItem} {previousLink : ReminderCalendarLink}
    (h : tool.applyCalendarLink calendars reminder previousLink = (calendars', left, .ok reminder')) :
    clearCalendarLink reminder' = clearCalendarLink reminder := by
  simp only [applyCalendarLink] at h
  split at h
  · split at h
    · cases h
    · cases h
      rfl
  · rename_i provider _
    split at h
    · split at h
      · cases h
      · obtain ⟨-, h⟩ := Prod.mk.inj h
        obtain ⟨-, h⟩ := Prod.mk.inj h
        obtain ⟨stored, accountKey, rfl⟩ := writeCalendarEvent_eq_ok h
        simp
    · obtain ⟨-, h⟩ := Prod.mk.inj h
      obtain ⟨-, h⟩ := Prod.mk.inj h
      obtain ⟨stored, accountKey, rfl⟩ := writeCalendarEvent_eq_ok h
      simp

end RemindAtTool

/-! What a request may make of a stored reminder. -/

/-- The reminder as the request patches it, and whether that changes anything. -/
def patchReminder (obj : ToolArgs) (reminder : ReminderItem) : Except Error (ReminderItem × Bool) := do
  let (reminder, newAt) ← patchAt obj reminder
  let (reminder, newContext) ← patchContext obj reminder
  let (reminder, newCalendar) ← applyCalendarUpdatePatch obj reminder
  .ok (reminder, newAt || newContext || newCalendar)

section
variable {obj : ToolArgs} {r reminder reminder' asked : ReminderItem} {changed : Bool}

theorem trimStr_ne_empty (hr : Acceptable r) : trimStr r.context ≠ "" := fun h =>
  hr.context ((normalizeField_eq_empty (by decide)).mpr h)

theorem patchAt_eq_ok (hr : Acceptable r) (h : patchAt obj r = .ok (reminder', changed)) :
    ∃ at' start finish, reminder' =
        { r with atUnixSecs := at', calendarStartAtUnixSecs := start, calendarEndAtUnixSecs := finish } ∧
      (at' = 0 → obj.containsKey "calendar_end_at" = false → start = 0) := by
  unfold patchAt at h
  split at h
  · cases h
    exact ⟨_, _, _, rfl, fun h0 => absurd h0 hr.time⟩
  · rename_i value _
    cases hparsed : parseAtToUnixSecs value with
    | error e =>
      rw [hparsed] at h
      cases h
    | ok newAt =>
      rw [hparsed] at h
      simp only [bind, Except.bind] at h
      split at h
      · cases h
        exact ⟨_, _, _, rfl, fun h0 => absurd h0 hr.time⟩
      · split at h
        · cases h
          exact ⟨_, _, _, rfl, fun h0 _ => h0⟩
        · rename_i hkeeps
          cases h
          refine ⟨_, _, _, rfl, fun _ hkey => ?_⟩
          by_contra hstart
          exact hkeeps ⟨hstart, (hr.range.resolve_left fun hnone => hstart hnone.1).2, hkey⟩

theorem trimStr_trimStr (s : String) : trimStr (trimStr s) = trimStr s := trimmed_trimStr s

theorem patchContext_eq_ok (h : patchContext obj reminder = .ok (reminder', changed)) :
    ∃ context notes, reminder' = { reminder with context, calendarNotes := notes } ∧
      (trimStr reminder.context ≠ "" → trimStr context ≠ "") := by
  unfold patchContext at h
  split at h
  · cases h
    exact ⟨_, _, rfl, id⟩
  · simp only at h
    split at h
    · cases h
    · rename_i hgiven
      split at h
      · cases h
        exact ⟨_, _, rfl, id⟩
      · cases h
        exact ⟨_, _, rfl, fun _ => by rwa [trimStr_trimStr]⟩

theorem patchRange_eq_ok (h : patchRange obj reminder = .ok reminder') :
    ∃ start finish, reminder' = { reminder with calendarStartAtUnixSecs := start, calendarEndAtUnixSecs := finish } ∧
      (obj.containsKey "calendar_end_at" = false → reminder' = reminder) ∧
      (obj.containsKey "calendar_end_at" = true → start = reminder.atUnixSecs ∨ start = 0) := by
  unfold patchRange at h
  split at h
  · rename_i hkey
    cases hparsed : parseOptionalTime (obj.get "calendar_end_at") "calendar_end_at" with
    | error e =>
      rw [hparsed] at h
      cases h
    | ok endAt =>
      rw [hparsed] at h
      cases endAt with
      | some endAt =>
        cases h
        exact ⟨_, _, rfl, fun hnone => (Bool.false_ne_true (hnone.symm.trans hkey)).elim, fun _ => .inl rfl⟩
      | none =>
        cases h
        exact ⟨_, _, rfl, fun hnone => (Bool.false_ne_true (hnone.symm.trans hkey)).elim, fun _ => .inr rfl⟩
  · rename_i hkey
    cases h
    exact ⟨_, _, rfl, fun _ => rfl, fun hkey' => absurd hkey' hkey⟩

/-- What the patch leaves of the reminder. -/
structure Patched (obj : ToolArgs) (r asked : ReminderItem) (changed : Bool) : Prop where
  id : asked.id = r.id
  channel : asked.channel = r.channel
  chatId : asked.chatId = r.chatId
  context : trimStr asked.context ≠ ""
  time : asked.atUnixSecs = 0 → asked.calendarStartAtUnixSecs = 0
  provider : asked.calendarProvider ≠ r.calendarProvider → changed = true

theorem patchReminder_parts (h : patchReminder obj r = .ok (asked, changed)) :
    ∃ timed newAt named newContext newCalendar, patchAt obj r = .ok (timed, newAt) ∧
      patchContext obj timed = .ok (named, newContext) ∧
      applyCalendarUpdatePatch obj named = .ok (asked, newCalendar) ∧
      changed = (newAt || newContext || newCalendar) := by
  unfold patchReminder at h
  cases htimed : patchAt obj r with
  | error e =>
    rw [htimed] at h
    cases h
  | ok timed =>
    rw [htimed] at h
    simp only [bind, Except.bind] at h
    cases hnamed : patchContext obj timed.1 with
    | error e =>
      rw [hnamed] at h
      cases h
    | ok named =>
      rw [hnamed] at h
      simp only at h
      cases hplaced : applyCalendarUpdatePatch obj named.1 with
      | error e =>
        rw [hplaced] at h
        cases h
      | ok placed =>
        rw [hplaced] at h
        cases h
        exact ⟨timed.1, timed.2, named.1, named.2, placed.2, rfl, hnamed, hplaced, rfl⟩

theorem patchReminder_eq_ok (hr : Acceptable r) (h : patchReminder obj r = .ok (asked, changed)) :
    Patched obj r asked changed := by
  obtain ⟨timed, newAt, named, newContext, newCalendar, htimed, hnamed, hplaced, rfl⟩ := patchReminder_parts h
  obtain ⟨at', start, finish, rfl, htime⟩ := patchAt_eq_ok hr htimed
  obtain ⟨context, notes, rfl, hnonempty⟩ := patchContext_eq_ok hnamed
  simp only [applyCalendarUpdatePatch, bind, Except.bind] at hplaced
  split at hplaced
  · cases hplaced
  · rename_i ranged hranged
    cases hplaced
    obtain ⟨start', finish', rfl, hsame, hrange⟩ := patchRange_eq_ok hranged
    have hcontext : trimStr r.context ≠ "" := trimStr_ne_empty hr
    refine ⟨rfl, rfl, rfl, hnonempty hcontext, fun h0 => ?_, fun hprovider => ?_⟩
    · cases hkey : obj.containsKey "calendar_end_at" with
      | false => exact (congrArg ReminderItem.calendarStartAtUnixSecs (hsame hkey)).trans (htime h0 hkey)
      | true => exact (hrange hkey).elim (fun hstart => hstart.trans h0) id
    · rw [Bool.or_eq_true, decide_eq_true_iff]
      right
      intro heq
      have hsame := congrArg ReminderItem.calendarProvider heq
      exact hprovider hsame

end

/-- A stored reminder has its fields in their normal form. -/
structure NormalFields (r : ReminderItem) : Prop where
  id : Reminder.normalizeField r.id maxReminderIdChars = r.id
  channel : Reminder.normalizeField r.channel maxReminderChannelChars = r.channel
  chatId : Reminder.normalizeField r.chatId maxReminderChatIdChars = r.chatId
  eventId : Calendar.normalizeField r.calendarEventId maxReminderIdChars = r.calendarEventId
  provider : Calendar.normalizeField r.calendarProvider maxReminderProviderChars = r.calendarProvider
  accountKey : Calendar.normalizeField r.calendarAccountKey maxReminderAccountKeyChars = r.calendarAccountKey

theorem normalizeField_eq (s : String) (max : Nat) :
    Reminder.normalizeField s max = Calendar.normalizeField s max := rfl

theorem normalFields {r : ReminderItem} (h : normalizeReminderItem r = .ok r) : NormalFields r := by
  obtain ⟨-, hnormal⟩ := acceptable_of_normalizeReminderItem h
  constructor
  · simpa only [normalForm] using (congrArg ReminderItem.id hnormal).symm
  · simpa only [normalForm] using (congrArg ReminderItem.channel hnormal).symm
  · simpa only [normalForm] using (congrArg ReminderItem.chatId hnormal).symm
  · simpa only [normalForm, normalizeField_eq] using (congrArg ReminderItem.calendarEventId hnormal).symm
  · simpa only [normalForm, normalizeField_eq] using (congrArg ReminderItem.calendarProvider hnormal).symm
  · simpa only [normalForm, normalizeField_eq] using (congrArg ReminderItem.calendarAccountKey hnormal).symm

end Beetle.Tools.RemindAt
