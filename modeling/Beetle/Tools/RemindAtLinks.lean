import Beetle.Platform.RemindAtStore
import Beetle.Tools.Calendars
import Beetle.Tools.RemindAt

/-! How an update goes on to the calendar event that its reminder is linked to. -/
namespace Beetle.Tools.RemindAt
open Beetle.Lib Beetle.Reminder Beetle.Calendar Beetle.Platform.Storage

structure UpdateFaults where
  reminders : CallFaults
  calendars : CalendarFaults

structure World where
  reminders : List ReminderItem
  calendars : Calendars

structure Setup where
  providers : Providers
  oldest : OldestEvent
  hasLocal : Bool
  hasService : Bool

/-- The store of reminders with calls that take effect as a whole. -/
def listStore (faults : CallFaults) : RemindAtStore (List ReminderItem) where
  get reminders channel chatId id :=
    atomically faults.get (StorageRemindAtStore.getClosure channel chatId id) reminders
  upsert reminders reminder :=
    match normalizeReminderItem reminder with
    | .error e => (reminders, .error e)
    | .ok reminder =>
      let (reminders, result) := atomically faults.upsert (StorageRemindAtStore.upsertClosure reminder) reminders
      (reminders, result.map fun _ => ())
  delete reminders channel chatId id :=
    atomically faults.delete (StorageRemindAtStore.deleteClosure channel chatId id) reminders

namespace Setup

@[grind =] def tool (setup : Setup) (faults : UpdateFaults) : RemindAtTool (List ReminderItem) Calendars where
  store := listStore faults.reminders
  localCalendarStore := if setup.hasLocal then some (localStore setup.oldest faults.calendars) else none
  calendarService := if setup.hasService then some (remoteService setup.providers faults.calendars) else none

def update (setup : Setup) (faults : UpdateFaults) (w : World) (channel chatId : String) (obj : ToolArgs)
    (nowSecs : Nat) : World × Except RemindStop ReminderItem :=
  let (reminders, calendars, result) :=
    (setup.tool faults).executeUpdate w.reminders w.calendars channel chatId obj nowSecs
  (⟨reminders, calendars⟩, result)

/-- Where the event of a link is. -/
def placeOf (setup : Setup) (link : ReminderCalendarLink) : Option EventPlace :=
  if link.isLocal then some (.here link.eventId)
  else
    (setup.providers.account link.provider (nonEmptyStr link.accountKey)).map fun key =>
      .away ⟨link.provider, key, link.eventId⟩

end Setup

/-- The request is for this reminder, which is linked to this event, and does not clear the link. -/
structure Linked (setup : Setup) (w : World) (channel chatId : String) (obj : ToolArgs) (r : ReminderItem)
    (place : EventPlace) (event : CalendarEvent) : Prop where
  stored : ∃ id, obj.requiredStr "id" = some id ∧ w.reminders.find? (hasKey channel chatId id) = some r
  normal : normalizeReminderItem r = .ok r
  link : (ReminderCalendarLink.fromReminder r).isEmpty = false
  placed : setup.placeOf (ReminderCalendarLink.fromReminder r) = some place
  found : w.calendars.find place = some event
  fits : w.calendars.events.keys.card ≤ maxCalendarEvents
  keepsCalendar : obj.flag "clear_calendar" = false

/-- A deletion of the event of this link goes through. -/
def Erases (setup : Setup) (faults : UpdateFaults) (link : ReminderCalendarLink) : Prop :=
  if link.isLocal then setup.hasLocal = true ∧ faults.calendars.localDelete = none
  else setup.hasService = true ∧ faults.calendars.remoteDelete = none

/-- The calendar of this provider does not take an event. -/
def Refuses (setup : Setup) (faults : UpdateFaults) (provider : String) : Prop :=
  if provider = calendarProviderLocal then setup.hasLocal = false ∨ faults.calendars.localUpsert ≠ none
  else setup.hasService = false ∨ faults.calendars.resolveAccount ≠ none ∨ faults.calendars.remoteUpsert ≠ none

/-- The range of the reminder is one that a calendar takes. -/
def Lasts (reminder : ReminderItem) : Prop :=
  reminder.calendarStartAtUnixSecs ≠ 0 ∧ reminder.calendarStartAtUnixSecs < reminder.calendarEndAtUnixSecs

/-- The event that the reminder asks for in the calendar it is linked to. -/
def askedEvent (link : ReminderCalendarLink) (asked : ReminderItem) (provider : String) : CalendarEvent :=
  normalEvent (calendarEvent (keepLink link (withDefaultRange asked)) provider)

/-- Where this event is written to the calendar, the one at the place is as before. -/
def LeavesAsIs (setup : Setup) (written : CalendarEvent) (event : CalendarEvent) : EventPlace → Prop
  | .here _ => written = event
  | .away key => (setup.providers.stored key written false).id ≠ key.id ∨
      setup.providers.stored key written false = event

section
variable {setup : Setup} {faults : UpdateFaults} {link : ReminderCalendarLink} {place : EventPlace}

theorem localCalendarStore_tool (h : setup.hasLocal = true) :
    (setup.tool faults).localCalendarStore = some (localStore setup.oldest faults.calendars) := if_pos h

theorem localCalendarStore_tool_none (h : setup.hasLocal = false) :
    (setup.tool faults).localCalendarStore = none := if_neg (by simp [h])

theorem calendarService_tool (h : setup.hasService = true) :
    (setup.tool faults).calendarService = some (remoteService setup.providers faults.calendars) := if_pos h

theorem calendarService_tool_none (h : setup.hasService = false) :
    (setup.tool faults).calendarService = none := if_neg (by simp [h])

theorem placeOf_local (h : link.isLocal = true) : setup.placeOf link = some (.here link.eventId) := if_pos h

theorem placeOf_remote (h : link.isLocal = false) (hplace : setup.placeOf link = some place) :
    ∃ key, setup.providers.account link.provider (nonEmptyStr link.accountKey) = some key ∧
      place = .away ⟨link.provider, key, link.eventId⟩ := by
  rw [Setup.placeOf, h, if_neg Bool.false_ne_true, Option.map_eq_some_iff] at hplace
  obtain ⟨key, hkey, rfl⟩ := hplace
  exact ⟨key, hkey, rfl⟩

/-- A deletion that does not go through changes no calendar. -/
theorem deleteCalendarLink_spares (calendars : Calendars) (h : ¬ Erases setup faults link) :
    ((setup.tool faults).deleteCalendarLink calendars link).1 = calendars := by
  unfold RemindAtTool.deleteCalendarLink
  cases hempty : link.isEmpty with
  | true => rfl
  | false =>
    cases hlocal : link.isLocal with
    | true =>
      rw [Erases, if_pos hlocal] at h
      cases hstore : setup.hasLocal with
      | false => simp only [localCalendarStore_tool_none hstore, if_true, Bool.false_eq_true, if_false]
      | true =>
        obtain ⟨e, he⟩ := Option.ne_none_iff_exists'.mp fun hnone => h ⟨hstore, hnone⟩
        simp only [localCalendarStore_tool hstore, if_true, Bool.false_eq_true, if_false, localStore, he,
          atomically_of_fault]
    | false =>
      rw [Erases, hlocal, if_neg Bool.false_ne_true] at h
      unfold RemindAtTool.deleteRemoteCalendarLink
      cases hservice : setup.hasService with
      | false => simp only [calendarService_tool_none hservice, Bool.false_eq_true, if_false]
      | true =>
        obtain ⟨e, he⟩ := Option.ne_none_iff_exists'.mp fun hnone => h ⟨hservice, hnone⟩
        simp only [calendarService_tool hservice, Bool.false_eq_true, if_false, remoteService, he]

/-- One that goes through leaves no event where the link says. -/
theorem deleteCalendarLink_erases (calendars : Calendars) (hlink : link.isEmpty = false) (hplace : setup.placeOf link = some place)
    (h : Erases setup faults link) :
    ∃ after : Calendars, (setup.tool faults).deleteCalendarLink calendars link = (after, .ok ()) ∧
      after.find place = none := by
  unfold RemindAtTool.deleteCalendarLink
  cases hlocal : link.isLocal with
  | true =>
    rw [Erases, if_pos hlocal] at h
    obtain rfl := Option.some.inj ((placeOf_local hlocal).symm.trans hplace)
    refine ⟨{ calendars with events := calendars.events.erase link.eventId }, ?_, ?_⟩
    · simp only [hlink, localCalendarStore_tool h.1, if_true, Bool.false_eq_true, if_false, localStore, h.2, atomically,
        StorageCalendarStore.deleteClosure, Except.map]
    · exact Finmap.lookup_erase _ _
  | false =>
    rw [Erases, hlocal, if_neg Bool.false_ne_true] at h
    obtain ⟨key, hkey, rfl⟩ := placeOf_remote hlocal hplace
    refine ⟨{ calendars with remote := calendars.remote.erase ⟨link.provider, key, link.eventId⟩ }, ?_, ?_⟩
    · simp only [hlink, RemindAtTool.deleteRemoteCalendarLink, calendarService_tool h.1, Bool.false_eq_true, if_false,
        remoteService, h.2, hkey, Except.map]
    · exact Finmap.lookup_erase _ _

end

/-! The steps of an update. -/

section
variable {setup : Setup} {faults : UpdateFaults} {w : World} {channel chatId : String} {obj : ToolArgs} {nowSecs : Nat}
  {r asked : ReminderItem} {changed : Bool} {place : EventPlace} {event : CalendarEvent} {link : ReminderCalendarLink}
  {calendars : Calendars} {reminder : ReminderItem}

/-- An update from the patched reminder on. -/
@[grind =]
def Setup.afterPatch (setup : Setup) (faults : UpdateFaults) (w : World) (nowSecs : Nat) (asked : ReminderItem)
    (changed : Bool) (link : ReminderCalendarLink) : World × Except RemindStop ReminderItem :=
  match (setup.tool faults).applyCalendarLink w.calendars asked link with
  | (calendars, left, .error e) => (⟨w.reminders, calendars⟩, .error ((setup.tool faults).updateFailure left link e))
  | (calendars, _, .ok linked) =>
    match finishUpdate nowSecs linked changed with
    | .error stop => (⟨w.reminders, calendars⟩, .error stop)
    | .ok reminder =>
      (⟨((setup.tool faults).storeReminder w.reminders reminder).1, calendars⟩,
        ((setup.tool faults).storeReminder w.reminders reminder).2)

theorem get_tool {id : String} (hfind : w.reminders.find? (hasKey channel chatId id) = some r) (hget : faults.reminders.get = none) :
    (setup.tool faults).store.get w.reminders channel chatId id = (w.reminders, .ok (some r)) := by
  simp only [Setup.tool, listStore, hget, atomically, StorageRemindAtStore.getClosure, StoreOp.clean, hfind]

theorem update_of_unread (h : Linked setup w channel chatId obj r place event) {e : Error}
    (hget : faults.reminders.get = some e) :
    setup.update faults w channel chatId obj nowSecs = (w, .error (.failed e)) := by
  obtain ⟨id, hid, -⟩ := h.stored
  have hfails : (setup.tool faults).store.get w.reminders channel chatId id = (w.reminders, .error e) := by
    simp only [Setup.tool, listStore, hget, atomically_of_fault]
  simp only [Setup.update, RemindAtTool.executeUpdate, hid, hfails]

theorem update_of_unpatched (h : Linked setup w channel chatId obj r place event) (hget : faults.reminders.get = none)
    {e : Error} (hpatch : patchReminder obj r = .error e) :
    setup.update faults w channel chatId obj nowSecs = (w, .error (.failed e)) := by
  obtain ⟨id, hid, hfind⟩ := h.stored
  have hprepare : (setup.tool faults).prepareUpdate w.calendars obj r nowSecs = (w.calendars, .error (.failed e)) := by
    unfold patchReminder at hpatch
    unfold RemindAtTool.prepareUpdate
    cases htimed : patchAt obj r with
    | error e' =>
      rw [htimed] at hpatch
      cases hpatch
      rfl
    | ok timed =>
      rw [htimed] at hpatch
      simp only [bind, Except.bind] at hpatch ⊢
      cases hnamed : patchContext obj timed.1 with
      | error e' =>
        rw [hnamed] at hpatch
        cases hpatch
        rfl
      | ok named =>
        rw [hnamed] at hpatch
        simp only at hpatch ⊢
        cases hplaced : applyCalendarUpdatePatch obj named.1 with
        | error e' =>
          rw [hplaced] at hpatch
          cases hpatch
          simp only [h.keepsCalendar, Bool.false_eq_true, if_false]
        | ok placed =>
          rw [hplaced] at hpatch
          cases hpatch
  simp only [Setup.update, RemindAtTool.executeUpdate, hid, get_tool hfind hget, hprepare]

theorem update_of_patched (nowSecs : Nat) (h : Linked setup w channel chatId obj r place event) (hget : faults.reminders.get = none)
    (hpatch : patchReminder obj r = .ok (asked, changed)) :
    setup.update faults w channel chatId obj nowSecs =
      setup.afterPatch faults w nowSecs asked changed (.fromReminder r) := by
  obtain ⟨id, hid, hfind⟩ := h.stored
  obtain ⟨timed, newAt, named, newContext, newCalendar, htimed, hnamed, hplaced, rfl⟩ := patchReminder_parts hpatch
  simp only [Setup.update, RemindAtTool.executeUpdate, hid, get_tool hfind hget, RemindAtTool.prepareUpdate, htimed,
    hnamed, hplaced, h.keepsCalendar, h.link, Bool.not_false, Bool.or_true, Bool.false_eq_true, if_true, if_false]
  unfold Setup.afterPatch
  rcases (setup.tool faults).applyCalendarLink w.calendars asked (.fromReminder r) with ⟨calendars, left, result⟩
  cases result with
  | error e => simp only
  | ok linked =>
    simp only
    cases finishUpdate nowSecs linked (newAt || newContext || newCalendar) with
    | error stop => simp only
    | ok reminder => simp only

theorem finishUpdate_unchanged (reminder : ReminderItem) : ∃ stop, finishUpdate nowSecs reminder false = .error stop :=
  ⟨_, rfl⟩

theorem acceptable_touched (h : Acceptable reminder) (nowSecs : Nat) :
    Acceptable { reminder with updatedAt := nowSecs } :=
  ⟨h.id, h.channel, h.chatId, h.time, h.context, h.range⟩

theorem finishUpdate_of_acceptable {reminder : ReminderItem} (h : Acceptable reminder) :
    finishUpdate nowSecs reminder true = .ok (normalForm { reminder with updatedAt := nowSecs }) := by
  rw [finishUpdate, normalizeReminderItem_of_acceptable (acceptable_touched h nowSecs)]
  simp only [Bool.not_true, Bool.false_eq_true, if_false, Except.mapError]

theorem finishUpdate_of_not_acceptable (h : ¬ Acceptable reminder) (nowSecs : Nat) (changed : Bool) :
    ∃ stop, finishUpdate nowSecs reminder changed = .error stop := by
  cases changed with
  | false => exact finishUpdate_unchanged reminder
  | true =>
    cases hnormal : normalizeReminderItem { reminder with updatedAt := nowSecs } with
    | error e => exact ⟨.failed e, by rw [finishUpdate, hnormal]; rfl⟩
    | ok normal =>
      obtain ⟨hnew, -⟩ := acceptable_of_normalizeReminderItem hnormal
      exact absurd ⟨hnew.id, hnew.channel, hnew.chatId, hnew.time, hnew.context, hnew.range⟩ h

section
variable {reminders : List ReminderItem} {reminder old : ReminderItem}

theorem storeReminder_fails {e : Error} (hfault : faults.reminders.upsert = some e)
    (hnormal : normalizeReminderItem reminder = .ok reminder) :
    (setup.tool faults).storeReminder reminders reminder = (reminders, .error (.failed e)) := by
  simp only [RemindAtTool.storeReminder, Setup.tool, listStore, hnormal, hfault, atomically_of_fault, Except.map,
    Except.mapError]

theorem storeReminder_stores (hfault : faults.reminders.upsert = none)
    (hnormal : normalizeReminderItem reminder = .ok reminder)
    (hold : reminders.find? (hasKey reminder.channel reminder.chatId reminder.id) = some old) :
    ∃ after, (setup.tool faults).storeReminder reminders reminder = (after, .ok reminder) ∧ reminder ∈ after := by
  have hupsert : ∃ after changed, upsertReminder reminders reminder = .ok (after, changed) ∧ reminder ∈ after := by
    unfold upsertReminder
    simp only [hold]
    split
    · rename_i hsame
      exact ⟨_, _, rfl, hsame ▸ List.mem_of_find?_eq_some hold⟩
    · refine ⟨_, _, rfl, List.mem_mergeSort.mpr (mem_modifyFirst_of_any ?_ _)⟩
      exact List.any_eq_true.mpr ⟨old, List.mem_of_find?_eq_some hold, List.find?_some hold⟩
  obtain ⟨after, changed, hupsert, hmem⟩ := hupsert
  refine ⟨after, ?_, hmem⟩
  simp only [RemindAtTool.storeReminder, Setup.tool, listStore, hnormal, hfault, atomically,
    StorageRemindAtStore.upsertClosure, hupsert, Except.map, Except.mapError]

end

/-- Whatever it ends with, an update that comes to its calendar answers like this. -/
theorem afterPatch_of_left {left : ReminderItem} {e : Error}
    (happly : (setup.tool faults).applyCalendarLink w.calendars asked link = (calendars, left, .error e))
    (nowSecs : Nat) (changed : Bool) :
    ∃ stop, setup.afterPatch faults w nowSecs asked changed link = (⟨w.reminders, calendars⟩, .error stop) := by
  refine ⟨(setup.tool faults).updateFailure left link e, ?_⟩
  simp only [Setup.afterPatch, happly]

theorem afterPatch_of_unfinished {left linked : ReminderItem} {stop : RemindStop}
    (happly : (setup.tool faults).applyCalendarLink w.calendars asked link = (calendars, left, .ok linked))
    (hfinish : finishUpdate nowSecs linked changed = .error stop) :
    setup.afterPatch faults w nowSecs asked changed link = (⟨w.reminders, calendars⟩, .error stop) := by
  simp only [Setup.afterPatch, happly, hfinish]

theorem afterPatch_of_finished {left linked reminder : ReminderItem}
    (happly : (setup.tool faults).applyCalendarLink w.calendars asked link = (calendars, left, .ok linked))
    (hfinish : finishUpdate nowSecs linked changed = .ok reminder) :
    setup.afterPatch faults w nowSecs asked changed link =
      (⟨((setup.tool faults).storeReminder w.reminders reminder).1, calendars⟩,
        ((setup.tool faults).storeReminder w.reminders reminder).2) := by
  simp only [Setup.afterPatch, happly, hfinish]

end

/-! The event that a reminder with a kept link is written to. -/

section
variable {setup : Setup} {faults : UpdateFaults} {calendars : Calendars} {link : ReminderCalendarLink}
  {reminder asked : ReminderItem} {provider : String} {ev : CalendarEvent} {isCreate : Bool}

theorem withDefaultRange_eq (reminder : ReminderItem) : withDefaultRange reminder =
    { reminder with
      calendarStartAtUnixSecs := (withDefaultRange reminder).calendarStartAtUnixSecs
      calendarEndAtUnixSecs := (withDefaultRange reminder).calendarEndAtUnixSecs } := by
  unfold withDefaultRange
  split <;> rfl

section
variable (hlink : link.isEmpty = false)
include hlink

theorem keepLink_eq (reminder : ReminderItem) : keepLink link reminder =
    { reminder with
      calendarEventId := link.eventId
      calendarCalendarId := link.calendarId
      calendarRemoteId := link.remoteId } := if_neg (by simp [hlink])

theorem keptEvent_eq (asked : ReminderItem) (provider : String) :
    calendarEvent (keepLink link (withDefaultRange asked)) provider =
      { id := link.eventId
        title := asked.context
        startAtUnixSecs := (withDefaultRange asked).calendarStartAtUnixSecs
        endAtUnixSecs := (withDefaultRange asked).calendarEndAtUnixSecs
        timezone := asked.calendarTimezone
        location := asked.calendarLocation
        notes := if trimStr asked.calendarNotes = "" then asked.context else asked.calendarNotes
        provider
        calendarId := link.calendarId
        remoteId := link.remoteId
        status := .confirmed
        updatedAt := asked.updatedAt } := by
  have hid : link.eventId ≠ "" := by
    rintro hid
    rw [ReminderCalendarLink.isEmpty, hid] at hlink
    cases hlink
  rw [keepLink_eq hlink, withDefaultRange_eq, calendarEvent]
  simp only [if_neg hid]

theorem acceptableEvent_iff (hcontext : trimStr asked.context ≠ "") :
    AcceptableEvent (calendarEvent (keepLink link (withDefaultRange asked)) provider) ↔
      Lasts (withDefaultRange asked) := by
  rw [keptEvent_eq hlink]
  constructor
  · exact fun h => ⟨h.start, h.range⟩
  · intro h
    refine ⟨?_, ?_, h.1, h.2⟩
    · rw [Ne, normalizeField_eq_empty (by decide)]
      intro hid
      simp [ReminderCalendarLink.isEmpty, hid] at hlink
    · rwa [Ne, normalizeField_eq_empty (by decide)]

end

theorem writeCalendarEvent_refused (hok : normalizeCalendarEvent (calendarEvent reminder provider) = .ok ev)
    (h : Refuses setup faults provider) :
    ∃ e, (setup.tool faults).writeCalendarEvent calendars reminder provider isCreate = (calendars, .error e) := by
  unfold RemindAtTool.writeCalendarEvent
  rw [hok]
  simp only
  by_cases hlocal : provider = calendarProviderLocal
  · rw [Refuses, if_pos hlocal] at h
    rw [if_pos hlocal, RemindAtTool.upsertLocalCalendarLink]
    cases hstore : setup.hasLocal with
    | false => exact ⟨_, by rw [localCalendarStore_tool_none hstore]; rfl⟩
    | true =>
      obtain ⟨e, he⟩ := Option.ne_none_iff_exists'.mp (h.resolve_left (by simp [hstore]))
      exact ⟨e, by simp only [localCalendarStore_tool hstore, localStore, he, atomically_of_fault]⟩
  · rw [Refuses, if_neg hlocal] at h
    rw [if_neg hlocal, RemindAtTool.upsertRemoteCalendarLink]
    cases hservice : setup.hasService with
    | false => exact ⟨_, by rw [calendarService_tool_none hservice]⟩
    | true =>
      simp only [calendarService_tool hservice, remoteService]
      rcases h.resolve_left (by simp [hservice]) with hresolve | hupsert
      · obtain ⟨e, he⟩ := Option.ne_none_iff_exists'.mp hresolve
        exact ⟨e, by simp only [he]⟩
      · obtain ⟨e, he⟩ := Option.ne_none_iff_exists'.mp hupsert
        cases hresolve : faults.calendars.resolveAccount with
        | some e' => exact ⟨e', rfl⟩
        | none =>
          cases haccount : setup.providers.account provider (givenKey reminder.calendarAccountKey) with
          | none => exact ⟨_, rfl⟩
          | some key => exact ⟨e, by simp only [he]⟩

/-- An event that is already there is written over. -/
theorem writeCalendarEvent_local (hok : normalizeCalendarEvent (calendarEvent reminder calendarProviderLocal) = .ok ev)
    (hstore : setup.hasLocal = true) (hupsert : faults.calendars.localUpsert = none)
    (hthere : ev.id ∈ calendars.events) (hfits : calendars.events.keys.card ≤ maxCalendarEvents) :
    ∃ after : Calendars, after.find (.here ev.id) = some ev ∧
      (faults.calendars.localGet = none →
        (setup.tool faults).writeCalendarEvent calendars reminder calendarProviderLocal isCreate =
          (after, .ok (linkTo reminder ev ""))) ∧
      (∀ e, faults.calendars.localGet = some e →
        (setup.tool faults).writeCalendarEvent calendars reminder calendarProviderLocal isCreate = (after, .error e)) := by
  have hsize : (calendars.events.insert ev.id ev).keys.card ≤ maxCalendarEvents := by
    rwa [StorageCalendarStore.keys_insert, Finset.insert_eq_of_mem (Finmap.mem_keys.mpr hthere)]
  have hstored : ∃ events op, StorageCalendarStore.upsertClosure setup.oldest ev calendars.events =
      (events, .ok op) ∧ events.lookup ev.id = some ev := by
    unfold StorageCalendarStore.upsertClosure
    simp only [normalizeCalendarEvent_idem hok]
    split
    · rename_i hsame
      exact ⟨_, _, rfl, hsame⟩
    · exact ⟨_, _, rfl, by rw [StorageCalendarStore.trimIfNeeded_of_fits hsize, Finmap.lookup_insert]⟩
  obtain ⟨events, op, hclosure, hlookup⟩ := hstored
  refine ⟨{ calendars with events }, hlookup, fun hget => ?_, fun e hget => ?_⟩
  · simp only [RemindAtTool.writeCalendarEvent, hok, if_true, RemindAtTool.upsertLocalCalendarLink,
      localCalendarStore_tool hstore, localStore, hupsert, hget, atomically, hclosure,
      StorageCalendarStore.getClosure, StoreOp.clean, hlookup]
  · simp only [RemindAtTool.writeCalendarEvent, hok, if_true, RemindAtTool.upsertLocalCalendarLink,
      localCalendarStore_tool hstore, localStore, hupsert, hget, atomically, hclosure]

theorem writeCalendarEvent_remote (hok : normalizeCalendarEvent (calendarEvent reminder provider) = .ok ev)
    (hremote : provider ≠ calendarProviderLocal) (hservice : setup.hasService = true)
    (hresolve : faults.calendars.resolveAccount = none) (hupsert : faults.calendars.remoteUpsert = none) {key : String}
    (haccount : setup.providers.account provider (givenKey reminder.calendarAccountKey) = some key) :
    let stored := setup.providers.stored ⟨provider, key, ev.id⟩ ev isCreate
    (setup.tool faults).writeCalendarEvent calendars reminder provider isCreate =
      ({ calendars with remote := calendars.remote.insert ⟨provider, key, stored.id⟩ stored },
        .ok (linkTo reminder stored key)) := by
  obtain ⟨-, -, hagain⟩ := setup.providers.account_kept _ _ _ haccount
  simp only [RemindAtTool.writeCalendarEvent, hok, if_neg hremote, RemindAtTool.upsertRemoteCalendarLink,
    calendarService_tool hservice, remoteService, hresolve, haccount, hupsert, hagain]

theorem provider_of_kept (hlink : link.isEmpty = false) (hkept : linkChanged link provider asked = false) :
    link.provider = provider ∧
      link.accountKey = if provider = calendarProviderLocal then "" else asked.calendarAccountKey := by
  simpa [linkChanged, hlink] using hkept

theorem givenKey_eq_nonEmptyStr {accountKey : String} (h : Trimmed accountKey) :
    givenKey accountKey = nonEmptyStr accountKey := by
  rw [givenKey, nonEmptyStr, h]

end

/-- What the calendar has once it has taken the event, and how the reminder is linked to it. -/
structure Taken (setup : Setup) (faults : UpdateFaults) (w : World) (r : ReminderItem) (place : EventPlace)
    (event : CalendarEvent) (asked : ReminderItem) (provider : String) (after : Calendars) (stored : CalendarEvent)
    (accountKey : String) : Prop where
  found : ∃ there, after.find there = some stored ∧ ∀ link : ReminderCalendarLink, link.provider = provider →
    link.accountKey = accountKey → link.eventId = stored.id → setup.placeOf link = some there
  same : after.find place = some event ↔ LeavesAsIs setup (askedEvent (.fromReminder r) asked provider) event place
  carries : Carries (askedEvent (.fromReminder r) asked provider) stored
  sentTo : stored.provider = provider
  account : Calendar.normalizeField accountKey maxReminderAccountKeyChars = accountKey
  answered : (provider = calendarProviderLocal → faults.calendars.localGet = none) →
    (setup.tool faults).writeCalendarEvent w.calendars (keepLink (.fromReminder r) (withDefaultRange asked)) provider
      false = (after, .ok (linkTo (keepLink (.fromReminder r) (withDefaultRange asked)) stored accountKey))
  failed : ¬ (provider = calendarProviderLocal → faults.calendars.localGet = none) → ∃ e,
    (setup.tool faults).writeCalendarEvent w.calendars (keepLink (.fromReminder r) (withDefaultRange asked)) provider
      false = (after, .error e)

section
variable {setup : Setup} {faults : UpdateFaults} {w : World} {channel chatId : String} {obj : ToolArgs} {nowSecs : Nat}
  {r asked : ReminderItem} {changed : Bool} {place : EventPlace} {event : CalendarEvent} {provider : String}
  {link : ReminderCalendarLink}

section
variable (h : Linked setup w channel chatId obj r place event)
include h

/-- The event has the id and the provider of the link. -/
theorem askedEvent_id (asked : ReminderItem) (provider : String) :
    (askedEvent (.fromReminder r) asked provider).id = r.calendarEventId := by
  rw [askedEvent, keptEvent_eq h.link]
  simpa only [normalEvent, ReminderCalendarLink.fromReminder, maxReminderIdChars, maxCalendarRemoteIdChars] using
    (normalFields h.normal).eventId

theorem askedEvent_provider (hsame : r.calendarProvider = provider) :
    (askedEvent (.fromReminder r) asked provider).provider = provider := by
  have hnormal : Calendar.normalizeField provider maxCalendarProviderChars = provider :=
    hsame ▸ (normalFields h.normal).provider
  have hne : provider ≠ "" := by
    rintro rfl
    have := h.link
    simp [ReminderCalendarLink.isEmpty, ReminderCalendarLink.fromReminder, hsame, trimStr, trim] at this
  rw [askedEvent, keptEvent_eq h.link]
  simp only [normalEvent, normalizeProvider, hnormal, if_neg hne]

theorem normalizeCalendarEvent_asked
    (hcontext : trimStr asked.context ≠ "") (hlasts : Lasts (withDefaultRange asked)) (provider : String) :
    normalizeCalendarEvent (calendarEvent (keepLink (.fromReminder r) (withDefaultRange asked)) provider) =
      .ok (askedEvent (.fromReminder r) asked provider) :=
  normalizeCalendarEvent_of_acceptable ((acceptableEvent_iff h.link hcontext).mpr hlasts)

theorem taken_local (hcontext : trimStr asked.context ≠ "")
    (hlasts : Lasts (withDefaultRange asked)) (hsame : r.calendarProvider = calendarProviderLocal)
    (htakes : ¬ Refuses setup faults calendarProviderLocal) :
    ∃ after stored, Taken setup faults w r place event asked calendarProviderLocal after stored "" := by
  have hok := normalizeCalendarEvent_asked h hcontext hlasts calendarProviderLocal
  have hid := askedEvent_id h asked calendarProviderLocal
  have hlocal : (ReminderCalendarLink.fromReminder r).isLocal = true := decide_eq_true hsame
  obtain rfl : EventPlace.here r.calendarEventId = place := Option.some.inj ((placeOf_local hlocal).symm.trans h.placed)
  rw [Refuses, if_pos rfl, not_or, Bool.not_eq_false, not_not] at htakes
  have hthere : r.calendarEventId ∈ w.calendars.events := Finmap.mem_of_lookup_eq_some h.found
  rw [← hid] at hthere
  obtain ⟨after, hfound, hanswered, hfailed⟩ := writeCalendarEvent_local hok htakes.1 htakes.2 hthere h.fits
  rw [hid] at hfound
  refine ⟨after, _, ⟨⟨.here r.calendarEventId, hfound, ?_⟩, ?_, .refl (normalizeCalendarEvent_idem hok),
    askedEvent_provider h hsame, by decide, fun hget => hanswered (hget rfl), fun hget => ?_⟩⟩
  · intro link hprovider _ heventId
    rw [placeOf_local (decide_eq_true hprovider), heventId, hid]
  · rw [hfound, Option.some.injEq]
    exact Iff.rfl
  · rw [Classical.not_imp] at hget
    obtain ⟨e, he⟩ := Option.ne_none_iff_exists'.mp hget.2
    exact ⟨e, hfailed e he⟩

theorem taken_remote (hcontext : trimStr asked.context ≠ "")
    (hlasts : Lasts (withDefaultRange asked)) (haccount : r.calendarAccountKey = asked.calendarAccountKey)
    (hremote : r.calendarProvider ≠ calendarProviderLocal) (htakes : ¬ Refuses setup faults r.calendarProvider) :
    ∃ after stored accountKey, Taken setup faults w r place event asked r.calendarProvider after stored accountKey := by
  have hok := normalizeCalendarEvent_asked h hcontext hlasts r.calendarProvider
  have hid := askedEvent_id h asked r.calendarProvider
  obtain ⟨key, hkey, rfl⟩ := placeOf_remote (decide_eq_false hremote) h.placed
  rw [Refuses, if_neg hremote, not_or, not_or, Bool.not_eq_false, not_not, not_not] at htakes
  have htrimmed : Trimmed r.calendarAccountKey := by
    rw [← (normalFields h.normal).accountKey]
    exact trimmed_normalizeField _ _
  have hgiven : setup.providers.account r.calendarProvider
      (givenKey (keepLink (.fromReminder r) (withDefaultRange asked)).calendarAccountKey) = some key := by
    rw [keepLink_eq h.link, withDefaultRange_eq]
    simp only
    rw [← haccount, givenKey_eq_nonEmptyStr htrimmed]
    exact hkey
  obtain ⟨hne, hnormal, hagain⟩ := setup.providers.account_kept _ _ _ hgiven
  have hwrite := @writeCalendarEvent_remote setup faults w.calendars _ _ _ false hok hremote htakes.1 htakes.2.1
    htakes.2.2 key hgiven
  rw [hid] at hwrite
  generalize hstored : setup.providers.stored ⟨r.calendarProvider, key, r.calendarEventId⟩
    (askedEvent (.fromReminder r) asked r.calendarProvider) false = stored at hwrite
  refine ⟨{ w.calendars with remote := w.calendars.remote.insert ⟨r.calendarProvider, key, stored.id⟩ stored }, stored,
    key, ⟨⟨.away ⟨r.calendarProvider, key, stored.id⟩, Finmap.lookup_insert w.calendars.remote, ?_⟩, ?_, ?_, ?_, hnormal,
    fun _ => hwrite, fun hget => absurd (fun hl => absurd hl hremote) hget⟩⟩
  · intro link hprovider hkey' heventId
    have hnotLocal : link.isLocal = false := decide_eq_false (hprovider ▸ hremote)
    rw [Setup.placeOf, hnotLocal, if_neg Bool.false_ne_true, hprovider, hkey', nonEmptyStr, if_neg hne, hagain, heventId]
    rfl
  · show Finmap.lookup ⟨r.calendarProvider, key, r.calendarEventId⟩
      (w.calendars.remote.insert ⟨r.calendarProvider, key, stored.id⟩ stored) = some event ↔
        (setup.providers.stored ⟨r.calendarProvider, key, r.calendarEventId⟩ _ false).id ≠ r.calendarEventId ∨
          setup.providers.stored ⟨r.calendarProvider, key, r.calendarEventId⟩ _ false = event
    rw [hstored]
    by_cases hsame : stored.id = r.calendarEventId
    · rw [hsame, Finmap.lookup_insert, Option.some.injEq]
      exact ⟨.inr, fun h => h.resolve_left fun hne => hne rfl⟩
    · rw [Finmap.lookup_insert_of_ne _ fun heq => hsame (congrArg RemoteKey.id heq).symm]
      exact iff_of_true h.found (.inl hsame)
  · exact hstored ▸ setup.providers.stored_carries _ _ _ (normalizeCalendarEvent_idem hok)
  · exact hstored ▸ setup.providers.stored_provider _ ⟨r.calendarProvider, key, _⟩ _ _ hagain

/-- The calendar takes the event where it does not refuse it. -/
theorem taken_of_kept (hcontext : trimStr asked.context ≠ "") (hlasts : Lasts (withDefaultRange asked))
    (hkept : linkChanged (.fromReminder r) r.calendarProvider asked = false)
    (htakes : ¬ Refuses setup faults r.calendarProvider) :
    ∃ after stored accountKey, Taken setup faults w r place event asked r.calendarProvider after stored accountKey := by
  obtain ⟨-, haccount⟩ := provider_of_kept h.link hkept
  by_cases hlocal : r.calendarProvider = calendarProviderLocal
  · rw [hlocal] at htakes ⊢
    obtain ⟨after, stored, htaken⟩ := taken_local h hcontext hlasts hlocal htakes
    exact ⟨after, stored, "", htaken⟩
  · rw [if_neg hlocal] at haccount
    exact taken_remote h hcontext hlasts haccount hlocal htakes

end

/-- A reminder whose time is zero has no range that lasts. -/
theorem time_ne_zero (hpatched : Patched obj r asked changed) (hlasts : Lasts (withDefaultRange asked)) :
    asked.atUnixSecs ≠ 0 := by
  intro htime
  have hstart := hpatched.time htime
  apply hlasts.1
  unfold withDefaultRange
  split
  · exact htime
  · exact hstart

theorem acceptable_linked (hr : Acceptable r) (hpatched : Patched obj r asked changed) (hlink : link.isEmpty = false)
    (hlasts : Lasts (withDefaultRange asked)) (stored : CalendarEvent) (accountKey : String) :
    Acceptable (linkTo (keepLink link (withDefaultRange asked)) stored accountKey) := by
  have htime := time_ne_zero hpatched hlasts
  have hcontext : Reminder.normalizeField asked.context remindAtMaxContextLen ≠ "" := fun hempty =>
    hpatched.context ((normalizeField_eq_empty (by decide)).mp hempty)
  have hid : Reminder.normalizeField asked.id maxReminderIdChars ≠ "" := hpatched.id ▸ hr.id
  have hchannel : Reminder.normalizeField asked.channel maxReminderChannelChars ≠ "" := hpatched.channel ▸ hr.channel
  have hchat : Reminder.normalizeField asked.chatId maxReminderChatIdChars ≠ "" := hpatched.chatId ▸ hr.chatId
  rw [keepLink_eq hlink, withDefaultRange_eq]
  exact ⟨hid, hchannel, hchat, htime, hcontext, .inr hlasts⟩

end

section
variable {setup : Setup} {faults : UpdateFaults} {w : World} {channel chatId : String} {obj : ToolArgs} {nowSecs : Nat}
  {r asked : ReminderItem} {changed : Bool} {place : EventPlace} {event : CalendarEvent} {provider : String}
  {calendars : Calendars} {link : ReminderCalendarLink}

theorem applyCalendarLink_dropped (hnone : desiredCalendarProvider asked = none)
    (hdelete : (setup.tool faults).deleteCalendarLink w.calendars link = (calendars, .ok ())) :
    (setup.tool faults).applyCalendarLink w.calendars asked link =
      (calendars, clearCalendarLink asked, .ok (clearCalendarLink asked)) := by
  simp only [RemindAtTool.applyCalendarLink, hnone, hdelete]

/-- The reminder that the calendar gives back is stored in the place of the old one, unless the store fails. -/
theorem afterPatch_stores (h : Linked setup w channel chatId obj r place event) {link : ReminderCalendarLink}
    {left linked : ReminderItem} (hlinked : Acceptable linked) (hid : linked.id = r.id)
    (hchannel : linked.channel = r.channel) (hchat : linked.chatId = r.chatId)
    (happly : (setup.tool faults).applyCalendarLink w.calendars asked link = (calendars, left, .ok linked)) :
    (faults.reminders.upsert ≠ none → ∃ stop,
      setup.afterPatch faults w nowSecs asked true link = (⟨w.reminders, calendars⟩, .error stop)) ∧
    (faults.reminders.upsert = none → ∃ reminders, setup.afterPatch faults w nowSecs asked true link =
      (⟨reminders, calendars⟩, .ok (normalForm { linked with updatedAt := nowSecs })) ∧
        normalForm { linked with updatedAt := nowSecs } ∈ reminders) := by
  have hfinish := @finishUpdate_of_acceptable nowSecs linked hlinked
  have hnormal := normalizeReminderItem_idem (normalizeReminderItem_of_acceptable (acceptable_touched hlinked nowSecs))
  have hafter := afterPatch_of_finished happly hfinish
  have hfields := normalFields h.normal
  obtain ⟨id, -, hfind⟩ := h.stored
  have hkey := List.find?_some hfind
  simp only [hasKey, Bool.and_eq_true, decide_eq_true_iff] at hkey
  obtain ⟨⟨rfl, rfl⟩, rfl⟩ := hkey
  generalize hfinal : normalForm { linked with updatedAt := nowSecs } = final at hnormal hafter ⊢
  have hold : w.reminders.find? (hasKey final.channel final.chatId final.id) = some r := by
    rw [← hfinal]
    simpa only [normalForm, hid, hchannel, hchat, hfields.id, hfields.channel, hfields.chatId] using hfind
  refine ⟨fun hfails => ?_, fun hfault => ?_⟩
  · obtain ⟨e, he⟩ := Option.ne_none_iff_exists'.mp hfails
    rw [storeReminder_fails he hnormal] at hafter
    exact ⟨_, hafter⟩
  · obtain ⟨reminders, hstore, hmem⟩ := @storeReminder_stores setup faults _ _ _ hfault hnormal hold
    rw [hstore] at hafter
    exact ⟨reminders, hafter, hmem⟩

theorem acceptable_clearCalendarLink (hr : Acceptable r) (hpatched : Patched obj r asked changed)
    (htime : asked.atUnixSecs ≠ 0) : Acceptable (clearCalendarLink asked) := by
  have hcontext : Reminder.normalizeField asked.context remindAtMaxContextLen ≠ "" := fun hempty =>
    hpatched.context ((normalizeField_eq_empty (by decide)).mp hempty)
  have hid : Reminder.normalizeField asked.id maxReminderIdChars ≠ "" := hpatched.id ▸ hr.id
  have hchannel : Reminder.normalizeField asked.channel maxReminderChannelChars ≠ "" := hpatched.channel ▸ hr.channel
  have hchat : Reminder.normalizeField asked.chatId maxReminderChatIdChars ≠ "" := hpatched.chatId ▸ hr.chatId
  exact ⟨hid, hchannel, hchat, htime, hcontext, .inl ⟨rfl, rfl⟩⟩

/-- Once the link is given up, the update goes through if the reminder has a time and is stored. -/
theorem afterPatch_dropped (nowSecs : Nat) (h : Linked setup w channel chatId obj r place event)
    (hpatched : Patched obj r asked true)
    (happly : (setup.tool faults).applyCalendarLink w.calendars asked (.fromReminder r) =
      (calendars, clearCalendarLink asked, .ok (clearCalendarLink asked))) :
    (¬ (asked.atUnixSecs ≠ 0 ∧ faults.reminders.upsert = none) → ∃ stop,
      setup.afterPatch faults w nowSecs asked true (.fromReminder r) = (⟨w.reminders, calendars⟩, .error stop)) ∧
    (asked.atUnixSecs ≠ 0 ∧ faults.reminders.upsert = none → ∃ w' reminder,
      setup.afterPatch faults w nowSecs asked true (.fromReminder r) = (w', .ok reminder) ∧
        trimStr reminder.calendarProvider = "") := by
  obtain ⟨hr, -⟩ := acceptable_of_normalizeReminderItem h.normal
  by_cases htime : asked.atUnixSecs = 0
  · refine ⟨fun _ => ?_, fun hdone => absurd htime hdone.1⟩
    have hbad : ¬ Acceptable (clearCalendarLink asked) := fun hacceptable => hacceptable.time htime
    obtain ⟨stop, hfinish⟩ := finishUpdate_of_not_acceptable hbad nowSecs true
    exact ⟨stop, afterPatch_of_unfinished happly hfinish⟩
  · obtain ⟨hfails, hstores⟩ := @afterPatch_stores setup faults w channel chatId obj nowSecs r asked place event calendars
      h _ _ _ (acceptable_clearCalendarLink hr hpatched htime) hpatched.id hpatched.channel hpatched.chatId happly
    refine ⟨fun hnot => hfails fun hfault => hnot ⟨htime, hfault⟩, fun hdone => ?_⟩
    obtain ⟨reminders, hafter, -⟩ := hstores hdone.2
    refine ⟨_, _, hafter, ?_⟩
    have hempty : Reminder.normalizeField "" maxReminderProviderChars = "" := by decide
    simp only [normalForm, clearCalendarLink, hempty]
    decide

/-- A range that was set before the link is cleared is cleared with it, and no event has one that is empty. -/
theorem writeCalendarEvent_cleared (reminder : ReminderItem) (provider : String) (isCreate : Bool) : ∃ e,
    (setup.tool faults).writeCalendarEvent calendars (clearCalendarLink reminder) provider isCreate =
      (calendars, .error e) := by
  unfold RemindAtTool.writeCalendarEvent
  cases hnormal : normalizeCalendarEvent (calendarEvent (clearCalendarLink reminder) provider) with
  | error e => exact ⟨e, rfl⟩
  | ok ev => exact absurd rfl (acceptable_of_normalizeCalendarEvent hnormal).1.start

theorem linkChanged_withDefaultRange (link : ReminderCalendarLink) (provider : String) (asked : ReminderItem) :
    linkChanged link provider (withDefaultRange asked) = linkChanged link provider asked := by
  rw [withDefaultRange_eq, linkChanged, linkChanged]

theorem applyCalendarLink_changed {link : ReminderCalendarLink} (hprovider : desiredCalendarProvider asked = some provider)
    (hchanged : linkChanged link provider asked = true) : ∃ left e,
    (setup.tool faults).applyCalendarLink w.calendars asked link =
      (((setup.tool faults).deleteCalendarLink w.calendars link).1, left, .error e) := by
  simp only [RemindAtTool.applyCalendarLink, hprovider, linkChanged_withDefaultRange, hchanged, if_true]
  rcases (setup.tool faults).deleteCalendarLink w.calendars link with ⟨calendars, result⟩
  cases result with
  | error e => exact ⟨_, e, rfl⟩
  | ok _ =>
    obtain ⟨e, hwrite⟩ := @writeCalendarEvent_cleared setup faults calendars (withDefaultRange asked) provider true
    exact ⟨clearCalendarLink (withDefaultRange asked), e, by simp only [hwrite]⟩

theorem applyCalendarLink_kept (hlink : link.isEmpty = false)
    (hprovider : desiredCalendarProvider asked = some provider) (hkept : linkChanged link provider asked = false)
    {result : Except Error ReminderItem}
    (hwrite : (setup.tool faults).writeCalendarEvent w.calendars (keepLink link (withDefaultRange asked)) provider false =
      (calendars, result)) :
    (setup.tool faults).applyCalendarLink w.calendars asked link =
      (calendars, keepLink link (withDefaultRange asked), result) := by
  simp only [RemindAtTool.applyCalendarLink, hprovider, linkChanged_withDefaultRange, hkept, Bool.false_eq_true, if_false,
    hlink, hwrite]

theorem writeCalendarEvent_invalid (h : Linked setup w channel chatId obj r place event)
    (hcontext : trimStr asked.context ≠ "") (hlasts : ¬ Lasts (withDefaultRange asked)) (provider : String) : ∃ e,
    (setup.tool faults).writeCalendarEvent w.calendars (keepLink (.fromReminder r) (withDefaultRange asked)) provider
      false = (w.calendars, .error e) := by
  unfold RemindAtTool.writeCalendarEvent
  cases hnormal : normalizeCalendarEvent (calendarEvent (keepLink (.fromReminder r) (withDefaultRange asked)) provider) with
  | error e => exact ⟨e, rfl⟩
  | ok ev =>
    have hevent := (acceptable_of_normalizeCalendarEvent hnormal).1
    exact absurd ((acceptableEvent_iff h.link hcontext).mp hevent) hlasts

end

end Beetle.Tools.RemindAt
