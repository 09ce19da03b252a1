import Beetle.Tools.RemindAtLinks

/-! What becomes of the event of a linked reminder when the reminder is updated. -/
namespace Beetle.Tools.RemindAt
open Beetle.Lib Beetle.Reminder Beetle.Calendar Beetle.Platform.Storage

/-- The stored reminder names an event that is there at its time with what was asked for. -/
structure Kept (setup : Setup) (w : World) (asked reminder : ReminderItem) : Prop where
  stored : reminder ∈ w.reminders
  event : ∃ place event, setup.placeOf (ReminderCalendarLink.fromReminder reminder) = some place ∧
    w.calendars.find place = some event ∧ event.startAtUnixSecs = reminder.calendarStartAtUnixSecs ∧
    event.location = Calendar.normalizeField asked.calendarLocation maxCalendarTextChars ∧
    event.notes = Calendar.normalizeField
      (if trimStr asked.calendarNotes = "" then asked.context else asked.calendarNotes) maxCalendarTextChars ∧
    (Calendar.normalizeField asked.calendarTimezone maxCalendarTextChars ≠ "" →
      event.timezone = Calendar.normalizeField asked.calendarTimezone maxCalendarTextChars)

/-- The request names at most another provider and another account. -/
def OnlyMoves (obj : ToolArgs) : Prop :=
  ∀ key ∈ ["at", "context", "calendar_id", "calendar_timezone", "calendar_location", "calendar_notes",
    "calendar_end_at"], obj.containsKey key = false

/-- No operation fails, and the account that is asked for is known to its provider. -/
structure AllSucceed (setup : Setup) (faults : UpdateFaults) (asked : ReminderItem) : Prop where
  reminders : faults.reminders = ⟨none, none, none⟩
  calendars : faults.calendars = ⟨none, none, none, none, none, none⟩
  hasLocal : setup.hasLocal = true
  hasService : setup.hasService = true
  account : ∀ provider, desiredCalendarProvider asked = some provider → provider ≠ calendarProviderLocal →
    (setup.providers.account provider (givenKey asked.calendarAccountKey)).isSome

section
variable (setup : Setup) (faults : UpdateFaults) (w : World) (channel chatId : String) (obj : ToolArgs) (nowSecs : Nat)
  (r : ReminderItem) (place : EventPlace) (event : CalendarEvent)

/-- The update keeps the event, leaves everything as it was, or takes the link away. -/
structure MovesSafely : Prop where
  success : ∀ reminder, (setup.update faults w channel chatId obj nowSecs).2 = .ok reminder →
    trimStr reminder.calendarProvider ≠ "" → ∃ asked changed, patchReminder obj r = .ok (asked, changed) ∧
      Kept setup (setup.update faults w channel chatId obj nowSecs).1 asked reminder
  failure : ∀ stop, (setup.update faults w channel chatId obj nowSecs).2 = .error stop →
    (setup.update faults w channel chatId obj nowSecs).1.reminders = w.reminders ∧
      (setup.update faults w channel chatId obj nowSecs).1.calendars.find place = some event
  moves : ∀ asked, OnlyMoves obj → patchReminder obj r = .ok (asked, true) → AllSucceed setup faults asked →
    ∃ reminder, (setup.update faults w channel chatId obj nowSecs).2 = .ok reminder

end

/-- Once the event is written nothing fails. -/
def Completes (faults : UpdateFaults) (provider : String) (changed : Bool) : Prop :=
  (provider = calendarProviderLocal → faults.calendars.localGet = none) ∧ changed = true ∧
    faults.reminders.upsert = none

/-- When it does so for the reminder as it is patched: what it deletes it does not need again, and
nothing fails behind what it writes. -/
def KeepsPatched (setup : Setup) (faults : UpdateFaults) (obj : ToolArgs) (r : ReminderItem) (place : EventPlace)
    (event : CalendarEvent) (asked : ReminderItem) (changed : Bool) : Prop :=
  match desiredCalendarProvider asked with
  | none => Erases setup faults (.fromReminder r) → asked.atUnixSecs ≠ 0 ∧ faults.reminders.upsert = none
  | some provider =>
    if linkChanged (.fromReminder r) provider asked then ¬ Erases setup faults (.fromReminder r)
    else
      (Lasts (withDefaultRange asked) → Refuses setup faults provider ∨
        LeavesAsIs setup (askedEvent (.fromReminder r) asked provider) event place ∨
          Completes faults provider changed) ∧
      (¬ Lasts (withDefaultRange asked) → ¬ (OnlyMoves obj ∧ changed = true ∧ AllSucceed setup faults asked))

/-- A request that is refused before anything is written changes nothing. -/
def KeepsWhen (setup : Setup) (faults : UpdateFaults) (obj : ToolArgs) (r : ReminderItem) (place : EventPlace)
    (event : CalendarEvent) : Prop :=
  faults.reminders.get = none → ∀ asked changed, patchReminder obj r = .ok (asked, changed) →
    KeepsPatched setup faults obj r place event asked changed

section
variable {setup : Setup} {faults : UpdateFaults} {w w' : World} {channel chatId : String} {obj : ToolArgs} {nowSecs : Nat}
  {r asked reminder : ReminderItem} {changed : Bool} {place : EventPlace} {event : CalendarEvent} {provider : String}
  {calendars : Calendars} {stop : RemindStop}

theorem kept_of_taken (h : Linked setup w channel chatId obj r place event) {after : Calendars} {stored : CalendarEvent}
    {accountKey : String} {reminders : List ReminderItem} {reminder : ReminderItem}
    (htaken : Taken setup faults w r place event asked r.calendarProvider after stored accountKey)
    (hreminder : reminder = normalForm
      { linkTo (keepLink (.fromReminder r) (withDefaultRange asked)) stored accountKey with updatedAt := nowSecs })
    (hmem : reminder ∈ reminders) : Kept setup ⟨reminders, after⟩ asked reminder := by
  obtain ⟨there, hfound, hlinked⟩ := htaken.found
  have hstored : Calendar.normalizeField stored.id maxReminderIdChars = stored.id := by
    obtain ⟨-, hnormal⟩ := acceptable_of_normalizeCalendarEvent htaken.carries.normal
    simpa only [normalEvent, maxReminderIdChars, maxCalendarRemoteIdChars] using
      (congrArg CalendarEvent.id hnormal).symm
  have hasked : askedEvent (.fromReminder r) asked r.calendarProvider = normalEvent _ :=
    congrArg normalEvent (keptEvent_eq h.link asked r.calendarProvider)
  refine ⟨hmem, there, stored, hlinked _ ?_ ?_ ?_, hfound, ?_, ?_, ?_, ?_⟩
  · have hprovider := (normalFields h.normal).provider
    rw [← htaken.sentTo] at hprovider
    simpa only [hreminder, ReminderCalendarLink.fromReminder, normalForm, linkTo, normalizeField_eq, htaken.sentTo] using
      hprovider
  · simpa only [hreminder, ReminderCalendarLink.fromReminder, normalForm, linkTo, normalizeField_eq] using htaken.account
  · simpa only [hreminder, ReminderCalendarLink.fromReminder, normalForm, linkTo, normalizeField_eq] using hstored
  · rw [htaken.carries.startAt, hasked, hreminder, keepLink_eq h.link]
    simp only [normalEvent, normalForm, linkTo]
  · rw [htaken.carries.location, hasked]
    simp only [normalEvent]
  · rw [htaken.carries.notes, hasked]
    simp only [normalEvent]
  · intro hgiven
    have htimezone := htaken.carries.timezone
    rw [hasked] at htimezone
    simpa only [normalEvent] using htimezone hgiven

theorem movesSafely_of_left
    (hupdate : setup.update faults w channel chatId obj nowSecs = (⟨w.reminders, calendars⟩, .error stop)) :
    MovesSafely setup faults w channel chatId obj nowSecs r place event ↔ calendars.find place = some event ∧
      ∀ asked, OnlyMoves obj → patchReminder obj r = .ok (asked, true) → ¬ AllSucceed setup faults asked := by
  constructor
  · intro h
    refine ⟨?_, fun asked hmoves hpatch hall => ?_⟩
    · have hsame := (h.failure stop (by rw [hupdate])).2
      rwa [hupdate] at hsame
    · obtain ⟨reminder, hok⟩ := h.moves asked hmoves hpatch hall
      rw [hupdate] at hok
      cases hok
  · rintro ⟨hsame, hmoves⟩
    refine ⟨fun reminder hok => ?_, fun stop _ => ?_, fun asked honly hpatch hall => ?_⟩
    · rw [hupdate] at hok
      cases hok
    · rw [hupdate]
      exact ⟨rfl, hsame⟩
    · exact absurd hall (hmoves asked honly hpatch)

theorem movesSafely_of_done (hupdate : setup.update faults w channel chatId obj nowSecs = (w', .ok reminder))
    (hkept : trimStr reminder.calendarProvider ≠ "" → ∃ asked changed, patchReminder obj r = .ok (asked, changed) ∧
      Kept setup w' asked reminder) : MovesSafely setup faults w channel chatId obj nowSecs r place event := by
  refine ⟨fun reminder' hok hprovider => ?_, fun stop herror => ?_, fun _ _ _ _ => ?_⟩
  · rw [hupdate] at hok ⊢
    obtain rfl := Except.ok.inj hok
    exact hkept hprovider
  · rw [hupdate] at herror
    cases herror
  · rw [hupdate]
    exact ⟨reminder, rfl⟩

section
variable (hall : AllSucceed setup faults asked)
include hall

theorem erases_of_allSucceed (link : ReminderCalendarLink) : Erases setup faults link := by
  rw [Erases, hall.calendars]
  split
  · exact ⟨hall.hasLocal, rfl⟩
  · exact ⟨hall.hasService, rfl⟩

theorem not_refuses_of_allSucceed (provider : String) : ¬ Refuses setup faults provider := by
  rw [Refuses, hall.calendars, hall.hasLocal, hall.hasService]
  split
  · simp
  · simp

theorem completes_of_allSucceed (provider : String) : Completes faults provider true := by
  rw [Completes, hall.calendars, hall.reminders]
  exact ⟨fun _ => rfl, rfl, rfl⟩

end

section
variable (h : Linked setup w channel chatId obj r place event)
include h

/-- Where the request takes the provider away: the event is gone before the store is asked. -/
theorem movesSafely_iff_of_dropped
    (hget : faults.reminders.get = none) (hpatch : patchReminder obj r = .ok (asked, changed))
    (hnone : desiredCalendarProvider asked = none) :
    MovesSafely setup faults w channel chatId obj nowSecs r place event ↔
      (Erases setup faults (.fromReminder r) → asked.atUnixSecs ≠ 0 ∧ faults.reminders.upsert = none) := by
  obtain ⟨hr, -⟩ := acceptable_of_normalizeReminderItem h.normal
  have hpatched := patchReminder_eq_ok hr hpatch
  obtain rfl : changed = true := by
    apply hpatched.provider
    intro hsame
    have hblank : trimStr r.calendarProvider = "" := by
      rw [← hsame]
      by_contra hgiven
      simp [desiredCalendarProvider, hgiven] at hnone
    have := h.link
    simp [ReminderCalendarLink.isEmpty, ReminderCalendarLink.fromReminder, hblank] at this
  have hupdate := update_of_patched nowSecs h hget hpatch
  by_cases herases : Erases setup faults (.fromReminder r)
  · obtain ⟨after, hdelete, hgone⟩ := deleteCalendarLink_erases w.calendars h.link h.placed herases
    obtain ⟨hfails, hdone⟩ := afterPatch_dropped nowSecs h hpatched (applyCalendarLink_dropped hnone hdelete)
    by_cases hgood : asked.atUnixSecs ≠ 0 ∧ faults.reminders.upsert = none
    · obtain ⟨w', reminder, hafter, hblank⟩ := hdone hgood
      exact iff_of_true (movesSafely_of_done (hupdate.trans hafter) fun hprovider => absurd hblank hprovider) fun _ => hgood
    · obtain ⟨stop, hafter⟩ := hfails hgood
      rw [movesSafely_of_left (hupdate.trans hafter), hgone]
      exact iff_of_false (fun hsame => by cases hsame.1) fun hsafe => hgood (hsafe herases)
  · refine iff_of_true ?_ fun h => absurd h herases
    have hspares := deleteCalendarLink_spares w.calendars herases
    have hleft : ∀ {stop : RemindStop}, setup.afterPatch faults w nowSecs asked true (.fromReminder r) =
        (⟨w.reminders, w.calendars⟩, .error stop) →
          MovesSafely setup faults w channel chatId obj nowSecs r place event := fun hafter =>
      (movesSafely_of_left (hupdate.trans hafter)).mpr ⟨h.found, fun asked _ _ hall => herases (erases_of_allSucceed hall _)⟩
    rcases hdelete : (setup.tool faults).deleteCalendarLink w.calendars (.fromReminder r) with ⟨after, result⟩
    obtain rfl : after = w.calendars := by rw [← hspares, hdelete]
    cases result with
    | error e =>
      have happly : (setup.tool faults).applyCalendarLink w.calendars asked (.fromReminder r) =
          (w.calendars, asked, .error e) := by
        simp only [RemindAtTool.applyCalendarLink, hnone, hdelete]
      obtain ⟨stop, hafter⟩ := afterPatch_of_left happly nowSecs true
      exact hleft hafter
    | ok _ =>
      obtain ⟨hfails, hdone⟩ := afterPatch_dropped nowSecs h hpatched (applyCalendarLink_dropped hnone hdelete)
      by_cases hgood : asked.atUnixSecs ≠ 0 ∧ faults.reminders.upsert = none
      · obtain ⟨w', reminder, hafter, hblank⟩ := hdone hgood
        exact movesSafely_of_done (hupdate.trans hafter) fun hprovider => absurd hblank hprovider
      · obtain ⟨stop, hafter⟩ := hfails hgood
        exact hleft hafter

/-- Where the link changes: the old event is deleted and no new one written. -/
theorem movesSafely_iff_of_changed
    (hget : faults.reminders.get = none) (hpatch : patchReminder obj r = .ok (asked, changed))
    (hprovider : desiredCalendarProvider asked = some provider)
    (hchanged : linkChanged (.fromReminder r) provider asked = true) :
    MovesSafely setup faults w channel chatId obj nowSecs r place event ↔ ¬ Erases setup faults (.fromReminder r) := by
  have hupdate := update_of_patched nowSecs h hget hpatch
  obtain ⟨left, e, happly⟩ := @applyCalendarLink_changed setup faults w asked provider _ hprovider hchanged
  obtain ⟨stop, hafter⟩ := afterPatch_of_left happly nowSecs changed
  rw [movesSafely_of_left (hupdate.trans hafter)]
  by_cases herases : Erases setup faults (.fromReminder r)
  · obtain ⟨after, hdelete, hgone⟩ := deleteCalendarLink_erases w.calendars h.link h.placed herases
    rw [hdelete, hgone]
    exact iff_of_false (fun hsame => by cases hsame.1) fun hnot => hnot herases
  · rw [deleteCalendarLink_spares w.calendars herases]
    exact iff_of_true ⟨h.found, fun asked _ _ hall => herases (erases_of_allSucceed hall _)⟩ herases

/-- Once the event is written over, a failure is as good as the event is the same. -/
theorem movesSafely_iff_of_failed
    (hget : faults.reminders.get = none) (hpatch : patchReminder obj r = .ok (asked, changed))
    {stored : CalendarEvent} {accountKey : String}
    (htaken : Taken setup faults w r place event asked r.calendarProvider calendars stored accountKey)
    (hafter : setup.afterPatch faults w nowSecs asked changed (.fromReminder r) = (⟨w.reminders, calendars⟩, .error stop))
    (hnot : ¬ Completes faults r.calendarProvider changed) :
    MovesSafely setup faults w channel chatId obj nowSecs r place event ↔
      LeavesAsIs setup (askedEvent (.fromReminder r) asked r.calendarProvider) event place := by
  rw [movesSafely_of_left ((update_of_patched nowSecs h hget hpatch).trans hafter), htaken.same]
  refine ⟨fun hsafe => hsafe.1, fun hleaves => ⟨hleaves, fun asked' _ hpatch' hall => ?_⟩⟩
  rw [hpatch] at hpatch'
  obtain ⟨rfl, rfl⟩ := Prod.mk.inj (Except.ok.inj hpatch')
  exact hnot (completes_of_allSucceed hall _)

theorem movesSafely_iff_of_taken
    (hget : faults.reminders.get = none) (hpatch : patchReminder obj r = .ok (asked, changed))
    (hprovider : desiredCalendarProvider asked = some r.calendarProvider)
    (hkept : linkChanged (.fromReminder r) r.calendarProvider asked = false) (hlasts : Lasts (withDefaultRange asked))
    (htakes : ¬ Refuses setup faults r.calendarProvider) :
    MovesSafely setup faults w channel chatId obj nowSecs r place event ↔
      LeavesAsIs setup (askedEvent (.fromReminder r) asked r.calendarProvider) event place ∨
        Completes faults r.calendarProvider changed := by
  obtain ⟨hr, -⟩ := acceptable_of_normalizeReminderItem h.normal
  have hpatched := patchReminder_eq_ok hr hpatch
  obtain ⟨after, stored, accountKey, htaken⟩ := taken_of_kept h hpatched.context hlasts hkept htakes
  have hfailed : ∀ {stop : RemindStop}, setup.afterPatch faults w nowSecs asked changed (.fromReminder r) =
      (⟨w.reminders, after⟩, .error stop) → ¬ Completes faults r.calendarProvider changed →
        (MovesSafely setup faults w channel chatId obj nowSecs r place event ↔
          LeavesAsIs setup (askedEvent (.fromReminder r) asked r.calendarProvider) event place ∨
            Completes faults r.calendarProvider changed) := fun hafter hnot => by
    rw [movesSafely_iff_of_failed h hget hpatch htaken hafter hnot]
    exact ⟨.inl, fun hor => hor.resolve_right hnot⟩
  by_cases hreads : r.calendarProvider = calendarProviderLocal → faults.calendars.localGet = none
  · have happly := applyCalendarLink_kept h.link hprovider hkept (htaken.answered hreads)
    cases changed with
    | false =>
      obtain ⟨stop, hfinish⟩ := @finishUpdate_unchanged nowSecs
        (linkTo (keepLink (.fromReminder r) (withDefaultRange asked)) stored accountKey)
      exact hfailed (afterPatch_of_unfinished happly hfinish) fun hdone => Bool.false_ne_true hdone.2.1
    | true =>
      have hlinked := acceptable_linked hr hpatched h.link hlasts stored accountKey
      obtain ⟨hfails, hstores⟩ := @afterPatch_stores setup faults w channel chatId obj nowSecs r asked place event after h
        _ _ _ hlinked (by rw [keepLink_eq h.link, withDefaultRange_eq]; exact hpatched.id)
        (by rw [keepLink_eq h.link, withDefaultRange_eq]; exact hpatched.channel)
        (by rw [keepLink_eq h.link, withDefaultRange_eq]; exact hpatched.chatId) happly
      by_cases hfault : faults.reminders.upsert = none
      · obtain ⟨reminders, hafter, hmem⟩ := hstores hfault
        refine iff_of_true (movesSafely_of_done ((update_of_patched nowSecs h hget hpatch).trans hafter) fun _ => ?_)
          (.inr ⟨hreads, rfl, hfault⟩)
        exact ⟨asked, true, hpatch, kept_of_taken h htaken rfl hmem⟩
      · obtain ⟨stop, hafter⟩ := hfails hfault
        exact hfailed hafter fun hdone => hfault hdone.2.2
  · obtain ⟨e, hwrite⟩ := htaken.failed hreads
    obtain ⟨stop, hafter⟩ := afterPatch_of_left (applyCalendarLink_kept h.link hprovider hkept hwrite) nowSecs changed
    exact hfailed hafter fun hdone => hreads hdone.1

/-- Where the link stays: the event is written over, and nothing that follows may fail. -/
theorem movesSafely_iff_of_kept
    (hget : faults.reminders.get = none) (hpatch : patchReminder obj r = .ok (asked, changed))
    (hprovider : desiredCalendarProvider asked = some provider)
    (hkept : linkChanged (.fromReminder r) provider asked = false) :
    MovesSafely setup faults w channel chatId obj nowSecs r place event ↔
      (Lasts (withDefaultRange asked) → Refuses setup faults provider ∨
        LeavesAsIs setup (askedEvent (.fromReminder r) asked provider) event place ∨
          Completes faults provider changed) ∧
      (¬ Lasts (withDefaultRange asked) → ¬ (OnlyMoves obj ∧ changed = true ∧ AllSucceed setup faults asked)) := by
  obtain ⟨hr, -⟩ := acceptable_of_normalizeReminderItem h.normal
  have hpatched := patchReminder_eq_ok hr hpatch
  have hupdate := update_of_patched nowSecs h hget hpatch
  obtain ⟨rfl, -⟩ := provider_of_kept h.link hkept
  simp only [ReminderCalendarLink.fromReminder] at hprovider hkept ⊢
  by_cases hlasts : Lasts (withDefaultRange asked)
  · by_cases hrefuses : Refuses setup faults r.calendarProvider
    · obtain ⟨e, hwrite⟩ := @writeCalendarEvent_refused setup faults w.calendars _ _ _ false
        (normalizeCalendarEvent_asked h hpatched.context hlasts r.calendarProvider) hrefuses
      obtain ⟨stop, hafter⟩ := afterPatch_of_left (applyCalendarLink_kept h.link hprovider hkept hwrite) nowSecs changed
      rw [movesSafely_of_left (hupdate.trans hafter)]
      exact iff_of_true ⟨h.found, fun asked' _ _ hall => not_refuses_of_allSucceed hall _ hrefuses⟩
        ⟨fun _ => .inl hrefuses, fun hnot => absurd hlasts hnot⟩
    · rw [movesSafely_iff_of_taken h hget hpatch hprovider hkept hlasts hrefuses]
      exact ⟨fun hsafe => ⟨fun _ => .inr hsafe, fun hnot => absurd hlasts hnot⟩,
        fun hsafe => (hsafe.1 hlasts).resolve_left hrefuses⟩
  · obtain ⟨e, hwrite⟩ := @writeCalendarEvent_invalid setup faults w channel chatId obj r asked place event h
      hpatched.context hlasts r.calendarProvider
    obtain ⟨stop, hafter⟩ := afterPatch_of_left (applyCalendarLink_kept h.link hprovider hkept hwrite) nowSecs changed
    rw [movesSafely_of_left (hupdate.trans hafter)]
    constructor
    · rintro ⟨-, hmoves⟩
      refine ⟨fun hyes => absurd hyes hlasts, fun _ => ?_⟩
      rintro ⟨honly, rfl, hall⟩
      exact hmoves asked honly hpatch hall
    · rintro ⟨-, hnot⟩
      refine ⟨h.found, fun asked' honly hpatch' hall => ?_⟩
      rw [hpatch] at hpatch'
      obtain ⟨rfl, rfl⟩ := Prod.mk.inj (Except.ok.inj hpatch')
      exact hnot hlasts ⟨honly, rfl, hall⟩

end

end

/-- An update keeps the event of a linked reminder exactly where it deletes nothing that it needs
again and nothing fails behind what it has written or deleted. -/
theorem movesSafely_iff (setup : Setup) (faults : UpdateFaults) (w : World) (channel chatId : String) (obj : ToolArgs)
    (nowSecs : Nat) (r : ReminderItem) (place : EventPlace) (event : CalendarEvent)
    (h : Linked setup w channel chatId obj r place event) :
    MovesSafely setup faults w channel chatId obj nowSecs r place event ↔ KeepsWhen setup faults obj r place event := by
  cases hget : faults.reminders.get with
  | some e =>
    have hupdate := @update_of_unread setup faults w channel chatId obj nowSecs r place event h e hget
    refine iff_of_true ?_ fun hnone => by cases hget.symm.trans hnone
    rw [@movesSafely_of_left setup faults w channel chatId obj nowSecs r place event w.calendars _ hupdate]
    refine ⟨h.found, fun asked _ _ hall => ?_⟩
    rw [hall.reminders] at hget
    cases hget
  | none =>
    cases hpatch : patchReminder obj r with
    | error e =>
      have hupdate := @update_of_unpatched setup faults w channel chatId obj nowSecs r place event h hget e hpatch
      refine iff_of_true ?_ fun _ asked changed hok => by cases hpatch.symm.trans hok
      rw [@movesSafely_of_left setup faults w channel chatId obj nowSecs r place event w.calendars _ hupdate]
      exact ⟨h.found, fun asked _ hok _ => by cases hpatch.symm.trans hok⟩
    | ok patched =>
      obtain ⟨asked, changed⟩ := patched
      have hcond : KeepsWhen setup faults obj r place event ↔ KeepsPatched setup faults obj r place event asked changed := by
        refine ⟨fun hkeeps => hkeeps hget asked changed hpatch, fun hkeeps _ asked' changed' hpatch' => ?_⟩
        rw [hpatch] at hpatch'
        obtain ⟨rfl, rfl⟩ := Prod.mk.inj (Except.ok.inj hpatch')
        exact hkeeps
      rw [hcond, KeepsPatched]
      cases hprovider : desiredCalendarProvider asked with
      | none => exact movesSafely_iff_of_dropped h hget hpatch hprovider
      | some provider =>
        simp only
        cases hchanged : linkChanged (.fromReminder r) provider asked with
        | true =>
          rw [if_pos rfl]
          exact movesSafely_iff_of_changed h hget hpatch hprovider hchanged
        | false =>
          rw [if_neg Bool.false_ne_true]
          exact movesSafely_iff_of_kept h hget hpatch hprovider hchanged

/-- A provider with one account, which keeps events as it is given them. -/
def oneAccount : Providers where
  account provider _ := if normalizeProvider provider = provider then some "main" else none
  stored key event _ := { event with provider := normalizeProvider key.provider }
  account_kept provider given key h := by
    by_cases hnormal : normalizeProvider provider = provider
    · rw [if_pos hnormal] at h ⊢
      obtain rfl := Option.some.inj h
      exact ⟨by decide, by decide, rfl⟩
    · rw [if_neg hnormal] at h
      cases h
  stored_carries key event isCreate h := by
    obtain ⟨hevent, hnormal⟩ := acceptable_of_normalizeCalendarEvent h
    have hsent : AcceptableEvent { event with provider := normalizeProvider key.provider } :=
      ⟨hevent.id, hevent.title, hevent.start, hevent.range⟩
    refine ⟨?_, rfl, rfl, rfl, fun _ => rfl⟩
    rw [normalizeCalendarEvent_of_acceptable hsent]
    simp only [normalEvent, normalizeProvider_idem] at hnormal ⊢
    rw [hnormal]
    simp only [normalizeField_idem]
  stored_provider given key event isCreate h := by
    by_cases hnormal : normalizeProvider key.provider = key.provider
    · simpa only using hnormal
    · rw [if_neg hnormal] at h
      cases h

def linkedReminder : ReminderItem :=
  { ReminderItem.default with
    id := "rem_1", channel := "qq", chatId := "c", atUnixSecs := 100, context := "call", updatedAt := 50
    calendarEventId := "remcal_rem_1", calendarProvider := "local"
    calendarStartAtUnixSecs := 100, calendarEndAtUnixSecs := 1000 }

def linkedEvent : CalendarEvent :=
  normalEvent (calendarEvent linkedReminder calendarProviderLocal)

def linkedWorld : World := ⟨[linkedReminder], ⟨Finmap.singleton "remcal_rem_1" linkedEvent, ∅⟩⟩

def noUpdateFaults : UpdateFaults := ⟨⟨none, none, none⟩, ⟨none, none, none, none, none, none⟩⟩

def oneAccountSetup : Setup := ⟨oneAccount, firstById, true, true⟩

def updateArgs (key value : String) : ToolArgs :=
  [(Json.string "id".toList, .str (Json.string "rem_1".toList)), (Json.string key.toList, .str (Json.string value.toList))]

theorem normalize_linkedReminder : (normalizeReminderItem linkedReminder).toOption = some linkedReminder := by
  decide

theorem linked_linkedWorld {obj : ToolArgs} (hid : obj.requiredStr "id" = some "rem_1")
    (hclear : obj.flag "clear_calendar" = false) :
    Linked oneAccountSetup linkedWorld "qq" "c" obj linkedReminder (.here "remcal_rem_1") linkedEvent where
  stored := ⟨"rem_1", hid, by decide⟩
  normal := eq_ok_of_toOption normalize_linkedReminder
  link := by decide
  placed := placeOf_local (by decide)
  found := Finmap.lookup_singleton_eq
  fits := by
    show (Finmap.singleton "remcal_rem_1" linkedEvent).keys.card ≤ maxCalendarEvents
    rw [Finmap.keys_singleton, Finset.card_singleton]
    decide
  keepsCalendar := hclear

/-- The reminder with the provider that the request names. -/
def movedReminder : ReminderItem := { linkedReminder with calendarProvider := "google_calendar" }

/-- The reminder is to go to another provider, and every operation would succeed. -/
theorem moved_reminder_loses_event : ¬ ∀ (setup : Setup) (faults : UpdateFaults) (w : World) (channel chatId : String)
    (obj : ToolArgs) (nowSecs : Nat) (r : ReminderItem) (place : EventPlace) (event : CalendarEvent),
    Linked setup w channel chatId obj r place event →
      MovesSafely setup faults w channel chatId obj nowSecs r place event := by
  intro hall
  have hlinked := @linked_linkedWorld (updateArgs "calendar_provider" "google_calendar") (by decide)
    (by decide)
  have hpatch : patchReminder (updateArgs "calendar_provider" "google_calendar") linkedReminder =
      .ok (movedReminder, true) := eq_ok_of_toOption (by decide)
  have hprovider : desiredCalendarProvider movedReminder = some "google_calendar" := by decide
  have hchanged : linkChanged (.fromReminder linkedReminder) "google_calendar" movedReminder = true := by decide
  have hsafe := hall _ noUpdateFaults _ _ _ _ 60 _ _ _ hlinked
  rw [movesSafely_iff_of_changed hlinked rfl hpatch hprovider hchanged] at hsafe
  exact hsafe (by rw [Erases, if_pos (by decide)]; exact ⟨rfl, rfl⟩)

def renamedReminder : ReminderItem := { linkedReminder with context := "ring" }

theorem renamed_reminder_keeps_event :
    MovesSafely oneAccountSetup noUpdateFaults linkedWorld "qq" "c" (updateArgs "context" "ring") 60 linkedReminder
      (.here "remcal_rem_1") linkedEvent := by
  rw [movesSafely_iff _ _ _ _ _ _ _ _ _ _ (linked_linkedWorld (by decide) (by decide))]
  have hpatch : patchReminder (updateArgs "context" "ring") linkedReminder = .ok (renamedReminder, true) :=
    eq_ok_of_toOption (by decide)
  intro _ asked changed hasked
  rw [hpatch] at hasked
  obtain ⟨rfl, rfl⟩ := Prod.mk.inj (Except.ok.inj hasked)
  have hprovider : desiredCalendarProvider renamedReminder = some calendarProviderLocal := by decide
  have hkept : linkChanged (.fromReminder linkedReminder) calendarProviderLocal renamedReminder = false := by decide
  simp only [KeepsPatched, hprovider, hkept, Bool.false_eq_true, if_false]
  refine ⟨fun _ => .inr (.inr ⟨fun _ => rfl, rfl, rfl⟩), fun hnot => absurd ⟨?_, ?_⟩ hnot⟩
  · decide
  · decide

end Beetle.Tools.RemindAt
