import Beetle.Calendar
import Beetle.Lib.Trim
import Beetle.Reminder
import Beetle.Task

/-! Normalizing leaves what is normalized as it is. -/
namespace Beetle
open Beetle.Lib

/-- Trimming has nothing to take from this text. -/
def Trimmed (s : String) : Prop := trimStr s = s

theorem trimmed_trimStr (s : String) : Trimmed (trimStr s) := by
  unfold Trimmed trimStr
  rw [String.toList_ofList, trim_eq_trimEnds, trim_eq_trimEnds,
    trimEnds_eq_self (trimEnds_head _ _) (trimEnds_last _ _)]

theorem length_trimStr_le (s : String) : (trimStr s).toList.length ≤ s.toList.length := by
  rw [trimStr, String.toList_ofList, trim_eq_trimEnds]
  exact (trimEnds_part _ _).length_le

variable {s : String} {max : Nat}

theorem truncateContentToMax_eq_self (h : s.toList.length ≤ max) : truncateContentToMax s max = s := by
  rw [truncateContentToMax, List.take_of_length_le h, String.ofList_toList]

theorem normalizeField_eq_self (htrim : Trimmed s) (hlength : s.toList.length ≤ max) :
    Calendar.normalizeField s max = s := by
  rw [Calendar.normalizeField, htrim, truncateContentToMax_eq_self hlength, htrim]

theorem trimmed_normalizeField (s : String) (max : Nat) : Trimmed (Calendar.normalizeField s max) :=
  trimmed_trimStr _

theorem normalizeField_idem (s : String) (max : Nat) :
    Calendar.normalizeField (Calendar.normalizeField s max) max = Calendar.normalizeField s max := by
  apply normalizeField_eq_self (trimmed_normalizeField s max)
  apply (length_trimStr_le _).trans
  rw [truncateContentToMax, String.toList_ofList, List.length_take]
  exact Nat.min_le_left _ _

namespace Reminder

/-- What `normalize_reminder_item` asks of an item. -/
structure Acceptable (item : ReminderItem) : Prop where
  id : normalizeField item.id maxReminderIdChars ≠ ""
  channel : normalizeField item.channel maxReminderChannelChars ≠ ""
  chatId : normalizeField item.chatId maxReminderChatIdChars ≠ ""
  time : item.atUnixSecs ≠ 0
  context : normalizeField item.context remindAtMaxContextLen ≠ ""
  range : item.calendarStartAtUnixSecs = 0 ∧ item.calendarEndAtUnixSecs = 0 ∨
    item.calendarStartAtUnixSecs ≠ 0 ∧ item.calendarStartAtUnixSecs < item.calendarEndAtUnixSecs

/-- What it makes of an item that it accepts. -/
@[grind =] def normalForm (item : ReminderItem) : ReminderItem :=
  { item with
    id := normalizeField item.id maxReminderIdChars
    channel := normalizeField item.channel maxReminderChannelChars
    chatId := normalizeField item.chatId maxReminderChatIdChars
    context := normalizeField item.context remindAtMaxContextLen
    calendarEventId := normalizeField item.calendarEventId maxReminderIdChars
    calendarProvider := normalizeField item.calendarProvider maxReminderProviderChars
    calendarAccountKey := normalizeField item.calendarAccountKey maxReminderAccountKeyChars
    calendarCalendarId := normalizeField item.calendarCalendarId maxReminderTargetIdChars
    calendarRemoteId := normalizeField item.calendarRemoteId maxReminderRemoteIdChars
    calendarTimezone := normalizeField item.calendarTimezone remindAtMaxContextLen
    calendarLocation := normalizeField item.calendarLocation remindAtMaxContextLen
    calendarNotes := normalizeField item.calendarNotes remindAtMaxContextLen }

theorem normalizeReminderItem_of_acceptable {item : ReminderItem} (h : Acceptable item) :
    normalizeReminderItem item = .ok (normalForm item) := by
  have hend : ¬ (item.calendarStartAtUnixSecs = 0 ∧ item.calendarEndAtUnixSecs ≠ 0) := by
    have := h.range
    omega
  have hstart : ¬ (item.calendarStartAtUnixSecs ≠ 0 ∧ item.calendarEndAtUnixSecs = 0) := by
    have := h.range
    omega
  have horder : ¬ (item.calendarStartAtUnixSecs ≠ 0 ∧ item.calendarEndAtUnixSecs ≤ item.calendarStartAtUnixSecs) := by
    have := h.range
    omega
  simp only [normalizeReminderItem, if_neg h.id, if_neg h.channel, if_neg h.chatId, if_neg h.time, if_neg h.context,
    if_neg hend, if_neg hstart, if_neg horder, normalForm]

theorem acceptable_of_normalizeReminderItem {item item' : ReminderItem} (h : normalizeReminderItem item = .ok item') :
    Acceptable item ∧ item' = normalForm item := by
  simp only [normalizeReminderItem] at h
  have hid : normalizeField item.id maxReminderIdChars ≠ "" := fun hid => by simp only [if_pos hid, reduceCtorEq] at h
  rw [if_neg hid] at h
  have hchannel : normalizeField item.channel maxReminderChannelChars ≠ "" := fun hchannel => by
    simp only [if_pos hchannel, reduceCtorEq] at h
  rw [if_neg hchannel] at h
  have hchat : normalizeField item.chatId maxReminderChatIdChars ≠ "" := fun hchat => by
    simp only [if_pos hchat, reduceCtorEq] at h
  rw [if_neg hchat] at h
  have htime : item.atUnixSecs ≠ 0 := fun htime => by simp only [if_pos htime, reduceCtorEq] at h
  rw [if_neg htime] at h
  have hcontext : normalizeField item.context remindAtMaxContextLen ≠ "" := fun hcontext => by
    simp only [if_pos hcontext, reduceCtorEq] at h
  rw [if_neg hcontext] at h
  have hrange : item.calendarStartAtUnixSecs = 0 ∧ item.calendarEndAtUnixSecs = 0 ∨
      item.calendarStartAtUnixSecs ≠ 0 ∧ item.calendarStartAtUnixSecs < item.calendarEndAtUnixSecs := by
    by_contra hrange
    by_cases hend : item.calendarStartAtUnixSecs = 0 ∧ item.calendarEndAtUnixSecs ≠ 0
    · simp only [if_pos hend, reduceCtorEq] at h
    · by_cases hstart : item.calendarStartAtUnixSecs ≠ 0 ∧ item.calendarEndAtUnixSecs = 0
      · simp only [if_neg hend, if_pos hstart, reduceCtorEq] at h
      · have horder : item.calendarStartAtUnixSecs ≠ 0 ∧ item.calendarEndAtUnixSecs ≤ item.calendarStartAtUnixSecs := by
          omega
        simp only [if_neg hend, if_neg hstart, if_pos horder, reduceCtorEq] at h
  have hacceptable : Acceptable item := ⟨hid, hchannel, hchat, htime, hcontext, hrange⟩
  refine ⟨hacceptable, ?_⟩
  have hform := normalizeReminderItem_of_acceptable hacceptable
  simp only [normalizeReminderItem, if_neg hid, if_neg hchannel, if_neg hchat, if_neg htime, if_neg hcontext] at hform
  exact (Except.ok.inj (hform.symm.trans h)).symm

theorem normalizeField_normalizeField (s : String) (max : Nat) :
    normalizeField (normalizeField s max) max = normalizeField s max :=
  normalizeField_idem s max

theorem normalForm_idem (item : ReminderItem) : normalForm (normalForm item) = normalForm item := by
  simp only [normalForm, normalizeField_normalizeField]

theorem Acceptable.of_normalForm {item : ReminderItem} (h : Acceptable item) : Acceptable (normalForm item) := by
  constructor
  · simpa only [normalForm, normalizeField_normalizeField] using h.id
  · simpa only [normalForm, normalizeField_normalizeField] using h.channel
  · simpa only [normalForm, normalizeField_normalizeField] using h.chatId
  · simpa only [normalForm] using h.time
  · simpa only [normalForm, normalizeField_normalizeField] using h.context
  · simpa only [normalForm] using h.range

/-- A stored reminder is stored again as it is. -/
theorem normalizeReminderItem_idem {item item' : ReminderItem} (h : normalizeReminderItem item = .ok item') :
    normalizeReminderItem item' = .ok item' := by
  obtain ⟨hacceptable, rfl⟩ := acceptable_of_normalizeReminderItem h
  rw [normalizeReminderItem_of_acceptable hacceptable.of_normalForm, normalForm_idem]

end Reminder

theorem normalizeField_eq_empty (hmax : 0 < max) : Calendar.normalizeField s max = "" ↔ trimStr s = "" := by
  unfold Calendar.normalizeField
  cases htext : (trimStr s).toList with
  | nil =>
    have hempty : trimStr s = "" := by rw [← String.ofList_toList (s := trimStr s), htext]
    rw [hempty]
    exact iff_of_true (by rw [truncateContentToMax]; simp [trimStr, trim]) rfl
  | cons c cs =>
    have hhead : isWhitespace c = false := by
      apply trimEnds_head isWhitespace s.toList c
      rw [← trim_eq_trimEnds, ← String.toList_ofList (l := trim s.toList)]
      show (trimStr s).toList.head? = some c
      rw [htext, List.head?_cons]
    obtain ⟨n, rfl⟩ := Nat.exists_eq_succ_of_ne_zero hmax.ne'
    obtain ⟨rest, hrest, -⟩ := exists_trim_cons hhead (cs.take n)
    have hne : trimStr (truncateContentToMax (trimStr s) (n + 1)) ≠ "" := by
      intro h
      have := congrArg String.toList h
      rw [truncateContentToMax, htext, List.take_succ_cons, trimStr, String.toList_ofList, String.toList_ofList, hrest] at this
      cases this
    refine iff_of_false hne fun h => ?_
    rw [h] at htext
    cases htext

namespace Calendar

/-- What `normalize_calendar_event` asks of an event. -/
structure AcceptableEvent (event : CalendarEvent) : Prop where
  id : normalizeField event.id maxCalendarRemoteIdChars ≠ ""
  title : normalizeField event.title maxCalendarTitleChars ≠ ""
  start : event.startAtUnixSecs ≠ 0
  range : event.startAtUnixSecs < event.endAtUnixSecs

/-- What it makes of an event that it accepts. -/
def normalEvent (event : CalendarEvent) : CalendarEvent :=
  { event with
    id := normalizeField event.id maxCalendarRemoteIdChars
    title := normalizeField event.title maxCalendarTitleChars
    timezone := normalizeField event.timezone maxCalendarTextChars
    location := normalizeField event.location maxCalendarTextChars
    notes := normalizeField event.notes maxCalendarTextChars
    provider := normalizeProvider event.provider
    calendarId := normalizeField event.calendarId maxCalendarCalendarIdChars
    remoteId := normalizeField event.remoteId maxCalendarRemoteIdChars }

theorem normalizeCalendarEvent_of_acceptable {event : CalendarEvent} (h : AcceptableEvent event) :
    normalizeCalendarEvent event = .ok (normalEvent event) := by
  simp only [normalizeCalendarEvent, if_neg h.id, if_neg h.title, if_neg h.start, if_neg (Nat.not_le.mpr h.range),
    normalEvent]

theorem acceptable_of_normalizeCalendarEvent {event event' : CalendarEvent}
    (h : normalizeCalendarEvent event = .ok event') : AcceptableEvent event ∧ event' = normalEvent event := by
  simp only [normalizeCalendarEvent] at h
  have hid : normalizeField event.id maxCalendarRemoteIdChars ≠ "" := fun hid => by
    simp only [if_pos hid, reduceCtorEq] at h
  rw [if_neg hid] at h
  have htitle : normalizeField event.title maxCalendarTitleChars ≠ "" := fun htitle => by
    simp only [if_pos htitle, reduceCtorEq] at h
  rw [if_neg htitle] at h
  have hstart : event.startAtUnixSecs ≠ 0 := fun hstart => by simp only [if_pos hstart, reduceCtorEq] at h
  rw [if_neg hstart] at h
  have hrange : ¬ event.endAtUnixSecs ≤ event.startAtUnixSecs := fun hrange => by
    simp only [if_pos hrange, reduceCtorEq] at h
  have hacceptable : AcceptableEvent event := ⟨hid, htitle, hstart, Nat.not_le.mp hrange⟩
  refine ⟨hacceptable, ?_⟩
  have hform := normalizeCalendarEvent_of_acceptable hacceptable
  simp only [normalizeCalendarEvent, if_neg hid, if_neg htitle, if_neg hstart] at hform
  exact (Except.ok.inj (hform.symm.trans h)).symm

theorem normalizeProvider_idem (provider : String) :
    normalizeProvider (normalizeProvider provider) = normalizeProvider provider := by
  have hlocal : normalizeField calendarProviderLocal maxCalendarProviderChars = calendarProviderLocal := by decide
  unfold normalizeProvider
  by_cases hempty : normalizeField provider maxCalendarProviderChars = ""
  · simp only [hempty, if_true, hlocal, show calendarProviderLocal ≠ "" by decide, if_false]
  · simp only [hempty, if_false, normalizeField_idem]

/-- A stored event is stored again as it is. -/
theorem normalizeCalendarEvent_idem {event event' : CalendarEvent} (h : normalizeCalendarEvent event = .ok event') :
    normalizeCalendarEvent event' = .ok event' := by
  obtain ⟨hacceptable, rfl⟩ := acceptable_of_normalizeCalendarEvent h
  have hagain : AcceptableEvent (normalEvent event) := by
    constructor
    · simpa only [normalEvent, normalizeField_idem] using hacceptable.id
    · simpa only [normalEvent, normalizeField_idem] using hacceptable.title
    · simpa only [normalEvent] using hacceptable.start
    · simpa only [normalEvent] using hacceptable.range
  rw [normalizeCalendarEvent_of_acceptable hagain]
  simp only [normalEvent, normalizeField_idem, normalizeProvider_idem]

end Calendar
end Beetle
