import Beetle.Util

/-! Reminders and the form they are stored in. -/
namespace Beetle.Reminder

def maxReminderIdChars : Nat := 128
def maxReminderChannelChars : Nat := 32
def maxReminderChatIdChars : Nat := 160
def maxReminderProviderChars : Nat := 32
def maxReminderAccountKeyChars : Nat := 128
def maxReminderTargetIdChars : Nat := 64
def maxReminderRemoteIdChars : Nat := 128
def remindAtMaxContextLen : Nat := 512

structure ReminderItem where
  id : String
  channel : String
  chatId : String
  atUnixSecs : Nat
  context : String
  calendarEventId : String
  calendarProvider : String
  calendarAccountKey : String
  calendarCalendarId : String
  calendarRemoteId : String
  calendarStartAtUnixSecs : Nat
  calendarEndAtUnixSecs : Nat
  calendarTimezone : String
  calendarLocation : String
  calendarNotes : String
  updatedAt : Nat
  deriving DecidableEq

def ReminderItem.default : ReminderItem :=
  ⟨"", "", "", 0, "", "", "", "", "", "", 0, 0, "", "", "", 0⟩

def normalizeField (value : String) (maxChars : Nat) : String :=
  trimStr (truncateContentToMax (trimStr value) maxChars)

def normalizeReminderItem (item : ReminderItem) : Except Error ReminderItem :=
  let id := normalizeField item.id maxReminderIdChars
  if id = "" then .error (.config "id must not be empty" "reminder_item")
  else
    let channel := normalizeField item.channel maxReminderChannelChars
    if channel = "" then .error (.config "channel must not be empty" "reminder_item")
    else
      let chatId := normalizeField item.chatId maxReminderChatIdChars
      if chatId = "" then .error (.config "chat_id must not be empty" "reminder_item")
      else if item.atUnixSecs = 0 then .error (.config "at_unix_secs must be > 0" "reminder_item")
      else
        let context := normalizeField item.context remindAtMaxContextLen
        if context = "" then .error (.config "context must not be empty" "reminder_item")
        else if item.calendarStartAtUnixSecs = 0 ∧ item.calendarEndAtUnixSecs ≠ 0 then
          .error (.config "calendar_start_at_unix_secs must be set when calendar_end_at_unix_secs is set"
            "reminder_item")
        else if item.calendarStartAtUnixSecs ≠ 0 ∧ item.calendarEndAtUnixSecs = 0 then
          .error (.config "calendar_end_at_unix_secs must be set when calendar_start_at_unix_secs is set"
            "reminder_item")
        else if item.calendarStartAtUnixSecs ≠ 0 ∧ item.calendarEndAtUnixSecs ≤ item.calendarStartAtUnixSecs then
          .error (.config "calendar_end_at_unix_secs must be greater than calendar_start_at_unix_secs"
            "reminder_item")
        else
          .ok { item with
            id, channel, chatId, context
            calendarEventId := normalizeField item.calendarEventId maxReminderIdChars
            calendarProvider := normalizeField item.calendarProvider maxReminderProviderChars
            calendarAccountKey := normalizeField item.calendarAccountKey maxReminderAccountKeyChars
            calendarCalendarId := normalizeField item.calendarCalendarId maxReminderTargetIdChars
            calendarRemoteId := normalizeField item.calendarRemoteId maxReminderRemoteIdChars
            calendarTimezone := normalizeField item.calendarTimezone remindAtMaxContextLen
            calendarLocation := normalizeField item.calendarLocation remindAtMaxContextLen
            calendarNotes := normalizeField item.calendarNotes remindAtMaxContextLen }

end Beetle.Reminder
