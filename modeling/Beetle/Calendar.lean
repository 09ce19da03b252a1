import Beetle.Util

/-! Calendar events, and what the tools use of the stores and services that keep them. -/
namespace Beetle.Calendar

def calendarProviderLocal : String := "local"
def maxCalendarTitleChars : Nat := 120
def maxCalendarTextChars : Nat := 512
def maxCalendarProviderChars : Nat := 32
def maxCalendarCalendarIdChars : Nat := 64
def maxCalendarRemoteIdChars : Nat := 128

inductive CalendarEventStatus where
  | confirmed
  | cancelled
  deriving DecidableEq

structure CalendarEvent where
  id : String
  title : String
  startAtUnixSecs : Nat
  endAtUnixSecs : Nat
  timezone : String
  location : String
  notes : String
  provider : String
  calendarId : String
  remoteId : String
  status : CalendarEventStatus
  updatedAt : Nat
  deriving DecidableEq

def normalizeField (value : String) (maxChars : Nat) : String :=
  trimStr (truncateContentToMax (trimStr value) maxChars)

def normalizeProvider (provider : String) : String :=
  let provider := normalizeField provider maxCalendarProviderChars
  if provider = "" then calendarProviderLocal else provider

def normalizeCalendarEvent (event : CalendarEvent) : Except Error CalendarEvent :=
  let id := normalizeField event.id maxCalendarRemoteIdChars
  if id = "" then .error (.config "id must not be empty" "calendar_event")
  else
    let title := normalizeField event.title maxCalendarTitleChars
    if title = "" then .error (.config "title must not be empty" "calendar_event")
    else if event.startAtUnixSecs = 0 then .error (.config "start_at_unix_secs must be > 0" "calendar_event")
    else if event.endAtUnixSecs ≤ event.startAtUnixSecs then
      .error (.config "end_at_unix_secs must be greater than start_at_unix_secs" "calendar_event")
    else
      .ok { event with
        id, title
        timezone := normalizeField event.timezone maxCalendarTextChars
        location := normalizeField event.location maxCalendarTextChars
        notes := normalizeField event.notes maxCalendarTextChars
        provider := normalizeProvider event.provider
        calendarId := normalizeField event.calendarId maxCalendarCalendarIdChars
        remoteId := normalizeField event.remoteId maxCalendarRemoteIdChars }

/-- What the tools call of a store of events. -/
structure CalendarStore (σ : Type) where
  get : σ → String → σ × Except Error (Option CalendarEvent)
  upsert : σ → CalendarEvent → σ × Except Error Unit
  delete : σ → String → σ × Except Error Bool

/-- What they call of the service that routes to the remote providers: the account of a provider
is the given one or the one that the service selects. -/
structure CalendarService (σ : Type) where
  resolveAccountKeyForProvider : σ → String → Option String → Except Error (Option String)
  upsert : σ → String → Option String → CalendarEvent → Bool → σ × Except Error CalendarEvent
  delete : σ → String → Option String → String → σ × Except Error Bool

end Beetle.Calendar
