import Beetle.Normalized
import Beetle.Platform.CalendarStore

/-! The local calendar and those of the remote providers, as the tools find them. -/
namespace Beetle.Tools
open Beetle.Lib Beetle.Calendar Beetle.Platform.Storage

/-- A remote event is kept by its provider for an account. -/
structure RemoteKey where
  provider : String
  accountKey : String
  id : String
  deriving DecidableEq

structure Calendars where
  events : HashMap String CalendarEvent
  remote : HashMap RemoteKey CalendarEvent

/-- Where an event is. -/
inductive EventPlace where
  | here (id : String)
  | away (key : RemoteKey)

def Calendars.find (calendars : Calendars) : EventPlace → Option CalendarEvent
  | .here id => calendars.events.lookup id
  | .away key => calendars.remote.lookup key

/-- What a provider stores has the time and the texts that it was given; a provider has a
timezone of its own for an event without one. -/
structure Carries (event stored : CalendarEvent) : Prop where
  normal : normalizeCalendarEvent stored = .ok stored
  startAt : stored.startAtUnixSecs = event.startAtUnixSecs
  location : stored.location = event.location
  notes : stored.notes = event.notes
  timezone : event.timezone ≠ "" → stored.timezone = event.timezone

theorem Carries.refl {event : CalendarEvent} (h : normalizeCalendarEvent event = .ok event) : Carries event event :=
  ⟨h, rfl, rfl, rfl, fun _ => rfl⟩

/-- The routing to the providers and what these make of the events they are given: the account
that is meant by a key or by none, and the event as it is stored, under an id of theirs. -/
structure Providers where
  account : String → Option String → Option String
  stored : RemoteKey → CalendarEvent → Bool → CalendarEvent
  account_kept : ∀ provider given key, account provider given = some key →
    key ≠ "" ∧ Calendar.normalizeField key 128 = key ∧ account provider (some key) = some key
  stored_carries : ∀ key event isCreate, normalizeCalendarEvent event = .ok event →
    Carries event (stored key event isCreate)
  stored_provider : ∀ given key event isCreate, account key.provider given = some key.accountKey →
    (stored key event isCreate).provider = key.provider

/-- Which of the calls on the calendars fail, for one operation of a tool. -/
structure CalendarFaults where
  localGet : Option Error
  localUpsert : Option Error
  localDelete : Option Error
  resolveAccount : Option Error
  remoteUpsert : Option Error
  remoteDelete : Option Error

def localStore (oldest : OldestEvent) (faults : CalendarFaults) : CalendarStore Calendars where
  get c id :=
    let (events, result) := atomically faults.localGet (StorageCalendarStore.getClosure id) c.events
    ({ c with events }, result)
  upsert c event :=
    let (events, result) := atomically faults.localUpsert (StorageCalendarStore.upsertClosure oldest event) c.events
    ({ c with events }, result)
  delete c id :=
    let (events, result) := atomically faults.localDelete (StorageCalendarStore.deleteClosure id) c.events
    ({ c with events }, result)

def unknownAccount {α : Type} : Except Error α := .error (.config "unknown account_key" "calendar_provider")

def remoteService (providers : Providers) (faults : CalendarFaults) : CalendarService Calendars where
  resolveAccountKeyForProvider _ provider given :=
    match faults.resolveAccount, providers.account provider given with
    | some e, _ => .error e
    | none, none => unknownAccount
    | none, some key => .ok (some key)
  upsert c provider given event isCreate :=
    match faults.remoteUpsert, providers.account provider given with
    | some e, _ => (c, .error e)
    | none, none => (c, unknownAccount)
    | none, some key =>
      let stored := providers.stored ⟨provider, key, event.id⟩ event isCreate
      ({ c with remote := c.remote.insert ⟨provider, key, stored.id⟩ stored }, .ok stored)
  delete c provider given id :=
    match faults.remoteDelete, providers.account provider given with
    | some e, _ => (c, .error e)
    | none, none => (c, unknownAccount)
    | none, some key => ({ c with remote := c.remote.erase ⟨provider, key, id⟩ }, .ok true)

end Beetle.Tools
