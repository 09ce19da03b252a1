import Beetle.Calendar
import Beetle.Lib.Search
import Beetle.Lib.Trim

/-! iCalendar objects, as the CalDAV provider writes and reads them. -/
namespace Beetle.Calendar.Caldav
open Beetle.Lib

/-- How a call ends that has no result: with an error, with a panic at a slice of a text, or with a number that is over
the range of its type (a panic where that is checked, another number where it is not). -/
inductive Fault where
  | error (e : Error)
  | panic
  | overflow

def icalError (message : String) : Fault := .error (.config message "caldav_ical_parse")

/-! Writing. -/

/-- `{:0width}` of a number. -/
def padded (width n : Nat) : List Char := List.replicate (width - (decimal n).length) '0' ++ decimal n

/-! Lines and properties. -/

/-- `\r\n` and `\r` become `\n`. -/
def newlines : List Char → List Char
  | '\r' :: '\n' :: cs => '\n' :: newlines cs
  | '\r' :: cs => '\n' :: newlines cs
  | c :: cs => c :: newlines cs
  | [] => []

/-- `str::lines` of a text without `\r`. -/
def textLines (cs : List Char) : List (List Char) :=
  let parts := cs.splitOn '\n'
  if parts.getLast? = some [] then parts.dropLast else parts

def trimStart (cs : List Char) : List Char := cs.dropWhile isWhitespace

/-- One turn of the loop of `unfold_ical_lines`. -/
def unfoldLine (lines : List (List Char)) (raw : List Char) : List (List Char) :=
  if raw.head? = some ' ' ∨ raw.head? = some '\t' then
    match lines.getLast? with
    | some last => lines.dropLast ++ [last ++ trimStart raw]
    | none => lines
  else lines ++ [raw]

def unfoldIcalLines (text : List Char) : List (List Char) := (textLines (newlines text)).foldl unfoldLine []

/-- The parameters of a property; the last one of a name counts. -/
abbrev Params := List (List Char × List Char)

def Params.get (params : Params) (key : String) : Option (List Char) := (params.reverse.lookup key.toList)

structure Property where
  name : List Char
  params : Params
  value : List Char

def parseParams : List (List Char) → Option Params
  | [] => some []
  | part :: parts => do
    let (key, value) ← splitOnce '=' part
    let params ← parseParams parts
    some ((trim key, trim value) :: params)

def parseIcalProperty (line : List Char) : Option Property := do
  let (nameAndParams, value) ← splitOnce ':' line
  match nameAndParams.splitOn ';' with
  | [] => none
  | name :: parts =>
    let params ← parseParams parts
    some ⟨trim name, params, value⟩

def unescapeIcalText : List Char → List Char
  | '\\' :: 'n' :: cs | '\\' :: 'N' :: cs => '\n' :: unescapeIcalText cs
  | '\\' :: other :: cs => other :: unescapeIcalText cs
  | ['\\'] => []
  | c :: cs => c :: unescapeIcalText cs
  | [] => []

/-! Dates and durations. -/

/-- `parse::<i32>` of a text that is not empty. -/
def parseI32 (cs : List Char) : Option Int :=
  match cs with
  | '-' :: digits => if digits.head? = some '+' then none else (parseUnsigned 31 digits).map fun (n : Nat) => -(n : Int)
  | cs => (parseUnsigned 31 cs).map fun (n : Nat) => (n : Int)

def daysFromEpoch (year : Int) (month day : Nat) : Int :=
  (((List.range' 1970 (year.toNat - 1970)).map daysInYear).sum + ((monthDays year.natAbs).take (month - 1)).sum : Nat) + day - 1

/-- The days are taken as a `u64`, whatever their sign. -/
def ymdhmsToEpoch (year : Int) (month day hour min sec : Nat) : Except Fault Nat :=
  let days := (daysFromEpoch year month day % 2 ^ 64).toNat
  let secs := days * 86400 + hour * 3600 + min * 60 + sec
  if 2 ^ 64 ≤ secs then .error .overflow else .ok secs

/-- A number at a fixed place of the text. -/
def numberAt {α : Type} (parse : List Char → Option α) (text : List Char) (start stop : Nat) : Except Fault α :=
  match slice text start stop with
  | none => .error .panic
  | some part =>
    match parse part with
    | none => .error (icalError "invalid digit found in string")
    | some n => .ok n

def parseIcalDatetime (value : List Char) (tzid : Option (List Char)) : Except Fault (Nat × List Char) :=
  let trimmed := trim value
  let zone := tzid.getD "UTC".toList
  if (utf8 trimmed).length = 8 then do
    let year ← numberAt parseI32 trimmed 0 4
    let month ← numberAt parseU32 trimmed 4 6
    let day ← numberAt parseU32 trimmed 6 8
    let epoch ← ymdhmsToEpoch year month day 0 0 0
    .ok (epoch, zone)
  else if (utf8 trimmed).length < 15 then .error (icalError ("unsupported datetime value: " ++ String.ofList trimmed))
  else do
    let core := trimmed.rdropWhile (· = 'Z')
    let year ← numberAt parseI32 core 0 4
    let month ← numberAt parseU32 core 4 6
    let day ← numberAt parseU32 core 6 8
    let hour ← numberAt parseU32 core 9 11
    let min ← numberAt parseU32 core 11 13
    let sec ← numberAt parseU32 core 13 15
    let epoch ← ymdhmsToEpoch year month day hour min sec
    .ok (epoch, if trimmed.getLast? = some 'Z' then "UTC".toList else zone)

/-- Where the loop of `parse_ical_duration` is. -/
structure DurationState where
  total : Nat
  number : List Char
  inTime : Bool

/-- The seconds of a unit; hours, minutes and seconds are for the part behind a `T`. -/
def unitSeconds (inTime : Bool) (ch : Char) : Option Nat :=
  if ch = 'D' then some 86400
  else if inTime then
    if ch = 'H' then some 3600 else if ch = 'M' then some 60 else if ch = 'S' then some 1 else none
  else none

/-- One turn of the loop; `none` is the early return. -/
def durationStep (st : DurationState) (ch : Char) : Except Fault (Option DurationState) :=
  if ch = 'T' then .ok (some { st with inTime := true })
  else if ch.isDigit then .ok (some { st with number := st.number ++ [ch] })
  else
    match unitSeconds st.inTime ch with
    | none => .ok none
    | some seconds =>
      match parseUnsigned 64 st.number with
      | none => .ok none
      | some n =>
        if 2 ^ 64 ≤ n * seconds then .error .overflow
        else if 2 ^ 64 ≤ st.total + n * seconds then .ok none
        else .ok (some ⟨st.total + n * seconds, [], st.inTime⟩)

def durationLoop : DurationState → List Char → Except Fault (Option Nat)
  | st, [] => .ok (some st.total)
  | st, ch :: rest =>
    match durationStep st ch with
    | .ok (some st) => durationLoop st rest
    | .ok none => .ok none
    | .error fault => .error fault

def parseIcalDuration (value : List Char) : Except Fault (Option Nat) :=
  match trim value with
  | 'P' :: rest => durationLoop ⟨0, [], false⟩ rest
  | _ => .ok none

/-! Events. -/

/-- What the loop of `parse_ical_event` has read. -/
structure EventState where
  inEvent : Bool
  title : List Char
  location : List Char
  notes : List Char
  uid : List Char
  timezone : List Char
  startAtUnixSecs : Option Nat
  endAtUnixSecs : Option Nat
  status : CalendarEventStatus
  durationSecs : Option Nat

def EventState.start : EventState := ⟨false, [], [], [], [], [], none, none, .confirmed, none⟩

def eqIgnoreAsciiCase (a b : List Char) : Bool := a.map Char.toLower = b.map Char.toLower

def EventState.withTimezone (st : EventState) (timezone : List Char) : EventState :=
  if st.timezone = [] then { st with timezone } else st

@[grind =] def EventState.read (st : EventState) (property : Property) : Except Fault EventState :=
  if property.name = "UID".toList then .ok { st with uid := property.value }
  else if property.name = "SUMMARY".toList then .ok { st with title := unescapeIcalText property.value }
  else if property.name = "LOCATION".toList then .ok { st with location := unescapeIcalText property.value }
  else if property.name = "DESCRIPTION".toList then .ok { st with notes := unescapeIcalText property.value }
  else if property.name = "STATUS".toList then
    .ok (if eqIgnoreAsciiCase property.value "CANCELLED".toList then { st with status := .cancelled } else st)
  else if property.name = "DTSTART".toList then do
    let (epoch, timezone) ← parseIcalDatetime property.value (property.params.get "TZID")
    .ok ({ st with startAtUnixSecs := some epoch }.withTimezone timezone)
  else if property.name = "DTEND".toList then do
    let (epoch, timezone) ← parseIcalDatetime property.value (property.params.get "TZID")
    .ok ({ st with endAtUnixSecs := some epoch }.withTimezone timezone)
  else if property.name = "DURATION".toList then do
    let durationSecs ← parseIcalDuration property.value
    .ok { st with durationSecs }
  else .ok st

/-- What one turn of the loop does: it goes on, or it has come to the end of the event. -/
inductive LineTurn where
  | next (st : EventState)
  | done (st : EventState)

def EventState.readLine (st : EventState) (raw : List Char) : Except Fault LineTurn :=
  let line := trim raw
  if line = "BEGIN:VEVENT".toList then .ok (.next { st with inEvent := true })
  else if line = "END:VEVENT".toList then .ok (.done st)
  else if !st.inEvent ∨ line = [] then .ok (.next st)
  else
    match parseIcalProperty line with
    | none => .ok (.next st)
    | some property => (st.read property).map .next

def readLines : EventState → List (List Char) → Except Fault EventState
  | st, [] => .ok st
  | st, raw :: lines =>
    match st.readLine raw with
    | .ok (.next st) => readLines st lines
    | .ok (.done st) => .ok st
    | .error fault => .error fault

def stripUrlOrigin (url : List Char) : List Char :=
  match splitAtFirst "://".toList url with
  | some (_, rest) => if '/' ∈ rest then rest.dropWhile (· ≠ '/') else ['/']
  | none => url

/-- `decode` is `urlencoding::decode`. -/
def hrefRemoteId (decode : List Char → Option (List Char)) (href : List Char) : Option (List Char) :=
  let segment := (((stripUrlOrigin href).rdropWhile (· = '/')).splitOn '/').getLastD []
  if trim segment = [] then none else some ((decode segment).getD segment)

structure CalendarProviderCredential where
  provider : String
  calendarId : String

def saturatingAdd (a b : Nat) : Nat := min (a + b) (2 ^ 64 - 1)

/-- What `parse_ical_event` makes of what it has read, at the time `now`. -/
def EventState.event (st : EventState) (credential : CalendarProviderCredential) (remoteId : Option (List Char)) (now : Nat) :
    Except Fault CalendarEvent :=
  match st.startAtUnixSecs with
  | none => .error (icalError "VEVENT is missing DTSTART")
  | some startAtUnixSecs =>
    let endAtUnixSecs :=
      (st.endAtUnixSecs.orElse fun _ => st.durationSecs.map (saturatingAdd startAtUnixSecs)).getD (saturatingAdd startAtUnixSecs 3600)
    match remoteId.orElse fun _ => if trim st.uid = [] then none else some (trim st.uid) with
    | none => .error (icalError "VEVENT is missing addressable resource id")
    | some remoteId =>
      let event : CalendarEvent :=
        { id := String.ofList remoteId
          title := if trim st.title = [] then "Untitled event" else String.ofList st.title
          startAtUnixSecs
          endAtUnixSecs
          timezone := String.ofList st.timezone
          location := String.ofList st.location
          notes := String.ofList st.notes
          provider := credential.provider
          calendarId := credential.calendarId
          remoteId := String.ofList remoteId
          status := st.status
          updatedAt := now }
      (normalizeCalendarEvent event).mapError .error

def parseIcalEvent (decode : List Char → Option (List Char)) (now : Nat) (credential : CalendarProviderCredential)
    (href ics : List Char) : Except Fault CalendarEvent := do
  let st ← readLines .start (unfoldIcalLines ics)
  st.event credential (hrefRemoteId decode href) now

end Beetle.Calendar.Caldav
