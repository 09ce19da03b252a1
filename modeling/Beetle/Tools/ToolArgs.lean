import Beetle.Util

/-! What the tools read out of their arguments. -/
namespace Beetle.Tools
open Beetle.Lib

/-- The object that the arguments of a tool are parsed into. -/
abbrev ToolArgs := List (JsonString × Json)

namespace ToolArgs

def get (obj : ToolArgs) (key : String) : Option Json := Json.get obj key.toList

def containsKey (obj : ToolArgs) (key : String) : Bool := (obj.get key).isSome

/-- `Value::as_str` of a field. -/
def str (obj : ToolArgs) (key : String) : Option String := ((obj.get key).bind Json.asString).map String.ofList

/-- A field that has to hold more than white space. -/
def requiredStr (obj : ToolArgs) (key : String) : Option String :=
  ((obj.str key).map trimStr).filter (· ≠ "")

def flag (obj : ToolArgs) (key : String) : Bool := ((obj.get key).bind Json.asBool).getD false

end ToolArgs

theorem eq_ok_of_toOption {ε α : Type} {x : Except ε α} {a : α} (h : x.toOption = some a) : x = .ok a := by
  cases x with
  | error e => cases h
  | ok b => exact congrArg Except.ok (Option.some.inj h)

/-- The text before the last of these characters, and how many bytes that is. -/
def beforeLast (c : Char) (s : List Char) : Option (List Char × Nat) :=
  if c ∈ s then
    let front := ((s.reverse.dropWhile (· ≠ c)).drop 1).reverse
    some (front, (String.ofList front).utf8ByteSize)
  else none

/-- A time without its zone; a `-` that stands early is one of the date. -/
def stripZone (s : List Char) : List Char :=
  let s := s.rdropWhile (· = 'Z')
  match beforeLast '+' s, beforeLast '-' s with
  | some (front, pos), _ => if 10 < pos then front else s
  | none, some (front, pos) => if 16 < pos then front else s
  | none, none => s

def daysFromEpoch (year month day : Nat) : Nat :=
  ((List.range' 1970 (year - 1970)).map daysInYear).sum + ((monthDays year).take (month - 1)).sum + day - 1

def ymdhmsToEpoch (t : Ymdhms) : Nat :=
  daysFromEpoch t.year t.month t.day * 86400 + t.hour * 3600 + t.min * 60 + t.sec

/-- `YYYY-MM-DDTHH:MM:SS`, where there may be more behind the day and the seconds. -/
def parseDateTime (date time : List Char) : Option Ymdhms :=
  match date.splitOn '-', time.splitOn ':' with
  | y :: m :: day :: _, h :: min :: sec :: _ => do
    let year ← parseUnsigned 31 y
    let month ← parseUnsigned 32 m
    let day ← parseUnsigned 32 day
    let hour ← parseUnsigned 32 h
    let min ← parseUnsigned 32 min
    let sec ← parseUnsigned 32 (sec.takeWhile (· ≠ '.'))
    if 1 ≤ month ∧ month ≤ 12 ∧ 1 ≤ day ∧ day ≤ 31 ∧ hour ≤ 23 ∧ min ≤ 59 ∧ sec ≤ 59 then
      some ⟨year, month, day, hour, min, sec⟩
    else none
  | _, _ => none

def parseIso8601 (s : String) : Option Nat :=
  let s := trim s.toList
  match parseUnsigned 64 s with
  | some n => some n
  | none =>
    match splitOnce 'T' (stripZone s) with
    | some (date, time) => (parseDateTime date time).map ymdhmsToEpoch
    | none => none

example : parseIso8601 " 2025-03-10T12:00:00+08:00 " = some 1741608000 := by decide
example : parseIso8601 "2025-03-10" = none := by decide

end Beetle.Tools
