import Beetle.Lib.Lists
import Beetle.Lib.Text

/-! JSON texts and what they spell. A string keeps whether it was written with
escapes, which decides what a reader that borrows from the text can read. -/
namespace Beetle.Lib

structure JsonString where
  value : List Char
  escaped : Bool
  deriving DecidableEq

def JsonString.consRaw (c : Char) (s : JsonString) : JsonString := ⟨c :: s.value, s.escaped⟩
def JsonString.consEscaped (c : Char) (s : JsonString) : JsonString := ⟨c :: s.value, true⟩

/-- A JSON text as it was read. A number is its literal. -/
inductive Json where
  | null
  | bool (b : Bool)
  | num (literal : List Char)
  | str (s : JsonString)
  | arr (items : List Json)
  | obj (members : List (JsonString × Json))

namespace Json

@[grind =] def isSpace (c : Char) : Bool := c == ' ' || c == '\t' || c == '\n' || c == '\r'

def skipSpace (text : List Char) : List Char := text.dropWhile isSpace

/-! Strings. -/

def hexDigit? (c : Char) : Option Nat :=
  if c.isDigit then some (c.toNat - '0'.toNat)
  else if 'a' ≤ c ∧ c ≤ 'f' then some (c.toNat - 'a'.toNat + 10)
  else if 'A' ≤ c ∧ c ≤ 'F' then some (c.toNat - 'A'.toNat + 10)
  else none

def hex4? (a b c d : Char) : Option Nat := do
  let a ← hexDigit? a
  let b ← hexDigit? b
  let c ← hexDigit? c
  let d ← hexDigit? d
  return ((a * 16 + b) * 16 + c) * 16 + d

def isHighSurrogate (n : Nat) : Bool := 0xd800 ≤ n && n < 0xdc00
def isLowSurrogate (n : Nat) : Bool := 0xdc00 ≤ n && n < 0xe000

/-- The character that a one-letter escape stands for. -/
def shortEscape? (c : Char) : Option Char :=
  match c with
  | '"' => some '"'
  | '\\' => some '\\'
  | '/' => some '/'
  | 'b' => some (Char.ofNat 8)
  | 'f' => some (Char.ofNat 12)
  | 'n' => some '\n'
  | 'r' => some '\r'
  | 't' => some '\t'
  | _ => none

/-- The rest of a string up to its closing quote, and what follows that. A
surrogate stands for a character only as half of a pair. -/
def readChars : List Char → Option (JsonString × List Char)
  | [] => none
  | c :: rest =>
    if c = '"' then some (⟨[], false⟩, rest)
    else if c = '\\' then
      match rest with
      | 'u' :: a :: b :: c :: d :: rest =>
        match hex4? a b c d with
        | none => none
        | some n =>
          if isHighSurrogate n then
            match rest with
            | '\\' :: 'u' :: a :: b :: c :: d :: rest =>
              match hex4? a b c d with
              | none => none
              | some m =>
                if isLowSurrogate m then
                  let c := Char.ofNat (0x10000 + (n - 0xd800) * 0x400 + (m - 0xdc00))
                  (readChars rest).map fun (s, rest) => (s.consEscaped c, rest)
                else none
            | _ => none
          else if isLowSurrogate n then none
          else (readChars rest).map fun (s, rest) => (s.consEscaped (Char.ofNat n), rest)
      | c :: rest =>
        match shortEscape? c with
        | none => none
        | some c => (readChars rest).map fun (s, rest) => (s.consEscaped c, rest)
      | [] => none
    else if c.toNat < 32 then none
    else (readChars rest).map fun (s, rest) => (s.consRaw c, rest)

@[simp] theorem readChars_quote (rest : List Char) : readChars ('"' :: rest) = some (⟨[], false⟩, rest) := by
  rw [readChars.eq_def]
  simp

/-! Numbers. -/

def isNumberChar (c : Char) : Bool := c.isDigit || c == '-' || c == '+' || c == '.' || c == 'e' || c == 'E'

/-- Nothing, or an exponent. -/
def isExponent : List Char → Bool
  | [] => true
  | c :: rest =>
    (c == 'e' || c == 'E') &&
      match rest with
      | [] => false
      | s :: digits =>
        let digits := if s = '+' ∨ s = '-' then digits else s :: digits
        digits ≠ [] && digits.all Char.isDigit

/-- What may follow the integer part. -/
def isFraction : List Char → Bool
  | '.' :: c :: rest => c.isDigit && isExponent (rest.dropWhile Char.isDigit)
  | rest => isExponent rest

def isUnsignedNumber : List Char → Bool
  | [] => false
  | c :: rest =>
    if c = '0' then isFraction rest else c.isDigit && isFraction (rest.dropWhile Char.isDigit)

def isNumber : List Char → Bool
  | '-' :: rest => isUnsignedNumber rest
  | literal => isUnsignedNumber literal

def readNumber (text : List Char) : Option (List Char × List Char) :=
  let literal := text.takeWhile isNumberChar
  if isNumber literal then some (literal, text.dropWhile isNumberChar) else none

def readScalar (text : List Char) : Option (Json × List Char) :=
  match text with
  | 'n' :: 'u' :: 'l' :: 'l' :: rest => some (.null, rest)
  | 't' :: 'r' :: 'u' :: 'e' :: rest => some (.bool true, rest)
  | 'f' :: 'a' :: 'l' :: 's' :: 'e' :: rest => some (.bool false, rest)
  | text => (readNumber text).map fun (literal, rest) => (.num literal, rest)

/-! Values. The depth is how far containers may be nested; the fuel is for the
recursion only, twice the length of the text is enough. -/

mutual

def readValue : Nat → Nat → List Char → Option (Json × List Char)
  | 0, _, _ => none
  | fuel + 1, depth, text =>
    match skipSpace text with
    | [] => none
    | c :: rest =>
      if c = '"' then (readChars rest).map fun (s, rest) => (.str s, rest)
      else if c = '[' then
        match depth with
        | 0 => none
        | depth + 1 =>
          match skipSpace rest with
          | ']' :: rest => some (.arr [], rest)
          | _ => (readItems fuel depth rest).map fun (items, rest) => (.arr items, rest)
      else if c = '\x7b' then
        match depth with
        | 0 => none
        | depth + 1 =>
          match skipSpace rest with
          | '\x7d' :: rest => some (.obj [], rest)
          | _ => (readMembers fuel depth rest).map fun (members, rest) => (.obj members, rest)
      else readScalar (c :: rest)

/-- The items of an array up to its closing bracket; there is at least one. -/
def readItems : Nat → Nat → List Char → Option (List Json × List Char)
  | 0, _, _ => none
  | fuel + 1, depth, text =>
    match readValue fuel depth text with
    | none => none
    | some (item, rest) =>
      match skipSpace rest with
      | ',' :: rest => (readItems fuel depth rest).map fun (items, rest) => (item :: items, rest)
      | ']' :: rest => some ([item], rest)
      | _ => none

def readMembers : Nat → Nat → List Char → Option (List (JsonString × Json) × List Char)
  | 0, _, _ => none
  | fuel + 1, depth, text =>
    match skipSpace text with
    | '"' :: rest =>
      match readChars rest with
      | none => none
      | some (key, rest) =>
        match skipSpace rest with
        | ':' :: rest =>
          match readValue fuel depth rest with
          | none => none
          | some (value, rest) =>
            match skipSpace rest with
            | ',' :: rest => (readMembers fuel depth rest).map fun (members, rest) => ((key, value) :: members, rest)
            | '\x7d' :: rest => some ([(key, value)], rest)
            | _ => none
        | _ => none
    | _ => none

end

/-- A whole text that spells one value. -/
def fromStr (depth : Nat) (text : List Char) : Option Json :=
  match readValue (2 * text.length + 1) depth text with
  | some (json, rest) => if skipSpace rest = [] then some json else none
  | none => none

/-! Reading a value into a type: serde refuses a field that is there twice. -/

def asString : Json → Option (List Char)
  | .str s => some s.value
  | _ => none

/-- A string that can be borrowed from the text. -/
def asStr : Json → Option (List Char)
  | .str s => if s.escaped then none else some s.value
  | _ => none

def asBool : Json → Option Bool
  | .bool b => some b
  | _ => none

/-- The field of a struct: a missing one, one value, or an error. -/
def field (members : List (JsonString × Json)) (key : List Char) : Option (Option Json) :=
  match members.filter (·.1.value = key) with
  | [] => some none
  | [(_, value)] => some (some value)
  | _ => none

/-- The entry of a map, where the last one of a key counts. -/
def get (members : List (JsonString × Json)) (key : List Char) : Option Json :=
  ((members.filter (·.1.value = key)).getLast?).map Prod.snd

end Json
end Beetle.Lib
