import Beetle.Error
import Beetle.Lib.JsonPrint
import Beetle.Lib.JsonRead
import Mathlib.Data.List.Infix

/-! Shared helpers on text. -/
namespace Beetle
open Beetle.Lib

/-- `str::trim`. -/
def trimStr (s : String) : String := String.ofList (trim s.toList)

/-- At most `max` characters of a text. -/
def truncateContentToMax (s : String) (max : Nat) : String := String.ofList (s.toList.take max)

/-- Trimmed, without the slashes at its front, and with no `..` in it. -/
def normalizeStateRelPath (pathArg : List Char) : Except Error (List Char) :=
  let s := (trim pathArg).dropWhile (· = '/')
  if ['.', '.'] <:+: s then .error (.config "invalid path" "state_rel_path")
  else if s.head? = some '/' then .error (.config "invalid path" "state_rel_path")
  else .ok s

/-- The digit for a number below 16. -/
def hexDigit (n : Nat) : Char := "0123456789abcdef".toList.getD n '0'

/-- A character as `push_json_string_escaped` pushes it. -/
def jsonEscapedChar (ch : Char) : List Char :=
  match ch with
  | '"' => ['\\', '"']
  | '\\' => ['\\', '\\']
  | '\n' => ['\\', 'n']
  | '\r' => ['\\', 'r']
  | '\t' => ['\\', 't']
  | '\x08' => ['\\', 'b']
  | '\x0c' => ['\\', 'f']
  | c => if c ≤ '\x1f' then ['\\', 'u', '0', '0', hexDigit (c.toNat / 16), hexDigit (c.toNat % 16)] else [c]

/-- `push_json_string_escaped` onto an empty text. -/
def pushJsonStringEscaped (s : List Char) : List Char := '"' :: s.flatMap jsonEscapedChar ++ ['"']

/-- The characters with an escape of their own. -/
def shortEscaped : List Char := ['"', '\\', '\n', '\r', '\t', '\x08', '\x0c']

variable {ch : Char}

theorem control_of_le : ch ≤ '\x1f' ↔ ch.toNat < 32 := by
  rw [Char.le_def, UInt32.le_iff_toNat_le]
  exact Nat.lt_succ_iff.symm

theorem escapeChar_of_notMem (h : ch ∉ shortEscaped) :
    Json.escapeChar ch = if ch.toNat < 32 then '\\' :: 'u' :: hex 4 ch.toNat else [ch] := by
  have hcode {n : Nat} (hn : ch.toNat = n) : ch = Char.ofNat n := by rw [← hn, Char.ofNat_toNat]
  unfold Json.escapeChar
  split
  case h_8 => rfl
  all_goals
    rename_i hn
    exact absurd (by rw [hcode hn]; decide) h

theorem jsonEscapedChar_of_notMem (h : ch ∉ shortEscaped) : jsonEscapedChar ch =
    if ch ≤ '\x1f' then ['\\', 'u', '0', '0', hexDigit (ch.toNat / 16), hexDigit (ch.toNat % 16)] else [ch] := by
  unfold jsonEscapedChar
  split
  case h_8 => rfl
  all_goals exact absurd (by decide) h

theorem hex_of_lt {n : Nat} (h : n < 32) : hex 4 n = ['0', '0', hexDigit (n / 16), hexDigit (n % 16)] := by
  revert n
  decide

theorem jsonEscapedChar_eq (ch : Char) : jsonEscapedChar ch = Json.escapeChar ch := by
  by_cases hshort : ch ∈ shortEscaped
  · have hall : ∀ ch ∈ shortEscaped, jsonEscapedChar ch = Json.escapeChar ch := by decide
    exact hall ch hshort
  · rw [jsonEscapedChar_of_notMem hshort, escapeChar_of_notMem hshort]
    by_cases hcontrol : ch.toNat < 32
    · rw [if_pos (control_of_le.mpr hcontrol), if_pos hcontrol, hex_of_lt hcontrol]
    · rw [if_neg fun hle => hcontrol (control_of_le.mp hle), if_neg hcontrol]

/-- The digits of `usize_to_decimal_buf`, from the last place of the buffer to the first. -/
def decimalDigits : Nat → Nat → List Char → List Char
  | 0, _, digits => digits
  | room + 1, n, digits => if n = 0 then digits else decimalDigits room (n / 10) (Nat.digitChar (n % 10) :: digits)

def usizeToDecimalBuf (room n : Nat) : List Char :=
  if min room 20 = 0 then [] else if n = 0 then ['0'] else decimalDigits (min room 20) n []

theorem decimalDigits_eq {room n : Nat} (hn : 0 < n) (hroom : n < 10 ^ room) (digits : List Char) :
    ∀ fuel, n < 10 ^ fuel → decimalDigits room n digits = Nat.toDigitsCore 10 fuel n digits := by
  induction room generalizing n digits with
  | zero => omega
  | succ room ih =>
    intro fuel hfuel
    cases fuel with
    | zero => omega
    | succ fuel =>
      rw [decimalDigits, if_neg hn.ne', Nat.toDigitsCore]
      by_cases hlast : n / 10 = 0
      · rw [if_pos hlast, hlast]
        cases room with
        | zero => rw [decimalDigits]
        | succ room => rw [decimalDigits, if_pos rfl]
      · rw [if_neg hlast]
        rw [Nat.pow_succ] at hroom hfuel
        exact ih (Nat.pos_of_ne_zero hlast) (by omega) _ fuel (by omega)

theorem usizeToDecimalBuf_eq {n : Nat} (h : n < 10 ^ 20) : usizeToDecimalBuf 20 n = decimal n := by
  unfold usizeToDecimalBuf decimal
  rw [if_neg (by decide)]
  cases n with
  | zero => rfl
  | succ n =>
    rw [if_neg (Nat.succ_ne_zero n), Nat.toDigits]
    exact decimalDigits_eq (Nat.succ_pos n) h [] _ ((Nat.lt_pow_self (by decide)).trans
      (Nat.pow_lt_pow_right (by decide) (Nat.lt_succ_self _)))

def isCjk (ch : Char) : Bool :=
  let n := ch.toNat
  (0x4E00 ≤ n && n ≤ 0x9FFF) || (0x3400 ≤ n && n ≤ 0x4DBF) || (0x20000 ≤ n && n ≤ 0x2A6DF) ||
    (0x2A700 ≤ n && n ≤ 0x2B73F) || (0x2B740 ≤ n && n ≤ 0x2B81F) || (0x2B820 ≤ n && n ≤ 0x2CEAF) ||
    (0xF900 ≤ n && n ≤ 0xFAFF) || (0x2F800 ≤ n && n ≤ 0x2FA1F)

/-! The calendar, in UTC. -/

def isLeapYear (y : Nat) : Bool := (y % 4 == 0 && y % 100 != 0) || y % 400 == 0

def daysInYear (y : Nat) : Nat := if isLeapYear y then 366 else 365

theorem daysInYear_pos (y : Nat) : 0 < daysInYear y := by
  unfold daysInYear
  split <;> omega

/-- The year of the `d`-th day from the first of January of `year`, and the day in it. -/
def yearAndDay (d year : Nat) : Nat × Nat :=
  if _h : daysInYear year ≤ d then yearAndDay (d - daysInYear year) (year + 1) else (year, d)
termination_by d
decreasing_by
  have hpos := daysInYear_pos year
  omega

def monthDays (year : Nat) : List Nat :=
  [31, if isLeapYear year then 29 else 28, 31, 30, 31, 30, 31, 31, 30, 31, 30, 31]

/-- The month of a day of the year, from the `m`-th on, and the day in it. -/
def monthAndDay (m dayOfYear : Nat) : List Nat → Nat × Nat
  | [] => (m, dayOfYear)
  | days :: rest => if days ≤ dayOfYear then monthAndDay (m + 1) (dayOfYear - days) rest else (m, dayOfYear)

structure Ymdhms where
  year : Nat
  month : Nat
  day : Nat
  hour : Nat
  min : Nat
  sec : Nat

def epochToYmdhms (secs : Nat) : Ymdhms :=
  let (year, dayOfYear) := yearAndDay (secs / 86400) 1970
  let (m, day) := monthAndDay 0 dayOfYear (monthDays year)
  ⟨year, m + 1, day + 1, secs / 3600 % 24, secs / 60 % 60, secs % 60⟩

/-- All but the seconds is a matter of the minute. -/
theorem epochToYmdhms_minute (secs : Nat) :
    epochToYmdhms secs = { epochToYmdhms (secs / 60 * 60) with sec := secs % 60 } := by
  have hday : secs / 60 * 60 / 86400 = secs / 86400 := by omega
  have hhour : secs / 60 * 60 / 3600 % 24 = secs / 3600 % 24 := by omega
  have hmin : secs / 60 * 60 / 60 % 60 = secs / 60 % 60 := by omega
  simp only [epochToYmdhms, hday, hhour, hmin]

end Beetle
