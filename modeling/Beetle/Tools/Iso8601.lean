import Beetle.DateArithmetic
import Beetle.Tools.ToolArgs

/-! What a timestamp says, and what is read of it. -/
namespace Beetle.Tools
open Beetle.Lib Beetle.Lib.Gregorian Beetle.Calendar.Caldav

inductive Zone where
  | unmarked
  | utc
  | east (hours minutes : Fin 100)
  | west (hours minutes : Fin 100)

namespace Zone

@[grind =] def text : Zone → List Char
  | unmarked => []
  | utc => ['Z']
  | east hours minutes => '+' :: (padded 2 hours ++ ':' :: padded 2 minutes)
  | west hours minutes => '-' :: (padded 2 hours ++ ':' :: padded 2 minutes)

/-- How many seconds local time is ahead. -/
def offset : Zone → Int
  | unmarked => 0
  | utc => 0
  | east hours minutes => hours.val * 3600 + minutes.val * 60
  | west hours minutes => -(hours.val * 3600 + minutes.val * 60)

end Zone

/-- `YYYY-MM-DDTHH:MM:SS` with a fraction and a zone; each number has its digits, and may be out of range. -/
structure Timestamp where
  year : Nat
  month : Fin 100
  day : Fin 100
  hour : Fin 100
  min : Fin 100
  sec : Fin 100
  fraction : Option {digits : List Char // digits ≠ [] ∧ ∀ c ∈ digits, c.isDigit = true}
  zone : Zone
  year_ge : 1970 ≤ year
  year_le : year ≤ 9999

namespace Timestamp
variable (ts : Timestamp)

@[grind =] def dateText : List Char := padded 4 ts.year ++ '-' :: (padded 2 ts.month ++ '-' :: padded 2 ts.day)

def fractionText : List Char :=
  match ts.fraction with
  | none => []
  | some digits => '.' :: digits.val

def timeText : List Char :=
  padded 2 ts.hour ++ ':' :: (padded 2 ts.min ++ ':' :: (padded 2 ts.sec ++ ts.fractionText))

@[grind =] def text : List Char := ts.dateText ++ 'T' :: ts.timeText ++ ts.zone.text

def DateExists : Prop := ValidDate ts.year ts.month ts.day

def TimeExists : Prop := ts.hour.val < 24 ∧ ts.min.val < 60 ∧ ts.sec.val < 60

instance : Decidable ts.DateExists := inferInstanceAs (Decidable (ValidDate _ _ _))
instance : Decidable ts.TimeExists := inferInstanceAs (Decidable (_ ∧ _ ∧ _))

/-- The second that is denoted, on the clock of the zone. -/
def localSecond : Int :=
  unixDay ts.year ts.month ts.day * 86400 + ts.hour.val * 3600 + ts.min.val * 60 + ts.sec.val

def unixSecond : Int := ts.localSecond - ts.zone.offset

/-- A second that is denoted is read, and a date that does not exist is refused. -/
def MeansWhatItSays : Prop :=
  (ts.DateExists → ts.TimeExists → 0 ≤ ts.unixSecond →
    parseIso8601 (String.ofList ts.text) = some ts.unixSecond.toNat) ∧
  (¬ ts.DateExists → parseIso8601 (String.ofList ts.text) = none)

end Timestamp

/-! The parts of the text. -/

variable {c : Char}

theorem notMem_padded (h : c.isDigit = false) (width n : Nat) : c ∉ padded width n := by
  intro hmem
  rw [isDigit_of_mem_padded hmem] at h
  cases h

theorem beforeLast_append {back : List Char} (h : c ∉ back) (front : List Char) :
    beforeLast c (front ++ c :: back) = some (front, (String.ofList front).utf8ByteSize) := by
  have hall : ∀ a ∈ back.reverse, decide (a ≠ c) = true := by
    intro a ha
    exact decide_eq_true fun heq => h (heq ▸ List.mem_reverse.mp ha)
  rw [beforeLast, if_pos (by simp), List.reverse_append, List.reverse_cons, List.append_assoc,
    List.dropWhile_append_of_pos hall]
  simp

theorem beforeLast_none {s : List Char} (h : c ∉ s) : beforeLast c s = none := if_neg h

namespace Timestamp
variable (ts : Timestamp) {c : Char}

theorem length_dateText : ts.dateText.length = 10 := by
  have hyear := @length_padded 4 ts.year (by decide) (by have := ts.year_le; omega)
  have hmonth := @length_padded 2 ts.month (by decide) ts.month.isLt
  have hday := @length_padded 2 ts.day (by decide) ts.day.isLt
  simp only [dateText, List.length_append, List.length_cons, hyear, hmonth, hday]

theorem length_timeText : 8 ≤ ts.timeText.length := by
  have hhour := @length_padded 2 ts.hour (by decide) ts.hour.isLt
  have hmin := @length_padded 2 ts.min (by decide) ts.min.isLt
  have hsec := @length_padded 2 ts.sec (by decide) ts.sec.isLt
  simp only [timeText, List.length_append, List.length_cons, hhour, hmin, hsec]
  omega

theorem isDigit_or_of_mem_dateText (h : c ∈ ts.dateText) : c.isDigit = true ∨ c = '-' := by
  simp only [dateText, List.mem_append, List.mem_cons] at h
  rcases h with h | rfl | h | rfl | h
  · exact .inl (isDigit_of_mem_padded h)
  · exact .inr rfl
  · exact .inl (isDigit_of_mem_padded h)
  · exact .inr rfl
  · exact .inl (isDigit_of_mem_padded h)

theorem isDigit_or_of_mem_fractionText (h : c ∈ ts.fractionText) : c.isDigit = true ∨ c = '.' := by
  unfold fractionText at h
  split at h
  · cases h
  · rename_i digits _
    rcases List.mem_cons.mp h with rfl | h
    · exact .inr rfl
    · exact .inl (digits.property.2 c h)

theorem isDigit_or_of_mem_timeText (h : c ∈ ts.timeText) : c.isDigit = true ∨ c ∈ [':', '.'] := by
  simp only [timeText, List.mem_append, List.mem_cons] at h
  rcases h with h | rfl | h | rfl | h | h
  · exact .inl (isDigit_of_mem_padded h)
  · exact .inr (by decide)
  · exact .inl (isDigit_of_mem_padded h)
  · exact .inr (by decide)
  · exact .inl (isDigit_of_mem_padded h)
  · rcases ts.isDigit_or_of_mem_fractionText h with h | rfl
    · exact .inl h
    · exact .inr (by decide)

/-- The text in front of the zone. -/
@[grind =] def clockText : List Char := ts.dateText ++ 'T' :: ts.timeText

theorem isDigit_or_of_mem_clockText (h : c ∈ ts.clockText) : c.isDigit = true ∨ c ∈ ['-', 'T', ':', '.'] := by
  rcases List.mem_append.mp h with h | h
  · rcases ts.isDigit_or_of_mem_dateText h with h | rfl
    · exact .inl h
    · exact .inr (by decide)
  · rcases List.mem_cons.mp h with rfl | h
    · exact .inr (by decide)
    · rcases ts.isDigit_or_of_mem_timeText h with h | h
      · exact .inl h
      · exact .inr (List.mem_cons_of_mem _ (List.mem_cons_of_mem _ h))

theorem notMem_clockText (hdigit : c.isDigit = false) (hmark : c ∉ ['-', 'T', ':', '.']) : c ∉ ts.clockText := by
  intro h
  rcases ts.isDigit_or_of_mem_clockText h with h | h
  · rw [h] at hdigit
    cases hdigit
  · exact hmark h

theorem length_clockText : 19 ≤ ts.clockText.length := by
  have hdate := ts.length_dateText
  have htime := ts.length_timeText
  simp only [clockText, List.length_append, List.length_cons]
  omega

end Timestamp

theorem isDigit_or_of_mem_zone {zone : Zone} (h : c ∈ zone.text) : c.isDigit = true ∨ c ∈ ['Z', '+', '-', ':'] := by
  cases zone with
  | unmarked => cases h
  | utc =>
    obtain rfl := List.mem_singleton.mp h
    exact .inr (by decide)
  | east hours minutes =>
    simp only [Zone.text, List.mem_append, List.mem_cons] at h
    rcases h with rfl | h | rfl | h
    · exact .inr (by decide)
    · exact .inl (isDigit_of_mem_padded h)
    · exact .inr (by decide)
    · exact .inl (isDigit_of_mem_padded h)
  | west hours minutes =>
    simp only [Zone.text, List.mem_append, List.mem_cons] at h
    rcases h with rfl | h | rfl | h
    · exact .inr (by decide)
    · exact .inl (isDigit_of_mem_padded h)
    · exact .inr (by decide)
    · exact .inl (isDigit_of_mem_padded h)

theorem notMem_hoursMinutes (hdigit : c.isDigit = false) (hcolon : c ≠ ':') (hours minutes : Nat) :
    c ∉ padded 2 hours ++ ':' :: padded 2 minutes := by
  intro h
  rcases List.mem_append.mp h with h | h
  · exact notMem_padded hdigit _ _ h
  · rcases List.mem_cons.mp h with h | h
    · exact hcolon h
    · exact notMem_padded hdigit _ _ h

theorem notMem_append_cons {a sign : Char} {front back : List Char} (hfront : a ∉ front) (hsign : a ≠ sign) (hback : a ∉ back) :
    a ∉ front ++ sign :: back := by
  simp only [List.mem_append, List.mem_cons, not_or]
  exact ⟨hfront, hsign, hback⟩

/-! Reading. -/

theorem rdropWhile_of_notMem {s : List Char} (h : c ∉ s) : s.rdropWhile (· = c) = s := by
  rw [List.rdropWhile_eq_self_iff]
  intro hne heq
  exact h (of_decide_eq_true heq ▸ List.getLast_mem hne)

theorem length_le_utf8ByteSize (s : List Char) : s.length ≤ (String.ofList s).utf8ByteSize := by
  rw [← length_utf8_toList, String.toList_ofList]
  exact length_le_utf8 s

namespace Timestamp
variable (ts : Timestamp)

/-- The hyphen in front of the day is the last one. -/
theorem beforeLast_clockText :
    beforeLast '-' ts.clockText = some (padded 4 ts.year ++ '-' :: padded 2 ts.month, 7) := by
  have hback : '-' ∉ padded 2 ts.day ++ 'T' :: ts.timeText := by
    intro h
    rcases List.mem_append.mp h with h | h
    · exact notMem_padded (by decide) _ _ h
    · rcases List.mem_cons.mp h with h | h
      · exact absurd h (by decide)
      · rcases ts.isDigit_or_of_mem_timeText h with h | h
        · exact absurd h (by decide)
        · exact absurd h (by decide)
  have hyear := @length_utf8_padded 4 ts.year (by decide) (by have := ts.year_le; omega)
  have hmonth := @length_utf8_padded 2 ts.month (by decide) ts.month.isLt
  have hsize : (String.ofList (padded 4 ts.year ++ '-' :: padded 2 ts.month)).utf8ByteSize = 7 := by
    rw [← length_utf8_toList, String.toList_ofList, utf8_append, List.length_append, length_utf8_cons, hyear, hmonth]
    rfl
  rw [← hsize, ← beforeLast_append hback, clockText, dateText, List.append_assoc, List.append_assoc, List.cons_append,
    List.cons_append, List.append_assoc, List.cons_append]

theorem stripZone_text : stripZone ts.text = ts.clockText := by
  have htext : ts.text = ts.clockText ++ ts.zone.text := by rw [text, clockText]
  have hz : 'Z' ∉ ts.clockText := ts.notMem_clockText (by decide) (by decide)
  have hplus : '+' ∉ ts.clockText := ts.notMem_clockText (by decide) (by decide)
  have hlength := ts.length_clockText.trans (length_le_utf8ByteSize ts.clockText)
  rw [htext, stripZone]
  cases ts.zone with
  | unmarked =>
    rw [Zone.text, List.append_nil, rdropWhile_of_notMem hz, beforeLast_none hplus, beforeLast_clockText]
    rfl
  | utc =>
    rw [Zone.text, rdropWhile_append (by decide), rdropWhile_of_notMem hz, beforeLast_none hplus, beforeLast_clockText]
    rfl
  | east hours minutes =>
    have hminutes {c : Char} (hdigit : c.isDigit = false) (hcolon : c ≠ ':') := notMem_hoursMinutes hdigit hcolon hours minutes
    have hnone := notMem_append_cons hz (show 'Z' ≠ '+' by decide) (hminutes (by decide) (by decide))
    rw [Zone.text, rdropWhile_of_notMem hnone, beforeLast_append (hminutes (by decide) (by decide))]
    exact if_pos (by omega)
  | west hours minutes =>
    have hminutes {c : Char} (hdigit : c.isDigit = false) (hcolon : c ≠ ':') := notMem_hoursMinutes hdigit hcolon hours minutes
    have hnone := notMem_append_cons hz (show 'Z' ≠ '-' by decide) (hminutes (by decide) (by decide))
    have heast := notMem_append_cons hplus (show '+' ≠ '-' by decide) (hminutes (by decide) (by decide))
    rw [Zone.text, rdropWhile_of_notMem hnone, beforeLast_none heast,
      beforeLast_append (hminutes (by decide) (by decide))]
    exact if_pos (by omega)

theorem trim_text : trim ts.text = ts.text := by
  have hclock : ∀ c ∈ ['-', 'T', ':', '.'], isWhitespace c = false := by decide
  have hzone : ∀ c ∈ ['Z', '+', '-', ':'], isWhitespace c = false := by decide
  have hnone : ∀ c ∈ ts.text, isWhitespace c = false := by
    intro c hc
    rw [text, ← clockText] at hc
    rcases List.mem_append.mp hc with hc | hc
    · rcases ts.isDigit_or_of_mem_clockText hc with hc | hc
      · exact isWhitespace_of_isDigit hc
      · exact hclock c hc
    · rcases isDigit_or_of_mem_zone hc with hc | hc
      · exact isWhitespace_of_isDigit hc
      · exact hzone c hc
  exact trimEnds_eq_self (fun c hc => hnone c (List.mem_of_head? hc)) fun c hc => hnone c (List.mem_of_getLast? hc)

/-- It is not a number. -/
theorem parseUnsigned_text : parseUnsigned 64 ts.text = none := by
  rw [Option.eq_none_iff_forall_ne_some]
  intro n h
  have hmem : 'T' ∈ ts.text := by
    rw [text]
    simp
  rcases digits_of_parseUnsigned h 'T' hmem with h | h
  · exact absurd h (by decide)
  · exact absurd h (by decide)

theorem splitOn_dateText : ts.dateText.splitOn '-' = [padded 4 ts.year, padded 2 ts.month, padded 2 ts.day] := by
  have hnone (width n : Nat) : '-' ∉ padded width n := notMem_padded (by decide) width n
  rw [dateText, List.splitOn_append_cons_self_of_not_mem (hnone 4 ts.year),
    List.splitOn_append_cons_self_of_not_mem (hnone 2 ts.month), List.splitOn_eq_singleton (hnone 2 ts.day)]

theorem splitOn_timeText :
    ts.timeText.splitOn ':' = [padded 2 ts.hour, padded 2 ts.min, padded 2 ts.sec ++ ts.fractionText] := by
  have hnone (width n : Nat) : ':' ∉ padded width n := notMem_padded (by decide) width n
  have hsec : ':' ∉ padded 2 ts.sec ++ ts.fractionText := by
    intro h
    rcases List.mem_append.mp h with h | h
    · exact hnone 2 ts.sec h
    · rcases ts.isDigit_or_of_mem_fractionText h with h | h
      · exact absurd h (by decide)
      · exact absurd h (by decide)
  rw [timeText, List.splitOn_append_cons_self_of_not_mem (hnone 2 ts.hour),
    List.splitOn_append_cons_self_of_not_mem (hnone 2 ts.min), List.splitOn_eq_singleton hsec]

theorem takeWhile_sec : (padded 2 ts.sec ++ ts.fractionText).takeWhile (· ≠ '.') = padded 2 ts.sec := by
  have hall : ∀ c ∈ padded 2 ts.sec, decide (c ≠ '.') = true := by
    intro c hc
    refine decide_eq_true ?_
    rintro rfl
    exact notMem_padded (by decide) 2 ts.sec hc
  have hfraction : ts.fractionText.takeWhile (· ≠ '.') = [] := by
    unfold fractionText
    split
    · rfl
    · exact List.takeWhile_cons_of_neg (by decide)
  rw [List.takeWhile_append_of_pos hall, hfraction, List.append_nil]

/-- The ranges that are checked; the length of a month is not among them. -/
def Accepted : Prop :=
  1 ≤ ts.month.val ∧ ts.month.val ≤ 12 ∧ 1 ≤ ts.day.val ∧ ts.day.val ≤ 31 ∧ ts.hour.val ≤ 23 ∧ ts.min.val ≤ 59 ∧ ts.sec.val ≤ 59

instance : Decidable ts.Accepted := inferInstanceAs (Decidable (_ ∧ _))

def fields : Ymdhms := ⟨ts.year, ts.month, ts.day, ts.hour, ts.min, ts.sec⟩

theorem parseDateTime_text :
    parseDateTime ts.dateText ts.timeText = if ts.Accepted then some ts.fields else none := by
  have hyear : parseUnsigned 31 (padded 4 ts.year) = some ts.year := parseUnsigned_padded (by have := ts.year_le; omega)
  have htwo (n : Fin 100) : parseUnsigned 32 (padded 2 n) = some n.val := parseUnsigned_padded (by have := n.isLt; omega)
  rw [parseDateTime, splitOn_dateText, splitOn_timeText]
  simp only [takeWhile_sec, hyear, htwo, Option.bind_eq_bind, Option.bind_some]
  rfl

theorem parseIso8601_text :
    parseIso8601 (String.ofList ts.text) = if ts.Accepted then some (ymdhmsToEpoch ts.fields) else none := by
  have hdate : 'T' ∉ ts.dateText := by
    intro h
    rcases ts.isDigit_or_of_mem_dateText h with h | h
    · exact absurd h (by decide)
    · exact absurd h (by decide)
  rw [parseIso8601, String.toList_ofList, trim_text]
  simp only [parseUnsigned_text, stripZone_text, clockText, splitOnce_append hdate, parseDateTime_text]
  split
  · rfl
  · rfl

theorem DateExists.accepted (h : ts.DateExists) (htime : ts.TimeExists) : ts.Accepted := by
  obtain ⟨hpos, hmonth, hday, hle⟩ := h
  obtain ⟨hhour, hmin, hsec⟩ := htime
  have hlength := monthLength_le ts.year ts.month
  exact ⟨hpos, hmonth, hday, hle.trans hlength, by omega, by omega, by omega⟩

/-- What is read of a time is its second on the clock of its zone. -/
theorem ymdhmsToEpoch_fields (h : ts.DateExists) : (ymdhmsToEpoch ts.fields : Int) = ts.localSecond := by
  have hdays := daysFromEpoch_eq ts.day ts.year_ge h.month_pos h.month_le
  have hpos := h.day_pos
  rw [Calendar.Caldav.daysFromEpoch, Int.toNat_natCast, Int.natAbs_natCast] at hdays
  simp only [ymdhmsToEpoch, Tools.daysFromEpoch, fields, localSecond, ← hdays]
  omega

/-- The zone is the one thing that is not read of a time that exists, and of the dates that do not exist those are taken
for others whose day is no more than 31. -/
theorem meansWhatItSays_iff : ts.MeansWhatItSays ↔
    (ts.TimeExists → (ts.DateExists → ts.zone.offset = 0 ∨ ts.localSecond < ts.zone.offset) ∧
      (¬ ts.DateExists → ts.month.val = 0 ∨ 12 < ts.month.val ∨ ts.day.val = 0 ∨ 31 < ts.day.val)) := by
  unfold MeansWhatItSays
  rw [parseIso8601_text]
  constructor
  · rintro ⟨hread, hrefused⟩ htime
    constructor
    · intro hdate
      by_cases hneg : ts.localSecond < ts.zone.offset
      · exact .inr hneg
      · have hnonneg : 0 ≤ ts.unixSecond := by
          unfold unixSecond
          omega
        have hsecond := hread hdate htime hnonneg
        rw [if_pos (hdate.accepted ts htime), Option.some.injEq] at hsecond
        have hfields := ts.ymdhmsToEpoch_fields hdate
        left
        unfold unixSecond at hsecond hnonneg
        omega
    · intro hdate
      have hnone := hrefused hdate
      by_contra hrange
      have hacc : ts.Accepted := by
        obtain ⟨hhour, hmin, hsec⟩ := htime
        refine ⟨?_, ?_, ?_, ?_, ?_, ?_, ?_⟩ <;> omega
      rw [if_pos hacc] at hnone
      cases hnone
  · intro h
    constructor
    · intro hdate htime hnonneg
      have hfields := ts.ymdhmsToEpoch_fields hdate
      rw [if_pos (hdate.accepted ts htime), Option.some.injEq]
      unfold unixSecond at hnonneg ⊢
      rcases (h htime).1 hdate with hzero | hneg
      · omega
      · omega
    · intro hdate
      refine if_neg fun hacc => ?_
      obtain ⟨hpos, hmonth, hday, hle, hhour, hmin, hsec⟩ := hacc
      have htime : ts.TimeExists := ⟨by omega, by omega, by omega⟩
      have hrange := (h htime).2 hdate
      omega

/-- Noon at eight hours east of Greenwich. -/
def noonEast : Timestamp :=
  ⟨2025, 3, 10, 12, 0, 0, none, .east 8 0, by decide, by decide⟩

/-- Noon in the east is read as noon in Greenwich. -/
theorem noonEast_misread : ¬ ∀ ts : Timestamp, ts.MeansWhatItSays := by
  intro h
  have hnonneg : 0 ≤ noonEast.unixSecond := by decide
  have hread := (h noonEast).1 (by decide) (by decide) hnonneg
  rw [parseIso8601_text] at hread
  exact absurd hread (by decide)

end Timestamp
end Beetle.Tools
