import Beetle.Calendar.IcalTime
import Beetle.Lib.Gregorian

/-! Unix seconds and the dates that they are. -/
namespace Beetle
open Beetle.Lib Beetle.Lib.Gregorian Beetle.Calendar.Caldav

/-- A second of the calendar. -/
structure Ymdhms.Valid (t : Ymdhms) : Prop where
  date : ValidDate t.year t.month t.day
  hour_lt : t.hour < 24
  min_lt : t.min < 60
  sec_lt : t.sec < 60

/-- The day of a date, where the first of January 1970 is 0. -/
@[grind =] def unixDay (year month day : Nat) : Int := dayNumber year month day - dayNumber 1970 1 1

/-! The tables of the code. -/

theorem isLeapYear_iff (year : Nat) : isLeapYear year = true ↔ IsLeap year := by
  simp only [isLeapYear, IsLeap, Bool.or_eq_true, Bool.and_eq_true, beq_iff_eq, bne_iff_ne, ne_eq]
  omega

theorem daysInYear_eq (year : Nat) : daysInYear year = yearLength year := by
  simp only [daysInYear, yearLength, isLeapYear_iff]

theorem getElem_monthDays (year : Nat) {k : Nat} (hk : k < (monthDays year).length) :
    (monthDays year)[k] = monthLength year (k + 1) := by
  have hlt : k < 12 := hk
  interval_cases k
  case «1» => simp only [monthDays, monthLength, isLeapYear_iff, List.getElem_cons_succ, List.getElem_cons_zero, if_true]
  all_goals rfl

theorem sum_take_monthDays (year : Nat) {k : Nat} (hk : k ≤ 12) :
    ((monthDays year).take k).sum = ∑ m ∈ Finset.Ico 1 (k + 1), monthLength year m := by
  induction k with
  | zero => simp
  | succ k ih =>
    have hlt : k < (monthDays year).length := hk
    have hmonths : ∑ m ∈ Finset.Ico 1 (k + 1 + 1), monthLength year m =
        ∑ m ∈ Finset.Ico 1 (k + 1), monthLength year m + monthLength year (k + 1) :=
      Finset.sum_Ico_succ_top (Nat.le_add_left 1 k) _
    rw [List.sum_take_succ _ _ hlt, ih (Nat.le_of_succ_le hk), getElem_monthDays, hmonths]

theorem sum_daysInYear (year n : Nat) :
    dayNumber year 1 1 + ((List.range' year n).map daysInYear).sum = dayNumber (year + n) 1 1 := by
  induction n generalizing year with
  | zero => simp
  | succ n ih =>
    rw [List.range'_succ, List.map_cons, List.sum_cons, daysInYear_eq, ← Nat.add_assoc, ← dayNumber_newYear_succ, ih,
      Nat.add_assoc, Nat.add_comm 1 n]

theorem daysFromEpoch_eq {year month : Nat} (day : Nat) (hyear : 1970 ≤ year) (hpos : 1 ≤ month) (hmonth : month ≤ 12) :
    daysFromEpoch year month day = unixDay year month day := by
  have hyears := sum_daysInYear 1970 (year - 1970)
  have hmonths := @sum_take_monthDays year (month - 1) (by omega)
  have hnewYear := dayNumber_newYear year
  rw [Nat.sub_add_cancel hpos] at hmonths
  rw [Nat.add_sub_cancel' hyear] at hyears
  rw [daysFromEpoch, unixDay, Int.toNat_natCast, Int.natAbs_natCast, hmonths, dayNumber]
  omega

theorem unixDay_nonneg {year month day : Nat} (h : ValidDate year month day) (hyear : 1970 ≤ year) :
    0 ≤ unixDay year month day := by
  have hle := (dayNumber_newYear_mono hyear).trans h.newYear_le
  unfold unixDay
  omega

theorem unixDay_lt {year month day : Nat} (h : ValidDate year month day) (hyear : year < 2 ^ 31) :
    unixDay year month day < 366 * 2 ^ 31 := by
  have hlt := h.lt_newYear_succ
  rw [dayNumber_newYear] at hlt
  unfold leapYearsBefore at hlt
  unfold unixDay
  omega

/-- The second that a time is. -/
theorem ymdhmsToEpoch_eq {t : Ymdhms} (h : t.Valid) (hfrom : 1970 ≤ t.year) (hto : t.year < 2 ^ 31) : ∃ secs,
    ymdhmsToEpoch t.year t.month t.day t.hour t.min t.sec = .ok secs ∧
      (secs : Int) = unixDay t.year t.month t.day * 86400 + t.hour * 3600 + t.min * 60 + t.sec := by
  have hnonneg := unixDay_nonneg h.date hfrom
  have hlt := unixDay_lt h.date hto
  obtain ⟨hdate, hhour, hmin, hsec⟩ := h
  have hwrap : (unixDay t.year t.month t.day % 2 ^ 64).toNat = (unixDay t.year t.month t.day).toNat := by omega
  have hroom : ¬ 2 ^ 64 ≤ (unixDay t.year t.month t.day).toNat * 86400 + t.hour * 3600 + t.min * 60 + t.sec := by omega
  refine ⟨(unixDay t.year t.month t.day).toNat * 86400 + t.hour * 3600 + t.min * 60 + t.sec, ?_, by omega⟩
  rw [ymdhmsToEpoch, daysFromEpoch_eq _ hfrom hdate.month_pos hdate.month_le]
  rw [hwrap, if_neg hroom]

/-! From the second to the date. -/

theorem valid_epochToYmdhms (secs : Nat) : (epochToYmdhms secs).Valid := by
  obtain ⟨-, hdayOfYear, -⟩ := yearAndDay_spec (secs / 86400) 1970
  obtain ⟨k, hk, hmonth, hday, -⟩ := monthAndDay_spec 0 (yearAndDay (secs / 86400) 1970).2
    (monthDays (yearAndDay (secs / 86400) 1970).1) (by rw [sum_monthDays]; exact hdayOfYear)
  have hlt : k < 12 := hk
  rw [getElem_monthDays, ← Nat.zero_add k, ← hmonth] at hday
  refine ⟨⟨Nat.succ_pos _, ?_, Nat.succ_pos _, hday⟩, Nat.mod_lt _ (by decide), Nat.mod_lt _ (by decide),
    Nat.mod_lt _ (by decide)⟩
  change (monthAndDay 0 (yearAndDay (secs / 86400) 1970).2 (monthDays (yearAndDay (secs / 86400) 1970).1)).1 + 1 ≤ 12
  omega

/-- Years do not go beyond what an `i32` holds. -/
theorem year_epochToYmdhms_lt {secs : Nat} (h : secs < 2 ^ 37) : (epochToYmdhms secs).year < 2 ^ 31 := by
  obtain ⟨hle, -, hdays⟩ := yearAndDay_spec (secs / 86400) 1970
  have hyears := sum_daysInYear 1970 ((yearAndDay (secs / 86400) 1970).1 - 1970)
  rw [Nat.add_sub_cancel' hle, dayNumber_newYear, dayNumber_newYear] at hyears
  unfold leapYearsBefore at hyears
  change (yearAndDay (secs / 86400) 1970).1 < 2 ^ 31
  omega

/-- A date is counted once, so it comes back from its second. -/
theorem epochToYmdhms_of_ymdhmsToEpoch {t : Ymdhms} (h : t.Valid) (hfrom : 1970 ≤ t.year) {secs : Nat}
    (hsecs : (secs : Int) = unixDay t.year t.month t.day * 86400 + t.hour * 3600 + t.min * 60 + t.sec) :
    epochToYmdhms secs = t := by
  have hvalid := valid_epochToYmdhms secs
  obtain ⟨hyear, -, -, hdays⟩ := epochToYmdhms_spec secs
  rw [daysFromEpoch_eq _ hyear hvalid.date.month_pos hvalid.date.month_le] at hdays
  have hnonneg := unixDay_nonneg h.date hfrom
  obtain ⟨hdate, hhour, hmin, hsec⟩ := h
  have hday : ((secs / 86400 : Nat) : Int) = unixDay t.year t.month t.day := by omega
  have hsame : dayNumber (epochToYmdhms secs).year (epochToYmdhms secs).month (epochToYmdhms secs).day =
      dayNumber t.year t.month t.day := by
    rw [hday] at hdays
    unfold unixDay at hdays
    omega
  obtain ⟨hyear', hmonth', hday'⟩ := hvalid.date.eq_of_dayNumber hdate hsame
  have hhour' : (epochToYmdhms secs).hour = t.hour := by
    change secs / 3600 % 24 = t.hour
    omega
  have hmin' : (epochToYmdhms secs).min = t.min := by
    change secs / 60 % 60 = t.min
    omega
  have hsec' : (epochToYmdhms secs).sec = t.sec := by
    change secs % 60 = t.sec
    omega
  calc epochToYmdhms secs = ⟨(epochToYmdhms secs).year, (epochToYmdhms secs).month, (epochToYmdhms secs).day,
        (epochToYmdhms secs).hour, (epochToYmdhms secs).min, (epochToYmdhms secs).sec⟩ := rfl
    _ = t := by rw [hyear', hmonth', hday', hhour', hmin', hsec']

/-- Seconds and the times of the calendar are the same thing, for every year that an `i32` holds. -/
theorem date_arithmetic_exact :
    (∀ secs < 2 ^ 37, (epochToYmdhms secs).Valid ∧ (epochToYmdhms secs).year < 2 ^ 31 ∧
      ymdhmsToEpoch (epochToYmdhms secs).year (epochToYmdhms secs).month (epochToYmdhms secs).day
        (epochToYmdhms secs).hour (epochToYmdhms secs).min (epochToYmdhms secs).sec = .ok secs) ∧
    ∀ t : Ymdhms, t.Valid → 1970 ≤ t.year → t.year < 2 ^ 31 → ∃ secs,
      ymdhmsToEpoch t.year t.month t.day t.hour t.min t.sec = .ok secs ∧ epochToYmdhms secs = t := by
  constructor
  · intro secs hsecs
    have hlt : secs < 2 ^ 64 := hsecs.trans (by decide)
    exact ⟨valid_epochToYmdhms secs, year_epochToYmdhms_lt hsecs, ymdhmsToEpoch_epochToYmdhms hlt⟩
  · intro t hvalid hfrom hto
    obtain ⟨secs, hepoch, hsecs⟩ := ymdhmsToEpoch_eq hvalid hfrom hto
    exact ⟨secs, hepoch, epochToYmdhms_of_ymdhmsToEpoch hvalid hfrom hsecs⟩

/-- The last second of the leap day of 2000, and the first second of all. -/
theorem date_arithmetic_exact_in_2000 :
    (∃ secs, ymdhmsToEpoch 2000 2 29 23 59 59 = .ok secs ∧ epochToYmdhms secs = ⟨2000, 2, 29, 23, 59, 59⟩) ∧
      (epochToYmdhms 0).Valid :=
  ⟨date_arithmetic_exact.2 ⟨2000, 2, 29, 23, 59, 59⟩ ⟨by decide, by decide, by decide, by decide⟩ (by decide) (by decide),
    (date_arithmetic_exact.1 0 (by decide)).1⟩

end Beetle
