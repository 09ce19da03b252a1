import Mathlib.Algebra.BigOperators.Intervals
import Mathlib.Algebra.Order.BigOperators.Group.Finset
import Mathlib.Tactic.Ring
import Mathlib.Tactic.IntervalCases

/-! The Gregorian calendar: its dates, and how many days lie between them. -/
namespace Beetle.Lib.Gregorian

def IsLeap (year : Nat) : Prop := 4 ∣ year ∧ (100 ∣ year → 400 ∣ year)

instance : DecidablePred IsLeap := fun year => inferInstanceAs (Decidable (4 ∣ year ∧ (100 ∣ year → 400 ∣ year)))

def monthLength (year month : Nat) : Nat :=
  if month = 2 then if IsLeap year then 29 else 28
  else if month ∈ [4, 6, 9, 11] then 30
  else 31

def yearLength (year : Nat) : Nat := if IsLeap year then 366 else 365

structure ValidDate (year month day : Nat) : Prop where
  month_pos : 1 ≤ month
  month_le : month ≤ 12
  day_pos : 1 ≤ day
  day_le : day ≤ monthLength year month

instance (year month day : Nat) : Decidable (ValidDate year month day) :=
  decidable_of_iff (1 ≤ month ∧ month ≤ 12 ∧ 1 ≤ day ∧ day ≤ monthLength year month)
    ⟨fun ⟨h₁, h₂, h₃, h₄⟩ => ⟨h₁, h₂, h₃, h₄⟩, fun ⟨h₁, h₂, h₃, h₄⟩ => ⟨h₁, h₂, h₃, h₄⟩⟩

/-- The leap years from the year 0 on. -/
def leapYearsBefore (year : Nat) : Nat := (year + 3) / 4 - (year + 99) / 100 + (year + 399) / 400

/-- The days up to a date, itself included, from the first of January of the year 0 on. -/
@[grind =] def dayNumber (year month day : Nat) : Nat :=
  365 * year + leapYearsBefore year + ∑ m ∈ Finset.Ico 1 month, monthLength year m + day

theorem leapYearsBefore_succ (year : Nat) :
    leapYearsBefore (year + 1) = leapYearsBefore year + if IsLeap year then 1 else 0 := by
  unfold leapYearsBefore
  by_cases hleap : IsLeap year
  · rw [if_pos hleap]
    unfold IsLeap at hleap
    omega
  · rw [if_neg hleap]
    unfold IsLeap at hleap
    omega

theorem sum_monthLength (year : Nat) : ∑ m ∈ Finset.Ico 1 13, monthLength year m = yearLength year := by
  by_cases hleap : IsLeap year
  · simp [Finset.sum_Ico_succ_top, monthLength, yearLength, hleap]
  · simp [Finset.sum_Ico_succ_top, monthLength, yearLength, hleap]

theorem monthLength_le (year month : Nat) : monthLength year month ≤ 31 := by
  unfold monthLength
  split_ifs <;> omega

/-- The first of January. -/
theorem dayNumber_newYear (year : Nat) : dayNumber year 1 1 = 365 * year + leapYearsBefore year + 1 := by
  simp [dayNumber]

theorem dayNumber_newYear_succ (year : Nat) : dayNumber (year + 1) 1 1 = dayNumber year 1 1 + yearLength year := by
  rw [dayNumber_newYear, dayNumber_newYear, leapYearsBefore_succ]
  unfold yearLength
  split <;> omega

/-- The first of the next month. -/
theorem dayNumber_month_succ {month : Nat} (h : 1 ≤ month) (year day : Nat) :
    dayNumber year (month + 1) day = dayNumber year month day + monthLength year month := by
  unfold dayNumber
  rw [Finset.sum_Ico_succ_top h]
  omega

theorem dayNumber_day (year month day : Nat) : dayNumber year month day + 1 = dayNumber year month 1 + day := by
  unfold dayNumber
  omega

theorem dayNumber_month_mono {month month' : Nat} (h : month ≤ month') (year day : Nat) :
    dayNumber year month day ≤ dayNumber year month' day := by
  have hsum : ∑ m ∈ Finset.Ico 1 month, monthLength year m ≤ ∑ m ∈ Finset.Ico 1 month', monthLength year m :=
    Finset.sum_le_sum_of_subset (Finset.Ico_subset_Ico_right h)
  unfold dayNumber
  omega

theorem dayNumber_newYear_mono {year year' : Nat} (h : year ≤ year') : dayNumber year 1 1 ≤ dayNumber year' 1 1 := by
  induction year', h using Nat.le_induction with
  | base => exact Nat.le_refl _
  | succ year' _ ih =>
    rw [dayNumber_newYear_succ]
    exact ih.trans (Nat.le_add_right _ _)

variable {year month day : Nat} {year month day year' month' day' : Nat}

section
variable (h : ValidDate year month day)
include h

theorem ValidDate.lt_month_succ : dayNumber year month day < dayNumber year (month + 1) 1 := by
  have hday := dayNumber_day year month day
  have hle := h.day_le
  rw [dayNumber_month_succ h.month_pos]
  omega

theorem ValidDate.newYear_le : dayNumber year 1 1 ≤ dayNumber year month day := by
  have hmonth := dayNumber_month_mono h.month_pos year 1
  have hday := dayNumber_day year month day
  have hpos := h.day_pos
  omega

theorem ValidDate.lt_newYear_succ : dayNumber year month day < dayNumber (year + 1) 1 1 := by
  have hyear : dayNumber year 13 1 = dayNumber (year + 1) 1 1 := by
    rw [dayNumber_newYear_succ, ← sum_monthLength, dayNumber_newYear, dayNumber]
    omega
  rw [← hyear]
  exact h.lt_month_succ.trans_le (dayNumber_month_mono (Nat.succ_le_succ h.month_le) year 1)

theorem ValidDate.year_le
    (h' : ValidDate year' month' day') (hle : dayNumber year month day ≤ dayNumber year' month' day') : year ≤ year' := by
  by_contra hlt
  have hyear := dayNumber_newYear_mono (Nat.succ_le_of_lt (Nat.not_le.mp hlt))
  exact absurd (hle.trans_lt (h'.lt_newYear_succ.trans_le (hyear.trans h.newYear_le))) (Nat.lt_irrefl _)

end

theorem ValidDate.month_le_of_le {year month day month' day' : Nat} (h : ValidDate year month day)
    (h' : ValidDate year month' day') (hle : dayNumber year month day ≤ dayNumber year month' day') : month ≤ month' := by
  by_contra hlt
  have hmonth := dayNumber_month_mono (show month' + 1 ≤ month from Nat.not_le.mp hlt) year 1
  have hday := dayNumber_day year month day
  have hpos := h.day_pos
  have hnext := h'.lt_month_succ
  omega

/-- A day has one date. -/
theorem ValidDate.eq_of_dayNumber (h : ValidDate year month day)
    (h' : ValidDate year' month' day') (heq : dayNumber year month day = dayNumber year' month' day') :
    year = year' ∧ month = month' ∧ day = day' := by
  obtain rfl := Nat.le_antisymm (h.year_le h' heq.le) (h'.year_le h heq.ge)
  obtain rfl := Nat.le_antisymm (h.month_le_of_le h' heq.le) (h'.month_le_of_le h heq.ge)
  have hday := dayNumber_day year month day
  have hday' := dayNumber_day year month day'
  exact ⟨rfl, rfl, by omega⟩

end Beetle.Lib.Gregorian
