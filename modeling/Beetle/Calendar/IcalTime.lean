import Beetle.Calendar.Ical

/-! A time is read again from how it is written. -/
namespace Beetle.Calendar.Caldav
open Beetle.Lib

/-! Days. -/

theorem yearAndDay_spec (d year : Nat) :
    year ≤ (yearAndDay d year).1 ∧ (yearAndDay d year).2 < daysInYear (yearAndDay d year).1 ∧
      ((List.range' year ((yearAndDay d year).1 - year)).map daysInYear).sum + (yearAndDay d year).2 = d := by
  fun_induction yearAndDay d year with
  | case1 d year h ih =>
    obtain ⟨hle, hday, hsum⟩ := ih
    refine ⟨by omega, hday, ?_⟩
    obtain ⟨n, hn⟩ := Nat.exists_eq_add_of_le hle
    rw [hn] at hsum ⊢
    rw [show year + 1 + n - (year + 1) = n by omega] at hsum
    rw [show year + 1 + n - year = n + 1 by omega, List.range'_succ, List.map_cons, List.sum_cons]
    omega
  | case2 d year h =>
    refine ⟨Nat.le_refl year, Nat.not_le.mp h, ?_⟩
    simp

theorem monthAndDay_spec (m day : Nat) (months : List Nat) (h : day < months.sum) :
    ∃ k, ∃ hk : k < months.length, (monthAndDay m day months).1 = m + k ∧ (monthAndDay m day months).2 < months[k] ∧
      (months.take k).sum + (monthAndDay m day months).2 = day := by
  induction months generalizing m day with
  | nil => simp at h
  | cons days rest ih =>
    rw [monthAndDay]
    split
    · rename_i hle
      rw [List.sum_cons] at h
      obtain ⟨k, hk, hmonth, hday, hsum⟩ := ih (m + 1) (day - days) (by omega)
      refine ⟨k + 1, by simpa using hk, by omega, by simpa using hday, ?_⟩
      rw [List.take_succ_cons, List.sum_cons]
      omega
    · rename_i hlt
      exact ⟨0, by simp, by simp, by simpa using hlt, by simp⟩

theorem sum_monthDays (year : Nat) : (monthDays year).sum = daysInYear year := by
  unfold monthDays daysInYear
  split <;> rfl

theorem monthDays_le {year k : Nat} (hk : k < (monthDays year).length) : (monthDays year)[k] ≤ 31 := by
  have hall : ∀ days ∈ monthDays year, days ≤ 31 := by
    unfold monthDays
    split <;> decide
  exact hall _ (List.getElem_mem hk)

/-- A time is in its month, and the days before it are counted by its date. -/
theorem epochToYmdhms_spec (secs : Nat) :
    1970 ≤ (epochToYmdhms secs).year ∧ (epochToYmdhms secs).month ≤ 12 ∧ (epochToYmdhms secs).day ≤ 31 ∧
      daysFromEpoch (epochToYmdhms secs).year (epochToYmdhms secs).month (epochToYmdhms secs).day = (secs / 86400 : Nat) := by
  obtain ⟨hyear, hdayOfYear, hdays⟩ := yearAndDay_spec (secs / 86400) 1970
  obtain ⟨k, hk, hmonth, hday, hmonths⟩ := monthAndDay_spec 0 (yearAndDay (secs / 86400) 1970).2
    (monthDays (yearAndDay (secs / 86400) 1970).1) (by rw [sum_monthDays]; exact hdayOfYear)
  have hlength : (monthDays (yearAndDay (secs / 86400) 1970).1).length = 12 := rfl
  have hle := monthDays_le hk
  have hy : (epochToYmdhms secs).year = (yearAndDay (secs / 86400) 1970).1 := rfl
  have hm : (epochToYmdhms secs).month = k + 1 := by
    change (monthAndDay 0 (yearAndDay (secs / 86400) 1970).2 (monthDays (yearAndDay (secs / 86400) 1970).1)).1 + 1 = k + 1
    omega
  have hd : (epochToYmdhms secs).day =
      (monthAndDay 0 (yearAndDay (secs / 86400) 1970).2 (monthDays (yearAndDay (secs / 86400) 1970).1)).2 + 1 := rfl
  rw [hy, hm, hd]
  refine ⟨hyear, by omega, by omega, ?_⟩
  rw [daysFromEpoch, Nat.add_sub_cancel, Int.toNat_natCast, Int.natAbs_natCast]
  omega

theorem ymdhmsToEpoch_epochToYmdhms {secs : Nat} (h : secs < 2 ^ 64) :
    ymdhmsToEpoch (epochToYmdhms secs).year (epochToYmdhms secs).month (epochToYmdhms secs).day (epochToYmdhms secs).hour
      (epochToYmdhms secs).min (epochToYmdhms secs).sec = .ok secs := by
  obtain ⟨-, -, -, hdays⟩ := epochToYmdhms_spec secs
  have hsecs : secs / 86400 * 86400 + (epochToYmdhms secs).hour * 3600 + (epochToYmdhms secs).min * 60 +
      (epochToYmdhms secs).sec = secs := by
    change secs / 86400 * 86400 + secs / 3600 % 24 * 3600 + secs / 60 % 60 * 60 + secs % 60 = secs
    omega
  have hsame : (((secs / 86400 : Nat) : Int) % 2 ^ 64).toNat = secs / 86400 := by
    omega
  simp only [ymdhmsToEpoch, hdays, hsame, hsecs]
  rw [if_neg (Nat.not_le.mpr h)]

/-! Digits. -/

variable {width n : Nat}

theorem length_padded (hwidth : 0 < width) (h : n < 10 ^ width) : (padded width n).length = width := by
  have hlength : (decimal n).length ≤ width := (Nat.length_toDigits_le_iff (by decide) hwidth).mpr h
  rw [padded, List.length_append, List.length_replicate]
  omega

theorem isDigit_of_mem_padded {c : Char} (h : c ∈ padded width n) : c.isDigit = true := by
  rcases List.mem_append.mp h with h | h
  · rw [List.eq_of_mem_replicate h]
    rfl
  · exact isDigit_of_mem_decimal h

theorem parseUnsigned_padded {bits width n : Nat} (h : n < 2 ^ bits) : parseUnsigned bits (padded width n) = some n := by
  have hplus : (padded width n).head? ≠ some '+' := fun hhead =>
    absurd (isDigit_of_mem_padded (List.mem_of_head? hhead)) (by decide)
  have hne : padded width n ≠ [] := fun hnil => decimal_ne_nil n (List.append_eq_nil_iff.mp hnil).2
  have hall : (padded width n).all Char.isDigit = true := List.all_eq_true.mpr fun c hc => isDigit_of_mem_padded hc
  have hzeros (k : Nat) : (List.replicate k '0').foldl (fun n c => n * 10 + (c.toNat - '0'.toNat)) 0 = 0 := by
    induction k with
    | zero => rfl
    | succ k ih => rw [List.replicate_succ, List.foldl_cons]; exact ih
  have hvalue : (padded width n).foldl (fun n c => n * 10 + (c.toNat - '0'.toNat)) 0 = n := by
    have hdigits : Nat.ofDigitChars 10 (decimal n) 0 = n := Nat.ofDigitChars_ten_toDigits
    rw [Nat.ofDigitChars_eq_foldl] at hdigits
    rw [padded, List.foldl_append, hzeros]
    simpa only [Nat.mul_comm] using hdigits
  unfold parseUnsigned
  simp only [if_neg hplus, hall, hvalue, hne, Bool.not_true, Bool.false_eq_true, or_self, if_false, if_pos h]

theorem length_utf8_padded (hwidth : 0 < width) (h : n < 10 ^ width) : (utf8 (padded width n)).length = width := by
  rw [length_utf8_of_forall, length_padded hwidth h]
  intro c hc
  have hcode := Char.isDigit_iff_toNat.mp (isDigit_of_mem_padded hc)
  rw [String.length_utf8EncodeChar, Char.utf8Size_eq_one_iff, UInt32.le_iff_toNat_le]
  change 48 ≤ c.toNat ∧ c.toNat ≤ 57 at hcode
  exact hcode.2.trans (by decide)

end Beetle.Calendar.Caldav
