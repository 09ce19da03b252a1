import Mathlib.Data.List.Infix
import Beetle.Lib.Lists

/-! The first place in a list where another one stands. -/
namespace Beetle.Lib
variable {α : Type*} [DecidableEq α] {pat : List α} {l : List α}

/-- `str::find`: what is before the first `pat` and what is after it. -/
@[grind =] def splitAtFirst (pat : List α) : List α → Option (List α × List α)
  | [] => if pat = [] then some ([], []) else none
  | a :: l =>
    match pat.isPrefixOf? (a :: l) with
    | some after => some ([], after)
    | none => (splitAtFirst pat l).map fun (before, after) => (a :: before, after)

theorem isPrefixOf?_eq_some_iff {l after : List α} : pat.isPrefixOf? l = some after ↔ l = pat ++ after := by
  constructor
  · intro h
    induction pat generalizing l with
    | nil => exact Option.some.inj h
    | cons a pat ih =>
      cases l with
      | nil => simp [List.isPrefixOf?] at h
      | cons b l =>
        rw [List.isPrefixOf?] at h
        by_cases hab : a = b
        · rw [if_pos (by simpa using hab)] at h
          rw [hab, List.cons_append, ← ih h]
        · rw [if_neg (by simpa using hab)] at h
          cases h
  · rintro rfl
    exact isPrefixOf?_append pat after

theorem isPrefixOf?_eq_none_iff : pat.isPrefixOf? l = none ↔ ¬ pat <+: l := by
  rw [Option.eq_none_iff_forall_ne_some]
  constructor
  · rintro h ⟨after, rfl⟩
    exact h after (isPrefixOf?_append pat after)
  · rintro h after hafter
    exact h ⟨after, (isPrefixOf?_eq_some_iff.mp hafter).symm⟩

theorem splitAtFirst_append_self (hpat : pat ≠ []) (after : List α) :
    splitAtFirst pat (pat ++ after) = some ([], after) := by
  obtain ⟨a, rest, rfl⟩ := List.exists_cons_of_ne_nil hpat
  rw [List.cons_append, splitAtFirst, ← List.cons_append, isPrefixOf?_append]

theorem splitAtFirst_cons {a : α} (h : ¬ pat <+: a :: l) :
    splitAtFirst pat (a :: l) = (splitAtFirst pat l).map fun (before, after) => (a :: before, after) := by
  rw [splitAtFirst, isPrefixOf?_eq_none_iff.mpr h]

theorem eq_of_splitAtFirst {l before after : List α} (h : splitAtFirst pat l = some (before, after)) :
    l = before ++ (pat ++ after) := by
  induction l generalizing before with
  | nil =>
    rw [splitAtFirst] at h
    split at h
    · rename_i hpat
      obtain ⟨rfl, rfl⟩ := Prod.ext_iff.mp (Option.some.inj h)
      simp [hpat]
    · cases h
  | cons a l ih =>
    rw [splitAtFirst] at h
    split at h
    · rename_i rest hrest
      have hl := isPrefixOf?_eq_some_iff.mp hrest
      obtain ⟨rfl, rfl⟩ := Prod.ext_iff.mp (Option.some.inj h)
      exact hl
    · obtain ⟨⟨front, back⟩, hsplit, heq⟩ := Option.map_eq_some_iff.mp h
      obtain ⟨rfl, rfl⟩ := Prod.ext_iff.mp heq
      rw [ih hsplit, List.cons_append]

theorem splitAtFirst_eq_none_iff (hpat : pat ≠ []) : splitAtFirst pat l = none ↔ ¬ pat <:+: l := by
  induction l with
  | nil => simp [splitAtFirst, hpat]
  | cons a l ih =>
    rw [List.infix_cons_iff, not_or]
    by_cases hprefix : pat <+: a :: l
    · obtain ⟨after, hafter⟩ := hprefix
      rw [← hafter, splitAtFirst_append_self hpat]
      simp
    · rw [splitAtFirst_cons hprefix, Option.map_eq_none_iff, ih]
      simp [ hprefix]

/-- The place that is found is the first one. -/
theorem length_le_of_splitAtFirst (hpat : pat ≠ []) {l before after front back : List α}
    (h : splitAtFirst pat l = some (before, after)) (hl : l = front ++ (pat ++ back)) : before.length ≤ front.length := by
  induction l generalizing before front with
  | nil =>
    rw [splitAtFirst, if_neg hpat] at h
    cases h
  | cons a l ih =>
    by_cases hbegins : pat <+: a :: l
    · obtain ⟨rest, hrest⟩ := hbegins
      rw [← hrest, splitAtFirst_append_self hpat] at h
      obtain ⟨rfl, -⟩ := Prod.ext_iff.mp (Option.some.inj h)
      exact Nat.zero_le _
    · rw [splitAtFirst_cons hbegins] at h
      obtain ⟨⟨before', after'⟩, hsplit, heq⟩ := Option.map_eq_some_iff.mp h
      obtain ⟨rfl, rfl⟩ := Prod.ext_iff.mp heq
      cases front with
      | nil => exact absurd ⟨back, hl.symm⟩ hbegins
      | cons b front =>
        rw [List.cons_append, List.cons.injEq] at hl
        exact Nat.succ_le_succ (ih hsplit hl.2)

/-! A list that starts with something which is not in the rest of it cannot stand partly in one list and
partly in the next, when the next one starts the same way. -/

section
variable {a : α} {rest : List α}

theorem splitAtFirst_append_of_notMem {front : List α} (h : a ∉ front) (l : List α) :
    splitAtFirst (a :: rest) (front ++ l) =
      (splitAtFirst (a :: rest) l).map fun (before, after) => (front ++ before, after) := by
  induction front with
  | nil => simp
  | cons b front ih =>
    rw [List.mem_cons, not_or] at h
    have hprefix : ¬ a :: rest <+: b :: (front ++ l) := by
      rw [List.cons_prefix_cons]
      exact fun hand => h.1 hand.1
    rw [List.cons_append, splitAtFirst_cons hprefix, ih h.2, Option.map_map]
    rfl

end

end Beetle.Lib
