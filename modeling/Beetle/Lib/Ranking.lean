import Mathlib.Data.List.Sort

/-! The first elements of a list that a key puts in order. -/
namespace Beetle.Lib
variable {α κ : Type*} [LinearOrder κ] {key : α → κ} {l : List α} {a : α}

/-- From the greatest key to the smallest; elements of one key stay as they stand. -/
def sortDescending (key : α → κ) (l : List α) : List α := l.insertionSort fun a b => key b ≤ key a

@[simp] theorem mem_sortDescending : a ∈ sortDescending key l ↔ a ∈ l :=
  List.mem_insertionSort _

theorem perm_sortDescending (key : α → κ) (l : List α) : (sortDescending key l).Perm l := List.perm_insertionSort _ l

theorem pairwise_sortDescending (key : α → κ) (l : List α) : (sortDescending key l).Pairwise fun a b => key b ≤ key a := by
  have : Std.Total fun a b : α => key b ≤ key a := ⟨fun a b => le_total (key b) (key a)⟩
  have : IsTrans α fun a b => key b ≤ key a := ⟨fun _ _ _ hab hbc => hbc.trans hab⟩
  exact List.pairwise_insertionSort _ l

/-- In a list in which the keys fall, an element is among the first `n` when fewer than `n` have a greater key. -/
theorem mem_take_iff_of_falling (h : l.Pairwise fun a b => key b < key a) (ha : a ∈ l)
    (n : Nat) : a ∈ l.take n ↔ l.countP (fun b => key a < key b) < n := by
  induction l generalizing n with
  | nil => cases ha
  | cons b l ih =>
    obtain ⟨hb, hl⟩ := List.pairwise_cons.mp h
    rcases List.mem_cons.mp ha with rfl | ha
    · have hnone : (a :: l).countP (fun b => key a < key b) = 0 := by
        rw [List.countP_eq_zero]
        intro c hc
        rcases List.mem_cons.mp hc with rfl | hc
        · simp
        · simpa using (hb c hc).le
      rw [hnone]
      cases n with
      | zero => simp
      | succ n => simp
    · have hcount : (b :: l).countP (fun b => key a < key b) = l.countP (fun b => key a < key b) + 1 := by
        rw [List.countP_cons_of_pos (by simpa using hb a ha)]
      have hne : a ≠ b := fun heq => (hb a ha).ne (congrArg key heq)
      rw [hcount]
      cases n with
      | zero => simp
      | succ n => simp [hne, ih hl ha n]

/-- The elements among the first `n` are those that fewer than `n` elements stand before. -/
theorem mem_take_sortDescending_iff (hkeys : (l.map key).Nodup) (ha : a ∈ l) (n : Nat) :
    a ∈ (sortDescending key l).take n ↔ l.countP (fun b => key a < key b) < n := by
  have hnodup : ((sortDescending key l).map key).Nodup := ((perm_sortDescending key l).map key).nodup_iff.mpr hkeys
  have hfalling : (sortDescending key l).Pairwise fun a b => key b < key a := by
    have hne : (sortDescending key l).Pairwise fun a b => key a ≠ key b := List.pairwise_map.mp hnodup
    exact ((pairwise_sortDescending key l).and hne).imp fun h => lt_of_le_of_ne h.1 h.2.symm
  rw [mem_take_iff_of_falling hfalling (mem_sortDescending.mpr ha) n, (perm_sortDescending key l).countP_eq]

theorem notMem_take_iff (hl : l.Nodup) (ha : a ∈ l) (n : Nat) : a ∉ l.take n ↔ a ∈ l.drop n := by
  have hsplit : a ∈ l.take n ∨ a ∈ l.drop n := by rwa [← List.mem_append, List.take_append_drop]
  exact ⟨hsplit.resolve_left, fun hdrop htake => List.disjoint_take_drop hl le_rfl htake hdrop⟩

/-- The `n` elements of a list with the greatest keys, or all where there are fewer, in the order of their keys. -/
structure Greatest (key : α → κ) (n : Nat) (all chosen : List α) : Prop where
  length_eq : chosen.length = min n all.length
  nodup : chosen.Nodup
  mem : ∀ a ∈ chosen, a ∈ all
  falls : chosen.Pairwise fun a b => key b ≤ key a
  others : ∀ a ∈ all, a ∉ chosen → ∀ b ∈ chosen, key a ≤ key b

/-- Elements of a list are as many as can be chosen when none is missing or there are `n` of them. -/
theorem length_eq_min_iff {n : Nat} {all chosen : List α} (hchosen : chosen.Nodup) (hall : all.Nodup)
    (hmem : ∀ a ∈ chosen, a ∈ all) (hn : chosen.length ≤ n) :
    chosen.length = min n all.length ↔ ∀ a ∈ all, a ∉ chosen → n ≤ chosen.length := by
  have hle : chosen.length ≤ all.length := (List.subperm_of_subset hchosen hmem).length_le
  constructor
  · intro hlength a ha hmissing
    have hlt : chosen.length < all.length := by
      have hcons : (a :: chosen).Nodup := List.nodup_cons.mpr ⟨hmissing, hchosen⟩
      exact (List.subperm_of_subset hcons (List.cons_subset.mpr ⟨ha, hmem⟩)).length_le
    omega
  · intro h
    by_cases hsub : ∀ a ∈ all, a ∈ chosen
    · have hge : all.length ≤ chosen.length := (List.subperm_of_subset hall hsub).length_le
      omega
    · push Not at hsub
      obtain ⟨a, ha, hmissing⟩ := hsub
      have hge := h a ha hmissing
      omega

/-- At most `n` elements, when sorted, are the greatest exactly if what is missing is no greater than any of them and
there are `n` of them. -/
theorem greatest_sortDescending_iff {n : Nat} {all chosen : List α} (hchosen : chosen.Nodup)
    (hall : all.Nodup) (hn : chosen.length ≤ n) :
    Greatest key n all (sortDescending key chosen) ↔
      (∀ a ∈ chosen, a ∈ all) ∧ ∀ a ∈ all, a ∉ chosen → n ≤ chosen.length ∧ ∀ b ∈ chosen, key a ≤ key b := by
  have hlength : (sortDescending key chosen).length = chosen.length := (perm_sortDescending key chosen).length_eq
  constructor
  · intro h
    have hmem : ∀ a ∈ chosen, a ∈ all := fun a ha => h.mem a (mem_sortDescending.mpr ha)
    have hmin := (length_eq_min_iff hchosen hall hmem hn).mp (hlength ▸ h.length_eq)
    refine ⟨hmem, fun a ha hmissing => ⟨hmin a ha hmissing, fun b hb => ?_⟩⟩
    exact h.others a ha (fun hchosen => hmissing (mem_sortDescending.mp hchosen)) b (mem_sortDescending.mpr hb)
  · rintro ⟨hmem, hothers⟩
    constructor
    case length_eq =>
      rw [hlength, length_eq_min_iff hchosen hall hmem hn]
      exact fun a ha hmissing => (hothers a ha hmissing).1
    case nodup => exact (perm_sortDescending key chosen).nodup_iff.mpr hchosen
    case mem => exact fun a ha => hmem a (mem_sortDescending.mp ha)
    case falls => exact pairwise_sortDescending key chosen
    case others =>
      intro a ha hmissing b hb
      exact (hothers a ha fun hchosen => hmissing (mem_sortDescending.mpr hchosen)).2 b (mem_sortDescending.mp hb)

end Beetle.Lib
