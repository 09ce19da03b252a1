import Mathlib.Data.List.Basic

/-! Where a part of a list stands that is put together from pieces. -/
namespace Beetle.Lib
variable {α : Type*} {part front back : List α} {pieces : List (List α)}

/-- The part begins in one piece and ends in a later one. -/
def Across (pieces : List (List α)) (front part back : List α) : Prop :=
  ∃ (before between after : List (List α)) (a u v b : List α), pieces = before ++ (a ++ u) :: (between ++ (v ++ b) :: after) ∧
    u ≠ [] ∧ v ≠ [] ∧ part = u ++ (between.flatten ++ v) ∧ front = before.flatten ++ a ∧ back = b ++ after.flatten

theorem Across.flatten (h : Across pieces front part back) : pieces.flatten = front ++ (part ++ back) := by
  obtain ⟨before, between, after, a, u, v, b, rfl, -, -, rfl, rfl, rfl⟩ := h
  simp

theorem Across.cons (piece : List α) (h : Across pieces front part back) :
    Across (piece :: pieces) (piece ++ front) part back := by
  obtain ⟨before, between, after, a, u, v, b, rfl, hu, hv, hpart, rfl, hback⟩ := h
  exact ⟨piece :: before, between, after, a, u, v, b, rfl, hu, hv, hpart, by simp, hback⟩

/-- What a list of pieces begins with ends in one of them. -/
theorem exists_of_flatten_eq_append (hne : part ≠ []) (h : pieces.flatten = part ++ back) :
    ∃ before after v b, pieces = before ++ (v ++ b) :: after ∧ v ≠ [] ∧ part = before.flatten ++ v ∧
      back = b ++ after.flatten := by
  induction pieces generalizing part with
  | nil => exact absurd (List.append_eq_nil_iff.mp h.symm).1 hne
  | cons piece pieces ih =>
    rw [List.flatten_cons, List.append_eq_append_iff] at h
    rcases h with ⟨more, rfl, hmore⟩ | ⟨b, rfl, rfl⟩
    · by_cases hnil : more = []
      · subst hnil
        rw [List.append_nil] at hne ⊢
        exact ⟨[], pieces, piece, [], by simp, hne, by simp, by rw [hmore]; simp⟩
      · obtain ⟨before, after, v, b, rfl, hv, rfl, rfl⟩ := ih hnil hmore
        exact ⟨piece :: before, after, v, b, rfl, hv, by simp, rfl⟩
    · exact ⟨[], pieces, part, b, rfl, hne, by simp, rfl⟩

/-- A part that does not stand in one piece stands across some. -/
theorem across_of_flatten (hne : part ≠ []) (hpieces : ∀ piece ∈ pieces, ¬ part <:+: piece)
    (h : pieces.flatten = front ++ (part ++ back)) : Across pieces front part back := by
  induction pieces generalizing front with
  | nil =>
    have hnil : part ++ back = [] := (List.append_eq_nil_iff.mp h.symm).2
    exact absurd (List.append_eq_nil_iff.mp hnil).1 hne
  | cons piece pieces ih =>
    have hrest : ∀ piece ∈ pieces, ¬ part <:+: piece := fun piece hmem => hpieces piece (List.mem_cons_of_mem _ hmem)
    rw [List.flatten_cons, List.append_eq_append_iff] at h
    rcases h with ⟨more, rfl, hmore⟩ | ⟨u, rfl, hpart⟩
    · exact (ih hrest hmore).cons piece
    · rcases List.append_eq_append_iff.mp hpart with ⟨more, rfl, -⟩ | ⟨rest, rfl, hrestEq⟩
      · exact absurd ⟨front, more, by simp⟩ (hpieces _ List.mem_cons_self)
      · by_cases hu : u = []
        · subst hu
          rw [List.append_nil] at hpieces ⊢
          rw [List.nil_append] at *
          have hwhole := @ih [] hrest (by rw [hrestEq]; simp)
          simpa using hwhole.cons front
        · by_cases hnil : rest = []
          · subst hnil
            exact absurd ⟨front, [], by simp⟩ (hpieces _ List.mem_cons_self)
          · obtain ⟨before, after, v, b, rfl, hv, rfl, rfl⟩ := exists_of_flatten_eq_append hnil hrestEq
            exact ⟨[], before, after, front, u, v, b, by simp, hu, hv, rfl, by simp, rfl⟩

end Beetle.Lib
