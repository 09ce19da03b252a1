import Mathlib.Data.List.Induction
import Mathlib.Data.List.Nodup

/-! Elements that are put one after the other, each in the place of the one that has its key. -/
namespace Beetle.Lib
variable {α κ κ' : Type*} [DecidableEq κ] [DecidableEq κ'] {key : α → κ} {l : List α} {a : α}

def overwrite (key : α → κ) (kept : List α) (a : α) : List α := a :: kept.filter fun b => key b ≠ key a

/-- What is left of the elements that were put, the last one first. -/
@[grind =] def overwrites (key : α → κ) (l : List α) : List α := l.foldl (overwrite key) []

@[simp] theorem overwrites_nil (key : α → κ) : overwrites key [] = [] := rfl

theorem overwrites_concat (key : α → κ) (l : List α) (a : α) :
    overwrites key (l ++ [a]) = overwrite key (overwrites key l) a := List.foldl_concat _ _ _ _

theorem nodup_map_overwrites (key : α → κ) (l : List α) : ((overwrites key l).map key).Nodup := by
  induction l using List.reverseRecOn with
  | nil => exact List.nodup_nil
  | append_singleton l a ih =>
    rw [overwrites_concat, overwrite, List.map_cons, List.nodup_cons]
    constructor
    · intro h
      obtain ⟨b, hb, heq⟩ := List.mem_map.mp h
      exact of_decide_eq_true (List.mem_filter.mp hb).2 heq
    · exact ih.sublist (List.filter_sublist.map key)

theorem nodup_overwrites (key : α → κ) (l : List α) : (overwrites key l).Nodup := (nodup_map_overwrites key l).of_map key

/-- An element is left when none of its key was put after it. -/
theorem mem_overwrites_iff :
    a ∈ overwrites key l ↔ ∃ front back, l = front ++ a :: back ∧ ∀ b ∈ back, key b ≠ key a := by
  induction l using List.reverseRecOn with
  | nil => simp
  | append_singleton l c ih =>
    rw [overwrites_concat, overwrite, List.mem_cons, List.mem_filter, ih]
    constructor
    · rintro (rfl | ⟨⟨front, back, rfl, hback⟩, hne⟩)
      · exact ⟨l, [], rfl, List.forall_mem_nil _⟩
      · refine ⟨front, back ++ [c], by simp, ?_⟩
        intro b hb
        rcases List.mem_append.mp hb with hb | hb
        · exact hback b hb
        · rw [List.mem_singleton.mp hb]
          exact (of_decide_eq_true hne).symm
    · rintro ⟨front, back, heq, hback⟩
      rcases List.eq_nil_or_concat back with rfl | ⟨back, b, rfl⟩
      · left
        exact (List.singleton_inj.mp (List.append_inj' heq rfl).2).symm
      · right
        rw [List.concat_eq_append] at heq hback
        rw [← List.cons_append, ← List.append_assoc] at heq
        obtain ⟨rfl, hlast⟩ := List.append_inj' heq rfl
        obtain rfl := List.singleton_inj.mp hlast
        refine ⟨⟨front, back, rfl, fun b hb => hback b (List.mem_append_left _ hb)⟩, decide_eq_true ?_⟩
        exact (hback c (List.mem_append_right _ List.mem_cons_self)).symm

theorem mem_of_mem_overwrites (h : a ∈ overwrites key l) : a ∈ l := by
  obtain ⟨front, back, rfl, -⟩ := mem_overwrites_iff.mp h
  exact List.mem_append_right _ List.mem_cons_self

/-- What is left under a coarser key is left under a finer one. -/
theorem mem_overwrites_of_coarser {coarse : α → κ'}
    (hkey : ∀ a ∈ l, ∀ b ∈ l, key a = key b → coarse a = coarse b) (h : a ∈ overwrites coarse l) :
    a ∈ overwrites key l := by
  obtain ⟨front, back, rfl, hback⟩ := mem_overwrites_iff.mp h
  refine mem_overwrites_iff.mpr ⟨front, back, rfl, fun b hb heq => hback b hb ?_⟩
  exact hkey b (List.mem_append_right _ (List.mem_cons_of_mem _ hb)) a (List.mem_append_right _ List.mem_cons_self) heq

/-- Of two elements that are left, equal keys make one. -/
theorem eq_of_mem_overwrites {a b : α} (ha : a ∈ overwrites key l)
    (hb : b ∈ overwrites key l) (h : key a = key b) : a = b :=
  List.inj_on_of_nodup_map (nodup_map_overwrites key l) ha hb h

end Beetle.Lib
