import Mathlib.Data.Finmap
import Mathlib.Data.String.Basic

/-! Hash maps, whose order of iteration a caller must not depend on, as finite maps. -/
namespace Beetle.Lib

abbrev HashMap (K V : Type*) := Finmap fun _ : K => V

/-! Keys are sorted with these. -/

instance isTrans_string_le : IsTrans String (· ≤ ·) := inferInstance
instance antisymm_string_le : Std.Antisymm fun a b : String => a ≤ b := inferInstance

namespace HashMap
variable {K V : Type*}

/-- Keep the entries that pass the test. -/
def retain (p : K → V → Bool) (m : HashMap K V) : HashMap K V :=
  ⟨m.entries.filter fun e => p e.1 e.2, by
    obtain ⟨entries, hnodup⟩ := m
    induction entries using Quotient.inductionOn with
    | h l => exact List.NodupKeys.sublist List.filter_sublist hnodup⟩

variable [DecidableEq K]

theorem dlookup_filter (p : K → V → Bool) (k : K) {l : List (Sigma fun _ : K => V)} (hl : l.NodupKeys) :
    (l.filter fun e => p e.1 e.2).dlookup k = (l.dlookup k).filter (p k) := by
  induction l with
  | nil => rfl
  | cons e l ih =>
    obtain ⟨k', v⟩ := e
    obtain ⟨hk, htail⟩ := List.nodupKeys_cons.mp hl
    rw [List.filter_cons]
    by_cases heq : k = k'
    · subst heq
      rw [List.dlookup_cons_eq]
      cases hp : p k v with
      | true => simp [hp, Option.filter]
      | false =>
        have hnone : l.dlookup k = none := List.dlookup_eq_none.mpr hk
        simp [hp, ih htail, hnone, Option.filter]
    · rw [List.dlookup_cons_ne _ _ heq]
      cases hp : p k' v with
      | true => simp [heq, ih htail]
      | false => simp [ih htail]

@[simp] theorem lookup_retain (p : K → V → Bool) (k : K) (m : HashMap K V) :
    (m.retain p).lookup k = (m.lookup k).filter (p k) := by
  induction m using Finmap.induction_on with
  | H s =>
    have hfiltered : (s.entries.filter fun e => p e.1 e.2).NodupKeys :=
      List.NodupKeys.sublist List.filter_sublist s.nodupKeys
    have heq : HashMap.retain p s.toFinmap = AList.toFinmap ⟨_, hfiltered⟩ := by
      apply Finmap.ext
      simp [HashMap.retain]
    rw [heq, Finmap.lookup_toFinmap, Finmap.lookup_toFinmap]
    exact dlookup_filter p k s.nodupKeys

theorem lookup_of_retain {p : K → V → Bool} {k : K} {v : V} {m : HashMap K V} (h : (m.retain p).lookup k = some v) :
    m.lookup k = some v ∧ p k v = true := by
  rw [lookup_retain] at h
  exact Option.filter_eq_some_iff.mp h

end HashMap

end Beetle.Lib
