import Mathlib.Algebra.Order.Group.Nat
import Beetle.Lib.Run

/-! Any number of calls over a shared state. Each call is a sequence of atomic steps,
and those of the others may come between any two of them. -/
namespace Beetle.Lib
variable {σ ε κ π : Type*}

/-- The shared state, and where each call stands that was ever begun. -/
structure Pool (σ π : Type*) where
  shared : σ
  calls : List π
  deriving DecidableEq

/-- A call is begun, or the one of that number takes its next step; `choice` is what
the outside decides about the step. -/
inductive Move (ε κ : Type*) where
  | begin (entry : ε)
  | advance (i : Nat) (choice : κ)

/-- How a call is entered, and what its next step is; there is none while it has to
wait, and none when it is over. -/
structure CallSystem (σ ε κ π : Type*) where
  enter : σ → ε → Option (σ × π)
  next : κ → σ → π → Option (σ × π)

def Pool.step (system : CallSystem σ ε κ π) (w : Pool σ π) : Move ε κ → Option (Pool σ π)
  | .begin entry => (system.enter w.shared entry).map fun (shared, pc) => ⟨shared, w.calls ++ [pc]⟩
  | .advance i choice =>
    (w.calls[i]?).bind fun pc =>
      (system.next choice w.shared pc).map fun (shared, pc') => ⟨shared, w.calls.set i pc'⟩

/-- How many calls stand at a place of this kind. -/
def Pool.count (w : Pool σ π) (kind : π → Bool) : Nat := w.calls.countP kind

/-- All that a step can be. -/
inductive Pool.Fires (system : CallSystem σ ε κ π) (w : Pool σ π) : Move ε κ → Pool σ π → Prop where
  | begun (entry : ε) (shared : σ) (pc : π) (h : system.enter w.shared entry = some (shared, pc)) :
      Pool.Fires system w (.begin entry) ⟨shared, w.calls ++ [pc]⟩
  | advanced (i : Nat) (choice : κ) (pc pc' : π) (shared : σ) (hpc : w.calls[i]? = some pc)
      (h : system.next choice w.shared pc = some (shared, pc')) :
      Pool.Fires system w (.advance i choice) ⟨shared, w.calls.set i pc'⟩

namespace Pool
variable {system : CallSystem σ ε κ π} {w t : Pool σ π} {a : Move ε κ} {kind kind' : π → Bool}

theorem fires_of_step (ht : w.step system a = some t) : Fires system w a t := by
  cases a with
  | begin entry =>
    obtain ⟨⟨shared, pc⟩, henter, rfl⟩ := Option.map_eq_some_iff.mp ht
    exact .begun entry shared pc henter
  | advance i choice =>
    obtain ⟨pc, hpc, hrest⟩ := Option.bind_eq_some_iff.mp ht
    obtain ⟨⟨shared, pc'⟩, hnext, rfl⟩ := Option.map_eq_some_iff.mp hrest
    exact .advanced i choice pc pc' shared hpc hnext

theorem count_begun (kind : π → Bool) (shared : σ) (pc : π) :
    count ⟨shared, w.calls ++ [pc]⟩ kind = w.count kind + (kind pc).toNat := by
  simp only [count, List.countP_append, List.countP_singleton]
  cases kind pc <;> rfl

/-- A step takes one call from a place to another. -/
theorem count_advanced (kind : π → Bool) {i : Nat} {pc : π} (hpc : w.calls[i]? = some pc) (shared : σ) (pc' : π) :
    count ⟨shared, w.calls.set i pc'⟩ kind + (kind pc).toNat = w.count kind + (kind pc').toNat := by
  obtain ⟨hi, rfl⟩ := List.getElem?_eq_some_iff.mp hpc
  simp only [count, List.countP_set hi]
  have hpos : kind w.calls[i] = true → 0 < w.calls.countP kind := fun h =>
    List.countP_pos_iff.mpr ⟨_, List.getElem_mem hi, h⟩
  cases hold : kind w.calls[i] with
  | false => cases kind pc' <;> simp
  | true =>
    have := hpos hold
    cases kind pc' <;> simp <;> omega

theorem count_pos {kind : π → Bool} {i : Nat} {pc : π} (hpc : w.calls[i]? = some pc) (h : kind pc = true) :
    0 < w.count kind :=
  List.countP_pos_iff.mpr ⟨pc, List.mem_of_getElem? hpc, h⟩

theorem count_mono (h : ∀ pc, kind pc = true → kind' pc = true) : w.count kind ≤ w.count kind' :=
  List.countP_mono_left fun pc _ => h pc

theorem count_congr (h : ∀ pc ∈ w.calls, kind pc = kind' pc) : w.count kind = w.count kind' :=
  List.countP_congr fun pc hpc => by rw [h pc hpc]

end Pool

/-! A counter of so many bits, which stays below that power of two, and wraps around there
and at zero. -/

def fetchAdd (bits count : Nat) : Nat := if count + 1 = 2 ^ bits then 0 else count + 1

def fetchSub (bits count : Nat) : Nat := if count = 0 then 2 ^ bits - 1 else count - 1

theorem fetchAdd_of_lt {bits count : Nat} (h : count + 1 < 2 ^ bits) : fetchAdd bits count = count + 1 :=
  if_neg (by omega)

/-- From zero it counts modulo the power of two. -/
theorem fetchAdd_mod (bits n : Nat) : fetchAdd bits (n % 2 ^ bits) = (n + 1) % 2 ^ bits := by
  have hle : n % 2 ^ bits + 1 ≤ 2 ^ bits := Nat.mod_lt n (Nat.two_pow_pos bits)
  rw [← Nat.mod_add_mod, fetchAdd]
  split
  · rename_i hwrap
    rw [hwrap, Nat.mod_self]
  · rename_i hwrap
    rw [Nat.mod_eq_of_lt (Nat.lt_of_le_of_ne hle hwrap)]

theorem fetchSub_of_pos {bits count : Nat} (h : 0 < count) : fetchSub bits count = count - 1 :=
  if_neg (by omega)

end Beetle.Lib
