import Mathlib.Tactic.Common

/-! A flag that stands for one token, which is either in a queue or held by one
of any number of threads. -/
namespace Beetle.Lib
variable {ι P : Type*}

/-- The flag is up exactly when the token exists; `held` tells by a thread's
program point whether it holds it. -/
structure OneToken (flag : Bool) (queued : Nat) (held : P → Prop) (threads : ι → P) : Prop where
  flag_iff : flag = true ↔ 0 < queued ∨ ∃ i, held (threads i)
  queued_le : queued ≤ 1
  exclusive : ∀ i, held (threads i) → queued = 0
  unique : ∀ i j, held (threads i) → held (threads j) → i = j

namespace OneToken
variable {flag : Bool} {queued : Nat} {held : P → Prop} {threads : ι → P} {i : ι} {p : P}

theorem not_held_of_down (h : OneToken false queued held threads) (i : ι) : ¬ held (threads i) :=
  fun hi => Bool.false_ne_true (h.flag_iff.mpr (.inr ⟨i, hi⟩))

theorem queued_of_down (h : OneToken false queued held threads) : queued = 0 := by
  by_contra hq
  exact Bool.false_ne_true (h.flag_iff.mpr (.inl (Nat.pos_of_ne_zero hq)))

/-- Nobody else holds the token of thread `i`. -/
theorem not_held_of_ne (h : OneToken flag queued held threads) (hi : held (threads i)) {j : ι}
    (hji : j ≠ i) : ¬ held (threads j) :=
  fun hj => hji (h.unique j i hj hi)

end OneToken

variable [DecidableEq ι]

theorem exists_update_iff {Q : P → Prop} {threads : ι → P} {i : ι} {p : P} :
    (∃ j, Q (Function.update threads i p j)) ↔ Q p ∨ ∃ j, j ≠ i ∧ Q (threads j) := by
  constructor
  · rintro ⟨j, hj⟩
    by_cases hji : j = i
    · subst hji
      exact .inl (by simpa using hj)
    · exact .inr ⟨j, hji, by simpa [hji] using hj⟩
  · rintro (hp | ⟨j, hji, hj⟩)
    · exact ⟨i, by simpa using hp⟩
    · exact ⟨j, by simpa [hji] using hj⟩

namespace OneToken
variable {flag : Bool} {queued : Nat} {held : P → Prop} {threads : ι → P} {i : ι} {p : P}

/-- A thread moves on without taking or giving up the token. -/
theorem keep (h : OneToken flag queued held threads) (hp : held p ↔ held (threads i)) :
    OneToken flag queued held (Function.update threads i p) := by
  have hall : ∀ j, held (Function.update threads i p j) ↔ held (threads j) := by
    intro j
    by_cases hji : j = i
    · subst hji
      simpa using hp
    · simp [hji]
  exact ⟨by simp only [hall, h.flag_iff], h.queued_le, fun j hj => h.exclusive j ((hall j).mp hj),
    fun j k hj hk => h.unique j k ((hall j).mp hj) ((hall k).mp hk)⟩

/-- A thread that finds the flag down puts it up and holds the token. -/
theorem create (h : OneToken false queued held threads) (hp : held p) :
    OneToken true queued held (Function.update threads i p) := by
  have hown : ∀ j, held (Function.update threads i p j) → j = i := by
    intro j hj
    by_contra hji
    exact h.not_held_of_down j (by simpa [hji] using hj)
  refine ⟨?_, h.queued_le, fun _ _ => h.queued_of_down, fun j k hj hk => ?_⟩
  · simp only [true_iff, exists_update_iff]
    exact .inr (.inl hp)
  · rw [hown j hj, hown k hk]

section
variable (h : OneToken flag queued held threads)
include h

theorem not_held_update (hi : held (threads i)) (hp : ¬ held p) (j : ι) : ¬ held (Function.update threads i p j) := by
  by_cases hji : j = i
  · subst hji
    simpa using hp
  · simpa [hji] using h.not_held_of_ne hi hji

/-- The holder takes the flag down. -/
theorem release (hi : held (threads i)) (hp : ¬ held p) : OneToken false queued held (Function.update threads i p) := by
  have hnone := h.not_held_update hi hp
  have hq := h.exclusive i hi
  refine ⟨?_, h.queued_le, fun j hj => absurd hj (hnone j), fun j _ hj => absurd hj (hnone j)⟩
  simp [hq, hnone]

/-- The holder puts the token into the queue. -/
theorem enqueue (hi : held (threads i)) (hp : ¬ held p) :
    OneToken flag (queued + 1) held (Function.update threads i p) := by
  have hnone := h.not_held_update hi hp
  have hq := h.exclusive i hi
  have hup : flag = true := h.flag_iff.mpr (.inr ⟨i, hi⟩)
  refine ⟨?_, by omega, fun j hj => absurd hj (hnone j), fun j _ hj => absurd hj (hnone j)⟩
  simp [hup]

/-- A thread takes the token out of the queue. -/
theorem dequeue (hq : 0 < queued) (hp : held p) : OneToken flag (queued - 1) held (Function.update threads i p) := by
  have hle := h.queued_le
  have hnone : ∀ j, ¬ held (threads j) := fun j hj => by
    have := h.exclusive j hj
    omega
  have hown : ∀ j, held (Function.update threads i p j) → j = i := by
    intro j hj
    by_contra hji
    exact hnone j (by simpa [hji] using hj)
  have hup : flag = true := h.flag_iff.mpr (.inl hq)
  refine ⟨?_, by omega, fun _ _ => by omega, fun j k hj hk => ?_⟩
  · simp only [hup, true_iff, exists_update_iff]
    exact .inr (.inl hp)
  · rw [hown j hj, hown k hk]

end

end OneToken
end Beetle.Lib
