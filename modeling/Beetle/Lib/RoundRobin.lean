import Mathlib.Data.Finset.Card
import Mathlib.Data.Nat.ModEq

/-! Slots that are written one after the other and round again: they hold what was written last. -/
namespace Beetle.Lib
variable {α : Type*} {cap : Nat} {written slots : List α} {pos : Nat}

/-- `slots` is what is left of everything that was written, and `pos` where the next one goes. -/
structure RoundRobin (cap : Nat) (written slots : List α) (pos : Nat) : Prop where
  length : slots.length = min written.length cap
  pos : pos = written.length % cap
  slot : ∀ n, n < written.length → written.length ≤ n + cap → slots[n % cap]? = written[n]?

namespace RoundRobin

theorem nil (cap : Nat) : RoundRobin cap ([] : List α) [] 0 :=
  ⟨by simp, by simp, fun n hn _ => absurd hn (Nat.not_lt_zero n)⟩

section
variable (h : RoundRobin cap written slots pos)
include h

theorem next_pos (a : α) : (pos + 1) % cap = (written ++ [a]).length % cap := by
  rw [h.pos, Nat.mod_add_mod, List.length_append, List.length_singleton]

/-- While there is room the slot is a new one. -/
theorem push (hroom : slots.length < cap) (a : α) :
    RoundRobin cap (written ++ [a]) (slots ++ [a]) ((pos + 1) % cap) := by
  have hlength := h.length
  have hwritten : written.length < cap := by omega
  refine ⟨?_, h.next_pos a, ?_⟩
  · rw [List.length_append, List.length_append, List.length_singleton]
    omega
  · intro n hn _
    rw [List.length_append, List.length_singleton] at hn
    rw [Nat.mod_eq_of_lt (by omega)]
    rcases Nat.lt_or_ge n written.length with hlt | hge
    · rw [List.getElem?_append_left (by omega), List.getElem?_append_left hlt]
      have hslot := h.slot n hlt (by omega)
      rwa [Nat.mod_eq_of_lt (by omega)] at hslot
    · obtain rfl : n = written.length := by omega
      rw [List.getElem?_concat_length, List.getElem?_append_right (by omega)]
      simp [show slots.length = written.length by omega]

/-- Then the oldest one is written over. -/
theorem set (hfull : ¬ slots.length < cap) (hcap : 0 < cap) (a : α) :
    RoundRobin cap (written ++ [a]) (slots.set pos a) ((pos + 1) % cap) := by
  have hlength := h.length
  have hpos : pos < cap := h.pos ▸ Nat.mod_lt _ hcap
  refine ⟨?_, h.next_pos a, ?_⟩
  · rw [List.length_set, List.length_append, List.length_singleton]
    omega
  · intro n hn hwindow
    rw [List.length_append, List.length_singleton] at hn hwindow
    rcases Nat.lt_or_ge n written.length with hlt | hge
    · rw [List.getElem?_append_left hlt, ← h.slot n hlt (by omega), List.getElem?_set_ne]
      rw [h.pos]
      intro hsame
      -- two places of one window are in different slots
      have hdvd : written.length ≡ n [MOD cap] := hsame
      have hdiff := (Nat.modEq_iff_dvd' hlt.le).mp hdvd.symm
      have hle := Nat.le_of_dvd (by omega) hdiff
      omega
    · obtain rfl : n = written.length := by omega
      rw [List.getElem?_concat_length, ← h.pos, List.getElem?_set_self (by omega)]

theorem mem_iff (hcap : 0 < cap) {a : α} : a ∈ slots ↔ a ∈ written.drop (written.length - cap) := by
  have hlength := h.length
  rw [List.mem_iff_getElem?, List.mem_iff_getElem?]
  constructor
  · rintro ⟨p, hp⟩
    have hplt : p < slots.length := (List.getElem?_eq_some_iff.mp hp).1
    -- the last place of what was written that goes to this slot
    let n := p + cap * ((written.length - 1 - p) / cap)
    have hdiv := Nat.div_add_mod (written.length - 1 - p) cap
    have hmod := Nat.mod_lt (written.length - 1 - p) hcap
    have hn : n < written.length ∧ written.length ≤ n + cap := by
      simp only [n]
      omega
    have hslot := h.slot n hn.1 hn.2
    have hnmod : n % cap = p := by
      simp only [n]
      rw [Nat.add_mul_mod_self_left, Nat.mod_eq_of_lt (by omega)]
    rw [hnmod, hp] at hslot
    refine ⟨n - (written.length - cap), ?_⟩
    rw [List.getElem?_drop, show written.length - cap + (n - (written.length - cap)) = n by omega, ← hslot]
  · rintro ⟨k, hk⟩
    rw [List.getElem?_drop] at hk
    have hlt : written.length - cap + k < written.length := (List.getElem?_eq_some_iff.mp hk).1
    exact ⟨_, (h.slot _ hlt (by omega)).trans hk⟩

end

end RoundRobin

/-! What is only written while it is in no slot. -/

/-- Of any `cap + 1` elements in a row no two are the same. -/
def Spaced (cap : Nat) (written : List α) : Prop :=
  ∀ m n, m < n → n ≤ m + cap → n < written.length → written[m]? ≠ written[n]?

theorem spaced_nil : Spaced cap ([] : List α) := fun _ _ _ _ h => absurd h (Nat.not_lt_zero _)

theorem Spaced.concat (h : Spaced cap written) {a : α} (ha : a ∉ written.drop (written.length - cap)) :
    Spaced cap (written ++ [a]) := by
  intro m n hmn hcap hn
  rw [List.length_append, List.length_singleton] at hn
  rcases Nat.lt_or_ge n written.length with hlt | hge
  · rw [List.getElem?_append_left (by omega), List.getElem?_append_left hlt]
    exact h m n hmn hcap hlt
  · obtain rfl : n = written.length := by omega
    rw [List.getElem?_append_left hmn, List.getElem?_concat_length]
    intro heq
    apply ha
    rw [List.mem_iff_getElem?]
    refine ⟨m - (written.length - cap), ?_⟩
    rw [List.getElem?_drop, show written.length - cap + (m - (written.length - cap)) = m by omega, heq]

/-- Between an element and its next time there are `cap` others. -/
theorem Spaced.cap_le_card [DecidableEq α] {front between back : List α} {a : α}
    (h : Spaced cap (front ++ a :: (between ++ a :: back))) : cap ≤ (between.toFinset.erase a).card := by
  have hlength : cap ≤ between.length := by
    by_contra hlt
    refine h front.length (front.length + (between.length + 1)) (by omega) (by omega) (by simp) ?_
    rw [List.getElem?_append_right (Nat.le_refl _), List.getElem?_append_right (by omega)]
    simp
  have hbetween (k : Nat) (hk : k < between.length) :
      (front ++ a :: (between ++ a :: back))[front.length + (k + 1)]? = between[k]? := by
    rw [List.getElem?_append_right (by omega), show front.length + (k + 1) - front.length = k + 1 by omega,
      List.getElem?_cons_succ, List.getElem?_append_left hk]
  have hnodup : (between.take cap).Nodup := by
    rw [List.nodup_iff_getElem?_ne_getElem?]
    intro m n hmn hn
    rw [List.length_take] at hn
    rw [List.getElem?_take_of_lt (by omega), List.getElem?_take_of_lt (by omega), ← hbetween m (by omega),
      ← hbetween n (by omega)]
    exact h _ _ (by omega) (by omega) (by simp; omega)
  have ha : a ∉ between.take cap := by
    intro hmem
    obtain ⟨k, hk⟩ := List.mem_iff_getElem?.mp hmem
    have hlt : k < (between.take cap).length := (List.getElem?_eq_some_iff.mp hk).1
    rw [List.length_take] at hlt
    rw [List.getElem?_take_of_lt (by omega), ← hbetween k (by omega)] at hk
    refine h front.length _ (by omega) (by omega) (by simp; omega) (Eq.trans ?_ hk.symm)
    rw [List.getElem?_append_right (Nat.le_refl _)]
    simp
  have hsubset : (between.take cap).toFinset ⊆ between.toFinset.erase a := by
    intro b hb
    rw [List.mem_toFinset] at hb
    rw [Finset.mem_erase, List.mem_toFinset]
    exact ⟨fun hba => ha (hba ▸ hb), List.mem_of_mem_take hb⟩
  calc cap = (between.take cap).toFinset.card := by
        rw [List.toFinset_card_of_nodup hnodup, List.length_take]
        omega
    _ ≤ (between.toFinset.erase a).card := Finset.card_le_card hsubset

end Beetle.Lib
