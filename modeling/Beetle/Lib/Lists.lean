import Mathlib.Algebra.GroupWithZero.Nat
import Mathlib.Data.List.DropRight
import Mathlib.Data.List.Flatten
import Mathlib.Data.List.Nodup

/-! List operations that index-based loops of imperative code come down to. -/
namespace Beetle.Lib
variable {α β : Type*} {p : α → Bool} {f : α → α} {l : List α} {a : α} {i : Nat} {n : Nat}

/-- Change the first element that `p` accepts: the `position`-then-index idiom. -/
@[grind =] def modifyFirst (p : α → Bool) (f : α → α) : List α → List α
  | [] => []
  | a :: as => if p a then f a :: as else a :: modifyFirst p f as

theorem map_modifyFirst {g : α → β} (h : ∀ a, p a = true → g (f a) = g a)
    (l : List α) : (modifyFirst p f l).map g = l.map g := by
  induction l with
  | nil => rfl
  | cons a as ih =>
    unfold modifyFirst
    split
    · rename_i hp
      simp [h a hp]
    · simp [ih]

theorem mem_modifyFirst {b : α} (h : b ∈ modifyFirst p f l) : b ∈ l ∨ ∃ a, l.find? p = some a ∧ b = f a := by
  induction l with
  | nil => cases h
  | cons a as ih =>
    unfold modifyFirst at h
    split at h
    · rename_i hp
      rcases List.mem_cons.mp h with rfl | h
      · exact .inr ⟨a, by simp [hp], rfl⟩
      · exact .inl (by simp [h])
    · rename_i hp
      rcases List.mem_cons.mp h with rfl | h
      · exact .inl (by simp)
      · rcases ih h with h | ⟨c, hc, rfl⟩
        · exact .inl (by simp [h])
        · exact .inr ⟨c, by simp [hp, hc], rfl⟩

@[simp] theorem length_modifyFirst (p : α → Bool) (f : α → α) (l : List α) :
    (modifyFirst p f l).length = l.length := by
  induction l with
  | nil => rfl
  | cons a as ih =>
    unfold modifyFirst
    split
    · rfl
    · rw [List.length_cons, List.length_cons, ih]

/-- Changing an element that stays acceptable and changing it again is one change. -/
theorem modifyFirst_modifyFirst {f g : α → α} (h : ∀ a, p (f a) = true) (l : List α) :
    modifyFirst p g (modifyFirst p f l) = modifyFirst p (g ∘ f) l := by
  induction l with
  | nil => rfl
  | cons a as ih =>
    rcases hp : p a with _ | _
    · simp [modifyFirst, hp, ih]
    · simp [modifyFirst, hp, h]

theorem modifyFirst_concat (hl : ∀ b ∈ l, p b = false) (ha : p a = true) : modifyFirst p f (l ++ [a]) = l ++ [f a] := by
  induction l with
  | nil => simp [modifyFirst, ha]
  | cons b l ih =>
    have hb := hl b (by simp)
    simp [modifyFirst, hb, ih fun c hc => hl c (by simp [hc])]

/-- An element that `p` rejects stays. -/
theorem mem_modifyFirst_of_mem {b : α} (hb : b ∈ l) (hp : p b = false) : b ∈ modifyFirst p f l := by
  induction l with
  | nil => cases hb
  | cons a l ih =>
    unfold modifyFirst
    rcases List.mem_cons.mp hb with rfl | hb
    · simp [hp]
    · split
      · simp [hb]
      · simp [ih hb]

theorem mem_modifyFirst_of_any (h : l.any p = true) (b : α) : b ∈ modifyFirst p (fun _ => b) l := by
  induction l with
  | nil => cases h
  | cons a l ih =>
    unfold modifyFirst
    split
    · simp
    · rename_i hp
      have hl : l.any p = true := by simpa [hp] using h
      simp [ih hl]

theorem modifyFirst_append_cons {front : List α} (back : List α) (hfront : ∀ b ∈ front, p b = false) (ha : p a = true) :
    modifyFirst p f (front ++ a :: back) = front ++ f a :: back := by
  induction front with
  | nil => simp [modifyFirst, ha]
  | cons b front ih =>
    have hb : p b = false := hfront b List.mem_cons_self
    rw [List.cons_append, modifyFirst, hb, ih fun c hc => hfront c (List.mem_cons_of_mem b hc)]
    rfl

/-- Keys that differ: to take out what has a key takes out nothing, or one element. -/
theorem filter_key_ne [DecidableEq β] {key : α → β} (hl : (l.map key).Nodup) (k : β) :
    l.filter (fun a => key a ≠ k) = l ∨ ∃ front a back, l = front ++ a :: back ∧ key a = k ∧
      l.filter (fun a => key a ≠ k) = front ++ back := by
  induction l with
  | nil => exact .inl rfl
  | cons a l ih =>
    rw [List.map_cons] at hl
    obtain ⟨ha, hl⟩ := List.nodup_cons.mp hl
    by_cases hk : key a = k
    · have hrest : l.filter (fun b => key b ≠ k) = l := by
        apply List.filter_eq_self.mpr
        intro b hb
        have hne : key b ≠ k := by
          rintro rfl
          exact ha (hk ▸ List.mem_map_of_mem hb)
        simpa using hne
      exact .inr ⟨[], a, l, rfl, hk, by simpa [hk] using hrest⟩
    · rcases ih hl with hsame | ⟨front, b, back, rfl, hb, hrest⟩
      · exact .inl (by simpa [hk] using hsame)
      · exact .inr ⟨a :: front, b, back, rfl, hb, by simpa [hk] using hrest⟩

theorem any_modifyFirst (h : ∀ a, p (f a) = true) (l : List α) : (modifyFirst p f l).any p = l.any p := by
  induction l with
  | nil => rfl
  | cons a as ih =>
    unfold modifyFirst
    split
    · simp [h, ‹p a = true›]
    · simp [ih]

theorem isPrefixOf?_append [DecidableEq α] (a b : List α) : a.isPrefixOf? (a ++ b) = some b := by
  induction a with
  | nil => cases b <;> rfl
  | cons x a ih => simp [List.isPrefixOf?, ih]

/-- `Vec::swap_remove`: the last element takes the place of the removed one. -/
def swapRemove (l : List α) (i : Nat) : List α :=
  match l.getLast? with
  | none => []
  | some last => (l.set i last).dropLast

@[simp] theorem length_swapRemove (l : List α) (i : Nat) : (swapRemove l i).length = l.length - 1 := by
  unfold swapRemove
  cases h : l.getLast? with
  | none => simp [List.getLast?_eq_none_iff.mp h]
  | some last => simp

theorem swapRemove_append_cons (front back : List α) (a last : α) :
    swapRemove (front ++ a :: (back ++ [last])) front.length = front ++ last :: back := by
  have hset : (front ++ a :: (back ++ [last])).set front.length last = (front ++ last :: back) ++ [last] := by
    simp
  have hlast : (front ++ a :: (back ++ [last])).getLast? = some last := by
    rw [show front ++ a :: (back ++ [last]) = (front ++ a :: back) ++ [last] by simp, List.getLast?_concat]
  rw [swapRemove, hlast]
  simp only
  rw [hset, List.dropLast_concat]

theorem swapRemove_concat (front : List α) (a : α) : swapRemove (front ++ [a]) front.length = front := by
  simp [swapRemove]

theorem eq_append_cons_of_lt (h : i < l.length) : ∃ front back, l = front ++ l[i] :: back ∧ front.length = i :=
  ⟨l.take i, l.drop (i + 1), by simp, by simp [h.le]⟩

/-- The element comes out and the others stay, those before it in their places. -/
theorem perm_swapRemove (h : i < l.length) : (l[i] :: swapRemove l i).Perm l ∧ (swapRemove l i).take i = l.take i := by
  obtain ⟨front, back, hl, rfl⟩ := eq_append_cons_of_lt h
  generalize l[front.length] = a at hl
  subst hl
  obtain rfl | ⟨back, last, rfl⟩ := List.eq_nil_or_concat' back
  · rw [swapRemove_concat]
    have hperm : ([a] ++ front).Perm (front ++ [a]) := List.perm_append_comm
    exact ⟨hperm, by simp⟩
  · rw [swapRemove_append_cons]
    refine ⟨?_, by simp⟩
    have hback : (last :: back).Perm (back ++ [last]) := (List.perm_append_singleton last back).symm
    exact (List.perm_middle.symm).trans ((hback.cons a).append_left front)

/-- Take out what `p` accepts from index `i` on, by `swap_remove`; the kept and the taken. -/
@[grind =] def drainSwap (p : α → Bool) (l : List α) (i : Nat) : List α × List α :=
  if h : i < l.length then
    if p l[i] then
      let (kept, taken) := drainSwap p (swapRemove l i) i
      (kept, l[i] :: taken)
    else drainSwap p l (i + 1)
  else (l, [])
termination_by l.length - i
decreasing_by
  · rw [length_swapRemove]
    omega
  · omega

theorem perm_drainSwap (p : α → Bool) (l : List α) (i : Nat) :
    ((drainSwap p l i).2 ++ (drainSwap p l i).1).Perm l := by
  fun_induction drainSwap p l i with
  | case1 l i h hp kept taken heq ih =>
    rw [heq] at ih
    exact (ih.cons l[i]).trans (perm_swapRemove h).1
  | case2 l i h hp ih => exact ih
  | case3 l i h => simp

theorem rejected_of_mem_drainSwap (hpassed : ∀ a ∈ l.take i, p a = false)
    (h : a ∈ (drainSwap p l i).1) : p a = false := by
  fun_induction drainSwap p l i with
  | case1 l i hi hp kept taken heq ih =>
    rw [heq] at ih
    exact ih (by rwa [(perm_swapRemove hi).2]) h
  | case2 l i hi hp ih =>
    refine ih (fun b hb => ?_) h
    rw [List.take_succ_eq_append_getElem hi] at hb
    rcases List.mem_append.mp hb with hb | hb
    · exact hpassed b hb
    · obtain rfl := List.mem_singleton.mp hb
      simpa using hp
  | case3 l i hi => exact hpassed a (by rwa [List.take_of_length_le (by omega)])

theorem accepted_of_mem_drainSwap (h : a ∈ (drainSwap p l i).2) : p a = true := by
  fun_induction drainSwap p l i with
  | case1 l i hi hp kept taken heq ih =>
    rw [heq] at ih
    rcases List.mem_cons.mp h with rfl | hmem
    · exact hp
    · exact ih hmem
  | case2 l i hi hp ih => exact ih h
  | case3 => cases h

/-! Association lists with one entry a key. -/

theorem lookup_cons_of_ne [DecidableEq α] {k a : α} (h : k ≠ a) (b : β) (l : List (α × β)) :
    List.lookup k ((a, b) :: l) = l.lookup k := by
  rw [List.lookup_cons, beq_eq_false_iff_ne.mpr h]

theorem lookup_eq_none_of_notMem [DecidableEq α] {k : α} {l : List (α × β)}
    (h : k ∉ l.map Prod.fst) : l.lookup k = none := by
  refine List.lookup_eq_none_iff.mpr fun p hp => ?_
  have hne : k ≠ p.1 := fun hk => h (List.mem_map.mpr ⟨p, hp, hk.symm⟩)
  simpa using hne

/-! The last `n` elements, which a bounded log retains. -/

@[simp] theorem length_rtake (n : Nat) (l : List α) : (l.rtake n).length = min n l.length := by
  simp only [List.rtake, List.length_drop]
  omega

theorem rtake_of_length_le (h : l.length ≤ n) : l.rtake n = l := by
  simp [List.rtake, h]

theorem rtake_append (n : Nat) (a b : List α) :
    (a ++ b).rtake n = a.rtake (n - b.length) ++ b.rtake n := by
  simp only [List.rtake_eq_reverse_take_reverse, List.reverse_append, List.take_append,
    List.length_reverse]

theorem rtake_rtake (m n : Nat) (l : List α) : (l.rtake m).rtake n = l.rtake (min n m) := by
  simp only [List.rtake_eq_reverse_take_reverse, List.reverse_reverse, List.take_take]

/-- What a log has dropped already makes no difference to a later cut. -/
theorem rtake_rtake_append {m n : Nat} (h : n ≤ m) (a b : List α) :
    (a.rtake m ++ b).rtake n = (a ++ b).rtake n := by
  rw [rtake_append, rtake_append, rtake_rtake, Nat.min_eq_left (by omega)]

theorem rtake_of_suffix {a l : List α} (h : a <:+ l) (hn : min n l.length ≤ a.length) : a.rtake n = l.rtake n := by
  by_cases hle : n ≤ a.length
  · obtain ⟨front, rfl⟩ := h
    rw [rtake_append, Nat.sub_eq_zero_of_le hle, List.rtake_zero, List.nil_append]
  · rw [h.eq_of_length_le (by omega)]

theorem map_rtake (f : α → β) (n : Nat) (l : List α) : (l.rtake n).map f = (l.map f).rtake n := by
  simp [List.rtake]

theorem rtake_suffix (n : Nat) (l : List α) : l.rtake n <:+ l := List.drop_suffix _ _

/-- A full ring drops its first element for a new last one. -/
theorem rtake_concat_of_length_le (hn : 0 < n) (h : l.length ≤ n) (a : α) :
    (if l.length = n then l.tail else l) ++ [a] = (l ++ [a]).rtake n := by
  split
  · rename_i hfull
    cases l with
    | nil => exact absurd hfull hn.ne
    | cons b l => simp [List.rtake, ← hfull]
  · exact (rtake_of_length_le (by simp; omega)).symm

/-! What is lost when only some elements are kept. -/

theorem flatMap_filter_eq_iff (p : α → Bool) (f : α → List β) (l : List α) :
    (l.filter p).flatMap f = l.flatMap f ↔ ∀ a ∈ l, p a = false → f a = [] := by
  induction l with
  | nil => simp
  | cons a l ih =>
    rw [List.forall_mem_cons, ← ih, List.flatMap_cons]
    cases hp : p a with
    | true =>
      rw [List.filter_cons_of_pos hp, List.flatMap_cons, List.append_cancel_left_eq]
      simp
    | false =>
      rw [List.filter_cons_of_neg (by simp [hp])]
      constructor
      · intro heq
        have hsub : ((l.filter p).flatMap f).length ≤ (l.flatMap f).length :=
          (List.filter_sublist.flatMap f).length_le
        have hlength := congrArg List.length heq
        rw [List.length_append] at hlength
        have hnil : f a = [] := List.eq_nil_of_length_eq_zero (by omega)
        rw [hnil, List.nil_append] at heq
        exact ⟨fun _ => hnil, heq⟩
      · rintro ⟨hnil, heq⟩
        rw [hnil rfl, List.nil_append, heq]

theorem map_filter_eq_iff {p q : α → Bool} {f g : α → β} (h : ∀ a ∈ l, p a = true → q a = true) :
    (l.filter p).map f = (l.filter q).map g ↔ ∀ a ∈ l, q a = true → p a = true ∧ f a = g a := by
  induction l with
  | nil => simp
  | cons a l ih =>
    rw [List.forall_mem_cons] at h
    rw [List.forall_mem_cons, ← ih h.2]
    cases hq : q a with
    | false =>
      have hp : p a = false := by
        rw [Bool.eq_false_iff]
        intro hp
        rw [h.1 hp] at hq
        cases hq
      rw [List.filter_cons_of_neg (by simp [hp]), List.filter_cons_of_neg (by simp [hq])]
      simp
    | true =>
      cases hp : p a with
      | true =>
        rw [List.filter_cons_of_pos hp, List.filter_cons_of_pos hq, List.map_cons, List.map_cons, List.cons.injEq]
        simp
      | false =>
        rw [List.filter_cons_of_neg (by simp [hp]), List.filter_cons_of_pos hq, List.map_cons]
        constructor
        · intro heq
          have hle : (l.filter p).length ≤ (l.filter q).length := by
            rw [← List.countP_eq_length_filter, ← List.countP_eq_length_filter]
            exact List.countP_mono_left h.2
          have hlength := congrArg List.length heq
          simp only [List.length_map, List.length_cons] at hlength
          omega
        · rintro ⟨hnot, -⟩
          exact absurd (hnot rfl).1 Bool.false_ne_true

theorem countP_le_one_of_nodup_flatMap {f : α → List β} {b : β}
    (hp : ∀ a ∈ l, p a = true → b ∈ f a) (h : (l.flatMap f).Nodup) : l.countP p ≤ 1 := by
  induction l with
  | nil => exact Nat.zero_le 1
  | cons a l ih =>
    rw [List.forall_mem_cons] at hp
    rw [List.flatMap_cons, List.nodup_append] at h
    cases ha : p a with
    | false =>
      rw [List.countP_cons_of_neg (by simp [ha])]
      exact ih hp.2 h.2.1
    | true =>
      have hzero : l.countP p = 0 := by
        rw [List.countP_eq_zero]
        intro c hc hpc
        exact h.2.2 b (hp.1 ha) b (List.mem_flatMap.mpr ⟨c, hc, hp.2 c hc hpc⟩) rfl
      rw [List.countP_cons_of_pos ha, hzero]

theorem flatMap_of_countP_le_one {f : α → List β} (hp : ∀ a ∈ l, p a = false → f a = []) (h : l.countP p ≤ 1) :
    l.flatMap f = [] ∨ ∃ a ∈ l, l.flatMap f = f a := by
  induction l with
  | nil => exact .inl rfl
  | cons a l ih =>
    rw [List.forall_mem_cons] at hp
    cases ha : p a with
    | false =>
      rw [List.countP_cons_of_neg (by simp [ha])] at h
      rw [List.flatMap_cons, hp.1 ha, List.nil_append]
      exact (ih hp.2 h).imp_right fun ⟨c, hc, heq⟩ => ⟨c, List.mem_cons_of_mem a hc, heq⟩
    | true =>
      rw [List.countP_cons_of_pos ha] at h
      have hrest : l.flatMap f = [] := by
        rw [List.flatMap_eq_nil_iff]
        intro c hc
        apply hp.2 c hc
        rw [Bool.eq_false_iff]
        exact List.countP_eq_zero.mp (by omega) c hc
      exact .inr ⟨a, List.mem_cons_self, by rw [List.flatMap_cons, hrest, List.append_nil]⟩

end Beetle.Lib
