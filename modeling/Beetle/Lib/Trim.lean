import Beetle.Lib.Text

/-! Texts without what is at their ends. -/
namespace Beetle.Lib
variable {p : Char → Bool} {cs : List Char} {sep : Char}

/-- `str::trim_matches`; `trim` is the case of white space. -/
@[grind =] def trimEnds (p : Char → Bool) (cs : List Char) : List Char := (cs.dropWhile p).rdropWhile p

theorem trim_eq_trimEnds (cs : List Char) : trim cs = trimEnds isWhitespace cs := rfl

theorem dropWhile_eq_self_of_head (h : ∀ c ∈ cs.head?, p c = false) : cs.dropWhile p = cs := by
  cases cs with
  | nil => rfl
  | cons c cs => exact List.dropWhile_cons_of_neg (by simp [h c rfl])

theorem rdropWhile_eq_self_of_last (h : ∀ c ∈ cs.getLast?, p c = false) : cs.rdropWhile p = cs := by
  rw [List.rdropWhile_eq_self_iff]
  intro hne
  simp [h _ (List.getLast?_eq_some_getLast hne)]

theorem trimEnds_eq_self (hhead : ∀ c ∈ cs.head?, p c = false) (hlast : ∀ c ∈ cs.getLast?, p c = false) :
    trimEnds p cs = cs := by
  rw [trimEnds, dropWhile_eq_self_of_head hhead, rdropWhile_eq_self_of_last hlast]

theorem rdropWhile_append {back : List Char} (h : ∀ c ∈ back, p c = true) (cs : List Char) :
    (cs ++ back).rdropWhile p = cs.rdropWhile p := by
  rw [List.rdropWhile, List.reverse_append, List.dropWhile_append_of_pos (by simpa using h), List.rdropWhile]

/-- What is put around a text is trimmed off again. -/
theorem trimEnds_append {front back : List Char} (hfront : ∀ c ∈ front, p c = true) (hback : ∀ c ∈ back, p c = true)
    (hhead : ∀ c ∈ cs.head?, p c = false) (hlast : ∀ c ∈ cs.getLast?, p c = false) :
    trimEnds p (front ++ cs ++ back) = cs := by
  cases cs with
  | nil =>
    have hall : ∀ c ∈ front ++ [] ++ back, p c = true := by
      intro c hc
      rcases List.mem_append.mp (by simpa using hc) with hc | hc
      · exact hfront c hc
      · exact hback c hc
    rw [trimEnds, List.dropWhile_eq_nil_iff.mpr hall]
    rfl
  | cons c cs =>
    have hdrop : (c :: cs ++ back).dropWhile p = c :: cs ++ back :=
      List.dropWhile_cons_of_neg (by simp [hhead c rfl])
    rw [trimEnds, List.append_assoc, List.dropWhile_append_of_pos hfront, hdrop, rdropWhile_append hback,
      rdropWhile_eq_self_of_last hlast]

theorem exists_trim_cons {a : Char} (ha : isWhitespace a = false) (cs : List Char) :
    ∃ rest, trim (a :: cs) = a :: rest ∧ rest <+: cs := by
  have hstart : (a :: cs).dropWhile isWhitespace = a :: cs := by simp [ha]
  have hcut : trim (a :: cs) <+: a :: cs := by
    rw [trim, hstart]
    exact List.rdropWhile_prefix _ _
  obtain ⟨back, hback⟩ := hcut
  cases htrim : trim (a :: cs) with
  | nil =>
    rw [trim, hstart, List.rdropWhile_eq_nil_iff] at htrim
    exact absurd (htrim a (by simp)) (by simp [ha])
  | cons b rest =>
    rw [htrim, List.cons_append] at hback
    obtain ⟨rfl, hrest⟩ := List.cons_eq_cons.mp hback
    exact ⟨rest, rfl, ⟨back, hrest⟩⟩

/-- What is trimmed off. -/
theorem eq_append_trimEnds (p : Char → Bool) (cs : List Char) : ∃ front back,
    cs = front ++ trimEnds p cs ++ back ∧ (∀ c ∈ front, p c = true) ∧ (∀ c ∈ back, p c = true) := by
  refine ⟨cs.takeWhile p, (cs.dropWhile p).rtakeWhile p, ?_, ?_, ?_⟩
  · rw [trimEnds, List.append_assoc, List.rdropWhile_append_rtakeWhile, List.takeWhile_append_dropWhile]
  · intro c hc
    exact List.mem_takeWhile_imp hc
  · intro c hc
    exact List.mem_rtakeWhile_imp hc

theorem trimEnds_head (p : Char → Bool) (cs : List Char) : ∀ c ∈ (trimEnds p cs).head?, p c = false := by
  intro c hc
  have hprefix : trimEnds p cs <+: cs.dropWhile p := List.rdropWhile_prefix _ _
  have hhead : (cs.dropWhile p).head? = some c := by
    obtain ⟨rest, hrest⟩ := hprefix
    rw [← hrest, List.head?_append_of_ne_nil]
    · exact hc
    · rintro hnil
      rw [hnil] at hc
      cases hc
  have := List.head?_dropWhile_not p cs
  rw [hhead] at this
  simpa using this

theorem trimEnds_last (p : Char → Bool) (cs : List Char) : ∀ c ∈ (trimEnds p cs).getLast?, p c = false := by
  intro c hc
  have hne : trimEnds p cs ≠ [] := by
    intro hnil
    rw [hnil] at hc
    cases hc
  have hnot : ¬ p ((trimEnds p cs).getLast hne) := List.rdropWhile_last_not p (cs.dropWhile p) hne
  rw [Option.mem_def, List.getLast?_eq_some_getLast hne, Option.some.injEq] at hc
  simpa [hc] using hnot

theorem trimEnds_part (p : Char → Bool) (cs : List Char) : trimEnds p cs <:+: cs :=
  (List.rdropWhile_prefix p _).isInfix.trans (List.dropWhile_suffix p).isInfix

/-- Nothing is trimmed off a part that something in front of it keeps in place, or its own first character. -/
theorem dropWhile_append_part {front part : List Char} (h : (∃ c ∈ front, p c = false) ∨ ∃ c ∈ part.head?, p c = false)
    (back : List Char) : (front ++ (part ++ back)).dropWhile p = front.dropWhile p ++ (part ++ back) := by
  rw [List.dropWhile_append]
  split
  · rename_i hempty
    have hnil : front.dropWhile p = [] := List.isEmpty_iff.mp hempty
    have hfront : ∀ c ∈ front, p c = true := List.dropWhile_eq_nil_iff.mp hnil
    rcases h with ⟨c, hc, hpc⟩ | ⟨c, hc, hpc⟩
    · rw [hfront c hc] at hpc
      cases hpc
    · cases part with
      | nil => cases hc
      | cons d part =>
        obtain rfl : d = c := Option.some.inj hc
        rw [hnil, List.cons_append, List.dropWhile_cons_of_neg (by simp [hpc]), List.nil_append]
  · rfl

theorem rdropWhile_append_part {part back : List Char} (h : (∃ c ∈ part.getLast?, p c = false) ∨ ∃ c ∈ back, p c = false)
    (front : List Char) : (front ++ (part ++ back)).rdropWhile p = front ++ (part ++ back.rdropWhile p) := by
  have hreverse : (∃ c ∈ back.reverse, p c = false) ∨ ∃ c ∈ part.reverse.head?, p c = false := by
    rcases h with h | ⟨c, hc, hpc⟩
    · exact .inr (by rwa [List.head?_reverse])
    · exact .inl ⟨c, List.mem_reverse.mpr hc, hpc⟩
  have hdrop := dropWhile_append_part hreverse front.reverse
  rw [List.rdropWhile, List.reverse_append, List.reverse_append, List.append_assoc, hdrop, List.rdropWhile]
  simp

/-- Where a part stands that is left when a text is trimmed. -/
theorem infix_trimEnds_iff {part : List Char} (hne : part ≠ []) : part <:+: trimEnds p cs ↔
    ∃ front back, cs = front ++ (part ++ back) ∧ ((∃ c ∈ front, p c = false) ∨ ∃ c ∈ part.head?, p c = false) ∧
      ((∃ c ∈ part.getLast?, p c = false) ∨ ∃ c ∈ back, p c = false) := by
  constructor
  · rintro ⟨x, y, hxy⟩
    obtain ⟨front, back, hcs, -, -⟩ := eq_append_trimEnds p cs
    have hhead := trimEnds_head p cs
    have hlast := trimEnds_last p cs
    rw [← hxy, List.append_assoc] at hhead hcs
    rw [← hxy] at hlast
    refine ⟨front ++ x, y ++ back, by rw [hcs]; simp, ?_, ?_⟩
    · cases x with
      | nil =>
        obtain ⟨c, part, rfl⟩ := List.exists_cons_of_ne_nil hne
        exact .inr ⟨c, rfl, hhead c rfl⟩
      | cons c x => exact .inl ⟨c, by simp, hhead c rfl⟩
    · obtain rfl | ⟨y, c, rfl⟩ := List.eq_nil_or_concat y
      · obtain ⟨part, c, rfl⟩ := (List.eq_nil_or_concat part).resolve_left hne
        exact .inl ⟨c, by simp, hlast c (by simp)⟩
      · exact .inr ⟨c, by simp, hlast c (by simp)⟩
  · rintro ⟨front, back, rfl, hfront, hback⟩
    rw [trimEnds, dropWhile_append_part hfront, rdropWhile_append_part hback]
    exact ⟨_, _, List.append_assoc _ _ _⟩

theorem isWhitespace_of_isDigit {c : Char} (h : c.isDigit = true) : isWhitespace c = false := by
  have hcode := Char.isDigit_iff_toNat.mp h
  unfold isWhitespace
  simp only [Bool.or_eq_false_iff, Bool.and_eq_false_iff, decide_eq_false_iff_not, beq_eq_false_iff_ne]
  change 48 ≤ c.toNat ∧ c.toNat ≤ 57 at hcode
  omega

/-! Parts of a text. -/

theorem notMem_of_mem_splitOn {part : List Char} (h : part ∈ cs.splitOn sep) : sep ∉ part := by
  induction cs generalizing part with
  | nil =>
    obtain rfl : part = [] := by simpa using h
    exact List.not_mem_nil
  | cons c cs ih =>
    rw [List.splitOn_cons_eq_if_modifyHead] at h
    split at h
    · rcases List.mem_cons.mp h with rfl | h
      · exact List.not_mem_nil
      · exact ih h
    · rename_i hc
      obtain ⟨first, more, hsplit⟩ := List.exists_cons_of_ne_nil (List.splitOn_ne_nil sep cs)
      rw [hsplit, List.modifyHead_cons] at h
      rcases List.mem_cons.mp h with rfl | h
      · have hne : sep ≠ c := fun heq => hc (by simp [heq])
        simp only [List.mem_cons, not_or]
        exact ⟨hne, ih (by simp [hsplit])⟩
      · exact ih (by simp [hsplit, h])

theorem splitOnce_append {before : List Char} (h : sep ∉ before) (after : List Char) :
    splitOnce sep (before ++ sep :: after) = some (before, after) := by
  have hall : ∀ a ∈ before, decide (a ≠ sep) = true := by
    intro a ha
    exact decide_eq_true fun heq => h (heq ▸ ha)
  rw [splitOnce, if_pos (by simp), List.takeWhile_append_of_pos hall, List.dropWhile_append_of_pos hall]
  simp

theorem splitOnce_eq_none_iff : splitOnce sep cs = none ↔ sep ∉ cs := by
  simp [splitOnce]

theorem splitOnce_eq_some_iff {before after : List Char} :
    splitOnce sep cs = some (before, after) ↔ cs = before ++ sep :: after ∧ sep ∉ before := by
  constructor
  · intro h
    have hmem : sep ∈ cs := by
      by_contra hnot
      rw [splitOnce_eq_none_iff.mpr hnot] at h
      cases h
    obtain ⟨front, back, rfl, hfront⟩ := List.eq_append_cons_of_mem hmem
    rw [splitOnce_append hfront] at h
    obtain ⟨rfl, rfl⟩ := Prod.mk.inj (Option.some.inj h)
    exact ⟨rfl, hfront⟩
  · rintro ⟨rfl, hbefore⟩
    exact splitOnce_append hbefore after

end Beetle.Lib
