import Beetle.Lib.Trim
import Beetle.Memory.LongTerm
import Mathlib.Data.List.Chain

/-! When the topic of a long-term memory is left as it is by a second normalization. -/
namespace Beetle.Memory
open Beetle.Lib

namespace UnicodeTables
variable (tables : UnicodeTables)

/-- What the inner loop of `normalize_topic` keeps of a lower-cased character. -/
def fitting : Nat → List Char → List Char
  | _, [] => []
  | used, lower :: rest =>
    if maxLongTermMemoryTopicLen < used + lower.utf8Size then [] else lower :: fitting (used + lower.utf8Size) rest

/-- A scan over a topic, with the bytes used so far, the separators at the end of what
is kept, and whether the last character was one. No kept character that is not one of
a topic; and no kept character after a second separator, which is put where a character
between the two had no room. -/
def StableTopic : Nat → Nat → Bool → List Char → Prop
  | _, _, _, [] => True
  | used, seps, prevSep, ch :: input =>
    if maxLongTermMemoryTopicLen ≤ used then True
    else if tables.isTopicChar ch then
      let kept := fitting used (tables.toLowercase ch)
      if kept = [] then StableTopic used seps false input
      else (seps ≤ 1 ∧ ∀ c ∈ kept, tables.isTopicChar c) ∧ StableTopic (used + (utf8 kept).length) 0 false input
    else if prevSep = false ∧ 0 < used then StableTopic (used + 1) (seps + 1) true input
    else StableTopic used seps prevSep input

/-- Topics as a second normalization leaves them. -/
structure Clean (cs : List Char) : Prop where
  chars : ∀ c ∈ cs, tables.isTopicChar c = true ∨ c = '_'
  single : cs.IsChain fun a b => a = '_' → b ≠ '_'

variable {tables} {cs ds out : List Char}

theorem Clean.of_infix (h : tables.Clean cs) (hds : ds <:+: cs) : tables.Clean ds :=
  ⟨fun c hc => h.chars c (hds.subset hc), h.single.infix hds⟩

theorem not_isTopicChar_underscore : tables.isTopicChar '_' = false := by
  rw [isTopicChar, tables.not_alphanumeric_underscore]
  decide

theorem not_isWhitespace_of_isTopicChar {c : Char} (h : tables.isTopicChar c = true) : isWhitespace c = false := by
  cases hspace : isWhitespace c with
  | false => rfl
  | true =>
    have hcjk : isCjk c = true := by
      simpa [isTopicChar, tables.not_alphanumeric_whitespace c hspace] using h
    simp only [isWhitespace, Bool.or_eq_true, Bool.and_eq_true, decide_eq_true_eq, beq_iff_eq] at hspace
    simp only [isCjk, Bool.or_eq_true, Bool.and_eq_true, decide_eq_true_eq] at hcjk
    omega

theorem pushLowercase_eq (out lowers : List Char) :
    pushLowercase out lowers = out ++ fitting (utf8 out).length lowers := by
  induction lowers generalizing out with
  | nil => simp [pushLowercase, fitting]
  | cons lower lowers ih =>
    rw [pushLowercase, fitting]
    split
    · simp
    · rw [ih]
      simp [utf8_append]

/-! The second normalization. -/

variable (tables) in
/-- What a normalization makes of a text whose characters all have room. -/
def squeeze : Bool → Bool → List Char → List Char
  | _, _, [] => []
  | started, prevSep, ch :: input =>
    if tables.isTopicChar ch then ch :: squeeze true false input
    else if prevSep = false ∧ started = true then '_' :: squeeze true true input
    else squeeze started prevSep input

/-- Lower-cased text of at most 40 bytes, as a first normalization leaves it. -/
structure Lowered (tables : UnicodeTables) (cs : List Char) : Prop where
  lower : ∀ c ∈ cs, tables.isTopicChar c = true → tables.toLowercase c = [c]
  size : (utf8 cs).length ≤ maxLongTermMemoryTopicLen

theorem utf8_length_pos : 0 < (utf8 cs).length ↔ cs ≠ [] := by
  constructor
  · rintro hpos rfl
    cases hpos
  · intro hne
    exact (List.length_pos_iff.mpr hne).trans_le (length_le_utf8 cs)

theorem utf8Size_underscore : '_'.utf8Size = 1 := by decide

theorem normalizeTopicFrom_eq (cs out : List Char) (prevSep : Bool)
    (hlower : ∀ c ∈ cs, tables.isTopicChar c = true → tables.toLowercase c = [c])
    (hsize : (utf8 out).length + (utf8 cs).length ≤ maxLongTermMemoryTopicLen) :
    tables.normalizeTopicFrom out prevSep cs = out ++ tables.squeeze (!out.isEmpty) prevSep cs := by
  induction cs generalizing out prevSep with
  | nil => simp [normalizeTopicFrom, squeeze]
  | cons ch input ih =>
    have hpos := ch.utf8Size_pos
    have hrest : ∀ c ∈ input, tables.isTopicChar c = true → tables.toLowercase c = [c] :=
      fun c hc => hlower c (List.mem_cons_of_mem _ hc)
    rw [length_utf8_cons] at hsize
    -- the text is at its end when the output is full
    have hstep (out' : List Char) (prevSep' : Bool)
        (hout' : (utf8 out').length + (utf8 input).length ≤ maxLongTermMemoryTopicLen) :
        (if maxLongTermMemoryTopicLen ≤ (utf8 out').length then out'
          else tables.normalizeTopicFrom out' prevSep' input) =
        out' ++ tables.squeeze (!out'.isEmpty) prevSep' input := by
      split
      · have hempty : input = [] := by
          cases input with
          | nil => rfl
          | cons c rest =>
            have hc := c.utf8Size_pos
            rw [length_utf8_cons] at hout'
            omega
        simp [hempty, squeeze]
      · exact ih out' prevSep' hrest hout'
    have hstarted' (c : Char) : (!(out ++ [c]).isEmpty) = true := by cases out <;> rfl
    rw [normalizeTopicFrom, squeeze]
    by_cases htopic : tables.isTopicChar ch = true
    · have hfit : pushLowercase out (tables.toLowercase ch) = out ++ [ch] := by
        rw [hlower ch List.mem_cons_self htopic, pushLowercase, if_neg (by omega), pushLowercase]
      simp only [if_pos htopic, hfit]
      rw [hstep _ _ (by simp [utf8_append, String.length_utf8EncodeChar]; omega), hstarted']
      simp
    · rw [if_neg htopic]
      simp only [if_neg htopic]
      by_cases hsep : prevSep = false ∧ out ≠ []
      · have hstarted : prevSep = false ∧ (!out.isEmpty) = true := ⟨hsep.1, by simpa using hsep.2⟩
        simp only [if_pos hsep, if_pos hstarted]
        rw [hstep _ _ (by simp [utf8_append, String.length_utf8EncodeChar, utf8Size_underscore]; omega), hstarted']
        simp
      · have hstarted : ¬(prevSep = false ∧ (!out.isEmpty) = true) := by simpa using hsep
        simp only [if_neg hsep, if_neg hstarted]
        exact hstep out prevSep (by omega)

theorem squeeze_clean (tables : UnicodeTables) (cs : List Char) (started prevSep : Bool) :
    tables.Clean (tables.squeeze started prevSep cs) ∧
      (prevSep = true → ∀ c ∈ (tables.squeeze started prevSep cs).head?, c ≠ '_') := by
  induction cs generalizing started prevSep with
  | nil => exact ⟨⟨by simp [squeeze], by simp [squeeze]⟩, by simp [squeeze]⟩
  | cons ch input ih =>
    rw [squeeze]
    split
    · rename_i htopic
      have hne : ch ≠ '_' := by
        rintro rfl
        rw [not_isTopicChar_underscore] at htopic
        cases htopic
      obtain ⟨hclean, -⟩ := ih true false
      refine ⟨⟨?_, ?_⟩, ?_⟩
      · intro c hc
        rcases List.mem_cons.mp hc with rfl | hc
        · exact .inl htopic
        · exact hclean.chars c hc
      · exact List.isChain_cons.mpr ⟨fun _ _ h => absurd h hne, hclean.single⟩
      · rintro - c hc
        cases hc
        exact hne
    · split
      · rename_i hsep
        obtain ⟨hclean, hhead⟩ := ih true true
        refine ⟨⟨?_, ?_⟩, ?_⟩
        · intro c hc
          rcases List.mem_cons.mp hc with rfl | hc
          · exact .inr rfl
          · exact hclean.chars c hc
        · exact List.isChain_cons.mpr ⟨fun c hc _ => hhead rfl c hc, hclean.single⟩
        · intro hprev
          rw [hsep.1] at hprev
          cases hprev
      · exact ih started prevSep

theorem squeeze_eq_self (cs : List Char) (started prevSep : Bool) (h : tables.Clean cs)
    (hhead : prevSep = true ∨ started = false → ∀ c ∈ cs.head?, c ≠ '_') :
    tables.squeeze started prevSep cs = cs := by
  induction cs generalizing started prevSep with
  | nil => rfl
  | cons ch input ih =>
    have hinput : tables.Clean input := h.of_infix (List.suffix_cons ch input).isInfix
    rw [squeeze]
    rcases h.chars ch List.mem_cons_self with htopic | rfl
    · rw [if_pos htopic, ih true false hinput (by simp)]
    · have hsep : prevSep = false ∧ started = true := by
        by_contra hnot
        refine hhead ?_ '_' rfl rfl
        cases prevSep <;> cases started <;> simp_all
      have hnext : ∀ c ∈ input.head?, c ≠ '_' := fun c hc => (List.isChain_cons.mp h.single).1 c hc rfl
      rw [if_neg (by simp [not_isTopicChar_underscore]), if_pos hsep, ih true true hinput fun _ => hnext]

/-- A text that a normalization has left is left as it is by another just when it is clean. -/
theorem normalized_twice_iff (h : Lowered tables cs) (hhead : ∀ c ∈ cs.head?, c ≠ '_')
    (hlast : ∀ c ∈ cs.getLast?, c ≠ '_') :
    trimMatches '_' (tables.normalizeTopicFrom [] false (trim cs)) = cs ↔ tables.Clean cs := by
  have hpart : trim cs <:+: cs := trimEnds_part isWhitespace cs
  have hsize : (utf8 (trim cs)).length ≤ (utf8 cs).length := by
    obtain ⟨front, back, hsplit⟩ := hpart
    have hlength := congrArg (fun cs => (utf8 cs).length) hsplit
    simp only [utf8_append, List.length_append] at hlength
    omega
  have hfirst : tables.normalizeTopicFrom [] false (trim cs) = tables.squeeze false false (trim cs) :=
    normalizeTopicFrom_eq (trim cs) [] false (fun c hc => h.lower c (hpart.subset hc))
      (by simpa using hsize.trans h.size)
  rw [hfirst]
  constructor
  · intro heq
    have hclean := (squeeze_clean tables (trim cs) false false).1
    rw [← heq]
    exact hclean.of_infix (trimEnds_part _ _)
  · intro hclean
    have hspace : ∀ c ∈ cs, c ≠ '_' → isWhitespace c = false :=
      fun c hc hne => not_isWhitespace_of_isTopicChar ((hclean.chars c hc).resolve_right hne)
    have htrim : trim cs = cs := trimEnds_eq_self
      (fun c hc => hspace c (List.mem_of_mem_head? hc) (hhead c hc))
      (fun c hc => hspace c (List.mem_of_mem_getLast? hc) (hlast c hc))
    rw [htrim, squeeze_eq_self cs false false hclean fun _ => hhead]
    exact trimEnds_eq_self (fun c hc => by simpa using hhead c hc) (fun c hc => by simpa using hlast c hc)

/-! The first normalization. -/

variable (tables) in
/-- The loop of `normalize_topic` from its check of the length on. -/
def normalizeTopicRest (out : List Char) (prevSep : Bool) (input : List Char) : List Char :=
  if maxLongTermMemoryTopicLen ≤ (utf8 out).length then out else tables.normalizeTopicFrom out prevSep input

/-- What one character does to the loop. -/
inductive TopicStep (tables : UnicodeTables) (out : List Char) (prevSep : Bool) (ch : Char) (input : List Char) : Prop
  | skipped (letter : tables.isTopicChar ch = true)
      (full : fitting (utf8 out).length (tables.toLowercase ch) = [])
      (rest : tables.normalizeTopicRest out prevSep (ch :: input) = tables.normalizeTopicRest out false input)
  | kept (letter : tables.isTopicChar ch = true)
      (fits : fitting (utf8 out).length (tables.toLowercase ch) ≠ [])
      (rest : tables.normalizeTopicRest out prevSep (ch :: input) =
        tables.normalizeTopicRest (out ++ fitting (utf8 out).length (tables.toLowercase ch)) false input)
  | separator (other : tables.isTopicChar ch = false) (first : prevSep = false ∧ out ≠ [])
      (rest : tables.normalizeTopicRest out prevSep (ch :: input) =
        tables.normalizeTopicRest (out ++ ['_']) true input)
  | ignored (other : tables.isTopicChar ch = false) (again : ¬(prevSep = false ∧ out ≠ []))
      (rest : tables.normalizeTopicRest out prevSep (ch :: input) = tables.normalizeTopicRest out prevSep input)

theorem topicStep (tables : UnicodeTables) (out : List Char) (prevSep : Bool) (ch : Char) (input : List Char)
    (hroom : ¬ maxLongTermMemoryTopicLen ≤ (utf8 out).length) : TopicStep tables out prevSep ch input := by
  cases htopic : tables.isTopicChar ch with
  | true =>
    have hrest : tables.normalizeTopicRest out prevSep (ch :: input) =
        tables.normalizeTopicRest (out ++ fitting (utf8 out).length (tables.toLowercase ch)) false input := by
      rw [normalizeTopicRest, if_neg hroom, normalizeTopicFrom]
      simp only [if_pos htopic, pushLowercase_eq]
      rfl
    by_cases hfits : fitting (utf8 out).length (tables.toLowercase ch) = []
    · rw [hfits, List.append_nil] at hrest
      exact .skipped htopic hfits hrest
    · exact .kept htopic hfits hrest
  | false =>
    have hother : ¬ tables.isTopicChar ch = true := by simp [htopic]
    by_cases hsep : prevSep = false ∧ out ≠ []
    · refine .separator htopic hsep ?_
      rw [normalizeTopicRest, if_neg hroom, normalizeTopicFrom]
      simp only [if_neg hother, if_pos hsep]
      rfl
    · refine .ignored htopic hsep ?_
      rw [normalizeTopicRest, if_neg hroom, normalizeTopicFrom]
      simp only [if_neg hother, if_neg hsep]
      rfl

theorem fitting_subset (used : Nat) (lowers : List Char) : ∀ c ∈ fitting used lowers, c ∈ lowers := by
  induction lowers generalizing used with
  | nil => simp [fitting]
  | cons lower lowers ih =>
    rw [fitting]
    split
    · simp
    · intro c hc
      rcases List.mem_cons.mp hc with rfl | hc
      · exact List.mem_cons_self
      · exact List.mem_cons_of_mem _ (ih _ c hc)

theorem fitting_size (used : Nat) (lowers : List Char) (hused : used ≤ maxLongTermMemoryTopicLen) :
    used + (utf8 (fitting used lowers)).length ≤ maxLongTermMemoryTopicLen := by
  induction lowers generalizing used with
  | nil => simpa [fitting] using hused
  | cons lower lowers ih =>
    rw [fitting]
    split
    · simpa using hused
    · have hle := ih (used + lower.utf8Size) (by omega)
      rw [length_utf8_cons]
      omega

theorem not_underscore_of_fitting {used : Nat} {ch c : Char} (htopic : tables.isTopicChar ch = true)
    (hc : c ∈ fitting used (tables.toLowercase ch)) : c ≠ '_' := by
  rintro rfl
  have hch := tables.eq_underscore_of_toLowercase ch (fitting_subset _ _ _ hc)
  rw [hch, not_isTopicChar_underscore] at htopic
  cases htopic

/-- What the loop keeps: characters of lower-cased ones and separators, none of them first. -/
structure Kept (tables : UnicodeTables) (out : List Char) : Prop where
  lower : ∀ c ∈ out, c = '_' ∨ ∃ ch, c ∈ tables.toLowercase ch
  size : (utf8 out).length ≤ maxLongTermMemoryTopicLen
  head : ∀ c ∈ out.head?, c ≠ '_'

theorem Kept.append (cs : List Char) (h : Kept tables out) (hlower : ∀ c ∈ cs, c = '_' ∨ ∃ ch, c ∈ tables.toLowercase ch)
    (hsize : (utf8 out).length + (utf8 cs).length ≤ maxLongTermMemoryTopicLen)
    (hhead : out = [] → ∀ c ∈ cs.head?, c ≠ '_') : Kept tables (out ++ cs) := by
  refine ⟨?_, by simpa [utf8_append] using hsize, ?_⟩
  · intro c hc
    rcases List.mem_append.mp hc with hc | hc
    · exact h.lower c hc
    · exact hlower c hc
  · cases out with
    | nil => exact hhead rfl
    | cons first out => exact h.head

theorem Kept.rest (input : List Char) (prevSep : Bool) (h : Kept tables out) :
    Kept tables (tables.normalizeTopicRest out prevSep input) ∧
      out <+: tables.normalizeTopicRest out prevSep input := by
  induction input generalizing out prevSep with
  | nil =>
    rw [normalizeTopicRest, normalizeTopicFrom, ite_self]
    exact ⟨h, List.prefix_refl out⟩
  | cons ch input ih =>
    by_cases hroom : maxLongTermMemoryTopicLen ≤ (utf8 out).length
    · rw [normalizeTopicRest, if_pos hroom]
      exact ⟨h, List.prefix_refl out⟩
    cases topicStep tables out prevSep ch input hroom with
    | skipped letter full rest =>
      rw [rest]
      exact ih false h
    | kept letter fits rest =>
      rw [rest]
      have happend := h.append (fitting (utf8 out).length (tables.toLowercase ch))
        (fun c hc => .inr ⟨ch, fitting_subset _ _ c hc⟩) (fitting_size _ _ h.size)
        (fun _ c hc => not_underscore_of_fitting letter (List.mem_of_mem_head? hc))
      obtain ⟨hkept, hprefix⟩ := ih false happend
      exact ⟨hkept, (List.prefix_append _ _).trans hprefix⟩
    | separator other first rest =>
      rw [rest]
      have hsize : (utf8 out).length + (utf8 ['_']).length ≤ maxLongTermMemoryTopicLen := by
        rw [length_utf8_cons, utf8Size_underscore]
        simp only [utf8_nil, List.length_nil]
        omega
      have happend := h.append ['_'] (fun c hc => .inl (List.mem_singleton.mp hc)) hsize
        (fun hnil => absurd hnil first.2)
      obtain ⟨hkept, hprefix⟩ := ih true happend
      exact ⟨hkept, (List.prefix_append _ _).trans hprefix⟩
    | ignored other again rest =>
      rw [rest]
      exact ih prevSep h

theorem Kept.lowered (h : Kept tables out) (hds : ds <:+: out) : Lowered tables ds := by
  constructor
  · intro c hc htopic
    rcases h.lower c (hds.subset hc) with rfl | ⟨ch, hch⟩
    · rw [not_isTopicChar_underscore] at htopic
      cases htopic
    · exact tables.toLowercase_toLowercase ch c hch
  · obtain ⟨front, back, hsplit⟩ := hds
    have hlength := congrArg (fun cs => (utf8 cs).length) hsplit
    have hsize := h.size
    simp only [utf8_append, List.length_append] at hlength
    omega

/-! The scan finds out whether what the loop keeps is clean. -/

@[grind =] def isUnderscore (c : Char) : Bool := c = '_'

section
variable (h : ∀ c ∈ cs.head?, c ≠ '_')
include h

theorem dropWhile_underscore : cs.dropWhile isUnderscore = cs := by
  cases cs with
  | nil => rfl
  | cons c cs =>
    have hc := h c rfl
    exact List.dropWhile_cons_of_neg (by simpa [isUnderscore] using hc)

theorem trimMatches_underscore : trimMatches '_' cs = cs.rdropWhile isUnderscore := by
  have htrim : trimMatches '_' cs = (cs.dropWhile isUnderscore).rdropWhile isUnderscore := rfl
  rw [htrim, dropWhile_underscore h]

theorem head_rdropWhile {p : Char → Bool} : ∀ c ∈ (cs.rdropWhile p).head?, c ≠ '_' := by
  intro c hc
  obtain ⟨rest, hrest⟩ := List.rdropWhile_prefix p cs
  apply h
  rw [← hrest, List.head?_append, Option.mem_def.mp hc]
  rfl

end

theorem prefix_rdropWhile {p : Char → Bool} (h : ds <+: cs) (hlast : ∀ c ∈ ds.getLast?, p c = false) :
    ds <+: cs.rdropWhile p := by
  obtain ⟨rest, rfl⟩ := h
  induction rest using List.reverseRecOn with
  | nil =>
    have hself : ds.rdropWhile p = ds := by
      apply List.rdropWhile_eq_self_iff.mpr
      intro hne
      simp [hlast _ (List.getLast?_eq_some_getLast hne)]
    have hkept : ds <+: ds.rdropWhile p := hself.symm ▸ List.prefix_refl ds
    rwa [List.append_nil]
  | append_singleton rest c ih =>
    rw [← List.append_assoc, List.rdropWhile_concat]
    split
    · exact ih
    · rw [List.append_assoc]
      exact List.prefix_append _ _

theorem rdropWhile_separators (hlast : ∀ c ∈ cs.getLast?, c ≠ '_') (seps : Nat) :
    (cs ++ List.replicate seps '_').rdropWhile isUnderscore = cs := by
  induction seps with
  | zero =>
    rw [List.replicate_zero, List.append_nil, List.rdropWhile_eq_self_iff]
    intro hne
    simpa [isUnderscore] using hlast _ (List.getLast?_eq_some_getLast hne)
  | succ seps ih =>
    rw [List.replicate_succ', ← List.append_assoc, List.rdropWhile_concat_pos _ _ _ (by decide)]
    exact ih

theorem clean_append_iff {core : List Char} (seps : Nat) (hcore : tables.Clean core)
    (hlast : ∀ c ∈ core.getLast?, c ≠ '_') (hcs : ∀ c ∈ cs, c ≠ '_') :
    tables.Clean (core ++ List.replicate seps '_' ++ cs) ↔ seps ≤ 1 ∧ ∀ c ∈ cs, tables.isTopicChar c = true := by
  constructor
  · intro h
    constructor
    · by_contra hseps
      obtain ⟨more, rfl⟩ : ∃ more, seps = more + 2 := ⟨seps - 2, by omega⟩
      have hpair : ['_', '_'] <:+: core ++ List.replicate (more + 2) '_' ++ cs := by
        refine ⟨core, List.replicate more '_' ++ cs, ?_⟩
        simp [List.replicate_succ]
      have hchain := h.single.infix hpair
      simp at hchain
    · intro c hc
      exact (h.chars c (List.mem_append_right _ hc)).resolve_right (hcs c hc)
  · rintro ⟨hseps, hletters⟩
    constructor
    · intro c hc
      rcases List.mem_append.mp hc with hc | hc
      · rcases List.mem_append.mp hc with hc | hc
        · exact hcore.chars c hc
        · exact .inr (List.eq_of_mem_replicate hc)
      · exact .inl (hletters c hc)
    · have hplain (ds : List Char) (hds : ∀ c ∈ ds, c ≠ '_') : ds.IsChain fun a b => a = '_' → b ≠ '_' := by
        induction ds with
        | nil => exact .nil
        | cons c ds ih =>
          have hrest := ih fun d hd => hds d (List.mem_cons_of_mem _ hd)
          exact List.isChain_cons.mpr ⟨fun _ _ h => absurd h (hds c List.mem_cons_self), hrest⟩
      have hseparators : (List.replicate seps '_').IsChain fun a b => a = '_' → b ≠ '_' := by
        rcases Nat.le_one_iff_eq_zero_or_eq_one.mp hseps with rfl | rfl <;> simp
      refine List.isChain_append.mpr ⟨List.isChain_append.mpr ⟨hcore.single, hseparators, ?_⟩, hplain cs hcs, ?_⟩
      · exact fun c hc _ _ h => absurd h (hlast c hc)
      · exact fun _ _ c hc _ => hcs c (List.mem_of_mem_head? hc)

/-- The scan is right from any point of the loop on. -/
theorem clean_rest_iff (tables : UnicodeTables) (input core : List Char) (seps : Nat) (prevSep : Bool) (hcore : tables.Clean core)
    (hlast : ∀ c ∈ core.getLast?, c ≠ '_') (hstart : core = [] → seps = 0)
    (hkept : Kept tables (core ++ List.replicate seps '_')) :
    tables.Clean ((tables.normalizeTopicRest (core ++ List.replicate seps '_') prevSep input).rdropWhile
      isUnderscore) ↔
      tables.StableTopic (utf8 (core ++ List.replicate seps '_')).length seps prevSep input := by
  induction input generalizing core seps prevSep with
  | nil =>
    rw [normalizeTopicRest, normalizeTopicFrom, ite_self, rdropWhile_separators hlast]
    simpa [StableTopic] using hcore
  | cons ch input ih =>
    rw [StableTopic]
    by_cases hroom : maxLongTermMemoryTopicLen ≤ (utf8 (core ++ List.replicate seps '_')).length
    · rw [if_pos hroom, normalizeTopicRest, if_pos hroom, rdropWhile_separators hlast]
      simpa using hcore
    rw [if_neg hroom]
    cases topicStep tables _ prevSep ch input hroom with
    | skipped letter full rest =>
      rw [rest, if_pos letter]
      simp only [if_pos full]
      exact ih core seps false hcore hlast hstart hkept
    | kept letter fits rest =>
      rw [rest, if_pos letter]
      simp only [if_neg fits]
      generalize hlowered : fitting (utf8 (core ++ List.replicate seps '_')).length (tables.toLowercase ch) =
        lowered at fits rest ⊢
      have hne : ∀ c ∈ lowered, c ≠ '_' := fun c hc => not_underscore_of_fitting letter (hlowered ▸ hc)
      have hlastLowered : ∀ c ∈ (core ++ List.replicate seps '_' ++ lowered).getLast?, c ≠ '_' := by
        intro c hc
        rw [List.getLast?_append_of_ne_nil _ fits] at hc
        exact hne c (List.mem_of_mem_getLast? hc)
      have hkeptLowered : Kept tables (core ++ List.replicate seps '_' ++ lowered) := by
        refine hkept.append lowered (fun c hc => .inr ⟨ch, fitting_subset _ _ c (hlowered ▸ hc)⟩) ?_ ?_
        · rw [← hlowered]
          exact fitting_size _ _ hkept.size
        · exact fun _ c hc => hne c (List.mem_of_mem_head? hc)
      have hrest (hclean : tables.Clean (core ++ List.replicate seps '_' ++ lowered)) :=
        ih (core ++ List.replicate seps '_' ++ lowered) 0 false hclean hlastLowered (fun _ => rfl)
          (by rwa [List.replicate_zero, List.append_nil])
      simp only [List.replicate_zero, List.append_nil] at hrest
      rw [← clean_append_iff seps hcore hlast hne, ← List.length_append, ← utf8_append]
      constructor
      · intro hclean
        -- what is kept ends with one of the lowered characters, which the trimming leaves
        have hprefix := (hkeptLowered.rest input false).2
        have hpart := (prefix_rdropWhile (p := isUnderscore) hprefix fun c hc => by
          simpa [isUnderscore] using hlastLowered c hc).isInfix
        have hlower := hclean.of_infix hpart
        exact ⟨hlower, (hrest hlower).mp hclean⟩
      · rintro ⟨hlower, hstable⟩
        exact (hrest hlower).mpr hstable
    | separator other first rest =>
      have hout : core ++ List.replicate seps '_' ++ ['_'] = core ++ List.replicate (seps + 1) '_' := by
        rw [List.replicate_succ', List.append_assoc]
      have hsize : (utf8 (core ++ List.replicate (seps + 1) '_')).length =
          (utf8 (core ++ List.replicate seps '_')).length + 1 := by
        rw [← hout, utf8_append, List.length_append, length_utf8_cons, utf8Size_underscore]
        rfl
      have hcoreNe : core ≠ [] := by
        rintro rfl
        rw [hstart rfl] at first
        exact first.2 rfl
      have hkeptNext : Kept tables (core ++ List.replicate (seps + 1) '_') := by
        rw [← hout]
        refine hkept.append ['_'] (fun c hc => .inl (List.mem_singleton.mp hc)) ?_ (fun h => absurd h first.2)
        rw [length_utf8_cons, utf8Size_underscore]
        simp only [utf8_nil, List.length_nil]
        omega
      rw [rest, if_neg (by simp [other]), if_pos ⟨first.1, utf8_length_pos.mpr first.2⟩, hout, ← hsize]
      exact ih core (seps + 1) true hcore hlast (fun h => absurd h hcoreNe) hkeptNext
    | ignored other again rest =>
      have hagain : ¬(prevSep = false ∧ 0 < (utf8 (core ++ List.replicate seps '_')).length) := by
        rwa [utf8_length_pos]
      rw [rest, if_neg (by simp [other]), if_neg hagain]
      exact ih core seps prevSep hcore hlast hstart hkept

/-- The topic of a draft is left as it is by a second normalization just when the scan
over it finds nothing. -/
theorem normalizeTopic_twice_iff (tables : UnicodeTables) (topic : String) :
    tables.normalizeTopic (trimStr (tables.normalizeTopic (trimStr topic))) = tables.normalizeTopic (trimStr topic) ↔
      tables.StableTopic 0 0 false (trim topic.toList) := by
  have hempty : Kept tables [] := ⟨by simp, by simp, by simp⟩
  obtain ⟨hkept, -⟩ := hempty.rest (trim topic.toList) false
  have hscan := clean_rest_iff tables (trim topic.toList) [] 0 false ⟨by simp, by simp⟩ (by simp)
    (fun _ => rfl) (by simpa using hempty)
  have hfirst : tables.normalizeTopicRest [] false (trim topic.toList) =
      tables.normalizeTopicFrom [] false (trim topic.toList) := if_neg (by decide)
  simp only [List.replicate_zero, List.append_nil, utf8_nil, List.length_nil, hfirst] at hscan hkept
  have htopic : tables.normalizeTopic (trimStr topic) =
      String.ofList ((tables.normalizeTopicFrom [] false (trim topic.toList)).rdropWhile isUnderscore) := by
    rw [normalizeTopic, trimStr, String.toList_ofList, trimMatches_underscore hkept.head]
  have hagain (cs : List Char) : tables.normalizeTopic (trimStr (String.ofList cs)) =
      String.ofList (trimMatches '_' (tables.normalizeTopicFrom [] false (trim cs))) := by
    rw [normalizeTopic, trimStr, String.toList_ofList, String.toList_ofList]
  rw [← hscan, htopic, hagain, String.ofList_inj]
  apply normalized_twice_iff
  · exact hkept.lowered (List.rdropWhile_prefix _ _).isInfix
  · exact fun c hc => head_rdropWhile hkept.head c hc
  · intro c hc
    have hlast := trimEnds_last isUnderscore (tables.normalizeTopicFrom [] false (trim topic.toList)) c
    rw [trimEnds, dropWhile_underscore hkept.head] at hlast
    simpa [isUnderscore] using hlast hc

end UnicodeTables
end Beetle.Memory
