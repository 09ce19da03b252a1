import Beetle.Lib.Pieces
import Beetle.Lib.Search
import Beetle.Lib.Trim

/-! Markers that are taken out of a text, and when none is left of them. -/
namespace Beetle
open Beetle.Lib

/-- One turn of the loop over the needles; `best` is what is in front of the earliest match so far and behind it. -/
def earlierMatch (rest : List Char) (best : Option (List Char × List Char)) (needle : List Char) :
    Option (List Char × List Char) :=
  if needle = [] then best
  else
    match splitAtFirst needle rest with
    | none => best
    | some (before, after) =>
      match best with
      | none => some (before, after)
      | some (bestBefore, bestAfter) =>
        if before.length < bestBefore.length then some (before, after) else some (bestBefore, bestAfter)

def earliestMatch (needles : List (List Char)) (rest : List Char) : Option (List Char × List Char) :=
  needles.foldl (earlierMatch rest) none

/-! The earliest match. -/

/-- The marker that stands first in a text; of two at one place it is the one that is listed first. -/
structure FirstMark (needles : List (List Char)) (s before needle after : List Char) : Prop where
  ne : needle ≠ []
  eq : s = before ++ (needle ++ after)
  leftmost : ∀ other ∈ needles, other ≠ [] → ∀ front back, s = front ++ (other ++ back) → before.length ≤ front.length
  listed : ∃ earlier later, needles = earlier ++ needle :: later ∧
    ∀ other ∈ earlier, other ≠ [] → ∀ back, needle ++ after ≠ other ++ back

/-- What the loop has found in the needles so far. -/
def Found (needles : List (List Char)) (s : List Char) : Option (List Char × List Char) → Prop
  | none => ∀ needle ∈ needles, needle ≠ [] → ¬ needle <:+: s
  | some (before, after) => ∃ needle, FirstMark needles s before needle after

variable {needles : List (List Char)} {best : Option (List Char × List Char)} {s : List Char}
  {s before needle after : List Char} {pieces : List (List Char)}

theorem FirstMark.append {s before needle after other : List Char} (h : FirstMark needles s before needle after)
    (hother : other ≠ [] → ∀ front back, s = front ++ (other ++ back) → before.length ≤ front.length) :
    FirstMark (needles ++ [other]) s before needle after := by
  obtain ⟨hne, heq, hleftmost, earlier, later, hlisted, hearlier⟩ := h
  refine ⟨hne, heq, fun needle' hmem => ?_, earlier, later ++ [other], by rw [hlisted]; simp, hearlier⟩
  rcases List.mem_append.mp hmem with hmem | hmem
  · exact hleftmost needle' hmem
  · rw [List.mem_singleton.mp hmem]
    exact hother

/-- A needle that does not occur makes no difference. -/
theorem Found.skip (h : Found needles s best) {needle : List Char} (hskip : needle ≠ [] → ¬ needle <:+: s) :
    Found (needles ++ [needle]) s best := by
  cases best with
  | none =>
    intro other hmem
    rcases List.mem_append.mp hmem with hmem | hmem
    · exact h other hmem
    · rw [List.mem_singleton.mp hmem]
      exact hskip
  | some best =>
    obtain ⟨mark, hmark⟩ := h
    refine ⟨mark, hmark.append fun hne front back hs => ?_⟩
    exact absurd ⟨front, back, by rw [hs, List.append_assoc]⟩ (hskip hne)

/-- A needle is the first mark when no other one stands where it does or earlier. -/
theorem firstMark_of_splitAtFirst (hne : needle ≠ []) (hsplit : splitAtFirst needle s = some (before, after))
    (hothers : ∀ other ∈ needles, other ≠ [] → ∀ front back, s = front ++ (other ++ back) → before.length < front.length) :
    FirstMark (needles ++ [needle]) s before needle after := by
  have heq := eq_of_splitAtFirst hsplit
  refine ⟨hne, heq, fun other hmem hother front back hs => ?_, needles, [], by simp, fun other hmem hother back hback => ?_⟩
  · rcases List.mem_append.mp hmem with hmem | hmem
    · exact (hothers other hmem hother front back hs).le
    · rw [List.mem_singleton.mp hmem] at hs
      exact length_le_of_splitAtFirst hne hsplit hs
  · exact absurd (hothers other hmem hother before back (by rw [heq, hback])) (Nat.lt_irrefl _)

theorem found_earlierMatch
    (h : Found needles s best) (needle : List Char) : Found (needles ++ [needle]) s (earlierMatch s best needle) := by
  unfold earlierMatch
  by_cases hne : needle = []
  · rw [if_pos hne]
    exact h.skip fun hnot => absurd hne hnot
  rw [if_neg hne]
  cases hsplit : splitAtFirst needle s with
  | none => exact h.skip fun _ => (splitAtFirst_eq_none_iff hne).mp hsplit
  | some found =>
    obtain ⟨before, after⟩ := found
    cases best with
    | none =>
      refine ⟨needle, firstMark_of_splitAtFirst hne hsplit fun other hmem hother front back hs => ?_⟩
      exact absurd ⟨front, back, by rw [hs, List.append_assoc]⟩ (h other hmem hother)
    | some best =>
      obtain ⟨mark, hmark⟩ := h
      dsimp only
      by_cases hlt : before.length < best.1.length
      · rw [if_pos hlt]
        exact ⟨needle, firstMark_of_splitAtFirst hne hsplit fun other hmem hother front back hs =>
          hlt.trans_le (hmark.leftmost other hmem hother front back hs)⟩
      · rw [if_neg hlt]
        exact ⟨mark, hmark.append fun _ front back hs =>
          (Nat.le_of_not_lt hlt).trans (length_le_of_splitAtFirst hne hsplit hs)⟩

theorem found_foldl
    (h : Found needles s best) (more : List (List Char)) : Found (needles ++ more) s (more.foldl (earlierMatch s) best) := by
  induction more generalizing needles best with
  | nil => rwa [List.append_nil]
  | cons needle more ih =>
    rw [List.foldl_cons, ← List.singleton_append, ← List.append_assoc]
    exact ih (found_earlierMatch h needle)

theorem found_earliestMatch (needles : List (List Char)) (s : List Char) : Found needles s (earliestMatch needles s) := by
  have hnone : Found [] s none := fun _ hmem => absurd hmem List.not_mem_nil
  exact found_foldl hnone needles

theorem length_lt_of_earliestMatch {s before after : List Char}
    (h : earliestMatch needles s = some (before, after)) : after.length < s.length := by
  have hfound := found_earliestMatch needles s
  rw [h] at hfound
  obtain ⟨needle, hmark⟩ := hfound
  have hpos := List.length_pos_iff.mpr hmark.ne
  rw [hmark.eq, List.length_append, List.length_append]
  omega

/-! Removing. -/

def removeSubstringsAllUntrimmed (needles : List (List Char)) (s : List Char) : List Char :=
  match _h : earliestMatch needles s with
  | some (before, after) => before ++ removeSubstringsAllUntrimmed needles after
  | none => s
termination_by s.length
decreasing_by exact length_lt_of_earliestMatch _h

def removeSubstringsAllTrim (s : List Char) (needles : List (List Char)) : List Char :=
  trim (removeSubstringsAllUntrimmed needles s)

/-! What is kept. -/

/-- The pieces of a text that are left when the first marker is taken out, then the first one behind it, and so on. -/
inductive Kept (needles : List (List Char)) : List Char → List (List Char) → Prop where
  | last {s : List Char} : (∀ needle ∈ needles, needle ≠ [] → ¬ needle <:+: s) → Kept needles s [s]
  | mark {s before needle after : List Char} {pieces : List (List Char)} :
    FirstMark needles s before needle after → Kept needles after pieces → Kept needles s (before :: pieces)

theorem exists_kept (needles : List (List Char)) (s : List Char) :
    ∃ pieces, Kept needles s pieces ∧ removeSubstringsAllUntrimmed needles s = pieces.flatten := by
  fun_induction removeSubstringsAllUntrimmed needles s with
  | case1 s before after hmatch ih =>
    have hfound := found_earliestMatch needles s
    rw [hmatch] at hfound
    obtain ⟨needle, hmark⟩ := hfound
    obtain ⟨pieces, hkept, heq⟩ := ih
    exact ⟨before :: pieces, .mark hmark hkept, by rw [heq, List.flatten_cons]⟩
  | case2 s hmatch =>
    have hfound := found_earliestMatch needles s
    rw [hmatch] at hfound
    exact ⟨[s], .last hfound, by simp⟩

theorem FirstMark.mem (h : FirstMark needles s before needle after) : needle ∈ needles := by
  obtain ⟨earlier, later, hlisted, -⟩ := h.listed
  rw [hlisted]
  simp

theorem FirstMark.unique {s before needle after before' needle' after' : List Char}
    (h : FirstMark needles s before needle after) (h' : FirstMark needles s before' needle' after') :
    before = before' ∧ after = after' := by
  have hlength : before.length = before'.length := Nat.le_antisymm (h.leftmost needle' h'.mem h'.ne before' after' h'.eq)
    (h'.leftmost needle h.mem h.ne before after h.eq)
  obtain ⟨rfl, hrest⟩ := List.append_inj (h.eq.symm.trans h'.eq) hlength
  obtain ⟨earlier, later, hlisted, hnot⟩ := h.listed
  obtain ⟨earlier', later', hlisted', hnot'⟩ := h'.listed
  rw [hlisted] at hlisted'
  rcases List.append_eq_append_iff.mp hlisted' with ⟨more, rfl, hmore⟩ | ⟨more, rfl, hmore⟩
  · cases more with
    | nil =>
      obtain rfl : needle = needle' := (List.cons.inj hmore).1
      exact ⟨rfl, List.append_cancel_left hrest⟩
    | cons first more =>
      obtain rfl : needle = first := (List.cons.inj hmore).1
      exact absurd hrest.symm (hnot' needle (by simp) h.ne after)
  · cases more with
    | nil =>
      obtain rfl : needle' = needle := (List.cons.inj hmore).1
      exact ⟨rfl, List.append_cancel_left hrest⟩
    | cons first more =>
      obtain rfl : needle' = first := (List.cons.inj hmore).1
      exact absurd hrest (hnot needle' (by simp) h'.ne after')

theorem Kept.unique {pieces pieces' : List (List Char)}
    (h : Kept needles s pieces) (h' : Kept needles s pieces') : pieces = pieces' := by
  induction h generalizing pieces' with
  | last hnone =>
    cases h' with
    | last => rfl
    | mark hmark' => exact absurd ⟨_, _, by rw [hmark'.eq, List.append_assoc]⟩ (hnone _ hmark'.mem hmark'.ne)
  | mark hmark _ ih =>
    cases h' with
    | last hnone => exact absurd ⟨_, _, by rw [hmark.eq, List.append_assoc]⟩ (hnone _ hmark.mem hmark.ne)
    | mark hmark' hkept' =>
      obtain ⟨rfl, rfl⟩ := hmark.unique hmark'
      rw [ih hkept']

theorem Kept.clean (h : Kept needles s pieces) :
    ∀ piece ∈ pieces, ∀ needle ∈ needles, needle ≠ [] → ¬ needle <:+: piece := by
  induction h with
  | last hnone =>
    intro piece hmem
    rw [List.mem_singleton.mp hmem]
    exact hnone
  | @mark s before mark after pieces hmark _ ih =>
    intro piece hmem
    rcases List.mem_cons.mp hmem with rfl | hmem
    · rintro needle hneedle hne ⟨front, back, rfl⟩
      have hle := hmark.leftmost needle hneedle hne front (back ++ (mark ++ after)) (by rw [hmark.eq]; simp)
      have hpos := List.length_pos_iff.mpr hne
      rw [List.length_append, List.length_append] at hle
      omega
    · exact ih piece hmem

theorem Kept.sublist (h : Kept needles s pieces) : pieces.flatten.Sublist s := by
  induction h with
  | last => simp
  | mark hmark _ ih =>
    rw [hmark.eq, List.flatten_cons]
    exact (List.Sublist.refl _).append (ih.trans (List.sublist_append_right _ _))

/-! Completeness. -/

structure RemovesCompletely (needles : List (List Char)) (s : List Char) : Prop where
  clean : ∀ needle ∈ needles, needle ≠ [] → ¬ needle <:+: removeSubstringsAllTrim s needles
  sublist : (removeSubstringsAllTrim s needles).Sublist s
  untouched : (∀ needle ∈ needles, needle ≠ [] → ¬ needle <:+: s) → removeSubstringsAllTrim s needles = trim s

/-- What stays when the text is trimmed that has the part in it: there is something else than white space before it, or it
begins with that, and so behind it. -/
def OutlastsTrim (front part back : List Char) : Prop :=
  ((∃ c ∈ front, isWhitespace c = false) ∨ ∃ c ∈ part.head?, isWhitespace c = false) ∧
    ((∃ c ∈ part.getLast?, isWhitespace c = false) ∨ ∃ c ∈ back, isWhitespace c = false)

/-- Between the markers that are taken out from left to right, the end of one piece and the beginning of a later one,
with all that is between these, spell a needle. -/
def JoinsMarker (needles : List (List Char)) (s : List Char) : Prop :=
  ∃ pieces, Kept needles s pieces ∧ ∃ needle ∈ needles, ∃ front back, Across pieces front needle back ∧
    OutlastsTrim front needle back

theorem removesCompletely_iff (needles : List (List Char)) (s : List Char) :
    RemovesCompletely needles s ↔ ¬ JoinsMarker needles s := by
  obtain ⟨pieces, hkept, heq⟩ := exists_kept needles s
  have hresult : removeSubstringsAllTrim s needles = trimEnds isWhitespace pieces.flatten := by
    rw [removeSubstringsAllTrim, heq, trim_eq_trimEnds]
  constructor
  · rintro hcomplete ⟨pieces', hkept', needle, hneedle, front, back, hacross, houtlasts⟩
    obtain rfl := hkept'.unique hkept
    have hne : needle ≠ [] := by
      obtain ⟨-, -, -, -, u, -, -, -, hu, -, rfl, -, -⟩ := hacross
      simp [hu]
    apply hcomplete.clean needle hneedle hne
    rw [hresult, infix_trimEnds_iff hne]
    exact ⟨front, back, hacross.flatten, houtlasts⟩
  · intro hjoins
    refine ⟨fun needle hneedle hne hstands => hjoins ?_, ?_, fun hnone => ?_⟩
    · rw [hresult, infix_trimEnds_iff hne] at hstands
      obtain ⟨front, back, hflatten, houtlasts⟩ := hstands
      exact ⟨pieces, hkept, needle, hneedle, front, back,
        across_of_flatten hne (fun piece hmem => hkept.clean piece hmem needle hneedle hne) hflatten, houtlasts⟩
    · rw [hresult]
      exact (trimEnds_part _ _).sublist.trans hkept.sublist
    · obtain rfl := hkept.unique (.last hnone)
      rw [hresult, trim_eq_trimEnds]
      simp

/-- A marker around a marker. -/
theorem nested_marker_stays : ¬ ∀ needles s, RemovesCompletely needles s := by
  intro h
  have hclean := (h [['<', 'b', '>']] ['<', '<', 'b', '>', 'b', '>']).clean ['<', 'b', '>'] (by decide) (by decide)
  exact hclean (by decide +kernel)

end Beetle
