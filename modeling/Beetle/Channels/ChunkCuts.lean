import Beetle.Channels.Chunk
import Beetle.Lib.Markup

/-! Where a text is cut into chunks, from the lengths of its paragraphs and lines alone. -/
namespace Beetle.Channels
open Beetle.Lib

@[grind =] def visible (s : List Char) : List Char := s.filter fun c => !isWhitespace c

/-- A block that goes into the chunk that is being put together, where it fits in, behind a separator; or the
end of that chunk. -/
inductive Part where
  | block (separator block : List Char)
  | cut

def lineParts (maxChars : Nat) (line : List Char) : List Part :=
  let line := trimEnd line
  if line = [] then []
  else if line.length ≤ maxChars then [.block ['\n'] line]
  else .cut :: (chunkStrByCharCount maxChars line).flatMap fun run => [.block [] run, .cut]

def paragraphParts (maxChars : Nat) (separator paragraph : List Char) : List Part :=
  if paragraph.length ≤ maxChars then [.block separator paragraph]
  else .cut :: (paragraph.splitOn '\n').flatMap (lineParts maxChars) ++ [.cut]

def textParts (s : List Char) (maxChars : Nat) (separator : List Char) : List Part :=
  let paragraphs := ((splitText separator (trim s).length (trim s)).map trim).filter (· ≠ [])
  paragraphs.flatMap (paragraphParts maxChars separator)

/-- How full the chunk is that is being put together, how many visible characters there are so far, and how many
in front of each cut. -/
structure Filling where
  cuts : List Nat
  place : Nat
  used : Nat

namespace Filling

def cut (filling : Filling) : Filling :=
  if filling.used = 0 then filling else ⟨filling.cuts ++ [filling.place], filling.place, 0⟩

@[grind =] def joined (filling : Filling) (separator block : List Char) : Nat :=
  if filling.used = 0 then block.length else filling.used + separator.length + block.length

def put (maxChars : Nat) (filling : Filling) : Part → Filling
  | .cut => filling.cut
  | .block separator block =>
    if filling.joined separator block ≤ maxChars then
      ⟨filling.cuts, filling.place + (visible block).length, filling.joined separator block⟩
    else ⟨filling.cut.cuts, filling.place + (visible block).length, block.length⟩

end Filling

/-- The cuts of a text, each by the number of visible characters in front of it. -/
def cutPlaces (s : List Char) (maxChars : Nat) : List Nat :=
  ((textParts s maxChars ['\n', '\n']).foldl (Filling.put maxChars) ⟨[], 0, 0⟩).cuts

/-! The chunks are put together from the parts. -/

namespace Chunking

def put (maxChars : Nat) (chunking : Chunking) : Part → Chunking
  | .cut => chunking.flush
  | .block separator block =>
    if (chunking.joined separator block).length ≤ maxChars then
      { chunking with current := chunking.joined separator block }
    else { chunking.flush with current := block }

theorem length_joined (chunking : Chunking) (separator block : List Char) :
    block.length ≤ (chunking.joined separator block).length := by
  unfold joined
  split
  · exact le_rfl
  · simp only [List.length_append]
    omega

theorem flush_current (chunking : Chunking) : chunking.flush.current = [] := by
  unfold flush
  split
  · assumption
  · rfl

theorem flush_eq (chunking : Chunking) : chunking.flush = ⟨chunking.flush.chunks, []⟩ := by
  rw [← flush_current chunking]

end Chunking

theorem ne_nil_of_mem_chunkStrByCharCount {maxChars : Nat} {s chunk : List Char}
    (h : chunk ∈ chunkStrByCharCount maxChars s) : chunk ≠ [] ∧ chunk.length ≤ maxChars := by
  fun_induction chunkStrByCharCount maxChars s with
  | case1 => cases h
  | case2 s hs ih =>
    rw [not_or] at hs
    rcases List.mem_cons.mp h with rfl | h
    · refine ⟨?_, List.length_take_le _ _⟩
      simpa [List.take_eq_nil_iff] using hs
    · exact ih h

theorem flatten_chunkStrByCharCount {maxChars : Nat} (hmax : maxChars ≠ 0) (s : List Char) :
    (chunkStrByCharCount maxChars s).flatten = s := by
  fun_induction chunkStrByCharCount maxChars s with
  | case1 s hs =>
    rcases hs with hs | hs
    · exact absurd hs hmax
    · simp [hs]
  | case2 s hs ih => rw [List.flatten_cons, ih, List.take_append_drop]

section
variable {maxChars : Nat} {separator : List Char}

theorem foldl_put_runs {runs : List (List Char)} (h : ∀ run ∈ runs, run ≠ [] ∧ run.length ≤ maxChars)
    (chunks : List (List Char)) :
    (runs.flatMap fun run => [Part.block [] run, .cut]).foldl (Chunking.put maxChars) ⟨chunks, []⟩ = ⟨chunks ++ runs, []⟩ := by
  induction runs generalizing chunks with
  | nil => simp
  | cons run runs ih =>
    obtain ⟨hne, hlength⟩ := h run (by simp)
    have hrun : (Chunking.put maxChars ⟨chunks, []⟩ (.block [] run)).put maxChars .cut = ⟨chunks ++ [run], []⟩ := by
      simp [Chunking.put, Chunking.joined, Chunking.flush, hlength, hne]
    rw [List.flatMap_cons, List.foldl_append, List.foldl_cons, List.foldl_cons, List.foldl_nil, hrun,
      ih (fun run hrun => h run (by simp [hrun])) (chunks ++ [run])]
    simp

theorem appendLine_eq (chunking : Chunking) (line : List Char) :
    Chunking.appendLine maxChars chunking line = (lineParts maxChars line).foldl (Chunking.put maxChars) chunking := by
  unfold Chunking.appendLine lineParts
  dsimp only
  by_cases hempty : trimEnd line = []
  · rw [if_pos hempty, if_pos hempty, List.foldl_nil]
  rw [if_neg hempty, if_neg hempty]
  by_cases hlength : (trimEnd line).length ≤ maxChars
  · rw [if_pos hlength, if_pos hlength]
    rfl
  · have hjoined : ¬ (chunking.joined ['\n'] (trimEnd line)).length ≤ maxChars := by
      have hle := chunking.length_joined ['\n'] (trimEnd line)
      omega
    rw [if_neg hlength, if_neg hlength, if_neg hjoined, List.foldl_cons]
    have hcut : chunking.put maxChars .cut = ⟨chunking.flush.chunks, []⟩ := chunking.flush_eq
    rw [hcut, foldl_put_runs fun run hrun => ne_nil_of_mem_chunkStrByCharCount hrun, chunking.flush_current]

theorem appendCharBlock_eq (separator : List Char) (chunking : Chunking) (paragraph : List Char) :
    appendCharBlock maxChars separator chunking paragraph =
      (paragraphParts maxChars separator paragraph).foldl (Chunking.put maxChars) chunking := by
  unfold appendCharBlock paragraphParts
  dsimp only
  by_cases hlength : paragraph.length ≤ maxChars
  · rw [if_pos hlength, if_pos hlength]
    rfl
  · have hjoined : ¬ (chunking.joined separator paragraph).length ≤ maxChars := by
      have hle := chunking.length_joined separator paragraph
      omega
    have hcut : chunking.put maxChars .cut = ⟨chunking.flush.chunks, []⟩ := chunking.flush_eq
    have hline : Chunking.appendLine maxChars =
        fun c line => (lineParts maxChars line).foldl (Chunking.put maxChars) c := by
      funext c line
      exact appendLine_eq c line
    rw [if_neg hlength, if_neg hlength, if_neg hjoined, List.foldl_append, List.foldl_cons, List.foldl_nil,
      List.foldl_cons, hcut, List.foldl_flatMap, ← hline, appendLongCharBlock, chunking.flush_current]
    exact (Chunking.flush_eq _).symm

theorem chunkText_eq (hmax : maxChars ≠ 0) (s separator : List Char) :
    chunkTextByCharCountWithSeparator s maxChars separator =
      ((textParts s maxChars separator).foldl (Chunking.put maxChars) ⟨[], []⟩).flush.chunks := by
  have hblock : appendCharBlock maxChars separator =
      fun c paragraph => (paragraphParts maxChars separator paragraph).foldl (Chunking.put maxChars) c := by
    funext c paragraph
    exact appendCharBlock_eq separator c paragraph
  unfold chunkTextByCharCountWithSeparator textParts
  rw [if_neg hmax]
  dsimp only
  rw [List.foldl_flatMap, ← hblock]
  by_cases hempty : trim s = []
  · rw [if_pos hempty, hempty]
    simp [splitText, trim, Chunking.flush]
  · rw [if_neg hempty]

/-! What the chunks have in common with the parts. -/

theorem visible_of_spaces {s : List Char} (h : ∀ c ∈ s, isWhitespace c = true) : visible s = [] := by
  rw [visible, List.filter_eq_nil_iff]
  intro c hc
  simp [h c hc]

@[simp] theorem visible_append (a b : List Char) : visible (a ++ b) = visible a ++ visible b := List.filter_append _ _

@[grind =] def Part.visible : Part → List Char
  | .block _ text => Channels.visible text
  | .cut => []

/-- A block behind nothing but spaces, with no more characters than a chunk may have. -/
def Part.Fits (maxChars : Nat) : Part → Prop
  | .block separator text => (∀ c ∈ separator, isWhitespace c = true) ∧ text.length ≤ maxChars
  | .cut => True

/-- The chunks hold what was seen so far, and the filling says how. -/
structure Matches (maxChars : Nat) (seen : List Char) (filling : Filling) (chunking : Chunking) : Prop where
  seen_eq : seen = (chunking.chunks.map visible).flatten ++ visible chunking.current
  cuts : filling.cuts = Markup.Dialect.endsFrom 0 (chunking.chunks.map visible)
  place : filling.place = seen.length
  used : filling.used = chunking.current.length
  current : chunking.current.length ≤ maxChars
  chunks : ∀ chunk ∈ chunking.chunks, chunk.length ≤ maxChars

namespace Matches
variable {seen : List Char} {filling : Filling} {chunking : Chunking}

section
variable (h : Matches maxChars seen filling chunking)
include h

theorem used_eq_zero_iff : filling.used = 0 ↔ chunking.current = [] := by
  rw [h.used, List.length_eq_zero_iff]

theorem joined (separator block : List Char) :
    filling.joined separator block = (chunking.joined separator block).length := by
  unfold Filling.joined Chunking.joined
  by_cases hempty : chunking.current = []
  · rw [if_pos hempty, if_pos (h.used_eq_zero_iff.mpr hempty)]
  · rw [if_neg hempty, if_neg (h.used_eq_zero_iff.not.mpr hempty), h.used]
    simp [Nat.add_assoc]

theorem cut : Matches maxChars seen filling.cut chunking.flush := by
  unfold Filling.cut Chunking.flush
  by_cases hempty : chunking.current = []
  · rwa [if_pos hempty, if_pos (h.used_eq_zero_iff.mpr hempty)]
  · rw [if_neg hempty, if_neg (h.used_eq_zero_iff.not.mpr hempty)]
    refine ⟨?_, ?_, h.place, rfl, Nat.zero_le _, ?_⟩
    · simp [h.seen_eq, visible]
    · rw [List.map_append, List.map_singleton, Markup.Dialect.endsFrom_concat, ← h.cuts, h.place, h.seen_eq,
        List.length_append, Nat.zero_add]
    · intro chunk hchunk
      rcases List.mem_append.mp hchunk with hchunk | hchunk
      · exact h.chunks chunk hchunk
      · rw [List.mem_singleton.mp hchunk]
        exact h.current

theorem put {part : Part} (hpart : part.Fits maxChars) :
    Matches maxChars (seen ++ part.visible) (filling.put maxChars part) (chunking.put maxChars part) := by
  cases part with
  | cut =>
    rw [Part.visible, List.append_nil]
    exact h.cut
  | block separator block =>
    obtain ⟨hseparator, hblock⟩ := hpart
    have hplace : filling.place + (visible block).length = (seen ++ visible block).length := by
      rw [h.place, List.length_append]
    unfold Filling.put Chunking.put
    dsimp only [Part.visible]
    rw [h.joined]
    split
    · rename_i hroom
      refine ⟨?_, h.cuts, hplace, rfl, hroom, h.chunks⟩
      rw [h.seen_eq, List.append_assoc]
      unfold Chunking.joined
      split
      · rename_i hempty
        simp [hempty, visible]
      · simp [visible_of_spaces hseparator]
    · refine ⟨?_, h.cut.cuts, hplace, rfl, hblock, h.cut.chunks⟩
      have hseen := h.cut.seen_eq
      rw [chunking.flush_current] at hseen
      rw [hseen]
      simp [visible]

end

theorem foldl {parts : List Part} (hparts : ∀ part ∈ parts, part.Fits maxChars)
    (h : Matches maxChars seen filling chunking) :
    Matches maxChars (seen ++ parts.flatMap Part.visible) (parts.foldl (Filling.put maxChars) filling)
      (parts.foldl (Chunking.put maxChars) chunking) := by
  induction parts generalizing seen filling chunking with
  | nil => simpa using h
  | cons part parts ih =>
    have hnext := ih (fun part hpart => hparts part (by simp [hpart])) (h.put (hparts part (by simp)))
    rwa [List.append_assoc, ← List.flatMap_cons] at hnext

end Matches

/-! What the parts have in common with the text. -/

theorem visible_trim (s : List Char) : visible (trim s) = visible s := by
  obtain ⟨front, back, heq, hfront, hback⟩ := eq_append_trimEnds isWhitespace s
  rw [trim_eq_trimEnds]
  conv_rhs => rw [heq]
  simp [visible_of_spaces hfront, visible_of_spaces hback]

theorem visible_trimEnd (s : List Char) : visible (trimEnd s) = visible s := by
  have hback : ∀ c ∈ s.rtakeWhile isWhitespace, isWhitespace c = true := fun c hc => List.mem_rtakeWhile_imp hc
  have hparts : s.rdropWhile isWhitespace ++ s.rtakeWhile isWhitespace = s := List.rdropWhile_append_rtakeWhile
  conv_rhs => rw [← hparts]
  rw [visible_append, visible_of_spaces hback, List.append_nil, trimEnd]

theorem flatMap_visible_splitText (hseparator : ∀ c ∈ separator, isWhitespace c = true)
    (fuel : Nat) (s : List Char) : (splitText separator fuel s).flatMap visible = visible s := by
  induction fuel generalizing s with
  | zero => simp [splitText]
  | succ fuel ih =>
    unfold splitText
    split
    · simp
    · rename_i before after hfound
      rw [List.flatMap_cons, ih, eq_of_splitAtFirst hfound]
      simp [visible_of_spaces hseparator]

theorem flatMap_visible_splitOn {sep : Char} (hsep : isWhitespace sep = true) (s : List Char) :
    (s.splitOn sep).flatMap visible = visible s := by
  induction s with
  | nil => rfl
  | cons c s ih =>
    rw [List.splitOn_cons_eq_if_modifyHead]
    split
    · rename_i hc
      obtain rfl : c = sep := by simpa using hc
      simpa [visible, hsep] using ih
    · obtain ⟨first, more, hsplit⟩ := List.exists_cons_of_ne_nil (List.splitOn_ne_nil sep s)
      rw [hsplit] at ih ⊢
      rw [List.modifyHead_cons, List.flatMap_cons, show c :: first = [c] ++ first from rfl, visible_append,
        List.append_assoc, ← List.flatMap_cons, ih, ← visible_append]
      rfl

section
variable (hmax : maxChars ≠ 0)
include hmax

theorem visible_lineParts (line : List Char) : (lineParts maxChars line).flatMap Part.visible = visible line := by
  rw [← visible_trimEnd line, lineParts]
  split
  · rename_i hempty
    rw [hempty]
    rfl
  · split
    · simp [Part.visible]
    · have hruns := flatten_chunkStrByCharCount hmax (trimEnd line)
      have hrun (run : List Char) : [Part.block [] run, .cut].flatMap Part.visible = visible run := by
        simp [Part.visible]
      conv_rhs => rw [← hruns, visible, List.filter_flatten, ← List.flatMap_def]
      rw [List.flatMap_cons, List.flatMap_assoc]
      simp only [hrun]
      rfl

theorem visible_paragraphParts (separator paragraph : List Char) :
    (paragraphParts maxChars separator paragraph).flatMap Part.visible = visible paragraph := by
  unfold paragraphParts
  split
  · simp [Part.visible]
  · rw [List.flatMap_append, List.flatMap_cons, List.flatMap_assoc]
    simp only [visible_lineParts hmax, flatMap_visible_splitOn (show isWhitespace '\n' = true by decide)]
    simp [Part.visible]

theorem visible_textParts (hseparator : ∀ c ∈ separator, isWhitespace c = true) (s : List Char) :
    (textParts s maxChars separator).flatMap Part.visible = visible s := by
  rw [textParts, List.flatMap_assoc]
  simp only [visible_paragraphParts hmax]
  rw [← visible_trim s, ← flatMap_visible_splitText hseparator (trim s).length (trim s)]
  induction splitText separator (trim s).length (trim s) with
  | nil => rfl
  | cons paragraph paragraphs ih =>
    by_cases hempty : trim paragraph = []
    · have hvisible : visible paragraph = [] := by rw [← visible_trim, hempty]; rfl
      simpa [hempty, hvisible] using ih
    · simpa [hempty, visible_trim] using ih

end

theorem fits_lineParts (line : List Char) : ∀ part ∈ lineParts maxChars line, part.Fits maxChars := by
  intro part hpart
  unfold lineParts at hpart
  dsimp only at hpart
  split at hpart
  · cases hpart
  · split at hpart
    · rename_i hlength
      obtain rfl := List.mem_singleton.mp hpart
      exact ⟨by decide, hlength⟩
    · rcases List.mem_cons.mp hpart with rfl | hpart
      · trivial
      · obtain ⟨run, hrun, hpart⟩ := List.mem_flatMap.mp hpart
        rcases List.mem_cons.mp hpart with rfl | hpart
        · exact ⟨by decide, (ne_nil_of_mem_chunkStrByCharCount hrun).2⟩
        · obtain rfl := List.mem_singleton.mp hpart
          trivial

theorem fits_textParts (hseparator : ∀ c ∈ separator, isWhitespace c = true) (s : List Char) :
    ∀ part ∈ textParts s maxChars separator, part.Fits maxChars := by
  intro part hpart
  obtain ⟨paragraph, -, hpart⟩ := List.mem_flatMap.mp hpart
  unfold paragraphParts at hpart
  split at hpart
  · rename_i hlength
    obtain rfl := List.mem_singleton.mp hpart
    exact ⟨hseparator, hlength⟩
  · rcases List.mem_append.mp hpart with hpart | hpart
    · rcases List.mem_cons.mp hpart with rfl | hpart
      · trivial
      · obtain ⟨line, -, hpart⟩ := List.mem_flatMap.mp hpart
        exact fits_lineParts line part hpart
    · obtain rfl := List.mem_singleton.mp hpart
      trivial

/-- The chunks of a text are short enough, no visible character is lost, and they end at the cuts and at the end
of the text. -/
theorem chunks_spec (hmax : maxChars ≠ 0) (s : List Char) :
    (∀ chunk ∈ chunkTextByCharCount s maxChars, chunk.length ≤ maxChars) ∧
    ((chunkTextByCharCount s maxChars).map visible).flatten = visible s ∧
    (Markup.Dialect.endsFrom 0 ((chunkTextByCharCount s maxChars).map visible) = cutPlaces s maxChars ∨
      Markup.Dialect.endsFrom 0 ((chunkTextByCharCount s maxChars).map visible) =
        cutPlaces s maxChars ++ [(visible s).length]) := by
  have hseparator : ∀ c ∈ ['\n', '\n'], isWhitespace c = true := by decide
  have hstart : Matches maxChars [] ⟨[], 0, 0⟩ ⟨[], []⟩ := ⟨rfl, rfl, rfl, rfl, Nat.zero_le _, fun _ h => by cases h⟩
  have hlast := hstart.foldl (fits_textParts hseparator s)
  rw [List.nil_append, visible_textParts hmax hseparator] at hlast
  rw [chunkTextByCharCount, chunkText_eq hmax]
  refine ⟨hlast.cut.chunks, ?_, ?_⟩
  · have hseen := hlast.cut.seen_eq
    rw [Chunking.flush_current] at hseen
    simpa [visible] using hseen.symm
  · rw [← hlast.cut.cuts, cutPlaces, ← hlast.place]
    unfold Filling.cut
    split
    · exact .inl rfl
    · exact .inr rfl

end
end Beetle.Channels

/-! The iterator over the pieces of a long line, by its byte offsets, and what the chunks of a text are. -/
namespace Beetle.Channels
open Beetle.Lib

/-- `str::char_indices`, where the text begins at byte `i`. -/
def charIndices (i : Nat) : List Char → List (Nat × Char)
  | [] => []
  | ch :: rest => (i, ch) :: charIndices (i + ch.utf8Size) rest

structure CharChunkIter where
  s : List Char
  maxChars : Nat
  start : Nat

namespace CharChunkIter

/-- The next piece, if there is one; no answer at all is a slice that cuts a character, which is a panic. -/
def next (iter : CharChunkIter) : Option (Option (List Char) × CharChunkIter) :=
  if iter.maxChars = 0 ∨ (utf8 iter.s).length ≤ iter.start then some (none, iter)
  else
    match slice iter.s iter.start (utf8 iter.s).length with
    | none => none
    | some rest =>
      let endRel := ((charIndices 0 rest).take iter.maxChars).foldl (fun _ (i, ch) => i + ch.utf8Size) 0
      if endRel = 0 then some (none, iter)
      else
        match slice iter.s iter.start (iter.start + endRel) with
        | none => none
        | some out => some (some out, { iter with start := iter.start + endRel })

/-- The pieces up to the first call that has none. -/
inductive Yields : CharChunkIter → List (List Char) → Prop where
  | done {iter iter' : CharChunkIter} : iter.next = some (none, iter') → Yields iter []
  | piece {iter iter' : CharChunkIter} {out : List Char} {pieces : List (List Char)} :
    iter.next = some (some out, iter') → Yields iter' pieces → Yields iter (out :: pieces)

end CharChunkIter

/-- The end of the last of the characters. -/
theorem foldl_charIndices (n i last : Nat) (rest : List Char) :
    ((charIndices i rest).take n).foldl (fun _ (i, ch) => i + ch.utf8Size) last =
      if rest.take n = [] then last else i + (utf8 (rest.take n)).length := by
  induction rest generalizing n i last with
  | nil => simp [charIndices]
  | cons ch rest ih =>
    cases n with
    | zero => simp
    | succ n =>
      rw [charIndices, List.take_succ_cons, List.foldl_cons, ih, List.take_succ_cons, if_neg (List.cons_ne_nil _ _),
        length_utf8_cons]
      split
      · rename_i hnil
        rw [hnil]
        rfl
      · rw [Nat.add_assoc]

variable {maxChars : Nat} {chunking : Chunking}

theorem next_append {front rest : List Char} (hmax : maxChars ≠ 0) (hrest : rest ≠ []) :
    (⟨front ++ rest, maxChars, (utf8 front).length⟩ : CharChunkIter).next =
      some (some (rest.take maxChars), ⟨front ++ rest, maxChars, (utf8 (front ++ rest.take maxChars)).length⟩) := by
  have hpos : 0 < rest.length := List.length_pos_iff.mpr hrest
  have htake : rest.take maxChars ≠ [] := by
    rw [ne_eq, List.take_eq_nil_iff, not_or]
    exact ⟨hmax, hrest⟩
  have htakePos : 0 < (utf8 (rest.take maxChars)).length :=
    (List.length_pos_iff.mpr htake).trans_le (length_le_utf8 _)
  have hroom : ¬ (maxChars = 0 ∨ (utf8 (front ++ rest)).length ≤ (utf8 front).length) := by
    have hle := length_le_utf8 rest
    rw [utf8_append, List.length_append, not_or]
    omega
  have hslice : slice (front ++ rest) (utf8 front).length (utf8 (front ++ rest)).length = some rest := by
    have hwhole := slice_append front rest []
    rwa [List.append_nil, ← List.length_append, ← utf8_append] at hwhole
  have hpiece : slice (front ++ rest) (utf8 front).length ((utf8 front).length + (utf8 (rest.take maxChars)).length) =
      some (rest.take maxChars) := by
    have hpart := slice_append front (rest.take maxChars) (rest.drop maxChars)
    rwa [List.take_append_drop] at hpart
  rw [CharChunkIter.next, if_neg hroom, hslice]
  simp only [foldl_charIndices, if_neg htake, Nat.zero_add, if_neg htakePos.ne', hpiece, utf8_append, List.length_append]

/-- No slice cuts a character, and the pieces are the text in portions of so many characters. -/
theorem yields_chunkStrByCharCount (front s : List Char) (maxChars : Nat) :
    CharChunkIter.Yields ⟨front ++ s, maxChars, (utf8 front).length⟩ (chunkStrByCharCount maxChars s) := by
  fun_induction chunkStrByCharCount maxChars s generalizing front with
  | case1 s hs =>
    refine .done (if_pos ?_)
    rcases hs with hs | rfl
    · exact .inl hs
    · exact .inr (by rw [List.append_nil])
  | case2 s hs ih =>
    rw [not_or] at hs
    have hrest := ih (front ++ s.take maxChars)
    rw [List.append_assoc, List.take_append_drop] at hrest
    exact .piece (next_append hs.1 hs.2) hrest

/-! The chunks. -/

section
variable (h : ∀ chunk ∈ chunking.chunks, chunk ≠ [])
include h

theorem ne_nil_of_mem_flush : ∀ chunk ∈ chunking.flush.chunks, chunk ≠ [] := by
  unfold Chunking.flush
  split
  · exact h
  · rename_i hne
    intro chunk hmem
    rcases List.mem_append.mp hmem with hmem | hmem
    · exact h chunk hmem
    · rw [List.mem_singleton.mp hmem]
      exact hne

theorem ne_nil_of_mem_put (part : Part) : ∀ chunk ∈ (chunking.put maxChars part).chunks, chunk ≠ [] := by
  cases part with
  | cut => exact ne_nil_of_mem_flush h
  | block separator block =>
    unfold Chunking.put
    dsimp only
    split
    · exact h
    · exact ne_nil_of_mem_flush h

theorem ne_nil_of_mem_foldl
    (parts : List Part) : ∀ chunk ∈ (parts.foldl (Chunking.put maxChars) chunking).chunks, chunk ≠ [] := by
  induction parts generalizing chunking with
  | nil => exact h
  | cons part parts ih => exact ih (ne_nil_of_mem_put h part)

end

/-- The chunks are not empty and short enough, they have all that is not white space, and a line that is cut is cut
between its characters. -/
theorem chunking_loses_no_text (s : List Char) {maxChars : Nat} (hmax : 0 < maxChars) :
    (∀ chunk ∈ chunkTextByCharCount s maxChars, chunk ≠ [] ∧ chunk.length ≤ maxChars) ∧
    visible (chunkTextByCharCount s maxChars).flatten = visible s ∧
    ∀ line, CharChunkIter.Yields ⟨line, maxChars, 0⟩ (chunkStrByCharCount maxChars line) := by
  obtain ⟨hlength, hvisible, -⟩ := chunks_spec hmax.ne' s
  refine ⟨fun chunk hmem => ⟨?_, hlength chunk hmem⟩, ?_, fun line => yields_chunkStrByCharCount [] line maxChars⟩
  · rw [chunkTextByCharCount, chunkText_eq hmax.ne'] at hmem
    exact ne_nil_of_mem_flush (ne_nil_of_mem_foldl (fun _ h => absurd h List.not_mem_nil) _) chunk hmem
  · rw [← hvisible, visible, List.filter_flatten]
    rfl

/-- Two paragraphs, of which the second is too long. -/
theorem chunking_loses_no_text_of_two :
    visible (chunkTextByCharCount "ab\n\ncdef g".toList 3).flatten = visible "ab\n\ncdef g".toList :=
  (chunking_loses_no_text "ab\n\ncdef g".toList (by decide)).2.1

end Beetle.Channels
