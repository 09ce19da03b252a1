import Beetle.Lib.Search
import Beetle.Lib.Trim

/-! Cutting outbound texts into chunks of so many characters. -/
namespace Beetle.Channels
open Beetle.Lib

/-- `chunk_str_by_char_count_iter`. -/
def chunkStrByCharCount (maxChars : Nat) (s : List Char) : List (List Char) :=
  if _h : maxChars = 0 ∨ s = [] then []
  else s.take maxChars :: chunkStrByCharCount maxChars (s.drop maxChars)
termination_by s.length
decreasing_by
  have hpos : 0 < s.length := List.length_pos_iff.mpr fun hs => _h (.inr hs)
  have hmax : maxChars ≠ 0 := fun hzero => _h (.inl hzero)
  rw [List.length_drop]
  omega

/-- `str::split` by a text that is not empty; each part uses up some of the fuel. -/
def splitText (separator : List Char) : Nat → List Char → List (List Char)
  | 0, s => [s]
  | fuel + 1, s =>
    match splitAtFirst separator s with
    | none => [s]
    | some (before, after) => before :: splitText separator fuel after

def trimEnd (s : List Char) : List Char := s.rdropWhile isWhitespace

/-- The chunks that are finished, and the one that is being put together. -/
structure Chunking where
  chunks : List (List Char)
  current : List Char

namespace Chunking

def flush (chunking : Chunking) : Chunking :=
  if chunking.current = [] then chunking else ⟨chunking.chunks ++ [chunking.current], []⟩

/-- The current chunk with more text behind it. -/
def joined (chunking : Chunking) (separator block : List Char) : List Char :=
  if chunking.current = [] then block else chunking.current ++ separator ++ block

/-- The loop over the lines of `append_long_char_block`. -/
def appendLine (maxChars : Nat) (chunking : Chunking) (line : List Char) : Chunking :=
  let line := trimEnd line
  if line = [] then chunking
  else if (chunking.joined ['\n'] line).length ≤ maxChars then
    { chunking with current := chunking.joined ['\n'] line }
  else
    let chunking := chunking.flush
    if line.length ≤ maxChars then { chunking with current := line }
    else { chunking with chunks := chunking.chunks ++ chunkStrByCharCount maxChars line }

end Chunking

def appendLongCharBlock (maxChars : Nat) (chunks : List (List Char)) (block : List Char) : List (List Char) :=
  ((block.splitOn '\n').foldl (Chunking.appendLine maxChars) ⟨chunks, []⟩).flush.chunks

def appendCharBlock (maxChars : Nat) (separator : List Char) (chunking : Chunking) (block : List Char) : Chunking :=
  if (chunking.joined separator block).length ≤ maxChars then
    { chunking with current := chunking.joined separator block }
  else
    let chunking := chunking.flush
    if block.length ≤ maxChars then { chunking with current := block }
    else { chunking with chunks := appendLongCharBlock maxChars chunking.chunks block }

def chunkTextByCharCountWithSeparator (s : List Char) (maxChars : Nat) (separator : List Char) :
    List (List Char) :=
  if maxChars = 0 then []
  else
    let trimmed := trim s
    if trimmed = [] then []
    else
      let paragraphs := ((splitText separator trimmed.length trimmed).map trim).filter (· ≠ [])
      (paragraphs.foldl (appendCharBlock maxChars separator) ⟨[], []⟩).flush.chunks

def chunkTextByCharCount (s : List Char) (maxChars : Nat) : List (List Char) :=
  chunkTextByCharCountWithSeparator s maxChars ['\n', '\n']

theorem splitText_pair {separator a b : List Char} {c : Char} {rest : List Char} (hseparator : separator = c :: rest)
    (ha : c ∉ a) (hb : c ∉ b) {fuel : Nat} (hfuel : 2 ≤ fuel) :
    splitText separator fuel (a ++ (separator ++ b)) = [a, b] := by
  obtain ⟨fuel, rfl⟩ := Nat.exists_eq_add_of_le' hfuel
  have hfound : splitAtFirst separator (a ++ (separator ++ b)) = some (a, b) := by
    have hself : splitAtFirst separator (separator ++ b) = some ([], b) :=
      splitAtFirst_append_self (by simp [hseparator]) b
    rw [hseparator] at hself ⊢
    rw [splitAtFirst_append_of_notMem ha, hself]
    simp
  have hrest : splitAtFirst separator b = none := by
    rw [splitAtFirst_eq_none_iff (by simp [hseparator])]
    rintro ⟨front, back, heq⟩
    apply hb
    rw [← heq, hseparator]
    simp
  simp [splitText, hfound, hrest]

/-- Two paragraphs that do not fit into one chunk. -/
theorem chunkTextByCharCount_pair {a b : List Char} {maxChars : Nat} (ha : '\n' ∉ a) (hb : '\n' ∉ b) (hane : a ≠ [])
    (hbne : b ≠ []) (htrima : trim a = a) (htrimb : trim b = b)
    (htrim : trim (a ++ (['\n', '\n'] ++ b)) = a ++ (['\n', '\n'] ++ b))
    (hamax : a.length ≤ maxChars) (hbmax : b.length ≤ maxChars) (hmax : maxChars < a.length + 2 + b.length) :
    chunkTextByCharCount (a ++ (['\n', '\n'] ++ b)) maxChars = [a, b] := by
  have hpos : 0 < a.length := List.length_pos_iff.mpr hane
  have hsplit : splitText ['\n', '\n'] (a ++ (['\n', '\n'] ++ b)).length (a ++ (['\n', '\n'] ++ b)) = [a, b] := by
    apply splitText_pair rfl ha hb
    simp
    omega
  have hzero : maxChars ≠ 0 := by omega
  simp only [chunkTextByCharCount, chunkTextByCharCountWithSeparator, htrim, hsplit, if_neg hzero]
  have hboth : ¬ a.length + (b.length + 1 + 1) ≤ maxChars := by omega
  simp [htrima, htrimb, hane, hbne, appendCharBlock, Chunking.joined, Chunking.flush, hamax, hbmax, hboth]

end Beetle.Channels
