import Beetle.Lib.Bytes
import Mathlib.Data.List.DropRight

/-! Text as characters and as the UTF-8 bytes of a file of lines. -/
namespace Beetle.Lib

/-- Names in lists of names are looked up with it. -/
instance lawfulBEq_chars : LawfulBEq (List Char) := inferInstance

def utf8 (cs : List Char) : Bytes := cs.flatMap String.utf8EncodeChar

/-- `core::str::from_utf8`. -/
def fromUtf8 (bs : Bytes) : Option (List Char) := bs.toByteArray.utf8Decode?.map Array.toList

/-- What holds of all characters of a text is decided along the text. -/
instance (priority := 2000) decidableForallMemChar (p : Char → Prop) [DecidablePred p] (cs : List Char) :
    Decidable (∀ c ∈ cs, p c) := List.decidableBAll p cs

instance (priority := 2000) decidableForallMemOption (p : Char → Prop) [DecidablePred p] (c? : Option Char) :
    Decidable (∀ c ∈ c?, p c) := Option.decidableForallMem c?

@[simp] theorem utf8_nil : utf8 [] = [] := rfl

@[simp] theorem utf8_cons (c : Char) (cs : List Char) :
    utf8 (c :: cs) = String.utf8EncodeChar c ++ utf8 cs := rfl

theorem length_utf8_cons (c : Char) (cs : List Char) : (utf8 (c :: cs)).length = c.utf8Size + (utf8 cs).length := by
  rw [utf8_cons, List.length_append, String.length_utf8EncodeChar]

@[simp] theorem utf8_append (a b : List Char) : utf8 (a ++ b) = utf8 a ++ utf8 b :=
  List.flatMap_append

theorem length_le_utf8 (cs : List Char) : cs.length ≤ (utf8 cs).length := by
  induction cs with
  | nil => simp
  | cons c cs ih =>
    have hc : 0 < (String.utf8EncodeChar c).length := by
      rw [String.length_utf8EncodeChar]
      exact c.utf8Size_pos
    simp only [utf8_cons, List.length_append, List.length_cons]
    omega

theorem length_utf8_le (cs : List Char) : (utf8 cs).length ≤ 4 * cs.length := by
  induction cs with
  | nil => simp
  | cons c cs ih =>
    have hc : (String.utf8EncodeChar c).length ≤ 4 := by
      rw [String.length_utf8EncodeChar]
      exact c.utf8Size_le_four
    simp only [utf8_cons, List.length_append, List.length_cons]
    omega

theorem length_utf8_toList (s : String) : (utf8 s.toList).length = s.utf8ByteSize := by
  have hbytes : (utf8 s.toList).toByteArray = s.toByteArray := String.utf8Encode_toList
  rw [← String.size_toByteArray, ← hbytes, List.size_toByteArray]

@[simp] theorem fromUtf8_utf8 (cs : List Char) : fromUtf8 (utf8 cs) = some cs := by
  have h : cs.utf8Encode.utf8Decode? = some cs.toArray := List.utf8Decode?_utf8Encode
  unfold fromUtf8 utf8
  rw [show (cs.flatMap String.utf8EncodeChar).toByteArray = cs.utf8Encode from rfl, h]
  rfl

variable {cs : List Char} {lines : List Bytes}

theorem eq_utf8_of_fromUtf8 {bs : Bytes} (h : fromUtf8 bs = some cs) : bs = utf8 cs := by
  have hsome : bs.toByteArray.utf8Decode?.isSome = true := by
    obtain ⟨chars, hchars, -⟩ := Option.map_eq_some_iff.mp h
    rw [hchars]
    rfl
  obtain ⟨l, hl⟩ := ByteArray.isSome_utf8Decode?_iff.mp hsome
  have hbytes : bs = utf8 l := by
    have hdata := congrArg (fun b : ByteArray => b.data.toList) hl
    simpa [utf8, List.utf8Encode] using hdata
  rw [hbytes, fromUtf8_utf8] at h
  rw [hbytes, Option.some.inj h]

/-- No character is the beginning of another. -/
theorem isPrefix_of_utf8 {a b : List Char} (h : utf8 a <+: utf8 b) : a <+: b := by
  induction a generalizing b with
  | nil => exact List.nil_prefix
  | cons x a ih =>
    obtain ⟨rest, hrest⟩ := h
    cases b with
    | nil =>
      have hlength := congrArg List.length hrest
      have hpos := x.utf8Size_pos
      simp only [utf8_cons, utf8_nil, List.length_append, String.length_utf8EncodeChar, List.length_nil] at hlength
      omega
    | cons y b =>
      simp only [utf8_cons, List.append_assoc] at hrest
      have hxy : x = y := by
        have hdecode := congrArg (fun bs : Bytes => bs.toByteArray.utf8DecodeChar? 0) hrest
        simpa [List.toByteArray_append, ByteArray.utf8DecodeChar?_utf8EncodeChar_append] using hdecode
      subst hxy
      obtain ⟨more, rfl⟩ := ih ⟨rest, List.append_cancel_left hrest⟩
      exact ⟨more, rfl⟩

/-- An ASCII character is a byte of its own, never part of another character. -/
theorem ascii_notMem_utf8EncodeChar {b : UInt8} (hb : b.toNat < 128) {c : Char} (h : c.toNat ≠ b.toNat) :
    b ∉ String.utf8EncodeChar c := by
  have hval : c.val.toNat ≠ b.toNat := h
  have hbyte (n : Nat) (hn : n % 256 ≠ b.toNat) : b ≠ UInt8.ofNat n := by
    rintro rfl
    rw [UInt8.toNat_ofNat'] at hn
    exact hn rfl
  unfold String.utf8EncodeChar
  dsimp only
  split
  · simp only [List.mem_cons, List.not_mem_nil, or_false]
    exact hbyte _ (by omega)
  · split
    · simp only [List.mem_cons, List.not_mem_nil, or_false, not_or]
      exact ⟨hbyte _ (by omega), hbyte _ (by omega)⟩
    · split
      · simp only [List.mem_cons, List.not_mem_nil, or_false, not_or]
        exact ⟨hbyte _ (by omega), hbyte _ (by omega), hbyte _ (by omega)⟩
      · simp only [List.mem_cons, List.not_mem_nil, or_false, not_or]
        exact ⟨hbyte _ (by omega), hbyte _ (by omega), hbyte _ (by omega), hbyte _ (by omega)⟩

theorem ascii_notMem_utf8 {b : UInt8} (hb : b.toNat < 128) (h : ∀ c ∈ cs, c.toNat ≠ b.toNat) : b ∉ utf8 cs := by
  induction cs with
  | nil => simp
  | cons c cs ih =>
    rw [List.forall_mem_cons] at h
    rw [utf8_cons, List.mem_append, not_or]
    exact ⟨ascii_notMem_utf8EncodeChar hb h.1, ih h.2⟩

theorem lf_notMem_utf8 (h : '\n' ∉ cs) : lf ∉ utf8 cs := by
  apply ascii_notMem_utf8 (by decide)
  intro c hc heq
  obtain rfl : c = '\n' := Char.ext (UInt32.toNat_inj.mp heq)
  exact h hc

theorem cr_notMem_utf8 (h : '\r' ∉ cs) : cr ∉ utf8 cs := by
  apply ascii_notMem_utf8 (by decide)
  intro c hc heq
  obtain rfl : c = '\r' := Char.ext (UInt32.toNat_inj.mp heq)
  exact h hc

/-- The Unicode property White_Space. -/
def isWhitespace (c : Char) : Bool :=
  let n := c.toNat
  (9 ≤ n && n ≤ 13) || n == 32 || n == 0x85 || n == 0xa0 || n == 0x1680 ||
    (0x2000 ≤ n && n ≤ 0x200a) || n == 0x2028 || n == 0x2029 || n == 0x202f || n == 0x205f || n == 0x3000

def trim (cs : List Char) : List Char := (cs.dropWhile isWhitespace).rdropWhile isWhitespace

/-- `split_whitespace`: the pieces between white space, none of them empty. -/
def splitWhitespace (cs : List Char) : List (List Char) :=
  (cs.splitOnP isWhitespace).filter (· ≠ [])

/-- `split_once`: what is before and after the first `sep`. -/
def splitOnce (sep : Char) (cs : List Char) : Option (List Char × List Char) :=
  if sep ∈ cs then some (cs.takeWhile (· ≠ sep), (cs.dropWhile (· ≠ sep)).tail) else none

/-- `parse` to an unsigned integer: decimal digits, after an optional plus. -/
def parseUnsigned (bits : Nat) (cs : List Char) : Option Nat :=
  let digits := if cs.head? = some '+' then cs.tail else cs
  if digits = [] ∨ !digits.all Char.isDigit then none
  else
    let n := digits.foldl (fun n c => n * 10 + (c.toNat - '0'.toNat)) 0
    if n < 2 ^ bits then some n else none

def parseU32 (cs : List Char) : Option Nat := parseUnsigned 32 cs
def parseU8 (cs : List Char) : Option Nat := parseUnsigned 8 cs

theorem digits_of_parseUnsigned {bits n : Nat} (h : parseUnsigned bits cs = some n) :
    ∀ c ∈ cs, c = '+' ∨ c.isDigit = true := by
  have hdigits : (if cs.head? = some '+' then cs.tail else cs).all Char.isDigit = true := by
    simp only [parseUnsigned, Option.ite_none_left_eq_some, not_or, Bool.not_eq_true', Bool.not_eq_false] at h
    exact h.1.2
  intro c hc
  cases cs with
  | nil => cases hc
  | cons d cs =>
    by_cases hplus : d = '+'
    · rcases List.mem_cons.mp hc with rfl | hc
      · exact .inl hplus
      · simp only [hplus, List.head?_cons, if_true, List.tail_cons, List.all_eq_true] at hdigits
        exact .inr (hdigits c hc)
    · rw [if_neg (by simpa using hplus), List.all_eq_true] at hdigits
      exact .inr (hdigits c hc)

theorem trim_eq_self {a b : Char} (ha : isWhitespace a = false)
    (hb : isWhitespace b = false) : trim (a :: cs ++ [b]) = a :: cs ++ [b] := by
  simp [trim, ha, hb]

/-- `trim_end_matches` of a nonempty text, which is taken off as often as it is there. -/
def trimEndMatches (pat cs : List Char) : List Char :=
  if _h : pat ≠ [] ∧ pat <:+ cs then trimEndMatches pat (cs.take (cs.length - pat.length)) else cs
termination_by cs.length
decreasing_by
  have hpos := List.length_pos_iff.mpr _h.1
  have hle := _h.2.length_le
  rw [List.length_take]
  omega

theorem trimEndMatches_append (pat cs : List Char) :
    trimEndMatches pat (cs ++ pat) = trimEndMatches pat cs := by
  by_cases hpat : pat = []
  · simp [hpat]
  · rw [trimEndMatches, dif_pos ⟨hpat, List.suffix_append cs pat⟩]
    simp

theorem trimEndMatches_eq_self {pat cs : List Char} (h : ¬ pat <:+ cs) : trimEndMatches pat cs = cs := by
  rw [trimEndMatches, dif_neg fun hand => h hand.2]

theorem isPrefix_trimEndMatches (pat cs : List Char) : trimEndMatches pat cs <+: cs := by
  fun_induction trimEndMatches pat cs with
  | case1 cs h ih => exact ih.trans (List.take_prefix _ _)
  | case2 cs h => exact List.prefix_rfl

theorem trimEndMatches_eq_self_iff {pat : List Char} (hpat : pat ≠ []) : trimEndMatches pat cs = cs ↔ ¬ pat <:+ cs := by
  refine ⟨fun h hsuffix => ?_, trimEndMatches_eq_self⟩
  obtain ⟨front, rfl⟩ := hsuffix
  rw [trimEndMatches_append] at h
  have hle := (isPrefix_trimEndMatches pat front).length_le
  have hpos := List.length_pos_iff.mpr hpat
  rw [h, List.length_append] at hle
  omega

/-- Lower-case hexadecimal digits, for a number that `width` of them can show. -/
def hex : Nat → Nat → List Char
  | 0, _ => []
  | width + 1, n => hex width (n / 16) ++ [Nat.digitChar (n % 16)]

@[simp] theorem length_hex (width n : Nat) : (hex width n).length = width := by
  induction width generalizing n with
  | zero => rfl
  | succ width ih => simp [hex, ih]

theorem mem_hex {width n : Nat} {c : Char} (h : c ∈ hex width n) : ∃ d < 16, c = Nat.digitChar d := by
  induction width generalizing n with
  | zero => cases h
  | succ width ih =>
    rcases List.mem_append.mp h with h | h
    · exact ih h
    · exact ⟨n % 16, Nat.mod_lt _ (by decide), by simpa using h⟩

theorem hex_inj {width m n : Nat} (hm : m < 16 ^ width) (hn : n < 16 ^ width)
    (h : hex width m = hex width n) : m = n := by
  induction width generalizing m n with
  | zero => omega
  | succ width ih =>
    have hdigit : ∀ a < 16, ∀ b < 16, Nat.digitChar a = Nat.digitChar b → a = b := by decide
    obtain ⟨hhigh, hlow⟩ := List.append_inj' h rfl
    have hhigh : m / 16 = n / 16 := ih (by omega) (by omega) hhigh
    have hlow : m % 16 = n % 16 :=
      hdigit _ (Nat.mod_lt _ (by decide)) _ (Nat.mod_lt _ (by decide)) (List.head_eq_of_cons_eq hlow)
    omega

theorem length_utf8_of_forall (h : ∀ c ∈ cs, (String.utf8EncodeChar c).length = 1) : (utf8 cs).length = cs.length := by
  induction cs with
  | nil => rfl
  | cons c cs ih =>
    obtain ⟨hc, hcs⟩ := List.forall_mem_cons.mp h
    rw [utf8_cons, List.length_append, hc, ih hcs, List.length_cons, Nat.add_comm]

@[simp] theorem length_utf8_hex (width n : Nat) : (utf8 (hex width n)).length = width := by
  have hdigit : ∀ d < 16, (String.utf8EncodeChar (Nat.digitChar d)).length = 1 := by decide
  rw [length_utf8_of_forall, length_hex]
  intro c hc
  obtain ⟨d, hd, rfl⟩ := mem_hex hc
  exact hdigit d hd

/-! Files of lines that each end with a newline. -/

@[grind =] def unlines (lines : List Bytes) : Bytes := lines.flatMap (· ++ [lf])

@[simp] theorem unlines_nil : unlines [] = [] := rfl

@[simp] theorem unlines_cons (line : Bytes) (lines : List Bytes) :
    unlines (line :: lines) = line ++ lf :: unlines lines := by simp [unlines]

@[simp] theorem unlines_append (a b : List Bytes) : unlines (a ++ b) = unlines a ++ unlines b :=
  List.flatMap_append

theorem length_unlines_le_of_suffix {a b : List Bytes} (h : a <:+ b) :
    (unlines a).length ≤ (unlines b).length := by
  obtain ⟨front, rfl⟩ := h
  simp

theorem splitOn_unlines (h : ∀ line ∈ lines, lf ∉ line) : (unlines lines).splitOn lf = lines ++ [[]] := by
  induction lines with
  | nil => rfl
  | cons line lines ih =>
    rw [unlines_cons, List.splitOn_append_cons_self_of_not_mem (h line (by simp)),
      ih fun line hline => h line (by simp [hline])]
    rfl

theorem splitOn_flatMap_append {α : Type*} [DecidableEq α] {sep : α} {lines : List (List α)} {tail : List α}
    (h : ∀ line ∈ lines ++ [tail], sep ∉ line) : (lines.flatMap (· ++ [sep]) ++ tail).splitOn sep = lines ++ [tail] := by
  induction lines with
  | nil => exact List.splitOn_eq_singleton (h tail (List.mem_singleton_self tail))
  | cons line lines ih =>
    have hrest : ∀ line ∈ lines ++ [tail], sep ∉ line := fun line hline => h line (List.mem_cons_of_mem _ hline)
    rw [List.flatMap_cons, List.append_assoc, List.append_assoc, List.singleton_append,
      List.splitOn_append_cons_self_of_not_mem (h line List.mem_cons_self), ih hrest, List.cons_append]

theorem getLast?_unlines (h : lines ≠ []) : (unlines lines).getLast? = some lf := by
  obtain rfl | ⟨front, line, rfl⟩ := List.eq_nil_or_concat lines
  · exact absurd rfl h
  · simp [unlines]

/-- The beginning of a file of lines ends somewhere in one of them. -/
theorem isPrefix_unlines {p : Bytes} (h : p <+: unlines lines) :
    ∃ front tail back, lines = front ++ back ∧ p = unlines front ++ tail ∧
      (tail = [] ∨ ∃ line rest, back = line :: rest ∧ tail <+: line) := by
  induction lines generalizing p with
  | nil => exact ⟨[], [], [], rfl, by simpa using h, .inl rfl⟩
  | cons line lines ih =>
    rw [unlines_cons, show line ++ lf :: unlines lines = (line ++ [lf]) ++ unlines lines by simp] at h
    rcases List.prefix_or_prefix_of_prefix h (List.prefix_append _ _) with hshort | ⟨q, rfl⟩
    · rcases List.prefix_concat_iff.mp hshort with rfl | hpart
      · exact ⟨[line], [], lines, rfl, by simp, .inl rfl⟩
      · exact ⟨[], p, line :: lines, rfl, rfl, .inr ⟨line, lines, rfl, hpart⟩⟩
    · obtain ⟨front, tail, back, rfl, rfl, htail⟩ := ih ((List.prefix_append_right_inj _).mp h)
      exact ⟨line :: front, tail, back, rfl, by simp, htail⟩

/-- The end of a file of lines starts somewhere in one of them. -/
theorem drop_unlines {d : Nat} (hd : d < (unlines lines).length) :
    ∃ front line back, lines = front ++ line :: back ∧
      ∃ part, part <:+ line ∧ (unlines lines).drop d = part ++ lf :: unlines back := by
  induction lines generalizing d with
  | nil => cases hd
  | cons line lines ih =>
    by_cases hline : d ≤ line.length
    · refine ⟨[], line, lines, rfl, line.drop d, List.drop_suffix d line, ?_⟩
      rw [unlines_cons, List.drop_append_of_le_length hline]
    · have hlength : (unlines (line :: lines)).length = line.length + 1 + (unlines lines).length := by
        simp [Nat.add_assoc, Nat.add_comm]
      have hrest : (unlines (line :: lines)).drop d = (unlines lines).drop (d - (line.length + 1)) := by
        rw [unlines_cons, show line ++ lf :: unlines lines = (line ++ [lf]) ++ unlines lines by simp,
          List.drop_append, List.drop_eq_nil_of_le (by simp; omega)]
        simp
      obtain ⟨front, mid, back, rfl, part, hpart, hdrop⟩ := ih (d := d - (line.length + 1)) (by omega)
      exact ⟨line :: front, mid, back, rfl, part, hpart, hrest.trans hdrop⟩

/-! Parts of a text that are given by the places of their bytes. -/

/-- The text before byte `n` and behind it, where a character begins there or the text ends. -/
def splitBytes : Nat → List Char → Option (List Char × List Char)
  | 0, cs => some ([], cs)
  | _ + 1, [] => none
  | n + 1, c :: cs =>
    if c.utf8Size ≤ n + 1 then (splitBytes (n + 1 - c.utf8Size) cs).map fun (front, back) => (c :: front, back) else none

/-- `&text[start..stop]`; there is none where a character is cut, or behind the end. -/
def slice (cs : List Char) (start stop : Nat) : Option (List Char) :=
  if stop < start then none
  else (splitBytes start cs).bind fun (_, back) => (splitBytes (stop - start) back).map Prod.fst

theorem splitBytes_append (front back : List Char) : splitBytes (utf8 front).length (front ++ back) = some (front, back) := by
  induction front with
  | nil =>
    change splitBytes 0 back = some ([], back)
    rw [splitBytes]
  | cons c front ih =>
    have hpos := c.utf8Size_pos
    have hlen := length_utf8_cons c front
    obtain ⟨n, hn⟩ := Nat.exists_eq_succ_of_ne_zero (show c.utf8Size + (utf8 front).length ≠ 0 by omega)
    rw [hlen, hn, List.cons_append, splitBytes, if_pos (by omega), show n + 1 - c.utf8Size = (utf8 front).length by omega, ih]
    rfl

theorem slice_append (front part back : List Char) :
    slice (front ++ (part ++ back)) (utf8 front).length ((utf8 front).length + (utf8 part).length) = some part := by
  rw [slice, if_neg (by omega), splitBytes_append, Option.bind_some, Nat.add_sub_cancel_left]
  dsimp only
  rw [splitBytes_append]
  rfl

end Beetle.Lib
