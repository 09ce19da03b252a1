import Beetle.Util

/-! Text in the query of a URL. -/
namespace Beetle
open Beetle.Lib

/-! Bytes that may not be UTF-8. -/

def isContinuation (b : UInt8) : Bool := 0x80 ≤ b && b ≤ 0xBF

/-- The second bytes that go with the first byte of a character of three bytes. -/
def secondOfThree (first second : UInt8) : Bool :=
  (first == 0xE0 && 0xA0 ≤ second && second ≤ 0xBF) || (0xE1 ≤ first && first ≤ 0xEC && isContinuation second) ||
    (first == 0xED && 0x80 ≤ second && second ≤ 0x9F) || (0xEE ≤ first && first ≤ 0xEF && isContinuation second)

def secondOfFour (first second : UInt8) : Bool :=
  (first == 0xF0 && 0x90 ≤ second && second ≤ 0xBF) || (0xF1 ≤ first && first ≤ 0xF3 && isContinuation second) ||
    (first == 0xF4 && 0x80 ≤ second && second ≤ 0x8F)

/-- How many bytes behind the first one are the beginning of a character that breaks off. -/
def brokenOff (first : UInt8) : Bytes → Nat
  | second :: third :: _ =>
    if secondOfThree first second then 1
    else if secondOfFour first second then if isContinuation third then 2 else 1
    else 0
  | [second] => if secondOfThree first second || secondOfFour first second then 1 else 0
  | [] => 0

/-- `String::from_utf8_lossy`. -/
def fromUtf8Lossy : Bytes → List Char
  | [] => []
  | b :: rest =>
    match (b :: rest).toByteArray.utf8DecodeChar? 0 with
    | some c => c :: fromUtf8Lossy (rest.drop (c.utf8Size - 1))
    | none => '\uFFFD' :: fromUtf8Lossy (rest.drop (brokenOff b rest))
termination_by bs => bs.length
decreasing_by
  all_goals
    rw [List.length_drop, List.length_cons]
    omega

/-- Nothing is lost of text. -/
theorem fromUtf8Lossy_utf8 (cs : List Char) : fromUtf8Lossy (utf8 cs) = cs := by
  induction cs with
  | nil => rw [utf8_nil, fromUtf8Lossy]
  | cons c cs ih =>
    have hdecode : (utf8 (c :: cs)).toByteArray.utf8DecodeChar? 0 = some c := by
      rw [utf8_cons, List.toByteArray_append]
      exact ByteArray.utf8DecodeChar?_utf8EncodeChar_append
    have hlength : (String.utf8EncodeChar c).length = c.utf8Size := String.length_utf8EncodeChar c
    obtain ⟨b, more, hchar⟩ : ∃ b more, String.utf8EncodeChar c = b :: more :=
      List.exists_cons_of_ne_nil (List.ne_nil_of_length_pos (hlength ▸ c.utf8Size_pos))
    rw [utf8_cons, hchar, List.cons_append] at hdecode ⊢
    rw [fromUtf8Lossy, hdecode]
    dsimp only
    rw [← hlength, hchar, List.length_cons, Nat.add_sub_cancel, List.drop_left, ih]

/-! Encoding and decoding. -/

def isUnreserved (b : UInt8) : Bool :=
  (0x41 ≤ b && b ≤ 0x5A) || (0x61 ≤ b && b ≤ 0x7A) || (0x30 ≤ b && b ≤ 0x39) || b ∈ [0x2D, 0x2E, 0x5F, 0x7E]

def percentEncodeByte (b : UInt8) : List Char :=
  if isUnreserved b then [Char.ofNat b.toNat]
  else if b = 0x20 then ['%', '2', '0']
  else ['%', hexDigit (b >>> 4).toNat, hexDigit (b &&& 0x0f).toNat]

def percentEncodeQuery (s : List Char) : List Char := (utf8 s).flatMap percentEncodeByte

def hexVal (b : UInt8) : Option UInt8 :=
  if 0x30 ≤ b ∧ b ≤ 0x39 then some (b - 0x30)
  else if 0x41 ≤ b ∧ b ≤ 0x46 then some (b - 0x41 + 10)
  else if 0x61 ≤ b ∧ b ≤ 0x66 then some (b - 0x61 + 10)
  else none

/-- The value of a `%` and the two bytes behind it. -/
def escapeVal (b : UInt8) : Bytes → Option UInt8
  | x :: y :: _ => if b = 0x25 then (hexVal x).bind fun hi => (hexVal y).map fun lo => hi <<< 4 ||| lo else none
  | _ => none

@[grind =] def percentDecodeBytes : Bytes → Bytes
  | [] => []
  | b :: rest =>
    match escapeVal b rest with
    | some value => value :: percentDecodeBytes (rest.drop 2)
    | none => (if b = 0x2B then 0x20 else b) :: percentDecodeBytes rest
termination_by bs => bs.length
decreasing_by
  all_goals
    simp only [List.length_drop, List.length_cons]
    omega

def percentDecodeQuery (s : List Char) : List Char := fromUtf8Lossy (percentDecodeBytes (utf8 s))

/-! The round trip. -/

theorem forall_uint8 {p : UInt8 → Prop} (h : ∀ n < 256, p (UInt8.ofNat n)) (b : UInt8) : p b := by
  have hb := h b.toNat b.toNat_lt
  rwa [UInt8.ofNat_toNat] at hb

/-- The characters that stand for themselves. -/
def Unreserved (c : Char) : Prop := c.isAlphanum = true ∨ c ∈ ['-', '.', '_', '~']

instance : DecidablePred Unreserved := fun _ => inferInstanceAs (Decidable (_ ∨ _))

def IsTriple (block : List Char) : Prop :=
  ∃ x y, block = ['%', x, y] ∧ (Json.hexDigit? x).isSome = true ∧ (Json.hexDigit? y).isSome = true

variable {b : UInt8}

theorem isTriple_of_reserved (h : isUnreserved b = false) :
    percentEncodeByte b = ['%', hexDigit (b >>> 4).toNat, hexDigit (b &&& 0x0f).toNat] := by
  rw [percentEncodeByte, if_neg (by rw [h]; decide)]
  split
  · rename_i hspace
    rw [hspace]
    rfl
  · rfl

/-- A byte that is encoded is an unreserved character or a triple. -/
theorem percentEncodeByte_block (b : UInt8) :
    (∃ c, percentEncodeByte b = [c] ∧ Unreserved c) ∨ IsTriple (percentEncodeByte b) := by
  cases h : isUnreserved b with
  | true =>
    have hunreserved : ∀ b : UInt8, isUnreserved b = true → Unreserved (Char.ofNat b.toNat) := by
      apply forall_uint8
      decide +kernel
    exact .inl ⟨Char.ofNat b.toNat, if_pos h, hunreserved b h⟩
  | false =>
    have hdigits : ∀ b : UInt8, (Json.hexDigit? (hexDigit (b >>> 4).toNat)).isSome = true ∧
        (Json.hexDigit? (hexDigit (b &&& 0x0f).toNat)).isSome = true := by
      apply forall_uint8
      decide +kernel
    exact .inr ⟨_, _, isTriple_of_reserved h, (hdigits b).1, (hdigits b).2⟩

theorem percentDecodeBytes_unreserved (h : isUnreserved b = true) (rest : Bytes) :
    percentDecodeBytes (utf8 (percentEncodeByte b) ++ rest) = b :: percentDecodeBytes rest := by
  have hbyte : ∀ b : UInt8, isUnreserved b = true → utf8 [Char.ofNat b.toNat] = [b] ∧ b ≠ 0x25 ∧ b ≠ 0x2B := by
    apply forall_uint8
    decide +kernel
  obtain ⟨hutf8, hpercent, hplus⟩ := hbyte b h
  have hnone : escapeVal b rest = none := by
    unfold escapeVal
    split
    · exact if_neg hpercent
    · rfl
  rw [percentEncodeByte, if_pos h, hutf8, List.singleton_append, percentDecodeBytes, hnone]
  dsimp only
  rw [if_neg hplus]

theorem percentDecodeBytes_reserved (h : isUnreserved b = false) (rest : Bytes) :
    percentDecodeBytes (utf8 (percentEncodeByte b) ++ rest) = b :: percentDecodeBytes rest := by
  have hbyte : ∀ b : UInt8, escapeVal 0x25 ((utf8 (percentEncodeByte b)).tail) = some b ∨ isUnreserved b = true := by
    apply forall_uint8
    decide +kernel
  obtain ⟨x, y, hutf8⟩ : ∃ x y, utf8 (percentEncodeByte b) = [0x25, x, y] := by
    have hdigit : ∀ n < 16, utf8 [hexDigit n] = [UInt8.ofNat (hexDigit n).toNat] := by decide
    have hhigh : ∀ b : UInt8, (b >>> 4).toNat < 16 ∧ (b &&& 0x0f).toNat < 16 := by
      apply forall_uint8
      decide +kernel
    refine ⟨UInt8.ofNat (hexDigit (b >>> 4).toNat).toNat, UInt8.ofNat (hexDigit (b &&& 0x0f).toNat).toNat, ?_⟩
    rw [isTriple_of_reserved h]
    calc utf8 ['%', hexDigit (b >>> 4).toNat, hexDigit (b &&& 0x0f).toNat]
        = utf8 ['%'] ++ (utf8 [hexDigit (b >>> 4).toNat] ++ utf8 [hexDigit (b &&& 0x0f).toNat]) := by
          simp only [← utf8_append, List.singleton_append]
      _ = _ := by
          rw [hdigit _ (hhigh b).1, hdigit _ (hhigh b).2]
          rfl
  have hvalue := (hbyte b).resolve_right (by rw [h]; decide)
  rw [hutf8] at hvalue ⊢
  have hescape : escapeVal 0x25 (x :: y :: rest) = some b := hvalue
  rw [List.cons_append, List.cons_append, List.cons_append, List.nil_append, percentDecodeBytes, hescape]
  rfl

theorem percentDecodeBytes_encode (bs : Bytes) :
    percentDecodeBytes (utf8 (bs.flatMap percentEncodeByte)) = bs := by
  induction bs with
  | nil => rw [List.flatMap_nil, utf8_nil, percentDecodeBytes]
  | cons b bs ih =>
    rw [List.flatMap_cons, utf8_append]
    cases h : isUnreserved b with
    | true => rw [percentDecodeBytes_unreserved h, ih]
    | false => rw [percentDecodeBytes_reserved h, ih]

theorem percentDecodeQuery_percentEncodeQuery (s : List Char) : percentDecodeQuery (percentEncodeQuery s) = s := by
  rw [percentDecodeQuery, percentEncodeQuery, percentDecodeBytes_encode, fromUtf8Lossy_utf8]

/-- The separators of a query are reserved. -/
theorem notMem_percentEncodeQuery {c : Char} (h : c ∈ ['&', '=', '+', '#', ' ']) (s : List Char) :
    c ∉ percentEncodeQuery s := by
  have hreserved : ∀ c ∈ ['&', '=', '+', '#', ' '], ¬ Unreserved c ∧ c ≠ '%' ∧ Json.hexDigit? c = none := by decide
  obtain ⟨hnot, hpercent, hhex⟩ := hreserved c h
  intro hmem
  obtain ⟨b, -, hb⟩ := List.mem_flatMap.mp hmem
  rcases percentEncodeByte_block b with ⟨d, hblock, hd⟩ | ⟨x, y, hblock, hx, hy⟩
  · rw [hblock] at hb
    exact hnot (List.mem_singleton.mp hb ▸ hd)
  · rw [hblock] at hb
    simp only [List.mem_cons, List.not_mem_nil, or_false] at hb
    rcases hb with rfl | rfl | rfl
    · exact hpercent rfl
    · rw [hhex] at hx
      cases hx
    · rw [hhex] at hy
      cases hy

/-- What is encoded is decoded to itself, is made of unreserved characters and triples, and has no separator in it. -/
theorem query_encoding_round_trips :
    (∀ s, percentDecodeQuery (percentEncodeQuery s) = s) ∧
    (∀ s, ∃ blocks : List (List Char), percentEncodeQuery s = blocks.flatten ∧
      ∀ block ∈ blocks, (∃ c, block = [c] ∧ Unreserved c) ∨ IsTriple block) ∧
    (∀ s, ∀ c ∈ ['&', '=', '+', '#', ' '], c ∉ percentEncodeQuery s) ∧
    Function.Injective percentEncodeQuery := by
  refine ⟨percentDecodeQuery_percentEncodeQuery, fun s => ?_, fun s c hc => notMem_percentEncodeQuery hc s, ?_⟩
  · refine ⟨(utf8 s).map percentEncodeByte, List.flatMap_def, fun block hblock => ?_⟩
    obtain ⟨b, -, rfl⟩ := List.mem_map.mp hblock
    exact percentEncodeByte_block b
  · exact Function.LeftInverse.injective percentDecodeQuery_percentEncodeQuery

example : percentEncodeQuery "a b&ü~".toList = "a%20b%26%c3%bc~".toList := by decide

end Beetle
