import Beetle.Lib.Bytes

/-! Hashing in blocks, and SHA-1 as FIPS 180-4 defines it. -/
namespace Beetle.Lib

section Blocks
variable {σ β : Type*} (compress : σ → List β → σ) (size : Nat)

/-- Compress the complete blocks; what is left is shorter than a block. -/
def absorb (s : σ) (xs : List β) : σ × List β :=
  if 0 < size ∧ size ≤ xs.length then absorb (compress s (xs.take size)) (xs.drop size) else (s, xs)
termination_by xs.length
decreasing_by
  rename_i h
  rw [List.length_drop]
  omega

variable {compress size} {s : σ}

theorem absorb_short {xs : List β} (h : xs.length < size) : absorb compress size s xs = (s, xs) := by
  rw [absorb, if_neg fun hlong => absurd hlong.2 (Nat.not_le.mpr h)]

theorem absorb_long {xs : List β} (hpos : 0 < size) (h : size ≤ xs.length) :
    absorb compress size s xs = absorb compress size (compress s (xs.take size)) (xs.drop size) := by
  rw [absorb, if_pos ⟨hpos, h⟩]

theorem absorb_block_append {block : List β} (hpos : 0 < size) (h : block.length = size) (xs : List β) :
    absorb compress size s (block ++ xs) = absorb compress size (compress s block) xs := by
  rw [absorb_long hpos (by rw [List.length_append]; omega), List.take_left' h, List.drop_left' h]

/-- What is absorbed later meets what was left. -/
theorem absorb_append (hpos : 0 < size) (s : σ) (xs ys : List β) :
    absorb compress size s (xs ++ ys) =
      absorb compress size (absorb compress size s xs).1 ((absorb compress size s xs).2 ++ ys) := by
  by_cases h : size ≤ xs.length
  · rw [absorb_long hpos (by rw [List.length_append]; omega), List.take_append_of_le_length h,
      List.drop_append_of_le_length h, absorb_long hpos h]
    exact absorb_append hpos (compress s (xs.take size)) (xs.drop size) ys
  · rw [absorb_short (Nat.lt_of_not_le h)]
termination_by xs.length
decreasing_by
  rw [List.length_drop]
  omega

theorem length_absorb_snd (hpos : 0 < size) (s : σ) (xs : List β) :
    (absorb compress size s xs).2.length = xs.length % size := by
  by_cases h : size ≤ xs.length
  · rw [absorb_long hpos h, length_absorb_snd hpos, List.length_drop, ← Nat.mod_eq_sub_mod h]
  · rw [absorb_short (Nat.lt_of_not_le h), Nat.mod_eq_of_lt (Nat.lt_of_not_le h)]
termination_by xs.length
decreasing_by
  rw [List.length_drop]
  omega

end Blocks

namespace Sha1

/-- The hash value, and the working variables. -/
structure Words where
  a : UInt32
  b : UInt32
  c : UInt32
  d : UInt32
  e : UInt32
  deriving DecidableEq

def rotl (n x : UInt32) : UInt32 := x <<< n ||| x >>> (32 - n)

def ch (x y z : UInt32) : UInt32 := x &&& y ^^^ ~~~x &&& z
def parity (x y z : UInt32) : UInt32 := x ^^^ y ^^^ z
def maj (x y z : UInt32) : UInt32 := x &&& y ^^^ x &&& z ^^^ y &&& z

def function (t : Nat) : UInt32 → UInt32 → UInt32 → UInt32 :=
  if t < 20 then ch else if t < 40 then parity else if t < 60 then maj else parity

def constant (t : Nat) : UInt32 :=
  if t < 20 then 0x5a827999 else if t < 40 then 0x6ed9eba1 else if t < 60 then 0x8f1bbcdc else 0xca62c1d6

/-- A word of a block of 64 bytes, the first byte the most significant. -/
def messageWord (block : Bytes) (t : Nat) : UInt32 :=
  let byte (i : Nat) : Nat := (block.getD (4 * t + i) 0).toNat
  UInt32.ofNat (2 ^ 24 * byte 0 + (2 ^ 16 * byte 1 + (2 ^ 8 * byte 2 + byte 3)))

/-- The message schedule. -/
def schedule (block : Bytes) (t : Nat) : UInt32 :=
  if t < 16 then messageWord block t
  else rotl 1 (schedule block (t - 3) ^^^ schedule block (t - 8) ^^^ schedule block (t - 14) ^^^ schedule block (t - 16))

def round (w : Nat → UInt32) (v : Words) (t : Nat) : Words :=
  ⟨rotl 5 v.a + function t v.b v.c v.d + v.e + constant t + w t, v.a, rotl 30 v.b, v.c, v.d⟩

def Words.add (x y : Words) : Words := ⟨x.a + y.a, x.b + y.b, x.c + y.c, x.d + y.d, x.e + y.e⟩

/-- The hash value after one more block. -/
def compress (h : Words) (block : Bytes) : Words := ((List.range 80).foldl (round (schedule block)) h).add h

def initial : Words := ⟨0x67452301, 0xefcdab89, 0x98badcfe, 0x10325476, 0xc3d2e1f0⟩

/-- The least significant byte last. -/
def bigEndian (n number : Nat) : Bytes := (List.range n).map fun i => UInt8.ofNat (number / 256 ^ (n - 1 - i))

/-- The zero bytes that bring the message and the marked byte to 56 modulo 64. -/
def zeros (length : Nat) : Nat := (119 - length % 64) % 64

/-- The bit 1, bits 0 to the length of 448 modulo 512 bits, and the length of the message in bits. -/
def pad (message : Bytes) : Bytes :=
  message ++ (0x80 :: (List.replicate (zeros message.length) 0 ++ bigEndian 8 (8 * message.length)))

def Words.toBytes (h : Words) : Bytes := [h.a, h.b, h.c, h.d, h.e].flatMap fun word => bigEndian 4 word.toNat

def digest (message : Bytes) : Bytes := (absorb compress 64 initial (pad message)).1.toBytes

theorem length_bigEndian (n number : Nat) : (bigEndian n number).length = n := by
  rw [bigEndian, List.length_map, List.length_range]

theorem length_pad (message : Bytes) : (pad message).length % 64 = 0 := by
  simp only [pad, zeros, List.length_append, List.length_cons, List.length_replicate, length_bigEndian]
  omega

end Sha1

end Beetle.Lib
