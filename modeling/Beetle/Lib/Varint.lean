import Mathlib.Data.Nat.Bitwise
import Mathlib.Tactic.Ring
import Beetle.Lib.Bytes

/-! Numbers of 64 bits as bytes of seven bits each, the lowest ones first. All bytes but the last have the
high bit set. -/
namespace Beetle.Lib

def encodeVarint (value : Nat) : Bytes :=
  if _h : 128 ≤ value then UInt8.ofNat (value % 128 + 128) :: encodeVarint (value / 128) else [UInt8.ofNat value]

/-- The number so far with seven more bits. -/
def addBits (value shift : Nat) (byte : UInt8) : Nat := value ||| ((byte.toNat % 128) <<< shift) % 2 ^ 64

/-- A number of at most so many more bytes, and what follows it. -/
def readVarintFrom : Nat → Nat → Nat → Bytes → Option (Nat × Bytes)
  | 0, _, _, _ => none
  | _ + 1, _, _, [] => none
  | left + 1, shift, value, byte :: rest =>
    if byte.toNat < 128 then some (addBits value shift byte, rest)
    else readVarintFrom left (shift + 7) (addBits value shift byte) rest

def readVarint (bytes : Bytes) : Option (Nat × Bytes) := readVarintFrom 10 0 0 bytes

theorem addBits_eq {value shift : Nat} {byte : UInt8} (hvalue : value < 2 ^ shift)
    (hbits : byte.toNat % 128 * 2 ^ shift < 2 ^ 64) :
    addBits value shift byte = byte.toNat % 128 * 2 ^ shift + value := by
  rw [addBits, Nat.shiftLeft_eq, Nat.mod_eq_of_lt hbits, ← Nat.shiftLeft_eq, Nat.or_comm,
    ← Nat.shiftLeft_add_eq_or_of_lt hvalue]

theorem addBits_lt {value shift : Nat} {byte : UInt8} (hvalue : value < 2 ^ 64) : addBits value shift byte < 2 ^ 64 :=
  Nat.or_lt_two_pow hvalue (Nat.mod_lt _ (by decide))

variable {left shift value v : Nat} {bytes rest : Bytes}

theorem readVarintFrom_encodeVarint (hv : v < 128 ^ left) (hvalue : value < 2 ^ shift)
    (hbits : v * 2 ^ shift < 2 ^ 64) (hleft : 0 < left) (rest : Bytes) :
    readVarintFrom left shift value (encodeVarint v ++ rest) = some (v * 2 ^ shift + value, rest) := by
  induction v using encodeVarint.induct generalizing left shift value with
  | case1 v h ih =>
    obtain ⟨left, rfl⟩ : ∃ n, left = n + 1 := ⟨left - 1, by omega⟩
    have hbyte : (UInt8.ofNat (v % 128 + 128)).toNat = v % 128 + 128 := by
      rw [UInt8.toNat_ofNat']
      omega
    have hlow : (UInt8.ofNat (v % 128 + 128)).toNat % 128 = v % 128 := by
      rw [hbyte]
      omega
    have hsplit : v * 2 ^ shift = v / 128 * 2 ^ (shift + 7) + v % 128 * 2 ^ shift := by
      have hv' : v = v / 128 * 128 + v % 128 := by omega
      conv_lhs => rw [hv']
      ring
    have hpart : v % 128 * 2 ^ shift < 2 ^ 64 := by omega
    have hadd : addBits value shift (UInt8.ofNat (v % 128 + 128)) = v % 128 * 2 ^ shift + value := by
      rw [addBits_eq hvalue (by rwa [hlow]), hlow]
    have hnext : v % 128 * 2 ^ shift + value < 2 ^ (shift + 7) := by
      have hle : v % 128 * 2 ^ shift ≤ 127 * 2 ^ shift := Nat.mul_le_mul_right _ (by omega)
      rw [Nat.pow_add]
      omega
    have hleft' : 0 < left := by
      rw [Nat.pos_iff_ne_zero]
      rintro rfl
      rw [Nat.zero_add, Nat.pow_one] at hv
      omega
    rw [encodeVarint, dif_pos h, List.cons_append, readVarintFrom, hbyte, if_neg (by omega), hadd,
      ih (by rw [Nat.pow_succ] at hv; omega) hnext (by omega) hleft', hsplit, Nat.add_assoc]
  | case2 v h =>
    obtain ⟨left, rfl⟩ : ∃ n, left = n + 1 := ⟨left - 1, by omega⟩
    have hbyte : (UInt8.ofNat v).toNat = v := by
      rw [UInt8.toNat_ofNat']
      omega
    have hlow : (UInt8.ofNat v).toNat % 128 = v := by
      rw [hbyte]
      omega
    rw [encodeVarint, dif_neg h, List.singleton_append, readVarintFrom, hbyte, if_pos (by omega),
      addBits_eq hvalue (by rwa [hlow]), hlow]

/-- What is written is read. -/
theorem readVarint_encodeVarint {v : Nat} (hv : v < 2 ^ 64) (rest : Bytes) :
    readVarint (encodeVarint v ++ rest) = some (v, rest) := by
  have hbound : v < 128 ^ 10 := lt_trans hv (by decide)
  have h := @readVarintFrom_encodeVarint 10 0 0 v hbound (by decide) (by simpa using hv) (by decide) rest
  simpa [readVarint] using h

theorem encodeVarint_ne_nil (v : Nat) : encodeVarint v ≠ [] := by
  rw [encodeVarint]
  split
  · exact List.cons_ne_nil _ _
  · exact List.cons_ne_nil _ _

/-! What is read of a text is in front of what is left. -/

theorem suffix_of_readVarintFrom
    (h : readVarintFrom left shift value bytes = some (v, rest)) : rest <:+ bytes ∧ rest.length < bytes.length := by
  induction left generalizing shift value bytes with
  | zero => cases h
  | succ left ih =>
    cases bytes with
    | nil => cases h
    | cons byte bytes =>
      rw [readVarintFrom] at h
      split at h
      · obtain ⟨-, rfl⟩ := Prod.mk.inj (Option.some.inj h)
        exact ⟨List.suffix_cons byte bytes, Nat.lt_succ_self _⟩
      · obtain ⟨hsuffix, hlt⟩ := ih h
        exact ⟨hsuffix.trans (List.suffix_cons byte bytes), Nat.lt_succ_of_lt hlt⟩

theorem lt_of_readVarintFrom (hvalue : value < 2 ^ 64)
    (h : readVarintFrom left shift value bytes = some (v, rest)) : v < 2 ^ 64 := by
  induction left generalizing shift value bytes with
  | zero => cases h
  | succ left ih =>
    cases bytes with
    | nil => cases h
    | cons byte bytes =>
      rw [readVarintFrom] at h
      split at h
      · obtain ⟨rfl, -⟩ := Prod.mk.inj (Option.some.inj h)
        exact addBits_lt hvalue
      · exact ih (addBits_lt hvalue) h

theorem lt_of_readVarint {v : Nat} (h : readVarint bytes = some (v, rest)) : v < 2 ^ 64 :=
  lt_of_readVarintFrom (by decide) h

end Beetle.Lib
