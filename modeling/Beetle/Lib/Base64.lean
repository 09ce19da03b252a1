import Beetle.Lib.Bytes

/-! Base64 as RFC 4648 defines it. -/
namespace Beetle.Lib.Base64

def alphabet : Bytes := bytes "ABCDEFGHIJKLMNOPQRSTUVWXYZabcdefghijklmnopqrstuvwxyz0123456789+/"

/-- `=` -/
def padding : UInt8 := 61

def char (sextet : BitVec 6) : UInt8 := alphabet.getD sextet.toNat 0

/-- Groups of 24 bits are four of six. In the last group zero bits are added up to whole groups of six, and then the
text is padded. -/
def encode : Bytes → Bytes
  | [] => []
  | [a] =>
    let group := a.toBitVec ++ 0#4
    [char (group.extractLsb' 6 6), char (group.extractLsb' 0 6), padding, padding]
  | [a, b] =>
    let group := a.toBitVec ++ b.toBitVec ++ 0#2
    [char (group.extractLsb' 12 6), char (group.extractLsb' 6 6), char (group.extractLsb' 0 6), padding]
  | a :: b :: c :: rest =>
    let group := a.toBitVec ++ b.toBitVec ++ c.toBitVec
    char (group.extractLsb' 18 6) :: char (group.extractLsb' 12 6) :: char (group.extractLsb' 6 6) ::
      char (group.extractLsb' 0 6) :: encode rest

example : encode (bytes "fooba") = bytes "Zm9vYmE=" := by decide +kernel

theorem toNat_append_eq_add {m n : Nat} (x : BitVec m) (y : BitVec n) :
    (x ++ y).toNat = x.toNat * 2 ^ n + y.toNat := by
  rw [BitVec.toNat_append, Nat.shiftLeft_eq, Nat.mul_comm, Nat.two_pow_add_eq_or_of_lt y.isLt]

theorem toNat_extractLsb' {n : Nat} (x : BitVec n) (start len : Nat) :
    (x.extractLsb' start len).toNat = x.toNat / 2 ^ start % 2 ^ len := by
  rw [BitVec.extractLsb'_toNat, Nat.shiftRight_eq_div_pow]

end Beetle.Lib.Base64
