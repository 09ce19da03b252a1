import Mathlib.Algebra.Group.Int.Defs
import Mathlib.Algebra.GroupWithZero.Nat
import Mathlib.Data.List.Basic

/-! Text as the bytes a Rust `String` holds. -/
namespace Beetle.Lib

abbrev Bytes := List UInt8

/-- The UTF-8 encoding of a text. -/
def bytes (s : String) : Bytes := s.toUTF8.toList

/-- `core::str::from_utf8` accepts the bytes. -/
def isUtf8 (bs : Bytes) : Bool := ByteArray.validateUTF8 ⟨bs.toArray⟩

def lf : UInt8 := 10
def cr : UInt8 := 13
def space : UInt8 := 32
def colon : UInt8 := 58

end Beetle.Lib
