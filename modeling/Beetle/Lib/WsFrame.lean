import Beetle.Lib.Bytes

/-! Frames of the WebSocket protocol, as a client writes them and as a server does. -/
namespace Beetle.Lib.Ws

/-! Numbers in network byte order. -/

def bigEndian : Nat → Nat → Bytes
  | 0, _ => []
  | width + 1, n => bigEndian width (n / 256) ++ [.ofNat n]

def ofBigEndian (bs : Bytes) : Nat := bs.foldl (fun n b => n * 256 + b.toNat) 0

@[simp] theorem length_bigEndian (width n : Nat) : (bigEndian width n).length = width := by
  induction width generalizing n with
  | zero => rfl
  | succ width ih => simp [bigEndian, ih]

theorem ofBigEndian_concat (bs : Bytes) (b : UInt8) : ofBigEndian (bs ++ [b]) = ofBigEndian bs * 256 + b.toNat := by
  simp [ofBigEndian]

theorem ofBigEndian_bigEndian {width n : Nat} (h : n < 256 ^ width) : ofBigEndian (bigEndian width n) = n := by
  induction width generalizing n with
  | zero =>
    rw [Nat.pow_zero, Nat.lt_one_iff] at h
    rw [h]
    rfl
  | succ width ih =>
    have hhigh : n / 256 < 256 ^ width := Nat.div_lt_of_lt_mul (by rwa [Nat.pow_succ, Nat.mul_comm] at h)
    rw [bigEndian, ofBigEndian_concat, ih hhigh, UInt8.toNat_ofNat']
    omega

/-! Masks. -/

structure Mask where
  a : UInt8
  b : UInt8
  c : UInt8
  d : UInt8

def Mask.bytes (mask : Mask) : Bytes := [mask.a, mask.b, mask.c, mask.d]

/-- The byte that masks the one at this place. -/
def Mask.byte (mask : Mask) (i : Nat) : UInt8 := mask.bytes.getD (i % 4) 0

def applyMask (mask : Mask) (payload : Bytes) : Bytes := payload.mapIdx fun i b => b ^^^ mask.byte i

@[simp] theorem length_applyMask (mask : Mask) (payload : Bytes) : (applyMask mask payload).length = payload.length := by
  simp [applyMask]

@[simp] theorem applyMask_applyMask (mask : Mask) (payload : Bytes) : applyMask mask (applyMask mask payload) = payload := by
  apply List.ext_getElem
  · simp
  · intro i hi hi'
    simp [applyMask, UInt8.xor_assoc]

/-! Lengths. -/

/-- How a frame says the length of its payload: in 7, 16 or 64 bits. -/
inductive LengthForm where
  | short
  | medium
  | long
  deriving DecidableEq

namespace LengthForm

def Fits : LengthForm → Nat → Prop
  | short, n => n ≤ 125
  | medium, n => n < 2 ^ 16
  | long, n => n < 2 ^ 64

instance (n : Nat) : (form : LengthForm) → Decidable (form.Fits n)
  | short => inferInstanceAs (Decidable (n ≤ 125))
  | medium => inferInstanceAs (Decidable (n < 2 ^ 16))
  | long => inferInstanceAs (Decidable (n < 2 ^ 64))

def minimal (n : Nat) : LengthForm := if n ≤ 125 then short else if n < 2 ^ 16 then medium else long

/-- `flag` is the bit that says whether the payload is masked. -/
def encode (flag : UInt8) (n : Nat) : LengthForm → Bytes
  | short => [flag ||| .ofNat n]
  | medium => (flag ||| 126) :: bigEndian 2 n
  | long => (flag ||| 127) :: bigEndian 8 n

theorem fits_minimal {n : Nat} (h : n < 2 ^ 64) : (minimal n).Fits n := by
  unfold minimal
  split
  · assumption
  · split <;> assumption

end LengthForm

/-- The length that these seven bits and the bytes behind them say, and what is behind it. -/
def decodeLength (low : Nat) (rest : Bytes) : Option (LengthForm × Nat × Bytes) :=
  if low = 126 then
    if rest.length < 2 then none else some (.medium, ofBigEndian (rest.take 2), rest.drop 2)
  else if low = 127 then
    if rest.length < 8 then none else some (.long, ofBigEndian (rest.take 8), rest.drop 8)
  else some (.short, low, rest)

/-! Facts about single bytes. -/

theorem forall_uint8 {p : UInt8 → Prop} (h : ∀ n : Fin 256, p (.ofNat n.val)) (b : UInt8) : p b := by
  have hb := h ⟨b.toNat, b.toNat_lt⟩
  rwa [UInt8.ofNat_toNat] at hb

variable {flag : UInt8}

theorem low_bits_flag (hflag : flag = 0 ∨ flag = 0x80) (b : UInt8) (hb : b.toNat < 128) :
    ((flag ||| b) &&& 0x7F).toNat = b.toNat ∧ (flag ||| b) &&& 0x80 = flag := by
  revert hb
  rcases hflag with rfl | rfl
  · exact forall_uint8 (p := fun b => b.toNat < 128 → ((0 ||| b) &&& 0x7F).toNat = b.toNat ∧ (0 ||| b) &&& 0x80 = 0)
      (by decide +kernel) b
  · exact forall_uint8 (p := fun b => b.toNat < 128 → ((0x80 ||| b) &&& 0x7F).toNat = b.toNat ∧ (0x80 ||| b) &&& 0x80 = 0x80)
      (by decide +kernel) b

theorem opcode_bits (hflag : flag = 0 ∨ flag = 0x80) (op : UInt8) (hop : op.toNat < 16) :
    (flag ||| op) &&& 0x0F = op ∧ (flag ||| op) &&& 0xF0 = flag ∧ (flag ||| op) &&& 0x70 = 0 ∧ (flag ||| op) &&& 0x80 = flag := by
  revert hop
  rcases hflag with rfl | rfl
  · exact forall_uint8 (p := fun op => op.toNat < 16 →
      (0 ||| op) &&& 0x0F = op ∧ (0 ||| op) &&& 0xF0 = 0 ∧ (0 ||| op) &&& 0x70 = 0 ∧ (0 ||| op) &&& 0x80 = 0)
      (by decide +kernel) op
  · exact forall_uint8 (p := fun op => op.toNat < 16 →
      (0x80 ||| op) &&& 0x0F = op ∧ (0x80 ||| op) &&& 0xF0 = 0x80 ∧ (0x80 ||| op) &&& 0x70 = 0 ∧ (0x80 ||| op) &&& 0x80 = 0x80)
      (by decide +kernel) op

/-- A length that fits its form is read back. -/
theorem exists_encode {form : LengthForm} {n : Nat} (h : form.Fits n) (hflag : flag = 0 ∨ flag = 0x80) :
    ∃ second more, form.encode flag n = second :: more ∧ second &&& 0x80 = flag ∧
      ∀ rest, decodeLength (second &&& 0x7F).toNat (more ++ rest) = some (form, n, rest) := by
  have hlong (width : Nat) (rest : Bytes) : ¬ (bigEndian width n ++ rest).length < width := by
    rw [List.length_append, length_bigEndian]
    omega
  cases form with
  | short =>
    have hn : n ≤ 125 := h
    have hbyte : (UInt8.ofNat n).toNat = n := by
      rw [UInt8.toNat_ofNat']
      omega
    obtain ⟨hlow, hbit⟩ := low_bits_flag hflag (.ofNat n) (by omega)
    refine ⟨_, [], rfl, hbit, fun rest => ?_⟩
    rw [hlow, hbyte, decodeLength, if_neg (by omega), if_neg (by omega), List.nil_append]
  | medium =>
    obtain ⟨hlow, hbit⟩ := low_bits_flag hflag 126 (by decide)
    refine ⟨_, bigEndian 2 n, rfl, hbit, fun rest => ?_⟩
    rw [hlow, decodeLength, if_pos (show UInt8.toNat 126 = 126 from rfl), if_neg (hlong 2 rest),
      List.take_left' (length_bigEndian 2 n), List.drop_left' (length_bigEndian 2 n), ofBigEndian_bigEndian h]
  | long =>
    obtain ⟨hlow, hbit⟩ := low_bits_flag hflag 127 (by decide)
    refine ⟨_, bigEndian 8 n, rfl, hbit, fun rest => ?_⟩
    rw [hlow, decodeLength, if_neg (by decide), if_pos (show UInt8.toNat 127 = 127 from rfl),
      if_neg (hlong 8 rest), List.take_left' (length_bigEndian 8 n), List.drop_left' (length_bigEndian 8 n), ofBigEndian_bigEndian h]

/-! Frames of a client: final, masked, and with the shortest form of the length. -/

structure ClientFrame where
  opcode : UInt8
  mask : Mask
  payload : Bytes

namespace ClientFrame

def header (frame : ClientFrame) : Bytes :=
  (0x80 ||| frame.opcode) :: (LengthForm.minimal frame.payload.length).encode 0x80 frame.payload.length ++ frame.mask.bytes

def encode (frame : ClientFrame) : Bytes := frame.header ++ applyMask frame.mask frame.payload

structure Valid (frame : ClientFrame) : Prop where
  opcode : frame.opcode.toNat < 16
  length : frame.payload.length < 2 ^ 64

/-- The first frame of a text and what is behind it, as a server reads it. -/
def decode : Bytes → Option (ClientFrame × Bytes)
  | first :: second :: rest =>
    if first &&& 0xF0 ≠ 0x80 ∨ second &&& 0x80 = 0 then none
    else
      match decodeLength (second &&& 0x7F).toNat rest with
      | some (form, n, a :: b :: c :: d :: body) =>
        if form ≠ .minimal n ∨ body.length < n then none
        else some (⟨first &&& 0x0F, ⟨a, b, c, d⟩, applyMask ⟨a, b, c, d⟩ (body.take n)⟩, body.drop n)
      | _ => none
  | _ => none

/-- What a client writes is a whole frame that a server reads back. -/
theorem decode_encode {frame : ClientFrame} (h : frame.Valid) (rest : Bytes) :
    decode (frame.encode ++ rest) = some (frame, rest) := by
  obtain ⟨opcode, mask, payload⟩ := frame
  obtain ⟨second, more, hencode, hbit, hread⟩ := exists_encode (LengthForm.fits_minimal h.length) (.inr rfl)
  obtain ⟨hop, hhigh, -, -⟩ := opcode_bits (.inr rfl) opcode h.opcode
  have htext : (⟨opcode, mask, payload⟩ : ClientFrame).encode ++ rest =
      (0x80 ||| opcode) :: second :: (more ++ (mask.a :: mask.b :: mask.c :: mask.d :: (applyMask mask payload ++ rest))) := by
    rw [encode, header, hencode]
    simp [Mask.bytes]
  rw [htext, decode, if_neg (by rw [hhigh, hbit]; decide), hread]
  dsimp only
  rw [if_neg (by simp), hop, List.take_left' (by simp), List.drop_left' (by simp), applyMask_applyMask]

theorem six_le_length_encode (frame : ClientFrame) : 6 ≤ frame.encode.length := by
  have hlen : 1 ≤ ((LengthForm.minimal frame.payload.length).encode 0x80 frame.payload.length).length := by
    cases LengthForm.minimal frame.payload.length <;> simp [LengthForm.encode]
  simp only [encode, header, Mask.bytes, List.length_append, List.length_cons, List.length_nil]
  omega

theorem encode_ne_nil (frame : ClientFrame) : frame.encode ≠ [] := List.cons_ne_nil _ _

end ClientFrame

/-! Frames as they may come from the other side, in order or not. -/

/-- `first` has the final bit, the reserved bits and the opcode. -/
structure WireFrame where
  first : UInt8
  mask : Option Mask
  form : LengthForm
  payload : Bytes

namespace WireFrame

def fin (frame : WireFrame) : Bool := decide (frame.first &&& 0x80 ≠ 0)
def opcode (frame : WireFrame) : UInt8 := frame.first &&& 0x0F

/-- Opcodes from 8 on are those of control frames. -/
def isControl (frame : WireFrame) : Prop := frame.opcode &&& 8 ≠ 0

instance (frame : WireFrame) : Decidable frame.isControl := inferInstanceAs (Decidable (_ ≠ _))

def header (frame : WireFrame) : Bytes :=
  frame.first :: frame.form.encode (if frame.mask.isSome then 0x80 else 0) frame.payload.length ++
    (frame.mask.map Mask.bytes).getD []

def encode (frame : WireFrame) : Bytes := frame.header ++ frame.payload

end WireFrame

end Beetle.Lib.Ws
