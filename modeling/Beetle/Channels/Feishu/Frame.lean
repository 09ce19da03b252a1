import Beetle.Error
import Beetle.Lib.Text
import Beetle.Lib.Varint

/-! The frames of the Feishu WebSocket: a small part of protobuf, read and written by hand. -/
namespace Beetle.Channels.Feishu
open Beetle.Lib

def stage : String := "feishu_ws_frame_decode"

/-- How a reader stops early: with an error of the source, at an index out of bounds, or when the fuel of
the model is used up. The last two are what has to be ruled out. -/
inductive Fault where
  | error (e : Error)
  | panic
  | outOfFuel

abbrev I32 := { n : Int // -2 ^ 31 ≤ n ∧ n < 2 ^ 31 }

structure Header where
  key : List Char
  value : List Char

structure Frame where
  seqId : UInt64
  logId : UInt64
  service : I32
  method : I32
  headers : List Header
  payloadEncoding : List Char
  payloadType : List Char
  payload : Bytes
  logIdNew : List Char

def Header.default : Header := ⟨[], []⟩

theorem zero_fits : -2 ^ 31 ≤ (0 : Int) ∧ (0 : Int) < 2 ^ 31 := by decide

def Frame.default : Frame := ⟨0, 0, ⟨0, zero_fits⟩, ⟨0, zero_fits⟩, [], [], [], [], []⟩

/-! Writing. -/

def encodeKey (field wireType : Nat) : Bytes := encodeVarint (field * 8 + wireType)

def encodeVarintField (field value : Nat) : Bytes := encodeKey field 0 ++ encodeVarint value

def encodeLenDelimitedBytes (field : Nat) (value : Bytes) : Bytes :=
  encodeKey field 2 ++ (encodeVarint value.length ++ value)

/-- A field that is left out when it is empty. -/
def encodeNonempty (field : Nat) (value : Bytes) : Bytes :=
  if value = [] then [] else encodeLenDelimitedBytes field value

def Header.encode (header : Header) : Bytes :=
  encodeLenDelimitedBytes 1 (utf8 header.key) ++ encodeLenDelimitedBytes 2 (utf8 header.value)

def Frame.encodeToVec (frame : Frame) : Bytes :=
  encodeVarintField 1 frame.seqId.toNat ++ encodeVarintField 2 frame.logId.toNat ++
  encodeVarintField 3 (max frame.service.val 0).toNat ++ encodeVarintField 4 (max frame.method.val 0).toNat ++
  frame.headers.flatMap (fun header => encodeLenDelimitedBytes 5 header.encode) ++
  encodeNonempty 6 (utf8 frame.payloadEncoding) ++ encodeNonempty 7 (utf8 frame.payloadType) ++
  encodeNonempty 8 frame.payload ++ encodeNonempty 9 (utf8 frame.logIdNew)

/-! Reading, at a position of the input. `usize` has `width` bits. -/

section
variable (width : Nat) (input : Bytes)

def asUsize (n : Nat) : Nat := n % 2 ^ width

def saturatingAdd (a b : Nat) : Nat := min (a + b) (2 ^ width - 1)

/-- `&input[pos..end]` -/
def slice (pos end_ : Nat) : Except Fault Bytes :=
  if pos ≤ end_ ∧ end_ ≤ input.length then .ok ((input.drop pos).take (end_ - pos)) else .error .panic

/-- The bytes of a varint from the one that goes to `shift` on. -/
def decodeVarintFrom : Nat → Nat → Nat → Nat → Except Fault (Nat × Nat)
  | 0, _, _, _ => .error .outOfFuel
  | fuel + 1, shift, value, pos =>
    match input[pos]? with
    | none => .error (.error (.config "unexpected EOF while decoding protobuf varint" stage))
    | some byte =>
      if byte.toNat < 128 then .ok (addBits value shift byte, pos + 1)
      else if 64 ≤ shift + 7 then .error (.error (.config "protobuf varint is too long" stage))
      else decodeVarintFrom fuel (shift + 7) (addBits value shift byte) (pos + 1)

def decodeVarint (pos : Nat) : Except Fault (Nat × Nat) := decodeVarintFrom input 10 0 0 pos

def decodeVarintField (wireType pos : Nat) : Except Fault (Nat × Nat) :=
  if wireType ≠ 0 then
    .error (.error (.config ("expected varint wire type, got " ++ toString wireType) stage))
  else decodeVarint input pos

def decodeI32Field (wireType pos : Nat) : Except Fault (I32 × Nat) :=
  match decodeVarintField input wireType pos with
  | .error fault => .error fault
  | .ok (value, pos) =>
    if h : value < 2 ^ 31 then .ok (⟨value, by omega, by omega⟩, pos)
    else .error (.error (.config ("int32 field out of range: " ++ toString value) stage))

def advance (len pos : Nat) : Except Fault Nat :=
  let next := saturatingAdd width pos len
  if input.length < next then .error (.error (.config "protobuf field exceeds frame length" stage)) else .ok next

def skipField (wireType pos : Nat) : Except Fault Nat :=
  match wireType with
  | 0 => (decodeVarint input pos).map Prod.snd
  | 1 => advance width input 8 pos
  | 2 =>
    match decodeVarint input pos with
    | .error fault => .error fault
    | .ok (len, pos) => advance width input (asUsize width len) pos
  | 5 => advance width input 4 pos
  | _ => .error (.error (.config ("unsupported wire type: " ++ toString wireType) stage))

@[grind =] def decodeLengthDelimitedBytes (wireType pos : Nat) : Except Fault (Bytes × Nat) :=
  if wireType ≠ 2 then
    .error (.error (.config ("expected len-delimited wire type, got " ++ toString wireType) stage))
  else
    match decodeVarint input pos with
    | .error fault => .error fault
    | .ok (len, pos) =>
      let end_ := saturatingAdd width pos (asUsize width len)
      if input.length < end_ then .error (.error (.config "protobuf field exceeds frame length" stage))
      else (slice input pos end_).map fun bytes => (bytes, end_)

def decodeLengthDelimited (wireType pos : Nat) : Except Fault (List Char × Nat) :=
  match decodeLengthDelimitedBytes width input wireType pos with
  | .error fault => .error fault
  | .ok (raw, pos) =>
    match fromUtf8 raw with
    | some text => .ok (text, pos)
    | none => .error (.error (.other none stage))

/-- The loop over the fields, each of which is given its number, its wire type and the position of its value. -/
def decodeFields {α : Type} (field : α → Nat → Nat → Nat → Except Fault (α × Nat)) : Nat → Nat → α → Except Fault α
  | 0, _, _ => .error .outOfFuel
  | fuel + 1, pos, message =>
    if pos < input.length then
      match decodeVarint input pos with
      | .error fault => .error fault
      | .ok (key, pos) =>
        match field message (key / 8 % 2 ^ 32) (key % 8) pos with
        | .error fault => .error fault
        | .ok (message, pos) => decodeFields field fuel pos message
    else .ok message

@[grind =] def Header.decodeField (header : Header) (field wireType pos : Nat) : Except Fault (Header × Nat) :=
  match field with
  | 1 => (decodeLengthDelimited width input wireType pos).map fun (key, pos) => ({ header with key := key }, pos)
  | 2 => (decodeLengthDelimited width input wireType pos).map fun (value, pos) => ({ header with value := value }, pos)
  | _ => (skipField width input wireType pos).map fun pos => (header, pos)

def Header.decode : Except Fault Header :=
  decodeFields input (Header.decodeField width input) (input.length + 1) 0 .default

@[grind =] def Frame.decodeField (frame : Frame) (field wireType pos : Nat) : Except Fault (Frame × Nat) :=
  match field with
  | 1 => (decodeVarintField input wireType pos).map fun (n, pos) => ({ frame with seqId := .ofNat n }, pos)
  | 2 => (decodeVarintField input wireType pos).map fun (n, pos) => ({ frame with logId := .ofNat n }, pos)
  | 3 => (decodeI32Field input wireType pos).map fun (n, pos) => ({ frame with service := n }, pos)
  | 4 => (decodeI32Field input wireType pos).map fun (n, pos) => ({ frame with method := n }, pos)
  | 5 =>
    match decodeLengthDelimitedBytes width input wireType pos with
    | .error fault => .error fault
    | .ok (nested, pos) =>
      (Header.decode width nested).map fun header => ({ frame with headers := frame.headers ++ [header] }, pos)
  | 6 => (decodeLengthDelimited width input wireType pos).map fun (text, pos) => ({ frame with payloadEncoding := text }, pos)
  | 7 => (decodeLengthDelimited width input wireType pos).map fun (text, pos) => ({ frame with payloadType := text }, pos)
  | 8 => (decodeLengthDelimitedBytes width input wireType pos).map fun (bytes, pos) => ({ frame with payload := bytes }, pos)
  | 9 => (decodeLengthDelimited width input wireType pos).map fun (text, pos) => ({ frame with logIdNew := text }, pos)
  | _ => (skipField width input wireType pos).map fun pos => (frame, pos)

def Frame.decode : Except Fault Frame :=
  decodeFields input (Frame.decodeField width input) (input.length + 1) 0 .default

end

end Beetle.Channels.Feishu
