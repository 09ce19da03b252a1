import Beetle.Lib.Answers
import Beetle.Platform.ByteBuffer
import Mathlib.Data.Vector.Basic

/-! The byte buffer with the memory that it lies in, which may be a block that cannot grow. -/
namespace Beetle.Platform
open Beetle.Lib

/-- What an operation gets from outside: a block of external memory, with whatever it holds, or none; and the
capacity of a heap vector that has grown from the one capacity to hold the other. -/
structure Allocator where
  allocSpiramBuffer : (byteSize : Nat) → Option (List.Vector UInt8 byteSize)
  vecCapacity : Nat → Nat → Nat

/-- What a `PsramVec` of bytes has behind it. -/
inductive Backing where
  | spiram (block : Bytes) (capacity len : Nat)
  | heap (bytes : Bytes) (capacity : Nat)

/-- `copy_nonoverlapping` into a block, which has to have room for all the bytes. -/
def copyNonoverlapping (data block : Bytes) (place : Nat) : Option Bytes :=
  if place + data.length ≤ block.length then
    some (block.take place ++ data ++ block.drop (place + data.length))
  else none

/-- `extend_from_slice` of a heap vector. -/
def Allocator.extendVec (a : Allocator) (bytes : Bytes) (capacity : Nat) (buf : Bytes) : Bytes × Nat :=
  let needed := bytes.length + buf.length
  (bytes ++ buf, if needed ≤ capacity then capacity else a.vecCapacity capacity needed)

namespace Backing

def new (a : Allocator) (capacity : Nat) : Backing :=
  match a.allocSpiramBuffer capacity with
  | some _ => .spiram (List.replicate capacity 0) capacity capacity
  | none => .heap (List.replicate capacity 0) capacity

def withMaxCapacity (a : Allocator) (maxCapacity : Nat) : Backing :=
  match a.allocSpiramBuffer maxCapacity with
  | some block => .spiram block.toList maxCapacity 0
  | none => .heap [] maxCapacity

/-- The first `len` bytes of the block, which has to have so many. -/
def asSlice : Backing → Option Bytes
  | .spiram block _ len => if len ≤ block.length then some (block.take len) else none
  | .heap bytes _ => some bytes

def capacity : Backing → Nat
  | .spiram _ capacity _ => capacity
  | .heap _ capacity => capacity

def intoVec : Backing → Option Bytes
  | .spiram block capacity len => if len > 0 then (spiram block capacity len).asSlice else some []
  | .heap bytes _ => some bytes

/-- `write`: a block takes what it has room for. -/
def write (a : Allocator) (buf : Bytes) : Backing → Option (Nat × Backing)
  | .spiram block capacity len =>
    let take := min buf.length (capacity - len)
    if take > 0 then
      (copyNonoverlapping (buf.take take) block len).map fun block => (take, .spiram block capacity (len + take))
    else some (take, .spiram block capacity len)
  | .heap bytes capacity =>
    let (bytes, capacity) := a.extendVec bytes capacity buf
    some (buf.length, .heap bytes capacity)

/-- `write_all` of the standard library: a write that takes nothing is an error. -/
def writeAll (a : Allocator) (backing : Backing) (buf : Bytes) : Option (Except IoError Unit × Backing) :=
  if buf.isEmpty then some (.ok (), backing)
  else
    match backing.write a buf with
    | none => none
    | some (n, written) => if n = 0 then some (.error ⟨.other, none⟩, written) else writeAll a written (buf.drop n)
termination_by buf.length
decreasing_by
  have hne : buf ≠ [] := by simpa using ‹¬ buf.isEmpty = true›
  have := List.length_pos_of_ne_nil hne
  rw [List.length_drop]
  omega

end Backing

inductive ByteBufferInner where
  | heap (bytes : Bytes) (capacity : Nat)
  | externalPreferred (backing : Backing)

namespace ByteBufferInner

def fromVec (bytes : Bytes) (capacity : Nat) : ByteBufferInner := .heap bytes capacity

def empty : ByteBufferInner := fromVec [] 0

def withCapacity (a : Allocator) (capacity : Nat) : ByteBufferInner :=
  if capacity ≥ ByteBuffer.externalPreferredThreshold then .externalPreferred (.withMaxCapacity a capacity)
  else .heap [] capacity

def zeroed (a : Allocator) (len : Nat) : ByteBufferInner :=
  if len ≥ ByteBuffer.externalPreferredThreshold then .externalPreferred (.new a len)
  else .heap (List.replicate len 0) len

def fromPsramVec (backing : Backing) : ByteBufferInner := .externalPreferred backing

def asSlice : ByteBufferInner → Option Bytes
  | .heap bytes _ => some bytes
  | .externalPreferred backing => backing.asSlice

def intoVec : ByteBufferInner → Option Bytes
  | .heap bytes _ => some bytes
  | .externalPreferred backing => backing.intoVec

variable (usizeMax : Nat)

/-- The product does not go over `usize::MAX`. -/
def grownCapacity (current needed : Nat) : Nat :=
  max (min (max current ByteBuffer.externalPreferredThreshold * 2) usizeMax) needed

/-- What moves the bytes to a new block, or to the heap if there is none. -/
def moveTo (a : Allocator) (inner : ByteBufferInner) (bytes : Bytes) (capacity : Nat) :
    Option (Except IoError Unit × ByteBufferInner) :=
  ((Backing.withMaxCapacity a capacity).writeAll a bytes).map fun
    | (.ok (), external) => (.ok (), .externalPreferred external)
    | (.error e, _) => (.error e, inner)

def ensureCapacityFor (a : Allocator) (inner : ByteBufferInner) (additional : Nat) :
    Option (Except IoError Unit × ByteBufferInner) :=
  if additional = 0 then some (.ok (), inner)
  else
    inner.asSlice.bind fun bytes =>
      let needed := bytes.length + additional
      -- `checked_add`
      if usizeMax < needed then some (.error ⟨.other, none⟩, inner)
      else
        match inner with
        | .heap _ capacity =>
          if needed ≥ ByteBuffer.externalPreferredThreshold then
            moveTo a inner bytes (grownCapacity usizeMax capacity needed)
          else some (.ok (), inner)
        | .externalPreferred backing =>
          if needed > backing.capacity then
            moveTo a inner bytes (grownCapacity usizeMax backing.capacity needed)
          else some (.ok (), inner)

def write (inner : ByteBufferInner) (call : Allocator × Bytes) : Option (Except IoError Nat × ByteBufferInner) :=
  let (a, buf) := call
  (inner.ensureCapacityFor usizeMax a buf.length).bind fun
    | (.error e, ensured) => some (.error e, ensured)
    | (.ok (), .heap bytes capacity) =>
      let (bytes, capacity) := a.extendVec bytes capacity buf
      some (.ok buf.length, .heap bytes capacity)
    | (.ok (), .externalPreferred backing) =>
      (backing.writeAll a buf).map fun
        | (.ok (), written) => (.ok buf.length, .externalPreferred written)
        | (.error e, written) => (.error e, .externalPreferred written)

end ByteBufferInner

/-! What a buffer holds. -/

namespace Backing

/-- The block is the allocated one, and its first bytes are the bytes. -/
def Holds : Backing → Bytes → Prop
  | .spiram block capacity len, bytes => block.length = capacity ∧ len ≤ capacity ∧ block.take len = bytes
  | .heap stored _, bytes => stored = bytes

def HasRoom : Backing → Nat → Prop
  | .spiram _ capacity len, n => len + n ≤ capacity
  | .heap _ _, _ => True

theorem holds_new (a : Allocator) (capacity : Nat) : (new a capacity).Holds (List.replicate capacity 0) := by
  unfold new
  cases a.allocSpiramBuffer capacity with
  | none => rfl
  | some block =>
    refine ⟨List.length_replicate, Nat.le_refl _, ?_⟩
    rw [List.take_replicate, Nat.min_self]

theorem holds_withMaxCapacity (a : Allocator) (capacity : Nat) : (withMaxCapacity a capacity).Holds [] := by
  unfold withMaxCapacity
  cases a.allocSpiramBuffer capacity with
  | none => rfl
  | some block => exact ⟨block.toList_length, Nat.zero_le _, rfl⟩

theorem hasRoom_withMaxCapacity (a : Allocator) {capacity n : Nat} (h : n ≤ capacity) :
    (withMaxCapacity a capacity).HasRoom n := by
  unfold withMaxCapacity
  cases a.allocSpiramBuffer capacity with
  | none => trivial
  | some block =>
    change 0 + n ≤ capacity
    rwa [Nat.zero_add]

variable {backing : Backing} {bytes : Bytes}

section
variable (h : backing.Holds bytes)
include h

theorem Holds.asSlice : backing.asSlice = some bytes := by
  cases backing with
  | spiram block capacity len =>
    obtain ⟨hblock, hlen, rfl⟩ := h
    exact if_pos (hblock ▸ hlen)
  | heap stored capacity => exact congrArg some h

theorem Holds.intoVec : backing.intoVec = some bytes := by
  cases backing with
  | spiram block capacity len =>
    rw [Backing.intoVec]
    by_cases hlen : len > 0
    · rw [if_pos hlen, h.asSlice]
    · obtain rfl : len = 0 := Nat.eq_zero_of_not_pos hlen
      rw [if_neg hlen, ← h.2.2, List.take_zero]
  | heap stored capacity => exact congrArg some h

/-- Where the vector says that its capacity is enough there is room. -/
theorem Holds.hasRoom {n : Nat} (hcapacity : bytes.length + n ≤ backing.capacity) : backing.HasRoom n := by
  cases backing with
  | spiram block capacity len =>
    obtain ⟨hblock, hlen, rfl⟩ := h
    rw [List.length_take, hblock, Nat.min_eq_left hlen] at hcapacity
    exact hcapacity
  | heap stored capacity => trivial

end

/-- A write that there is room for takes everything, and leaves the rest of the room. -/
theorem write_of_room (a : Allocator) {bytes buf : Bytes} (h : backing.Holds bytes) {rest : Nat}
    (hroom : backing.HasRoom (buf.length + rest)) :
    ∃ written, backing.write a buf = some (buf.length, written) ∧ written.Holds (bytes ++ buf) ∧
      written.HasRoom rest := by
  cases backing with
  | spiram block capacity len =>
    obtain ⟨hblock, hlen, rfl⟩ := h
    have hroom : len + (buf.length + rest) ≤ capacity := hroom
    have hspace : len + buf.length ≤ capacity := by omega
    have hrest : len + buf.length + rest ≤ capacity := by omega
    have htake : min buf.length (capacity - len) = buf.length := Nat.min_eq_left (by omega)
    rw [write]
    simp only [htake, List.take_length]
    by_cases hsome : buf.length > 0
    · rw [if_pos hsome, copyNonoverlapping, if_pos (hblock ▸ hspace)]
      refine ⟨_, rfl, ⟨?_, hspace, ?_⟩, hrest⟩
      · simp only [List.length_append, List.length_take, List.length_drop, hblock]
        omega
      · have hplace : (block.take len).length = len := by rw [List.length_take, hblock, Nat.min_eq_left hlen]
        exact List.take_left' (by rw [List.length_append, hplace])
    · have hnone : buf = [] := List.eq_nil_of_length_eq_zero (Nat.eq_zero_of_not_pos hsome)
      rw [if_neg hsome]
      refine ⟨_, rfl, ⟨hblock, hlen, ?_⟩, ?_⟩
      · rw [hnone, List.append_nil]
      · simpa [hnone, HasRoom] using hroom
  | heap stored capacity => exact ⟨_, rfl, congrArg (· ++ buf) h, trivial⟩

theorem writeAll_of_room (a : Allocator) {bytes buf : Bytes} (h : backing.Holds bytes) {rest : Nat}
    (hroom : backing.HasRoom (buf.length + rest)) :
    ∃ written, backing.writeAll a buf = some (.ok (), written) ∧ written.Holds (bytes ++ buf) ∧
      written.HasRoom rest := by
  rw [writeAll]
  by_cases hnone : buf = []
  · subst hnone
    rw [List.length_nil, Nat.zero_add] at hroom
    exact ⟨backing, rfl, by rwa [List.append_nil], hroom⟩
  · obtain ⟨written, hwrite, hwritten⟩ := write_of_room a h hroom
    have hlength : buf.length ≠ 0 := fun hzero => hnone (List.eq_nil_of_length_eq_zero hzero)
    refine ⟨written, ?_, hwritten⟩
    rw [if_neg (by rwa [List.isEmpty_iff]), hwrite]
    dsimp only
    -- The one write takes everything.
    rw [if_neg hlength, List.drop_length, writeAll]
    rfl

end Backing

namespace ByteBufferInner

def Holds : ByteBufferInner → Bytes → Prop
  | .heap stored _, bytes => stored = bytes
  | .externalPreferred backing, bytes => backing.Holds bytes

def HasRoom : ByteBufferInner → Nat → Prop
  | .heap _ _, _ => True
  | .externalPreferred backing, n => backing.HasRoom n

variable {bytes : Bytes} {inner : ByteBufferInner}

theorem Holds.asSlice (h : inner.Holds bytes) : inner.asSlice = some bytes := by
  cases inner with
  | heap stored capacity => exact congrArg some h
  | externalPreferred backing => exact Backing.Holds.asSlice h

theorem Holds.intoVec (h : inner.Holds bytes) : inner.intoVec = some bytes := by
  cases inner with
  | heap stored capacity => exact congrArg some h
  | externalPreferred backing => exact Backing.Holds.intoVec h

theorem le_grownCapacity (usizeMax current needed : Nat) : needed ≤ grownCapacity usizeMax current needed :=
  Nat.le_max_right _ _

theorem moveTo_ok (a : Allocator) (inner : ByteBufferInner) {additional capacity : Nat}
    (h : bytes.length + additional ≤ capacity) :
    ∃ moved, moveTo a inner bytes capacity = some (.ok (), moved) ∧ moved.Holds bytes ∧ moved.HasRoom additional := by
  obtain ⟨written, hwrite, hholds, hroom⟩ := Backing.writeAll_of_room a (Backing.holds_withMaxCapacity a capacity)
    (Backing.hasRoom_withMaxCapacity a h)
  refine ⟨.externalPreferred written, ?_, hholds, hroom⟩
  rw [moveTo, hwrite]
  rfl

variable (usizeMax : Nat) (a : Allocator) {inner : ByteBufferInner} {bytes : Bytes}

section
variable (h : inner.Holds bytes)
include h

theorem ensureCapacityFor_ok {additional : Nat} (hfits : bytes.length + additional ≤ usizeMax) :
    ∃ ensured, inner.ensureCapacityFor usizeMax a additional = some (.ok (), ensured) ∧ ensured.Holds bytes ∧
      ensured.HasRoom additional := by
  unfold ensureCapacityFor
  by_cases hnone : additional = 0
  · rw [if_pos hnone, hnone]
    refine ⟨inner, rfl, h, ?_⟩
    cases inner with
    | heap stored capacity => trivial
    | externalPreferred backing =>
      cases backing with
      | spiram block capacity len => exact h.2.1
      | heap stored capacity => trivial
  rw [if_neg hnone, h.asSlice, Option.bind_some]
  dsimp only
  rw [if_neg (Nat.not_lt.mpr hfits)]
  cases inner with
  | heap stored capacity =>
    dsimp only
    split
    · exact moveTo_ok a _ (le_grownCapacity usizeMax capacity _)
    · exact ⟨_, rfl, h, trivial⟩
  | externalPreferred backing =>
    dsimp only
    split
    · exact moveTo_ok a _ (le_grownCapacity usizeMax backing.capacity _)
    · rename_i hcapacity
      exact ⟨_, rfl, h, Backing.Holds.hasRoom h (Nat.not_lt.mp hcapacity)⟩

theorem ensureCapacityFor_too_large {additional : Nat} (hsome : additional ≠ 0)
    (hlarge : usizeMax < bytes.length + additional) :
    inner.ensureCapacityFor usizeMax a additional = some (.error ⟨.other, none⟩, inner) := by
  unfold ensureCapacityFor
  rw [if_neg hsome, h.asSlice, Option.bind_some]
  exact if_pos hlarge

theorem write_ok {buf : Bytes} (hfits : bytes.length + buf.length ≤ usizeMax) :
    ∃ written, inner.write usizeMax (a, buf) = some (.ok buf.length, written) ∧ written.Holds (bytes ++ buf) := by
  obtain ⟨ensured, hensured, hholds, hroom⟩ := ensureCapacityFor_ok usizeMax a h hfits
  simp only [write, hensured, Option.bind_some]
  cases ensured with
  | heap stored capacity => exact ⟨_, rfl, congrArg (· ++ buf) hholds⟩
  | externalPreferred backing =>
    have hroom : backing.HasRoom (buf.length + 0) := hroom
    obtain ⟨written, hwrite, hwritten, -⟩ := Backing.writeAll_of_room a hholds hroom
    refine ⟨.externalPreferred written, ?_, hwritten⟩
    simp only [hwrite]
    rfl

end

end ByteBufferInner

/-! The byte string that is meant. -/

/-- The constructors with what they are given, and what a `PsramVec` that is handed over holds. -/
inductive ByteBufferStart (usizeMax : Nat) where
  | empty
  | withCapacity (a : Allocator) (capacity : Nat)
  | zeroed (a : Allocator) (len : Nat) (h : len ≤ usizeMax)
  | fromVec (bytes : Bytes) (capacity : Nat) (h : bytes.length ≤ usizeMax)
  | fromPsramVec (backing : Backing) (bytes : Bytes) (holds : backing.Holds bytes) (h : bytes.length ≤ usizeMax)

namespace ByteBufferStart
variable {usizeMax : Nat}

def buffer : ByteBufferStart usizeMax → ByteBufferInner
  | empty => .empty
  | withCapacity a capacity => .withCapacity a capacity
  | zeroed a len _ => .zeroed a len
  | fromVec bytes capacity _ => .fromVec bytes capacity
  | fromPsramVec backing _ _ _ => .fromPsramVec backing

def bytes : ByteBufferStart usizeMax → Bytes
  | empty => []
  | withCapacity _ _ => []
  | zeroed _ len _ => List.replicate len 0
  | fromVec bytes _ _ => bytes
  | fromPsramVec _ bytes _ _ => bytes

theorem length_bytes_le (start : ByteBufferStart usizeMax) : start.bytes.length ≤ usizeMax := by
  cases start with
  | empty | withCapacity => exact Nat.zero_le _
  | zeroed a len h => exact List.length_replicate.trans_le h
  | fromVec bytes capacity h => exact h
  | fromPsramVec backing bytes holds h => exact h

theorem holds (start : ByteBufferStart usizeMax) : start.buffer.Holds start.bytes := by
  cases start with
  | empty => rfl
  | withCapacity a capacity =>
    change (ByteBufferInner.withCapacity a capacity).Holds []
    unfold ByteBufferInner.withCapacity
    split
    · exact Backing.holds_withMaxCapacity a capacity
    · rfl
  | zeroed a len h =>
    change (ByteBufferInner.zeroed a len).Holds _
    unfold ByteBufferInner.zeroed
    split
    · exact Backing.holds_new a len
    · rfl
  | fromVec bytes capacity h => rfl
  | fromPsramVec backing bytes holds h => exact holds

end ByteBufferStart

/-- A write appends the slice, or changes nothing where the length would be over `usize::MAX`. -/
def byteString (usizeMax : Nat) (bytes : Bytes) (call : Allocator × Bytes) : Except IoError Nat × Bytes :=
  if bytes.length + call.2.length ≤ usizeMax then (.ok call.2.length, bytes ++ call.2)
  else (.error ⟨.other, none⟩, bytes)

theorem byteBuffer_simulates (usizeMax : Nat) :
    Simulates (fun (inner : ByteBufferInner) bytes => inner.Holds bytes ∧ bytes.length ≤ usizeMax)
      (ByteBufferInner.write usizeMax) (fun bytes call => some (byteString usizeMax bytes call)) := by
  rintro inner bytes ⟨a, buf⟩ answer bytes' ⟨hholds, hlength⟩ hspec
  rw [Option.some.injEq, byteString] at hspec
  dsimp only at hspec
  by_cases hfits : bytes.length + buf.length ≤ usizeMax
  · obtain ⟨written, hwrite, hwritten⟩ := ByteBufferInner.write_ok usizeMax a hholds hfits
    rw [if_pos hfits] at hspec
    cases hspec
    exact ⟨written, hwrite, hwritten, by rwa [List.length_append]⟩
  · have hsome : buf.length ≠ 0 := by omega
    rw [if_neg hfits] at hspec
    cases hspec
    refine ⟨inner, ?_, hholds, hlength⟩
    simp only [ByteBufferInner.write,
      ByteBufferInner.ensureCapacityFor_too_large usizeMax a hholds hsome (Nat.not_le.mp hfits), Option.bind_some]

/-- Writes that fit all together are all taken. -/
theorem callAll_byteString (usizeMax : Nat) (writes : List (Allocator × Bytes)) (bytes : Bytes)
    (h : bytes.length + (writes.flatMap Prod.snd).length ≤ usizeMax) :
    callAll (fun bytes call => some (byteString usizeMax bytes call)) writes bytes =
      some (writes.map fun call => .ok call.2.length, bytes ++ writes.flatMap Prod.snd) := by
  induction writes generalizing bytes with
  | nil => simp [callAll]
  | cons call writes ih =>
    rw [List.flatMap_cons, List.length_append] at h
    have hfirst : byteString usizeMax bytes call = (.ok call.2.length, bytes ++ call.2) := if_pos (by omega)
    have hrest := ih (bytes ++ call.2) (by rw [List.length_append]; omega)
    apply callAll_cons_eq_some.mpr
    refine ⟨_, _, _, congrArg some hfirst, ?_, rfl⟩
    rw [hrest, List.flatMap_cons, List.append_assoc]

/-- Wherever the bytes lie and whatever the allocations give, the buffer is a byte string. -/
theorem byte_buffer_is_byte_string (usizeMax : Nat) (start : ByteBufferStart usizeMax)
    (writes : List (Allocator × Bytes)) :
    ∃ answers bytes buffer,
      callAll (fun bytes call => some (byteString usizeMax bytes call)) writes start.bytes = some (answers, bytes) ∧
      callAll (ByteBufferInner.write usizeMax) writes start.buffer = some (answers, buffer) ∧
      buffer.asSlice = some bytes ∧ buffer.intoVec = some bytes ∧
      (start.bytes.length + (writes.flatMap Prod.snd).length ≤ usizeMax →
        answers = writes.map (fun call => .ok call.2.length) ∧ bytes = start.bytes ++ writes.flatMap Prod.snd) := by
  have htotal (bytes : Bytes) (call : Allocator × Bytes) :
      ∃ answer bytes', some (byteString usizeMax bytes call) = some (answer, bytes') := ⟨_, _, rfl⟩
  obtain ⟨answers, bytes, hspec⟩ := exists_callAll htotal writes start.bytes
  obtain ⟨buffer, hrun, hholds, -⟩ :=
    (byteBuffer_simulates usizeMax).callAll writes ⟨start.holds, start.length_bytes_le⟩ hspec
  refine ⟨answers, bytes, buffer, hspec, hrun, hholds.asSlice, hholds.intoVec, fun hfits => ?_⟩
  rw [callAll_byteString usizeMax writes start.bytes hfits] at hspec
  cases hspec
  exact ⟨rfl, rfl⟩

/-- The buffer that the request bodies are written to holds the same bytes. -/
theorem byteBuffer_writeAll_agrees (usizeMax : Nat) (a : Allocator) (alloc : Nat → Bool) {inner : ByteBufferInner}
    {buffer : ByteBuffer} (h : inner.Holds buffer.bytes) {buf : Bytes}
    (hfits : buffer.bytes.length + buf.length ≤ usizeMax) :
    ∃ written buffer', inner.write usizeMax (a, buf) = some (.ok buf.length, written) ∧
      buffer.writeAll alloc buf = .ok buffer' ∧ written.Holds buffer'.bytes := by
  obtain ⟨written, hwrite, hwritten⟩ := ByteBufferInner.write_ok usizeMax a h hfits
  obtain ⟨buffer', hbuffer, hbytes⟩ := ByteBuffer.writeAll_ok alloc buffer buf
  exact ⟨written, buffer', hwrite, hbuffer, hbytes ▸ hwritten⟩

end Beetle.Platform
