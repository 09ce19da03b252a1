import Beetle.Error
import Beetle.Lib.Bytes

/-! Byte buffers that move to external memory when they grow large. -/
namespace Beetle.Platform
open Beetle.Lib

/-- A vector of bytes, in external memory if there was room for it when it was made. There it cannot grow. -/
structure PsramVec where
  bytes : Bytes
  capacity : Nat
  spiram : Bool
  fits : spiram = true → bytes.length ≤ capacity

inductive ByteBuffer where
  | heap (bytes : Bytes) (capacity : Nat)
  | externalPreferred (vec : PsramVec)

/-- `alloc` says whether external memory has room for so many bytes. -/
def PsramVec.withMaxCapacity (alloc : Nat → Bool) (maxCapacity : Nat) : PsramVec :=
  ⟨[], maxCapacity, alloc maxCapacity, fun _ => Nat.zero_le _⟩

/-- The capacity of a heap vector after it has grown. -/
def vecCapacity (capacity needed : Nat) : Nat := if needed ≤ capacity then capacity else max (2 * capacity) needed

/-- `write_all`: in external memory `write` takes what there is room for, and nothing more of the rest. -/
def PsramVec.writeAll (vec : PsramVec) (buf : Bytes) : Except IoError PsramVec :=
  if h : vec.spiram = true → vec.bytes.length + buf.length ≤ vec.capacity then
    .ok ⟨vec.bytes ++ buf,
      if vec.spiram then vec.capacity else vecCapacity vec.capacity (vec.bytes.length + buf.length), vec.spiram,
      fun hspiram => by rw [if_pos hspiram, List.length_append]; exact h hspiram⟩
  else .error ⟨.other, none⟩

namespace ByteBuffer

def externalPreferredThreshold : Nat := 8 * 1024

def withCapacity (alloc : Nat → Bool) (capacity : Nat) : ByteBuffer :=
  if externalPreferredThreshold ≤ capacity then .externalPreferred (.withMaxCapacity alloc capacity) else .heap [] capacity

def bytes : ByteBuffer → Bytes
  | .heap bytes _ => bytes
  | .externalPreferred vec => vec.bytes

def grownCapacity (current needed : Nat) : Nat := max (max current externalPreferredThreshold * 2) needed

def ensureCapacityFor (alloc : Nat → Bool) (buffer : ByteBuffer) (additional : Nat) : Except IoError ByteBuffer :=
  if additional = 0 then .ok buffer
  else
    let needed := buffer.bytes.length + additional
    match buffer with
    | .heap bytes capacity =>
      if externalPreferredThreshold ≤ needed then
        ((PsramVec.withMaxCapacity alloc (grownCapacity capacity needed)).writeAll bytes).map .externalPreferred
      else .ok (.heap bytes capacity)
    | .externalPreferred vec =>
      if vec.capacity < needed then
        ((PsramVec.withMaxCapacity alloc (grownCapacity vec.capacity needed)).writeAll vec.bytes).map .externalPreferred
      else .ok (.externalPreferred vec)

def writeAll (alloc : Nat → Bool) (buffer : ByteBuffer) (buf : Bytes) : Except IoError ByteBuffer :=
  match buffer.ensureCapacityFor alloc buf.length with
  | .error e => .error e
  | .ok (.heap bytes capacity) => .ok (.heap (bytes ++ buf) (vecCapacity capacity (bytes.length + buf.length)))
  | .ok (.externalPreferred vec) => (vec.writeAll buf).map .externalPreferred

variable (alloc : Nat → Bool)

@[simp] theorem bytes_withCapacity (capacity : Nat) : (withCapacity alloc capacity).bytes = [] := by
  unfold withCapacity
  split
  · rfl
  · rfl

theorem writeAll_of_room {vec : PsramVec} {buf : Bytes} (h : vec.spiram = true → vec.bytes.length + buf.length ≤ vec.capacity) :
    ∃ vec', vec.writeAll buf = .ok vec' ∧ vec'.bytes = vec.bytes ++ buf ∧
      (vec.spiram = true → vec'.capacity = vec.capacity) ∧ vec'.spiram = vec.spiram := by
  unfold PsramVec.writeAll
  rw [dif_pos h]
  exact ⟨_, rfl, rfl, fun hspiram => if_pos hspiram, rfl⟩

/-- What a buffer has room for after `ensure_capacity_for`. -/
def HasRoom : ByteBuffer → Nat → Prop
  | .heap _ _, _ => True
  | .externalPreferred vec, additional => vec.spiram = true → vec.bytes.length + additional ≤ vec.capacity

theorem le_grownCapacity (current needed : Nat) : needed ≤ grownCapacity current needed := Nat.le_max_right _ _

theorem ensureCapacityFor_ok (buffer : ByteBuffer) (additional : Nat) :
    ∃ buffer', buffer.ensureCapacityFor alloc additional = .ok buffer' ∧ buffer'.bytes = buffer.bytes ∧
      buffer'.HasRoom additional := by
  unfold ensureCapacityFor
  by_cases hnone : additional = 0
  · rw [if_pos hnone]
    refine ⟨buffer, rfl, rfl, ?_⟩
    cases buffer with
    | heap bytes capacity => trivial
    | externalPreferred vec =>
      intro hspiram
      have hfits := vec.fits hspiram
      omega
  rw [if_neg hnone]
  have hmoved (bytes : Bytes) (current : Nat) : ∃ vec : PsramVec,
      (PsramVec.withMaxCapacity alloc (grownCapacity current (bytes.length + additional))).writeAll bytes = .ok vec ∧
        vec.bytes = bytes ∧ (ByteBuffer.externalPreferred vec).HasRoom additional := by
    have hle := le_grownCapacity current (bytes.length + additional)
    obtain ⟨vec, hvec, hbytes, hcapacity, hspiram⟩ := @writeAll_of_room
      (PsramVec.withMaxCapacity alloc (grownCapacity current (bytes.length + additional))) bytes fun _ => by
        simp only [PsramVec.withMaxCapacity, List.length_nil]
        omega
    refine ⟨vec, hvec, hbytes, fun hin => ?_⟩
    rw [hcapacity (hspiram ▸ hin), hbytes]
    simpa [PsramVec.withMaxCapacity] using hle
  cases buffer with
  | heap bytes capacity =>
    dsimp only
    by_cases hlarge : externalPreferredThreshold ≤ (ByteBuffer.heap bytes capacity).bytes.length + additional
    · rw [if_pos hlarge]
      obtain ⟨vec, hvec, hbytes, hroom⟩ := hmoved bytes capacity
      exact ⟨.externalPreferred vec, congrArg (Except.map ByteBuffer.externalPreferred) hvec, hbytes, hroom⟩
    · rw [if_neg hlarge]
      exact ⟨_, rfl, rfl, trivial⟩
  | externalPreferred vec =>
    dsimp only
    by_cases hlarge : vec.capacity < (ByteBuffer.externalPreferred vec).bytes.length + additional
    · rw [if_pos hlarge]
      obtain ⟨vec', hvec, hbytes, hroom⟩ := hmoved vec.bytes vec.capacity
      exact ⟨.externalPreferred vec', congrArg (Except.map ByteBuffer.externalPreferred) hvec, hbytes, hroom⟩
    · rw [if_neg hlarge]
      exact ⟨_, rfl, rfl, fun _ => Nat.not_lt.mp hlarge⟩

/-- Wherever the bytes are kept, what is written comes after them. -/
theorem writeAll_ok (buffer : ByteBuffer) (buf : Bytes) :
    ∃ buffer', buffer.writeAll alloc buf = .ok buffer' ∧ buffer'.bytes = buffer.bytes ++ buf := by
  obtain ⟨buffer', hensured, hbytes, hroom⟩ := ensureCapacityFor_ok alloc buffer buf.length
  unfold writeAll
  rw [hensured]
  cases buffer' with
  | heap bytes capacity => exact ⟨_, rfl, congrArg (· ++ buf) hbytes⟩
  | externalPreferred vec =>
    obtain ⟨vec', hvec, hbytes', -⟩ := writeAll_of_room hroom
    exact ⟨.externalPreferred vec', congrArg (Except.map ByteBuffer.externalPreferred) hvec,
      hbytes'.trans (congrArg (· ++ buf) hbytes)⟩

end ByteBuffer

end Beetle.Platform
