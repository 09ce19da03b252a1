import Beetle.Lib.Answers
import Beetle.Platform.SpeakerPath
import Mathlib.Data.List.DropRight

/-! The circular buffer of audio samples as it lies in memory. -/
namespace Beetle.Platform
open Beetle.Lib

/-- `buf` is the allocated memory; nothing says that the places are inside it. -/
structure RingMemory (α : Type) where
  buf : List α
  cap : Nat
  head : Nat
  len : Nat

namespace RingMemory
variable {α : Type}

/-- The state after `try_with_capacity`, with what the memory holds. -/
def new (cells : List α) : RingMemory α := ⟨cells, cells.length, 0, 0⟩

def available (ring : RingMemory α) : Nat := ring.cap - ring.len

def tail (ring : RingMemory α) : Nat :=
  let t := ring.head + ring.len
  if t ≥ ring.cap then t - ring.cap else t

/-- `*self.buf.add(place) = sample`, which has to be in the memory. -/
def store (ring : RingMemory α) (place : Nat) (sample : α) : Option (RingMemory α) :=
  if place < ring.buf.length then some { ring with buf := ring.buf.set place sample } else none

def load (ring : RingMemory α) (place : Nat) : Option α := ring.buf[place]?

def dropOldestLoop (ring : RingMemory α) : List α → Option (RingMemory α)
  | [] => some ring
  | sample :: input =>
    (ring.store ring.tail sample).bind fun stored =>
      if stored.len = stored.cap then
        -- The sample has replaced the oldest one.
        dropOldestLoop { stored with head := AudioRingBuffer.nextHead stored.cap stored.head } input
      else dropOldestLoop { stored with len := stored.len + 1 } input

def pushSliceDropOldest (ring : RingMemory α) (input : List α) : Option (RingMemory α) :=
  if ring.cap = 0 then some ring else ring.dropOldestLoop input

def blockingLoop (ring : RingMemory α) : List α → Option (RingMemory α)
  | [] => some ring
  | sample :: input =>
    (ring.store ring.tail sample).bind fun stored => blockingLoop { stored with len := stored.len + 1 } input

def pushSliceBlocking (ring : RingMemory α) (input : List α) : Option (Nat × RingMemory α) :=
  let take := min input.length ring.available
  (ring.blockingLoop (input.take take)).map fun pushed => (take, pushed)

/-- The first slots of `out` are overwritten; here is what they get, and where the head is then. -/
def popLoop (ring : RingMemory α) : Nat → Option (List α × RingMemory α)
  | 0 => some ([], ring)
  | n + 1 =>
    (ring.load ring.head).bind fun sample =>
      (popLoop { ring with head := AudioRingBuffer.nextHead ring.cap ring.head } n).map
        fun (samples, popped) => (sample :: samples, popped)

def popInto (ring : RingMemory α) (out : List α) : Option ((Nat × List α) × RingMemory α) :=
  let n := min out.length ring.len
  (ring.popLoop n).map fun (samples, popped) => ((n, samples ++ out.drop n), { popped with len := popped.len - n })

def copyRecentInto (ring : RingMemory α) (out : List α) : Option (Nat × List α) :=
  let n := min out.length ring.len
  if n = 0 then some (0, out)
  else
    let tail := ring.tail
    let start := if tail ≥ n then tail - n else ring.cap + tail - n
    ((List.range n).mapM fun idx => ring.load ((start + idx) % ring.cap)).map fun samples =>
      (n, samples ++ out.drop n)

def clear (ring : RingMemory α) : RingMemory α := { ring with head := 0, len := 0 }

end RingMemory

/-! The calls, and the queue that is meant. -/

inductive RingCall (α : Type) where
  | pushSliceDropOldest (input : List α)
  | pushSliceBlocking (input : List α)
  | popInto (out : List α)
  | copyRecentInto (out : List α)
  | clear

inductive RingAnswer (α : Type) where
  | done
  | taken (n : Nat)
  | filled (n : Nat) (out : List α)
  deriving DecidableEq

variable {α : Type}

def RingMemory.call (ring : RingMemory α) : RingCall α → Option (RingAnswer α × RingMemory α)
  | .pushSliceDropOldest input => (ring.pushSliceDropOldest input).map fun pushed => (.done, pushed)
  | .pushSliceBlocking input => (ring.pushSliceBlocking input).map fun (n, pushed) => (.taken n, pushed)
  | .popInto out => (ring.popInto out).map fun ((n, filled), popped) => (.filled n filled, popped)
  | .copyRecentInto out => (ring.copyRecentInto out).map fun (n, filled) => (.filled n filled, ring)
  | .clear => some (.done, ring.clear)

/-- `out` with its first slots overwritten. -/
def filledWith (samples out : List α) : RingAnswer α := .filled samples.length (samples ++ out.drop samples.length)

/-- A queue of at most `cap` samples. -/
def boundedQueue (cap : Nat) (queue : List α) : RingCall α → RingAnswer α × List α
  | .pushSliceDropOldest input => (.done, (queue ++ input).rtake cap)
  | .pushSliceBlocking input =>
    let fitting := input.take (cap - queue.length)
    (.taken fitting.length, queue ++ fitting)
  | .popInto out => (filledWith (queue.take out.length) out, queue.drop out.length)
  | .copyRecentInto out => (filledWith (queue.rtake out.length) out, queue)
  | .clear => (.done, [])

/-! The steps of the loops on a ring that is in order. -/

namespace AudioRingBuffer
variable (ring : AudioRingBuffer α)

/-- The ring as it lies in memory. -/
def memory : RingMemory α := ⟨ring.buf, ring.capacity, ring.head, ring.len⟩

theorem tail_lt (hpos : 0 < ring.capacity) : ring.tail < ring.buf.length := by
  have hhead := ring.head_lt hpos
  have hlen := ring.len_le
  unfold capacity at hpos
  unfold tail capacity
  dsimp only
  split <;> omega

theorem nextHead_lt {cap head : Nat} (h : head < cap) : nextHead cap head < cap := by
  unfold nextHead
  split <;> omega

theorem store_tail (hpos : 0 < ring.capacity) (sample : α) :
    ring.memory.store ring.memory.tail sample = some { ring.memory with buf := ring.buf.set ring.tail sample } :=
  if_pos (ring.tail_lt hpos)

/-- A turn of the loop of `push_slice_drop_oldest` where the ring is full. -/
def replaceOldest (sample : α) (hpos : 0 < ring.capacity) : AudioRingBuffer α where
  buf := ring.buf.set ring.tail sample
  head := nextHead ring.capacity ring.head
  len := ring.len
  head_lt := by
    rw [List.length_set]
    exact fun _ => nextHead_lt (ring.head_lt hpos)
  len_le := by
    rw [List.length_set]
    exact ring.len_le

@[simp] theorem capacity_replaceOldest (sample : α) (hpos : 0 < ring.capacity) :
    (ring.replaceOldest sample hpos).capacity = ring.capacity := List.length_set

theorem tail_of_full (hpos : 0 < ring.capacity) (hfull : ring.len = ring.capacity) : ring.tail = ring.head := by
  have hhead := ring.head_lt hpos
  unfold tail
  rw [hfull, if_pos (Nat.le_add_left _ _), Nat.add_sub_cancel]

theorem rotate_nextHead (l : List α) {head : Nat} (h : head < l.length) :
    l.rotate (nextHead l.length head) = l.drop (head + 1) ++ l.take (head + 1) := by
  unfold nextHead
  split
  · rename_i hlast
    rw [hlast, List.rotate_zero, List.drop_length, List.take_length, List.nil_append]
  · exact List.rotate_eq_drop_append_take (by omega)

theorem contents_replaceOldest (sample : α) (hpos : 0 < ring.capacity) (hfull : ring.len = ring.capacity) :
    (ring.replaceOldest sample hpos).contents = ring.contents.drop 1 ++ [sample] := by
  have hhead : ring.head < ring.buf.length := ring.head_lt hpos
  have hset : (ring.buf.set ring.head sample).length = ring.buf.length := List.length_set
  have hold : ring.contents = ring.buf.drop ring.head ++ ring.buf.take ring.head := by
    rw [contents, hfull, List.rotate_eq_drop_append_take hhead.le]
    apply List.take_of_length_le
    simp only [List.length_append, List.length_drop, List.length_take, capacity]
    omega
  have hnew : (ring.replaceOldest sample hpos).contents =
      (ring.buf.set ring.head sample).rotate (nextHead (ring.buf.set ring.head sample).length ring.head) := by
    simp only [contents, replaceOldest, ring.tail_of_full hpos hfull]
    rw [List.take_of_length_le (by rw [List.length_rotate, hset, hfull]; exact Nat.le_refl _), hset]
    rfl
  have htaken : (ring.buf.set ring.head sample).take (ring.head + 1) = ring.buf.take ring.head ++ [sample] := by
    rw [List.take_add_one, List.take_set_of_le (Nat.le_refl _), List.getElem?_set_self hhead]
    rfl
  rw [hnew, rotate_nextHead _ (by rw [hset]; exact hhead), htaken, List.drop_set_of_lt (Nat.lt_succ_self _), hold,
    List.drop_append_of_le_length (by rw [List.length_drop]; omega), List.drop_drop, List.append_assoc]

end AudioRingBuffer

/-- What was dropped once is not needed for the newest ones. -/
theorem rtake_append_of_rtake (queue input : List α) (cap : Nat) :
    (queue.rtake cap ++ input).rtake cap = (queue ++ input).rtake cap := by
  simp only [List.rtake_eq_reverse_take_reverse, List.reverse_append, List.reverse_reverse, List.take_append,
    List.take_take, List.length_reverse]
  rw [Nat.min_eq_left (Nat.sub_le _ _)]

theorem rtake_of_length_le {queue : List α} {cap : Nat} (h : queue.length ≤ cap) : queue.rtake cap = queue := by
  rw [List.rtake, Nat.sub_eq_zero_of_le h, List.drop_zero]

/-! The calls on a ring that is in order. -/

namespace AudioRingBuffer

theorem dropOldestLoop_memory (ring : AudioRingBuffer α) (hpos : 0 < ring.capacity) (input : List α) :
    ∃ pushed : AudioRingBuffer α, ring.memory.dropOldestLoop input = some pushed.memory ∧
      pushed.capacity = ring.capacity ∧ pushed.contents = (ring.contents ++ input).rtake ring.capacity := by
  induction input generalizing ring with
  | nil =>
    have hlen : ring.contents.length ≤ ring.capacity := by
      rw [length_contents]
      exact ring.len_le
    exact ⟨ring, rfl, rfl, by rw [List.append_nil, rtake_of_length_le hlen]⟩
  | cons sample input ih =>
    simp only [RingMemory.dropOldestLoop, store_tail ring hpos, Option.bind_some]
    by_cases hfull : ring.len = ring.capacity
    · obtain ⟨pushed, hrun, hcap, hcontents⟩ := ih (ring.replaceOldest sample hpos) (by simpa using hpos)
      have hmemory : ({ ring.memory with
          buf := ring.buf.set ring.tail sample
          head := nextHead ring.capacity ring.head } : RingMemory α) = (ring.replaceOldest sample hpos).memory := by
        simp only [memory, capacity_replaceOldest]
        rfl
      have hone : ring.contents.drop 1 ++ [sample] = (ring.contents ++ [sample]).rtake ring.capacity := by
        have hlen : ring.contents.length = ring.capacity := (length_contents ring).trans hfull
        rw [List.rtake, List.length_append, List.length_singleton, hlen, Nat.add_sub_cancel_left,
          List.drop_append_of_le_length (by omega)]
      refine ⟨pushed, ?_, hcap.trans (capacity_replaceOldest ..), ?_⟩
      · exact (if_pos hfull).trans ((congrArg (fun m => RingMemory.dropOldestLoop m input) hmemory).trans hrun)
      · rw [hcontents, contents_replaceOldest ring sample hpos hfull, capacity_replaceOldest, hone,
          rtake_append_of_rtake, List.append_assoc]
        rfl
    · have hroom : ring.len < ring.capacity := Nat.lt_of_le_of_ne ring.len_le hfull
      obtain ⟨pushed, hrun, hcap, hcontents⟩ := ih (ring.pushOne sample hroom) (by simpa using hpos)
      have hmemory : ({ ring.memory with
          buf := ring.buf.set ring.tail sample
          len := ring.len + 1 } : RingMemory α) = (ring.pushOne sample hroom).memory := by
        simp only [memory, capacity_pushOne]
        rfl
      refine ⟨pushed, ?_, hcap.trans (capacity_pushOne ..), ?_⟩
      · exact (if_neg hfull).trans ((congrArg (fun m => RingMemory.dropOldestLoop m input) hmemory).trans hrun)
      · rw [hcontents, contents_pushOne, capacity_pushOne, List.append_assoc]
        rfl

theorem blockingLoop_memory (ring : AudioRingBuffer α) {input : List α} (h : input.length ≤ ring.available) :
    ring.memory.blockingLoop input = some (ring.pushAll input).memory := by
  induction input generalizing ring with
  | nil => rfl
  | cons sample input ih =>
    rw [List.length_cons, available] at h
    have hroom : ring.len < ring.capacity := by omega
    have hmemory : ({ ring.memory with
        buf := ring.buf.set ring.tail sample
        len := ring.len + 1 } : RingMemory α) = (ring.pushOne sample hroom).memory := by
      simp only [memory, capacity_pushOne]
      rfl
    have hrest : input.length ≤ (ring.pushOne sample hroom).available := by
      rw [available, capacity_pushOne]
      change input.length ≤ ring.capacity - (ring.len + 1)
      omega
    simp only [RingMemory.blockingLoop, store_tail ring (Nat.zero_lt_of_lt hroom), Option.bind_some, pushAll,
      dif_pos hroom]
    exact (congrArg (fun m => RingMemory.blockingLoop m input) hmemory).trans (ih _ hrest)

end AudioRingBuffer

theorem RingMemory.popLoop_eq (n : Nat) (ring : RingMemory α) (hcap : ring.cap = ring.buf.length)
    (hhead : n ≠ 0 → ring.head < ring.buf.length) :
    ring.popLoop n = some ((AudioRingBuffer.popLoop ring.buf n ring.head).1,
      { ring with head := (AudioRingBuffer.popLoop ring.buf n ring.head).2 }) := by
  induction n generalizing ring with
  | zero => rfl
  | succ n ih =>
    have hplace := hhead (Nat.succ_ne_zero n)
    have hload : ring.load ring.head = some ring.buf[ring.head] := List.getElem?_eq_getElem hplace
    have hrest := ih { ring with head := AudioRingBuffer.nextHead ring.cap ring.head } hcap fun _ => by
      rw [hcap]
      exact AudioRingBuffer.nextHead_lt hplace
    rw [popLoop, hload, Option.bind_some, hrest, Option.map_some]
    simp only [AudioRingBuffer.popLoop, hcap, List.getElem?_eq_getElem hplace]
    rfl

/-- Reads at the places of a list give the list. -/
theorem mapM_range_eq_some {read : Nat → Option α} (samples : List α)
    (h : ∀ idx < samples.length, read idx = samples[idx]?) :
    (List.range samples.length).mapM read = some samples := by
  induction samples using List.reverseRecOn with
  | nil => rfl
  | append_singleton samples x ih =>
    have hlast : read samples.length = some x := by
      rw [h _ (by simp), List.getElem?_append_right (Nat.le_refl _), Nat.sub_self]
      rfl
    have hinit := ih fun idx hidx => by
      rw [h idx (by rw [List.length_append]; omega), List.getElem?_append_left hidx]
    rw [List.length_append, List.length_singleton, List.range_succ, List.mapM_append, hinit]
    simp [hlast]

namespace AudioRingBuffer

section
variable (ring : AudioRingBuffer α)
include ring

/-- The newest samples end at the tail. -/
theorem load_newest {n : Nat} (hn : n ≤ ring.len) (hpos : 0 < n) (idx : Nat) (hidx : idx < n) :
    ring.memory.load
        (((if ring.tail ≥ n then ring.tail - n else ring.capacity + ring.tail - n) + idx) % ring.capacity) =
      ring.contents[ring.len - n + idx]? := by
  have hlen := ring.len_le
  have hhead := ring.head_lt (by omega)
  have hsample : ring.contents[ring.len - n + idx]? =
      ring.buf[(ring.head + (ring.len - n + idx)) % ring.buf.length]? := by
    rw [getElem?_contents, if_pos (by omega)]
  rw [hsample]
  refine congrArg (ring.buf[·]?) ?_
  unfold tail capacity
  dsimp only
  by_cases hwrap : ring.head + ring.len ≥ ring.buf.length
  · rw [if_pos hwrap]
    by_cases hback : ring.head + ring.len - ring.buf.length ≥ n
    · rw [if_pos hback, ← Nat.add_mod_right]
      congr 1
      omega
    · rw [if_neg hback]
      congr 1
      omega
  · rw [if_neg hwrap, if_pos (by omega)]
    congr 1
    omega

theorem copyRecentInto_memory (out : List α) :
    ring.memory.copyRecentInto out = some (min out.length ring.len,
      ring.contents.rtake out.length ++ out.drop (min out.length ring.len)) := by
  have hrtake : ring.contents.rtake out.length = ring.contents.drop (ring.len - min out.length ring.len) := by
    rw [List.rtake, length_contents]
    congr 1
    omega
  by_cases hnone : min out.length ring.len = 0
  · have hempty : ring.contents.drop ring.len = [] := List.drop_eq_nil_of_le (length_contents ring).le
    rw [hrtake, hnone, Nat.sub_zero, hempty]
    exact if_pos hnone
  · have hlength : (ring.contents.drop (ring.len - min out.length ring.len)).length = min out.length ring.len := by
      rw [List.length_drop, length_contents]
      omega
    have hread := mapM_range_eq_some (ring.contents.drop (ring.len - min out.length ring.len)) fun idx hidx => by
      rw [List.getElem?_drop, ← ring.load_newest (Nat.min_le_right _ _) (Nat.pos_of_ne_zero hnone) idx (hlength ▸ hidx)]
    rw [hlength] at hread
    rw [hrtake]
    refine (if_neg hnone).trans ?_
    exact congrArg (Option.map _) hread

theorem pushSliceBlocking_memory (input : List α) :
    ring.memory.pushSliceBlocking input =
      some ((ring.pushSliceBlocking input).1, (ring.pushSliceBlocking input).2.memory) := by
  have hfits : (input.take (min input.length ring.available)).length ≤ ring.available := by
    rw [List.length_take]
    omega
  exact congrArg (Option.map _) (ring.blockingLoop_memory hfits)

theorem popInto_memory (out : List α) :
    ring.memory.popInto out = some ((min out.length ring.len,
      (ring.popInto out.length).1 ++ out.drop (min out.length ring.len)), (ring.popInto out.length).2.memory) := by
  have hhead : min out.length ring.len ≠ 0 → ring.head < ring.buf.length := by
    intro hsome
    have hlen := ring.len_le
    exact ring.head_lt (by omega)
  have hloop := RingMemory.popLoop_eq (min out.length ring.len) ring.memory rfl hhead
  exact congrArg (Option.map _) hloop

theorem fitting_eq (input : List α) :
    input.take (ring.capacity - ring.contents.length) = input.take (ring.pushSliceBlocking input).1 := by
  rw [length_contents]
  change input.take ring.available = input.take (min input.length ring.available)
  rw [Nat.min_comm, ← List.take_take, List.take_length]

end

end AudioRingBuffer

/-- The memory holds the ring of this capacity, with the queue in it. -/
def HoldsQueue (cap : Nat) (memory : RingMemory α) (queue : List α) : Prop :=
  ∃ ring : AudioRingBuffer α, memory = ring.memory ∧ ring.capacity = cap ∧ ring.contents = queue

theorem HoldsQueue.indices {cap : Nat} {memory : RingMemory α} {queue : List α} (h : HoldsQueue cap memory queue) :
    memory.cap = cap ∧ (0 < cap → memory.head < cap) ∧ memory.len ≤ cap := by
  obtain ⟨ring, rfl, rfl, -⟩ := h
  exact ⟨rfl, ring.head_lt, ring.len_le⟩

theorem holdsQueue_new (cells : List α) : HoldsQueue cells.length (.new cells) [] :=
  ⟨⟨cells, 0, 0, id, Nat.zero_le _⟩, rfl, rfl, List.take_zero⟩

theorem AudioRingBuffer.pushSliceDropOldest_memory (ring : AudioRingBuffer α) (input : List α) :
    ∃ pushed : AudioRingBuffer α, ring.memory.pushSliceDropOldest input = some pushed.memory ∧
      pushed.capacity = ring.capacity ∧ pushed.contents = (ring.contents ++ input).rtake ring.capacity := by
  by_cases hcap : ring.capacity = 0
  · have hempty : ring.contents = [] := by
      apply List.eq_nil_of_length_eq_zero
      rw [length_contents]
      exact Nat.le_zero.mp (hcap ▸ ring.len_le)
    exact ⟨ring, if_pos hcap, rfl, by rw [hcap, List.rtake_zero, hempty]⟩
  · obtain ⟨pushed, hrun, hpushed⟩ := ring.dropOldestLoop_memory (Nat.pos_of_ne_zero hcap) input
    exact ⟨pushed, (if_neg hcap).trans hrun, hpushed⟩

/-- One call on the ring is one call on the queue. -/
theorem ring_simulates (cap : Nat) : Simulates (HoldsQueue cap) (RingMemory.call (α := α))
    (fun queue call => some (boundedQueue cap queue call)) := by
  rintro _ _ call answer queue' ⟨ring, rfl, rfl, rfl⟩ hspec
  have hlen : ring.contents.length = ring.len := AudioRingBuffer.length_contents ring
  cases call with
  | pushSliceDropOldest input =>
    cases hspec
    obtain ⟨pushed, hrun, hcap, hcontents⟩ := ring.pushSliceDropOldest_memory input
    exact ⟨pushed.memory, congrArg (Option.map _) hrun, pushed, rfl, hcap, hcontents⟩
  | pushSliceBlocking input =>
    have hlast := ring.contents_pushSliceBlocking input
    rw [← ring.fitting_eq] at hlast
    have hnumber : (input.take (ring.capacity - ring.contents.length)).length = (ring.pushSliceBlocking input).1 := by
      rw [ring.fitting_eq, List.length_take]
      exact Nat.min_eq_left (Nat.min_le_left _ _)
    cases hspec
    refine ⟨(ring.pushSliceBlocking input).2.memory, ?_, _, rfl, ring.capacity_pushSliceBlocking input, hlast⟩
    rw [RingMemory.call, ring.pushSliceBlocking_memory, hnumber]
    rfl
  | popInto out =>
    have hnumber : (ring.contents.take out.length).length = min out.length ring.len := by
      rw [List.length_take, hlen]
    cases hspec
    refine ⟨(ring.popInto out.length).2.memory, ?_, _, rfl, rfl, ring.contents_popInto out.length⟩
    rw [RingMemory.call, ring.popInto_memory, ring.popInto_fst, filledWith, hnumber]
    rfl
  | copyRecentInto out =>
    have hnumber : (ring.contents.rtake out.length).length = min out.length ring.len := by
      rw [List.rtake, List.length_drop, hlen]
      omega
    cases hspec
    refine ⟨ring.memory, ?_, ring, rfl, rfl, rfl⟩
    rw [RingMemory.call, ring.copyRecentInto_memory, filledWith, hnumber]
    rfl
  | clear =>
    cases hspec
    exact ⟨ring.clear.memory, rfl, ring.clear, rfl, rfl, ring.contents_clear⟩

/-- Whatever is called on a new ring, no place outside its memory is used, the answers are those of the queue, and
head and length stay in the bounds. -/
theorem audio_ring_is_bounded_queue (cells : List α) (calls : List (RingCall α)) :
    ∃ answers queue memory,
      callAll (fun queue call => some (boundedQueue cells.length queue call)) calls [] = some (answers, queue) ∧
      callAll RingMemory.call calls (.new cells) = some (answers, memory) ∧
      HoldsQueue cells.length memory queue ∧ memory.cap = cells.length ∧
      (0 < cells.length → memory.head < cells.length) ∧ memory.len ≤ cells.length := by
  obtain ⟨answers, queue, hspec⟩ := exists_callAll (fun queue call => ⟨_, _, rfl⟩) calls ([] : List α)
  obtain ⟨memory, hrun, hholds⟩ := (ring_simulates cells.length).callAll calls (holdsQueue_new cells) hspec
  exact ⟨answers, queue, memory, hspec, hrun, hholds, hholds.indices⟩

/-- The newest two of three samples, read from a ring whose head has gone round. -/
example : (callAll RingMemory.call [.pushSliceDropOldest [1, 2, 3], .popInto [0], .pushSliceBlocking [4, 5],
    .copyRecentInto [0, 0, 0]] (.new [0, 0])).map Prod.fst =
      some [.done, .filled 1 [2], .taken 1, .filled 2 [3, 4, 0]] := by
  decide

end Beetle.Platform
