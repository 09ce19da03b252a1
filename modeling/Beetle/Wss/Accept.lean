import Beetle.Lib.Base64
import Beetle.Lib.Sha1
import Beetle.Wss.Upgrade
import Mathlib.Data.List.GetD
import Mathlib.Data.UInt
import Mathlib.Data.Vector.Basic

/-! The accept value of the handshake: SHA-1 as the client computes it, piece by piece. -/
namespace Beetle.Wss
open Beetle.Lib

/-- `beetle_wss_sha1_t`, with the bounds that its functions keep. -/
structure Sha1Context where
  state : Sha1.Words
  totalLen : UInt64
  block : Bytes
  blockLen : Nat
  length_block : block.length = 64
  blockLen_lt : blockLen < 64

namespace Sha1Context

/-- Four bytes of a block. -/
def blockWord (block : Bytes) (i : Nat) : UInt32 :=
  let byte (j : Nat) : UInt32 := (block.getD (i * 4 + j) 0).toUInt32
  byte 0 <<< 24 ||| byte 1 <<< 16 ||| byte 2 <<< 8 ||| byte 3

/-- `w[n + 16]`, from the words before it. -/
def nextWord (w : List UInt32) (n : Nat) : UInt32 :=
  let i := n + 16
  let v := w.getD (i - 3) 0 ^^^ w.getD (i - 8) 0 ^^^ w.getD (i - 14) 0 ^^^ w.getD (i - 16) 0
  v <<< 1 ||| v >>> 31

/-- The array `w` after so many turns of its second loop. -/
def fillSchedule (block : Bytes) (turns : Nat) : List UInt32 :=
  (List.range turns).foldl (fun w n => w ++ [nextWord w n]) ((List.range 16).map (blockWord block))

def functionAndConstant (i : Nat) (b c d : UInt32) : UInt32 × UInt32 :=
  if i < 20 then (b &&& c ||| ~~~b &&& d, 0x5A827999)
  else if i < 40 then (b ^^^ c ^^^ d, 0x6ED9EBA1)
  else if i < 60 then (b &&& c ||| b &&& d ||| c &&& d, 0x8F1BBCDC)
  else (b ^^^ c ^^^ d, 0xCA62C1D6)

def turn (w : List UInt32) (v : Sha1.Words) (i : Nat) : Sha1.Words :=
  let (f, k) := functionAndConstant i v.b v.c v.d
  let temp := (v.a <<< 5 ||| v.a >>> 27) + f + v.e + k + w.getD i 0
  ⟨temp, v.a, v.b <<< 30 ||| v.b >>> 2, v.c, v.d⟩

def transform (state : Sha1.Words) (block : Bytes) : Sha1.Words :=
  let v := (List.range 80).foldl (turn (fillSchedule block 64)) state
  ⟨state.a + v.a, state.b + v.b, state.c + v.c, state.d + v.d, state.e + v.e⟩

def init : Sha1Context :=
  ⟨⟨0x67452301, 0xEFCDAB89, 0x98BADCFE, 0x10325476, 0xC3D2E1F0⟩, 0, List.replicate 64 0, 0, by simp, by decide⟩

/-- `memcpy` into the block, which is transformed when it is full. -/
def fill (ctx : Sha1Context) (bytes : Bytes) (h : ctx.blockLen + bytes.length ≤ 64) : Sha1Context :=
  let block := ctx.block.take ctx.blockLen ++ bytes ++ ctx.block.drop (ctx.blockLen + bytes.length)
  have hblock : block.length = 64 := by
    have := ctx.length_block
    simp only [block, List.length_append, List.length_take, List.length_drop]
    omega
  if hfull : ctx.blockLen + bytes.length = 64 then
    ⟨transform ctx.state block, ctx.totalLen, block, 0, hblock, by decide⟩
  else ⟨ctx.state, ctx.totalLen, block, ctx.blockLen + bytes.length, hblock, by omega⟩

/-- The loop of `beetle_wss_sha1_update`. -/
def updateLoop (ctx : Sha1Context) (data : Bytes) : Sha1Context :=
  if data = [] then ctx
  else
    let toCopy := min (64 - ctx.blockLen) data.length
    updateLoop (ctx.fill (data.take toCopy) (by
      have := ctx.blockLen_lt
      rw [List.length_take]
      omega)) (data.drop toCopy)
termination_by data.length
decreasing_by
  have hsome := List.length_pos_of_ne_nil ‹¬ data = []›
  have hroom := ctx.blockLen_lt
  rw [List.length_drop]
  omega

def update (ctx : Sha1Context) (data : Bytes) : Sha1Context :=
  if data = [] then ctx
  else { ctx with totalLen := ctx.totalLen + UInt64.ofNat data.length }.updateLoop data

/-! The transformation is that of the standard. -/

theorem or_and_not (x y z : UInt32) : x &&& y ||| ~~~x &&& z = Sha1.ch x y z := by
  apply UInt32.eq_of_toBitVec_eq
  apply BitVec.eq_of_getLsbD_eq
  intro i hi
  simp only [Sha1.ch, UInt32.toBitVec_or, UInt32.toBitVec_and, UInt32.toBitVec_not, UInt32.toBitVec_xor,
    BitVec.getLsbD_or, BitVec.getLsbD_and, BitVec.getLsbD_not, BitVec.getLsbD_xor]
  cases x.toBitVec.getLsbD i <;> cases y.toBitVec.getLsbD i <;> cases z.toBitVec.getLsbD i <;> simp [hi]

theorem or_and_pairs (x y z : UInt32) : x &&& y ||| x &&& z ||| y &&& z = Sha1.maj x y z := by
  apply UInt32.eq_of_toBitVec_eq
  apply BitVec.eq_of_getLsbD_eq
  intro i hi
  simp only [Sha1.maj, UInt32.toBitVec_or, UInt32.toBitVec_and, UInt32.toBitVec_xor,
    BitVec.getLsbD_or, BitVec.getLsbD_and, BitVec.getLsbD_xor]
  cases x.toBitVec.getLsbD i <;> cases y.toBitVec.getLsbD i <;> cases z.toBitVec.getLsbD i <;> rfl

theorem functionAndConstant_eq (i : Nat) (b c d : UInt32) :
    functionAndConstant i b c d = (Sha1.function i b c d, Sha1.constant i) := by
  unfold functionAndConstant Sha1.function Sha1.constant
  rw [or_and_not, or_and_pairs]
  split
  · rfl
  · split
    · rfl
    · split <;> rfl

theorem toNat_shifted (x : UInt8) {n : Nat} (hn : n ≤ 24) :
    (x.toUInt32 <<< UInt32.ofNat n).toNat = 2 ^ n * x.toNat := by
  have hx := x.toNat_lt
  have hpow : 2 ^ n ≤ 2 ^ 24 := Nat.pow_le_pow_right (by decide) hn
  have hsmall : x.toNat * 2 ^ n < 2 ^ 32 := by
    have := Nat.mul_le_mul hx.le hpow
    have hlt := Nat.mul_lt_mul_of_pos_right hx (Nat.two_pow_pos n)
    omega
  rw [UInt32.toNat_shiftLeft, UInt32.toNat_ofNat_of_lt' (by omega : n < 2 ^ 32),
    Nat.mod_eq_of_lt (by omega : n < 32), UInt8.toNat_toUInt32, Nat.shiftLeft_eq, Nat.mod_eq_of_lt hsmall,
    Nat.mul_comm]

/-- Bits that do not meet are put together by additions. -/
theorem or_bytes {a b c d : Nat} (hb : b < 2 ^ 8) (hc : c < 2 ^ 8) (hd : d < 2 ^ 8) :
    2 ^ 24 * a ||| 2 ^ 16 * b ||| 2 ^ 8 * c ||| d = 2 ^ 24 * a + (2 ^ 16 * b + (2 ^ 8 * c + d)) := by
  rw [Nat.or_assoc, Nat.or_assoc, ← Nat.two_pow_add_eq_or_of_lt hd c,
    ← Nat.two_pow_add_eq_or_of_lt (by omega : 2 ^ 8 * c + d < 2 ^ 16) b,
    ← Nat.two_pow_add_eq_or_of_lt (by omega : 2 ^ 16 * b + (2 ^ 8 * c + d) < 2 ^ 24) a]

variable (block : Bytes)

theorem blockWord_eq (i : Nat) : blockWord block i = Sha1.messageWord block i := by
  apply UInt32.toNat_inj.mp
  have hbyte (j : Nat) : (block.getD j 0).toNat < 2 ^ 8 := (block.getD j 0).toNat_lt
  have hshift (j n : Nat) (hn : n ≤ 24) :
      ((block.getD (i * 4 + j) 0).toUInt32 <<< UInt32.ofNat n).toNat = 2 ^ n * (block.getD (i * 4 + j) 0).toNat :=
    toNat_shifted _ hn
  have hcode : (blockWord block i).toNat = 2 ^ 24 * (block.getD (i * 4 + 0) 0).toNat |||
      2 ^ 16 * (block.getD (i * 4 + 1) 0).toNat ||| 2 ^ 8 * (block.getD (i * 4 + 2) 0).toNat |||
      (block.getD (i * 4 + 3) 0).toNat := by
    rw [← hshift 0 24 (by decide), ← hshift 1 16 (by decide), ← hshift 2 8 (by decide)]
    simp only [blockWord, UInt32.toNat_or, UInt8.toNat_toUInt32]
    rfl
  rw [hcode, or_bytes (hbyte _) (hbyte _) (hbyte _), Sha1.messageWord]
  dsimp only
  rw [Nat.mul_comm 4 i, UInt32.toNat_ofNat_of_lt']
  have h0 := hbyte (i * 4 + 0)
  have h1 := hbyte (i * 4 + 1)
  have h2 := hbyte (i * 4 + 2)
  have h3 := hbyte (i * 4 + 3)
  change _ < 2 ^ 32
  omega

/-- The words of the array are those of the schedule. -/
theorem fillSchedule_getD (turns : Nat) :
    (fillSchedule block turns).length = turns + 16 ∧
      ∀ t < turns + 16, (fillSchedule block turns).getD t 0 = Sha1.schedule block t := by
  induction turns with
  | zero =>
    refine ⟨by simp [fillSchedule], fun t ht => ?_⟩
    rw [Nat.zero_add] at ht
    rw [Sha1.schedule, if_pos ht, ← blockWord_eq]
    simp [fillSchedule, ht]
  | succ turns ih =>
    obtain ⟨hlength, hwords⟩ := ih
    have hstep : fillSchedule block (turns + 1) =
        fillSchedule block turns ++ [nextWord (fillSchedule block turns) turns] := by
      simp only [fillSchedule, @List.range_succ turns, List.foldl_append, List.foldl_cons, List.foldl_nil]
    have hlength' : (fillSchedule block (turns + 1)).length = turns + 1 + 16 := by
      rw [hstep, List.length_append, hlength, List.length_singleton]
    refine ⟨hlength', fun t ht => ?_⟩
    rw [hstep]
    by_cases hold : t < turns + 16
    · rw [List.getD_append _ _ _ _ (hlength.symm ▸ hold)]
      exact hwords t hold
    · obtain rfl : t = turns + 16 := by omega
      rw [List.getD_append_right _ _ _ _ hlength.le, hlength, Nat.sub_self, List.getD_cons_zero, nextWord,
        hwords _ (by omega), hwords _ (by omega), hwords _ (by omega), hwords _ (by omega),
        Sha1.schedule.eq_def block (turns + 16), if_neg (by omega)]
      rfl

theorem turn_eq {i : Nat} (hi : i < 80) (v : Sha1.Words) :
    turn (fillSchedule block 64) v i = Sha1.round (Sha1.schedule block) v i := by
  rw [turn, functionAndConstant_eq, (fillSchedule_getD block 64).2 i hi]
  rfl

theorem transform_eq (state : Sha1.Words) (block : Bytes) : transform state block = Sha1.compress state block := by
  have hrounds : (List.range 80).foldl (turn (fillSchedule block 64)) state =
      (List.range 80).foldl (Sha1.round (Sha1.schedule block)) state := by
    apply List.foldl_ext
    intro v i hi
    exact turn_eq block (List.mem_range.mp hi) v
  rw [transform, hrounds]
  simp only [Sha1.compress, Sha1.Words.add, UInt32.add_comm]

/-- The block of the message "abc". -/
example : transform Sha1.initial (bytes "abc" ++ [0x80] ++ List.replicate 59 0 ++ [24]) =
    ⟨0xa9993e36, 0x4706816a, 0xba3e2571, 0x7850c26c, 0x9cd0d89d⟩ := by
  decide +kernel

/-! What a context has taken in. -/

/-- The bytes that wait for their block. -/
def pending (ctx : Sha1Context) : Bytes := ctx.block.take ctx.blockLen

section
variable (ctx : Sha1Context)
include ctx

theorem length_pending : ctx.pending.length = ctx.blockLen := by
  rw [pending, List.length_take, ctx.length_block, Nat.min_eq_left ctx.blockLen_lt.le]

/-- Filling the block does not change what comes of the bytes after it. -/
theorem absorb_fill (bytes : Bytes) (h : ctx.blockLen + bytes.length ≤ 64) (rest : Bytes) :
    absorb Sha1.compress 64 (ctx.fill bytes h).state ((ctx.fill bytes h).pending ++ rest) =
      absorb Sha1.compress 64 ctx.state (ctx.pending ++ (bytes ++ rest)) := by
  have hpending := ctx.length_pending
  have hfilled : (ctx.pending ++ bytes).length = ctx.blockLen + bytes.length := by
    rw [List.length_append, hpending]
  unfold fill
  by_cases hfull : ctx.blockLen + bytes.length = 64
  · have hnone : ctx.block.drop (ctx.blockLen + bytes.length) = [] :=
      List.drop_eq_nil_of_le (by rw [ctx.length_block, hfull])
    rw [dif_pos hfull, ← List.append_assoc, absorb_block_append (by decide) (hfilled.trans hfull)]
    change absorb _ _ (transform ctx.state (ctx.pending ++ bytes ++ ctx.block.drop (ctx.blockLen + bytes.length))) rest = _
    rw [hnone, List.append_nil, transform_eq]
  · rw [dif_neg hfull, ← List.append_assoc]
    congr 2
    exact List.take_left' hfilled

theorem absorb_updateLoop (data : Bytes) :
    ((ctx.updateLoop data).state, (ctx.updateLoop data).pending) =
      absorb Sha1.compress 64 ctx.state (ctx.pending ++ data) := by
  fun_induction updateLoop ctx data with
  | case1 ctx =>
    rw [List.append_nil, absorb_short (by rw [length_pending]; exact ctx.blockLen_lt)]
  | case2 ctx data hsome toCopy ih =>
    rw [ih, absorb_fill, List.take_append_drop]

theorem blockLen_update (data : Bytes) : (ctx.update data).blockLen = (ctx.blockLen + data.length) % 64 := by
  unfold update
  by_cases hnone : data = []
  · rw [if_pos hnone, hnone, List.length_nil, Nat.add_zero, Nat.mod_eq_of_lt ctx.blockLen_lt]
  · have hlast := congrArg (fun absorbed => absorbed.2.length)
      (absorb_updateLoop { ctx with totalLen := ctx.totalLen + UInt64.ofNat data.length } data)
    dsimp only at hlast
    rw [length_absorb_snd (by decide), List.length_append, length_pending, length_pending] at hlast
    rw [if_neg hnone]
    exact hlast

theorem totalLen_updateLoop (data : Bytes) : (ctx.updateLoop data).totalLen = ctx.totalLen := by
  fun_induction updateLoop ctx data with
  | case1 ctx => rfl
  | case2 ctx data hsome toCopy ih =>
    rw [ih, fill]
    split <;> rfl

end

/-- The context after the bytes of the message, however they were cut. -/
structure Absorbed (ctx : Sha1Context) (message : Bytes) : Prop where
  state : (ctx.state, ctx.pending) = absorb Sha1.compress 64 Sha1.initial message
  totalLen : ctx.totalLen = UInt64.ofNat message.length

variable {ctx : Sha1Context} {message : Bytes}

theorem Absorbed.blockLen (h : ctx.Absorbed message) : ctx.blockLen = message.length % 64 := by
  rw [← length_pending, ← length_absorb_snd (by decide) Sha1.initial, ← h.state]

theorem absorbed_init : init.Absorbed [] := by
  refine ⟨?_, rfl⟩
  rw [absorb_short (by decide)]
  rfl

theorem Absorbed.update (h : ctx.Absorbed message) (data : Bytes) : (ctx.update data).Absorbed (message ++ data) := by
  unfold Sha1Context.update
  by_cases hnone : data = []
  · rw [if_pos hnone, hnone, List.append_nil]
    exact h
  · rw [if_neg hnone]
    refine ⟨?_, ?_⟩
    · have happend := @absorb_append _ _ Sha1.compress 64 (by decide) Sha1.initial message data
      rw [absorb_updateLoop, happend, ← h.state]
      rfl
    · rw [totalLen_updateLoop, h.totalLen, List.length_append, UInt64.ofNat_add]

/-! The padding, which goes through the same update. -/

/-- The zero bytes up to the place of the length. -/
def zerosLeft (blockLen : Nat) : Nat := if blockLen ≤ 56 then 56 - blockLen else 120 - blockLen

/-- `while (ctx->block_len != 56U)` -/
def padLoop (ctx : Sha1Context) : Sha1Context :=
  if ctx.blockLen = 56 then ctx else padLoop (ctx.update [0])
termination_by zerosLeft ctx.blockLen
decreasing_by
  have hlt := ctx.blockLen_lt
  rw [blockLen_update, List.length_singleton]
  unfold zerosLeft
  split_ifs <;> omega

/-- `len_bytes`, the most significant byte first. -/
def lenBytes (bits : UInt64) : Bytes :=
  (List.range 8).map fun i => (bits >>> UInt64.ofNat ((7 - i) * 8) &&& 0xFF).toUInt8

def wordBytes (word : UInt32) : Bytes :=
  [(word >>> 24 &&& 0xFF).toUInt8, (word >>> 16 &&& 0xFF).toUInt8, (word >>> 8 &&& 0xFF).toUInt8,
    (word &&& 0xFF).toUInt8]

/-- `beetle_wss_sha1_final`: the bytes of `out`. -/
def final (ctx : Sha1Context) : Bytes :=
  let bits := ctx.totalLen * 8
  let padded := ((ctx.update [0x80]).padLoop).update (lenBytes bits)
  [padded.state.a, padded.state.b, padded.state.c, padded.state.d, padded.state.e].flatMap wordBytes

/-- So many zero bytes are put in. -/
theorem Absorbed.padLoop (h : ctx.Absorbed message) :
    ctx.padLoop.Absorbed (message ++ List.replicate (zerosLeft ctx.blockLen) 0) := by
  fun_induction Sha1Context.padLoop ctx generalizing message with
  | case1 ctx hplace =>
    rw [hplace]
    exact (List.append_nil message).symm ▸ h
  | case2 ctx hplace ih =>
    have hlt := ctx.blockLen_lt
    have hone : zerosLeft ctx.blockLen = zerosLeft (ctx.update [0]).blockLen + 1 := by
      rw [blockLen_update, List.length_singleton]
      unfold zerosLeft
      split_ifs <;> omega
    have hrest := ih (h.update [0])
    rwa [List.append_assoc, List.singleton_append, ← List.replicate_succ, ← hone] at hrest

theorem shiftRight_byte (number k : Nat) : (number >>> (k * 8) &&& 255) % 2 ^ 8 = number / 256 ^ k % 2 ^ 8 := by
  rw [Nat.shiftRight_eq_div_pow, Nat.mul_comm k 8, Nat.pow_mul, Nat.and_two_pow_sub_one_eq_mod _ 8, Nat.mod_mod]

theorem lenBytes_eq {length : Nat} (h : length < 2 ^ 61) :
    lenBytes (UInt64.ofNat length * 8) = Sha1.bigEndian 8 (8 * length) := by
  have hbits : (UInt64.ofNat length * 8).toNat = 8 * length := by
    rw [UInt64.toNat_mul, UInt64.toNat_ofNat', Nat.mod_eq_of_lt (by omega : length < 2 ^ 64)]
    change length * 8 % 2 ^ 64 = 8 * length
    omega
  apply List.map_congr_left
  intro i hi
  have hi : i < 8 := List.mem_range.mp hi
  have hshift : (UInt64.ofNat ((7 - i) * 8)).toNat % 64 = (7 - i) * 8 := by
    rw [UInt64.toNat_ofNat']
    omega
  apply UInt8.toNat_inj.mp
  rw [UInt64.toNat_toUInt8, UInt64.toNat_and, UInt64.toNat_shiftRight, hshift, hbits]
  exact (shiftRight_byte (8 * length) (7 - i)).trans UInt8.toNat_ofNat'.symm

theorem wordBytes_eq (word : UInt32) : wordBytes word = Sha1.bigEndian 4 word.toNat := by
  have hbyte (k : Nat) (hk : k < 4) :
      (word >>> UInt32.ofNat (k * 8) &&& 0xFF).toUInt8 = UInt8.ofNat (word.toNat / 256 ^ k) := by
    have hshift : (UInt32.ofNat (k * 8)).toNat % 32 = k * 8 := by
      rw [UInt32.toNat_ofNat']
      omega
    apply UInt8.toNat_inj.mp
    rw [UInt32.toNat_toUInt8, UInt32.toNat_and, UInt32.toNat_shiftRight, hshift]
    exact (shiftRight_byte word.toNat k).trans UInt8.toNat_ofNat'.symm
  have hlast : (word &&& 0xFF).toUInt8 = UInt8.ofNat (word.toNat / 256 ^ 0) := by
    apply UInt8.toNat_inj.mp
    rw [UInt32.toNat_toUInt8, UInt32.toNat_and]
    exact (shiftRight_byte word.toNat 0).trans UInt8.toNat_ofNat'.symm
  change [(word >>> UInt32.ofNat (3 * 8) &&& 0xFF).toUInt8, (word >>> UInt32.ofNat (2 * 8) &&& 0xFF).toUInt8,
    (word >>> UInt32.ofNat (1 * 8) &&& 0xFF).toUInt8, (word &&& 0xFF).toUInt8] = _
  rw [hbyte 3 (by decide), hbyte 2 (by decide), hbyte 1 (by decide), hlast]
  rfl

theorem Absorbed.final (h : ctx.Absorbed message)
    (hlength : message.length < 2 ^ 61) : ctx.final = Sha1.digest message := by
  have hmarked := h.update [0x80]
  have hzeros : zerosLeft (ctx.update [0x80]).blockLen = Sha1.zeros message.length := by
    rw [hmarked.blockLen, List.length_append, List.length_singleton]
    unfold zerosLeft Sha1.zeros
    split_ifs <;> omega
  have hpadded := hmarked.padLoop.update (lenBytes (ctx.totalLen * 8))
  rw [hzeros, h.totalLen, lenBytes_eq hlength, List.append_assoc, List.append_assoc, List.singleton_append] at hpadded
  have hstate := congrArg Prod.fst hpadded.state
  rw [Sha1Context.final, Sha1.digest, Sha1.Words.toBytes, Sha1.pad, ← hstate, h.totalLen, lenBytes_eq hlength]
  simp only [List.flatMap_cons, List.flatMap_nil, wordBytes_eq]

theorem Absorbed.foldl_update (h : ctx.Absorbed message) (pieces : List Bytes) :
    (pieces.foldl Sha1Context.update ctx).Absorbed (message ++ pieces.flatten) := by
  induction pieces generalizing ctx message with
  | nil => exact (List.append_nil message).symm ▸ h
  | cons piece pieces ih =>
    have hrest := ih (h.update piece)
    rwa [List.append_assoc] at hrest

/-- However the message is cut into pieces, its digest comes out. -/
theorem final_foldl_update (pieces : List Bytes) (h : pieces.flatten.length < 2 ^ 61) :
    (pieces.foldl Sha1Context.update init).final = Sha1.digest pieces.flatten :=
  (absorbed_init.foldl_update pieces).final h

end Sha1Context

/-! The text of the digest. -/

/-- An object in memory, which is no larger than half of the addresses of the 32-bit targets. -/
structure CObject where
  bytes : Bytes
  small : bytes.length < 2 ^ 31

/-- `out[place] = c`, which has to be inside the buffer. -/
def storeChar (out : Bytes) (place : Nat) (c : UInt8) : Option Bytes :=
  if place < out.length then some (out.set place c) else none

def storeChars (out : Bytes) (place : Nat) : Bytes → Option Bytes
  | [] => some out
  | c :: cs => (storeChar out place c).bind fun out => storeChars out (place + 1) cs

/-- The loop of `beetle_wss_base64_encode`, over what is left of the input. -/
def base64Turns (out : Bytes) (outPos : Nat) : Bytes → Option Bytes
  | [] => some out
  | [a] =>
    let triple := a.toNat * 2 ^ 16
    storeChars out outPos [sextet triple 18, sextet triple 12, 61, 61]
  | [a, b] =>
    let triple := a.toNat * 2 ^ 16 + b.toNat * 2 ^ 8
    storeChars out outPos [sextet triple 18, sextet triple 12, sextet triple 6, 61]
  | a :: b :: c :: rest =>
    let triple := a.toNat * 2 ^ 16 + b.toNat * 2 ^ 8 + c.toNat
    (storeChars out outPos [sextet triple 18, sextet triple 12, sextet triple 6, sextet triple 0]).bind fun out =>
      base64Turns out (outPos + 4) rest

/-- A sum or a product of `size_t`. -/
def sizeT (n : Nat) : Nat := n % 2 ^ 32

/-- `beetle_wss_base64_encode` with its buffer, which may be a null pointer. -/
def base64EncodeInto (input : Bytes) : Option Bytes → Option (Bool × Option Bytes)
  | none => some (false, none)
  | some out =>
    let outLen := sizeT (sizeT (input.length + 2) / 3 * 4)
    if out.length < sizeT (outLen + 1) then some (false, some out)
    else
      (base64Turns out 0 input).bind fun written => (storeChar written outLen 0).map fun out => (true, some out)

theorem char_extractLsb' {n : Nat} {group : BitVec n} {start triple shift : Nat}
    (h : group.toNat / 2 ^ start % 2 ^ 6 = triple / 2 ^ shift % 64) :
    Base64.char (group.extractLsb' start 6) = sextet triple shift := by
  rw [Base64.char, sextet, Base64.toNat_extractLsb', h]
  rfl

/-- The triples of the code are the groups of the standard. -/
theorem base64Loop_eq (input : Bytes) : base64Loop input = Base64.encode input := by
  fun_induction base64Loop input with
  | case1 => rfl
  | case2 a triple =>
    have hgroup : (a.toBitVec ++ 0#4).toNat = a.toNat * 2 ^ 4 := Base64.toNat_append_eq_add _ _
    rw [Base64.encode, char_extractLsb' (by rw [hgroup]; omega : _ = triple / 2 ^ 18 % 64),
      char_extractLsb' (by rw [hgroup]; omega : _ = triple / 2 ^ 12 % 64)]
    rfl
  | case3 a b triple =>
    have hgroup : (a.toBitVec ++ b.toBitVec ++ 0#2).toNat = (a.toNat * 2 ^ 8 + b.toNat) * 2 ^ 2 := by
      rw [Base64.toNat_append_eq_add, Base64.toNat_append_eq_add]
      rfl
    rw [Base64.encode, char_extractLsb' (by rw [hgroup]; omega : _ = triple / 2 ^ 18 % 64),
      char_extractLsb' (by rw [hgroup]; omega : _ = triple / 2 ^ 12 % 64),
      char_extractLsb' (by rw [hgroup]; omega : _ = triple / 2 ^ 6 % 64)]
    rfl
  | case4 a b c rest triple ih =>
    have hgroup : (a.toBitVec ++ b.toBitVec ++ c.toBitVec).toNat = (a.toNat * 2 ^ 8 + b.toNat) * 2 ^ 8 + c.toNat := by
      rw [Base64.toNat_append_eq_add, Base64.toNat_append_eq_add]
      rfl
    rw [Base64.encode, char_extractLsb' (by rw [hgroup]; omega : _ = triple / 2 ^ 18 % 64),
      char_extractLsb' (by rw [hgroup]; omega : _ = triple / 2 ^ 12 % 64),
      char_extractLsb' (by rw [hgroup]; omega : _ = triple / 2 ^ 6 % 64),
      char_extractLsb' (by rw [hgroup]; omega : _ = triple / 2 ^ 0 % 64), ih]

theorem storeChars_eq {out cs : Bytes} {place : Nat} (h : place + cs.length ≤ out.length) :
    storeChars out place cs = some (out.take place ++ cs ++ out.drop (place + cs.length)) := by
  induction cs generalizing out place with
  | nil => simp [storeChars]
  | cons c cs ih =>
    rw [List.length_cons] at h
    have hstore : storeChar out place c = some (out.set place c) := if_pos (by omega)
    have hplace : place + 1 + cs.length = place + (cs.length + 1) := by omega
    rw [storeChars, hstore, Option.bind_some, ih (by rw [List.length_set]; omega), List.take_add_one,
      List.take_set_of_le (Nat.le_refl _), List.getElem?_set_self (by omega), List.drop_set_of_lt (by omega), hplace]
    simp only [Option.toList_some, List.append_assoc, List.cons_append, List.nil_append, List.length_cons]

theorem storeChars_append (out : Bytes) (place : Nat) (cs ds : Bytes) :
    storeChars out place (cs ++ ds) =
      (storeChars out place cs).bind fun written => storeChars written (place + cs.length) ds := by
  induction cs generalizing out place with
  | nil => rfl
  | cons c cs ih =>
    have hplace : place + (c :: cs).length = place + 1 + cs.length := by
      rw [List.length_cons]
      omega
    rw [List.cons_append, storeChars, storeChars, Option.bind_assoc, hplace]
    exact congrArg _ (funext fun written => ih written (place + 1))

/-- The turns put the text into the buffer from left to right. -/
theorem base64Turns_eq (out : Bytes) (outPos : Nat) (input : Bytes) :
    base64Turns out outPos input = storeChars out outPos (base64Loop input) := by
  induction input using base64Loop.induct generalizing out outPos with
  | case1 => rfl
  | case2 a => rfl
  | case3 a b => rfl
  | case4 a b c rest ih =>
    let triple := a.toNat * 2 ^ 16 + b.toNat * 2 ^ 8 + c.toNat
    have hloop : base64Loop (a :: b :: c :: rest) =
        [sextet triple 18, sextet triple 12, sextet triple 6, sextet triple 0] ++ base64Loop rest := rfl
    rw [hloop, storeChars_append, base64Turns]
    exact congrArg _ (funext fun written => ih written (outPos + 4))

/-- Whether there is room for the text and its end decides about everything. -/
theorem base64EncodeInto_eq (input : CObject) (out : Option CObject) :
    base64EncodeInto input.bytes (out.map CObject.bytes) =
      some (match out with
        | none => (false, none)
        | some out =>
          if (Base64.encode input.bytes).length + 1 ≤ out.bytes.length then
            (true, some (Base64.encode input.bytes ++ 0 :: out.bytes.drop ((Base64.encode input.bytes).length + 1)))
          else (false, some out.bytes)) := by
  cases out with
  | none => rfl
  | some out =>
    have hinput := input.small
    have hlength : (Base64.encode input.bytes).length = (input.bytes.length + 2) / 3 * 4 := by
      rw [← base64Loop_eq, length_base64Loop]
    have houtLen : sizeT (sizeT (input.bytes.length + 2) / 3 * 4) = (Base64.encode input.bytes).length := by
      unfold sizeT
      omega
    have hcap : sizeT ((Base64.encode input.bytes).length + 1) = (Base64.encode input.bytes).length + 1 := by
      unfold sizeT
      omega
    simp only [Option.map_some, base64EncodeInto, houtLen, hcap]
    by_cases hroom : (Base64.encode input.bytes).length + 1 ≤ out.bytes.length
    · have hstored : storeChars out.bytes 0 (Base64.encode input.bytes ++ [0]) =
          (storeChars out.bytes 0 (Base64.encode input.bytes)).bind fun written =>
            storeChar written (Base64.encode input.bytes).length 0 := by
        rw [storeChars_append, Nat.zero_add]
        exact congrArg _ (funext fun written => Option.bind_fun_some _)
      have htext : (Base64.encode input.bytes ++ [0]).length = (Base64.encode input.bytes).length + 1 :=
        List.length_append
      rw [storeChars_eq (by rw [htext, Nat.zero_add]; exact hroom), htext, Nat.zero_add, List.take_zero,
        List.nil_append, List.append_assoc] at hstored
      have hmapped := congrArg (Option.map fun out => (true, some out)) hstored
      rw [Option.map_bind] at hmapped
      rw [if_neg (Nat.not_lt.mpr hroom), if_pos hroom, base64Turns_eq, base64Loop_eq]
      exact hmapped.symm
    · rw [if_pos (Nat.lt_of_not_le hroom), if_neg hroom]

/-! The accept value. -/

/-- `BEETLE_WSS_GUID` -/
def guid : Bytes := bytes "258EAFA5-E914-47DA-95CA-C5AB0DC85B11"

/-- A key in memory, up to its NUL, and what lies behind it. -/
structure CString where
  text : Bytes
  behind : Bytes
  no_nul : 0 ∉ text
  small : (text ++ 0 :: behind).length < 2 ^ 31

def CString.memory (key : CString) : Bytes := key.text ++ 0 :: key.behind

/-- `strlen`, which reads the memory up to a NUL. -/
def strlen (memory : Bytes) : Option Nat := memory.findIdx? (· = 0)

def computeAccept (secKey : Bytes) (out : List.Vector UInt8 29) : Option (Bool × Option Bytes) :=
  (strlen secKey).bind fun len =>
    let digest := ((Sha1Context.init.update (secKey.take len)).update guid).final
    base64EncodeInto digest (some out.toList)

/-- The value that a server has to answer. -/
def acceptValue (key : Bytes) : Bytes := Base64.encode (Sha1.digest (key ++ guid))

theorem strlen_memory (key : CString) : strlen key.memory = some key.text.length := by
  have hfind (text : Bytes) (h : 0 ∉ text) : strlen (text ++ 0 :: key.behind) = some text.length := by
    induction text with
    | nil => rfl
    | cons b text ih =>
      rw [List.mem_cons, not_or] at h
      rw [strlen] at ih ⊢
      rw [List.cons_append, List.findIdx?_cons, if_neg (by simpa using Ne.symm h.1), ih h.2]
      rfl
  exact hfind key.text key.no_nul

theorem length_digest (message : Bytes) : (Sha1.digest message).length = 20 := by
  simp only [Sha1.digest, Sha1.Words.toBytes, List.flatMap_cons, List.flatMap_nil, List.length_append,
    Sha1.length_bigEndian, List.length_nil]

theorem computeAccept_eq (key : CString) (out : List.Vector UInt8 29) :
    computeAccept key.memory out = some (true, some (acceptValue key.text ++ [0])) := by
  have hsmall := key.small
  have hguid : guid.length = 36 := by decide +kernel
  have hdigest : ((Sha1Context.init.update key.text).update guid).final = Sha1.digest (key.text ++ guid) := by
    have hpieces := Sha1Context.final_foldl_update [key.text, guid]
    rw [List.flatten_cons, List.flatten_singleton, List.length_append] at hpieces
    apply hpieces
    rw [List.length_append] at hsmall
    omega
  have hlength : (acceptValue key.text).length = 28 := by
    rw [acceptValue, ← base64Loop_eq, length_base64Loop, length_digest]
  have hencode := base64EncodeInto_eq ⟨Sha1.digest (key.text ++ guid), by rw [length_digest]; decide⟩
    (some ⟨out.toList, by rw [List.Vector.toList_length]; decide⟩)
  rw [computeAccept, strlen_memory, Option.bind_some, CString.memory, List.take_left]
  dsimp only at hencode ⊢
  rw [hdigest]
  refine hencode.trans ?_
  have hroom : (acceptValue key.text).length + 1 ≤ out.toList.length := by
    rw [hlength, List.Vector.toList_length]
  have hnothing : out.toList.drop ((acceptValue key.text).length + 1) = [] := by
    apply List.drop_eq_nil_of_le
    rw [hlength, List.Vector.toList_length]
  refine congrArg some ((if_pos hroom).trans ?_)
  change (true, some (acceptValue key.text ++ 0 :: out.toList.drop ((acceptValue key.text).length + 1))) = _
  rw [hnothing]

/-- The digest, its text and the accept value are those of the standards. -/
theorem handshake_digest_is_right :
    (∀ pieces : List Bytes, pieces.flatten.length < 2 ^ 61 →
      (pieces.foldl Sha1Context.update Sha1Context.init).final = Sha1.digest pieces.flatten) ∧
    (∀ (input : CObject) (out : Option CObject), base64EncodeInto input.bytes (out.map CObject.bytes) =
      some (match out with
        | none => (false, none)
        | some out =>
          if (Base64.encode input.bytes).length + 1 ≤ out.bytes.length then
            (true, some (Base64.encode input.bytes ++ 0 :: out.bytes.drop ((Base64.encode input.bytes).length + 1)))
          else (false, some out.bytes))) ∧
    ∀ (key : CString) (out : List.Vector UInt8 29),
      computeAccept key.memory out = some (true, some (acceptValue key.text ++ [0])) :=
  ⟨Sha1Context.final_foldl_update, base64EncodeInto_eq, computeAccept_eq⟩

end Beetle.Wss
