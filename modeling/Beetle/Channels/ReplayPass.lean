import Mathlib.Data.Nat.Find
import Beetle.Channels.Dispatch

/-! One pass over the deferred messages, and what it leaves untried. -/
namespace Beetle.Channels
open Beetle.Lib

/-- What is found for a message when the pass comes to it. -/
structure Answer where
  inCooldown : Bool
  rejected : Bool
  outcome : DispatchOutcome

namespace Answer

def sent (a : Answer) : Bool := !a.rejected && a.outcome.isSent

/-- The message is tried and stays. -/
@[grind =] def refused (a : Answer) : Bool := !a.inCooldown && !a.sent

/-- The message is tried and can never be sent. -/
def failed (a : Answer) : Bool := !a.rejected && a.outcome = .failed

end Answer

/-- The number of the next check and the places of the messages tried so far. -/
abbrev Progress := Nat × List Nat

variable (answers : Nat → Answer) (buffer : List OutboundMsg)

@[grind =]
def checkCooldown (_channel : String) (s : Progress) : Bool × Progress := ((answers s.1).inCooldown, s.1 + 1, s.2)

@[grind =] def trySend (msg : OutboundMsg × Nat) (s : Progress) : Bool × Progress :=
  ((answers msg.2).sent, s.1, s.2 ++ [msg.2])

/-- The pass of a tick over messages that carry their places in the buffer. -/
def pass : List (OutboundMsg × Nat) × Progress :=
  replayReadyMessagesForTick Prod.fst (checkCooldown answers) (trySend answers) buffer.zipIdx (0, [])

def tried : List Nat := (pass answers buffer).2.2

def left : List Nat := (pass answers buffer).1.map Prod.snd

/-- No message of its channel is older. -/
def Oldest (i : Nat) : Prop :=
  ∃ msg, buffer[i]? = some msg ∧ ∀ j < i, ∀ other, buffer[j]? = some other → other.channel ≠ msg.channel

/-- Every channel gets its try, and what can never be sent does not stay. -/
structure Unblocked : Prop where
  tries : ∀ i, Oldest buffer i → (answers i).inCooldown = false → i ∈ tried answers buffer
  drops : ∀ i ∈ tried answers buffer, (answers i).failed = true → i ∉ left answers buffer

/-- The first message that is tried and stays. -/
def FirstRefused (i : Nat) : Prop :=
  i < buffer.length ∧ (answers i).refused = true ∧ ∀ j < i, (answers j).refused = false

/-! What the pass tries and leaves. -/

section
variable {answers}

theorem replay_tried (l : List OutboundMsg) (k : Nat) (log : List Nat) (i : Nat) :
    i ∈ (replayCooldownBufferWith Prod.fst (checkCooldown answers) (trySend answers) (l.zipIdx k) (k, log)).2.2 ↔
      i ∈ log ∨ (k ≤ i ∧ i < k + l.length ∧ (answers i).inCooldown = false ∧
        ∀ j, k ≤ j → j < i → (answers j).refused = false) := by
  induction l generalizing k log with
  | nil =>
    simp only [List.zipIdx_nil, replayCooldownBufferWith, List.length_nil, Nat.add_zero]
    constructor
    · exact .inl
    · rintro (h | ⟨hk, hi, -⟩)
      · exact h
      · omega
  | cons msg l ih =>
    have hlater (h : (answers k).refused = false) : (k + 1 ≤ i ∧ i < k + 1 + l.length ∧
        (answers i).inCooldown = false ∧ ∀ j, k + 1 ≤ j → j < i → (answers j).refused = false) ↔
        (k < i ∧ i < k + (l.length + 1) ∧ (answers i).inCooldown = false ∧
          ∀ j, k ≤ j → j < i → (answers j).refused = false) := by
      constructor
      · rintro ⟨hk, hi, hcool, hbefore⟩
        refine ⟨hk, by omega, hcool, fun j hj hji => ?_⟩
        rcases Nat.eq_or_lt_of_le hj with rfl | hj
        · exact h
        · exact hbefore j hj hji
      · rintro ⟨hk, hi, hcool, hbefore⟩
        exact ⟨hk, by omega, hcool, fun j hj hji => hbefore j (by omega) hji⟩
    rw [List.zipIdx_cons, replayCooldownBufferWith, checkCooldown]
    cases hcool : (answers k).inCooldown with
    | true =>
      have hrefused : (answers k).refused = false := by simp [Answer.refused, hcool]
      dsimp only
      rw [ih, hlater hrefused, List.length_cons]
      apply or_congr_right
      constructor
      · rintro ⟨hk, hrest⟩
        exact ⟨by omega, hrest⟩
      · rintro ⟨hk, hi, hcool', hbefore⟩
        refine ⟨Nat.lt_of_le_of_ne hk ?_, hi, hcool', hbefore⟩
        rintro rfl
        rw [hcool] at hcool'
        cases hcool'
    | false =>
      dsimp only
      rw [trySend]
      cases hsent : (answers k).sent with
      | true =>
        have hrefused : (answers k).refused = false := by simp [Answer.refused, hcool, hsent]
        dsimp only
        rw [ih, hlater hrefused, List.length_cons, List.mem_append, List.mem_singleton, or_assoc]
        apply or_congr_right
        constructor
        · rintro (rfl | ⟨hk, hrest⟩)
          · exact ⟨Nat.le_refl i, by omega, hcool, fun j hj hji => by omega⟩
          · exact ⟨by omega, hrest⟩
        · rintro ⟨hk, hi, hrest⟩
          rcases Nat.eq_or_lt_of_le hk with rfl | hk
          · exact .inl rfl
          · exact .inr ⟨hk, hi, hrest⟩
      | false =>
        have hrefused : (answers k).refused = true := by simp [Answer.refused, hcool, hsent]
        dsimp only
        rw [List.length_cons, List.mem_append, List.mem_singleton]
        apply or_congr_right
        constructor
        · rintro rfl
          exact ⟨Nat.le_refl i, by omega, hcool, fun j hj hji => by omega⟩
        · rintro ⟨hk, -, -, hbefore⟩
          rcases Nat.eq_or_lt_of_le hk with rfl | hk
          · rfl
          · rw [hbefore k (Nat.le_refl k) hk] at hrefused
            cases hrefused

/-- What is refused stays, whether it is tried or not. -/
theorem mem_left_of_refused {l : List OutboundMsg} {k i : Nat} {log : List Nat} (hk : k ≤ i) (hi : i < k + l.length)
    (h : (answers i).refused = true) :
    i ∈ (replayCooldownBufferWith Prod.fst (checkCooldown answers) (trySend answers) (l.zipIdx k) (k, log)).1.map
      Prod.snd := by
  induction l generalizing k log with
  | nil =>
    rw [List.length_nil] at hi
    omega
  | cons msg l ih =>
    rw [List.length_cons] at hi
    have hrefused := h
    simp only [Answer.refused, Bool.and_eq_true, Bool.not_eq_true'] at hrefused
    rw [List.zipIdx_cons, replayCooldownBufferWith, checkCooldown]
    cases hcool : (answers k).inCooldown with
    | true =>
      dsimp only
      have hne : k ≠ i := by
        rintro rfl
        rw [hcool] at hrefused
        cases hrefused.1
      exact List.mem_cons_of_mem _ (ih (by omega) (by omega))
    | false =>
      dsimp only
      rw [trySend]
      cases hsent : (answers k).sent with
      | true =>
        dsimp only
        have hne : k ≠ i := by
          rintro rfl
          rw [hsent] at hrefused
          cases hrefused.2
        exact ih (by omega) (by omega)
      | false =>
        dsimp only
        have hplace : i - k < (msg :: l).length := by
          rw [List.length_cons]
          omega
        obtain ⟨other, hother⟩ : ∃ other, (msg :: l)[i - k]? = some other := ⟨_, List.getElem?_eq_getElem hplace⟩
        rw [← List.zipIdx_cons, List.mem_map]
        exact ⟨(other, i), List.mk_mem_zipIdx_iff_le_and_getElem?_sub.mpr ⟨hk, hother⟩, rfl⟩

end

variable {answers buffer} {i : Nat}

theorem mem_tried_iff : i ∈ tried answers buffer ↔
    i < buffer.length ∧ (answers i).inCooldown = false ∧ ∀ j < i, (answers j).refused = false := by
  unfold tried pass replayReadyMessagesForTick
  rw [replay_tried]
  simp

/-- Some message before a place is refused, or none is. -/
theorem exists_firstRefused (hi : i ≤ buffer.length) (h : ¬ ∀ j < i, (answers j).refused = false) :
    ∃ j < i, FirstRefused answers buffer j := by
  have hexists : ∃ j, j < i ∧ (answers j).refused = true := by
    by_contra hnone
    apply h
    intro j hj
    rw [Bool.eq_false_iff]
    exact fun hrefused => hnone ⟨j, hj, hrefused⟩
  obtain ⟨hlt, hrefused⟩ := Nat.find_spec hexists
  refine ⟨Nat.find hexists, hlt, by omega, hrefused, fun j hj => ?_⟩
  rw [Bool.eq_false_iff]
  exact fun hj' => Nat.find_min hexists hj ⟨by omega, hj'⟩

theorem lt_of_oldest (h : Oldest buffer i) : i < buffer.length := by
  obtain ⟨msg, hmsg, -⟩ := h
  exact (List.getElem?_eq_some_iff.mp hmsg).1

/-- A pass blocks no channel exactly when the first message that it tries and keeps may be sent later, and no
other channel has its oldest message behind that one. -/
theorem replay_ready_messages_unblocked_iff (answers : Nat → Answer) (buffer : List OutboundMsg) :
    Unblocked answers buffer ↔ ∀ i, FirstRefused answers buffer i → (answers i).failed = false ∧
      ∀ j, i < j → Oldest buffer j → (answers j).inCooldown = true := by
  constructor
  · rintro ⟨htries, hdrops⟩ i ⟨hi, hrefused, hbefore⟩
    have hcool : (answers i).inCooldown = false := by
      simp only [Answer.refused, Bool.and_eq_true, Bool.not_eq_true'] at hrefused
      exact hrefused.1
    refine ⟨?_, fun j hij holdest => ?_⟩
    · rw [Bool.eq_false_iff]
      intro hfailed
      apply hdrops i (mem_tried_iff.mpr ⟨hi, hcool, hbefore⟩) hfailed
      exact mem_left_of_refused (Nat.zero_le i) (by omega) hrefused
    · rw [← Bool.not_eq_false]
      intro hready
      have hnone := (mem_tried_iff.mp (htries j holdest hready)).2.2 i hij
      rw [hrefused] at hnone
      cases hnone
  · intro h
    constructor
    · intro i holdest hready
      refine mem_tried_iff.mpr ⟨lt_of_oldest holdest, hready, ?_⟩
      by_contra hsome
      obtain ⟨j, hj, hfirst⟩ := exists_firstRefused (Nat.le_of_lt (lt_of_oldest holdest)) hsome
      have hcool := (h j hfirst).2 i hj holdest
      rw [hready] at hcool
      cases hcool
    · intro i htried hfailed
      obtain ⟨hi, hcool, hbefore⟩ := mem_tried_iff.mp htried
      have hsent : (answers i).sent = false := by
        simp only [Answer.failed, Bool.and_eq_true, decide_eq_true_eq] at hfailed
        simp [Answer.sent, DispatchOutcome.isSent, hfailed.2]
      have hfirst : FirstRefused answers buffer i := ⟨hi, by simp [Answer.refused, hcool, hsent], hbefore⟩
      rw [(h i hfirst).1] at hfailed
      cases hfailed

/-- A message that can never be sent stays in front of one of another channel. -/
theorem failed_message_blocks_channel :
    ¬ Unblocked (fun i => if i = 0 then ⟨false, false, .failed⟩ else ⟨false, false, .sent⟩)
      [⟨"a", .text "a", "telegram", "1", some "r1", .primary⟩, ⟨"b", .text "b", "feishu", "2", some "r2", .primary⟩] := by
  intro h
  have holdest : Oldest [⟨"a", .text "a", "telegram", "1", some "r1", .primary⟩,
      ⟨"b", .text "b", "feishu", "2", some "r2", .primary⟩] 1 := by
    refine ⟨_, rfl, fun j hj other hother => ?_⟩
    obtain rfl : j = 0 := by omega
    obtain rfl := Option.some.inj hother
    decide
  have htried := h.tries 1 holdest rfl
  revert htried
  decide

end Beetle.Channels
