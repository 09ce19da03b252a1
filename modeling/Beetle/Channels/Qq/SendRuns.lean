import Beetle.Channels.Qq.Send

/-! What numbers the payloads of a run of the QQ sender carry. -/
namespace Beetle.Channels.Qq
open Beetle.Lib
open Telegram (TextFormat)

/-- The payloads of a message that were rendered at a time, under its reservation. -/
structure Rendered where
  message : Nat
  reservation : QqRetryableSendReservation
  payloads : List QqPayload
  time : Nat

/-- The sender, with the message that was resolved last and its reservation, and the history of what was rendered. -/
structure QqSender where
  active : Option QqRetryableSendReservation
  turnTracker : QqTurnReservationTracker
  clock : Nat
  current : Option (Nat × QqRetryableSendReservation)
  rendered : List Rendered

inductive QqAction where
  | resolve (message nowSecs : Nat) (evicted : List QqReservationKey) (popped : Option String)
  | render (nowSecs : Nat) (posted : Except Error UploadResponse)
  | release (transportSendId : Nat)

def QqSender.start : QqSender := ⟨none, ⟨∅, ∅⟩, 0, none, []⟩

section
variable (renderQqPlainText : String → String) (messages : Nat → QqMessage)

/-- The clock does not go back. -/
def step (s : QqSender) : QqAction → Option QqSender
  | .resolve n nowSecs evicted popped =>
    if nowSecs < s.clock then none
    else
      (resolveRetryableSendReservation renderQqPlainText s.active s.turnTracker nowSecs evicted popped (messages n)).map
        fun (active, turnTracker, reservation) => ⟨active, turnTracker, nowSecs, some (n, reservation), s.rendered⟩
  | .render nowSecs posted =>
    if nowSecs < s.clock then none
    else
      s.current.map fun (n, reservation) =>
        match renderQqSendPayloads renderQqPlainText posted (messages n) reservation.msgId reservation.msgSeq with
        | .ok payloads =>
          { s with clock := nowSecs, rendered := s.rendered ++ [⟨n, reservation, payloads, nowSecs⟩] }
        | .error _ => { s with clock := nowSecs }
  | .release transportSendId =>
    some { s with active := releaseRetryableSendReservation s.active transportSendId }

def Rendered.answers (messages : Nat → QqMessage) (e : Rendered) (chatId msgId : String) : Prop :=
  (messages e.message).chatId = chatId ∧ e.reservation.msgId = some msgId

/-- Complete, the same for every retry, and never the same for two messages that answer the
same message id within the time that an entry is kept. -/
structure SeqsKept (s : QqSender) : Prop where
  complete : ∀ e ∈ s.rendered, ∀ payload ∈ e.payloads, payload.msgSeq.isSome
  retried : ∀ e ∈ s.rendered, ∀ e' ∈ s.rendered, e.message = e'.message →
    e.payloads.map (·.msgSeq) = e'.payloads.map (·.msgSeq)
  distinct : ∀ e ∈ s.rendered, ∀ e' ∈ s.rendered, e.message ≠ e'.message → ∀ chatId msgId,
    e.answers messages chatId msgId → e'.answers messages chatId msgId →
    e.time ≤ e'.time + qqTurnReservationTtlSecs → e'.time ≤ e.time + qqTurnReservationTtlSecs →
    ∀ payload ∈ e.payloads, ∀ payload' ∈ e'.payloads, payload.msgSeq ≠ payload'.msgSeq

/-- A message that was rendered is resolved again only while its reservation is active, a
message id that was answered lately still has its entry, no number overflows, and a text in a
format whose chunks are not counted has no second one. -/
def KeepsNumbers (s : QqSender) : QqAction → Prop
  | .resolve n nowSecs evicted popped =>
    if (s.active.any fun existing => existing.transportSendId = (messages n).transportSendId) then
      s.current.map (·.1) = some n
    else
      (∀ e ∈ s.rendered, e.message ≠ n) ∧
      ∀ tracker ∈ s.turnTracker.prune nowSecs evicted,
        (∀ e ∈ s.rendered, (messages e.message).chatId = (messages n).chatId →
          nowSecs ≤ e.time + qqTurnReservationTtlSecs → ∀ msgId ∈ e.reservation.msgId,
          tracker.Names popped (messages n) msgId → .fromMsgId (messages n).chatId msgId ∈ tracker.byKey) ∧
        1 + max (qqPayloadChunkCountForMessage renderQqPlainText (messages n)) 1 < 2 ^ 64 ∧
        ∀ key ∈ tracker.byKey.keys, ∀ state ∈ tracker.byKey.lookup key,
          state.nextSeq + max (qqPayloadChunkCountForMessage renderQqPlainText (messages n)) 1 < 2 ^ 64
  | .render _ _ => ∀ current ∈ s.current, (messages current.1).ChunksCounted
  | .release _ => True

instance (s : QqSender) (a : QqAction) : Decidable (KeepsNumbers renderQqPlainText messages s a) := by
  cases a <;> unfold KeepsNumbers <;> infer_instance

end

namespace QqRetryableSendReservation

def first (reservation : QqRetryableSendReservation) : Nat := reservation.msgSeq.elim 0 (·.start)

def stop (reservation : QqRetryableSendReservation) : Nat := reservation.msgSeq.elim 0 fun seqs => seqs.start + seqs.chunkCount

/-- There are numbers for so many payloads. -/
def Covers (reservation : QqRetryableSendReservation) (count : Nat) : Prop :=
  ∃ seqs, reservation.msgSeq = some seqs ∧ count ≤ seqs.chunkCount ∧ seqs.start + seqs.chunkCount < 2 ^ 64

end QqRetryableSendReservation

/-- The payloads carry the first numbers of the reservation. -/
def Rendered.Numbered (e : Rendered) (count : Nat) : Prop :=
  e.reservation.Covers count ∧ e.payloads.map (·.msgSeq) = (List.range count).map fun i => some (e.reservation.first + i)

/-- What holds of the message that was resolved last. -/
structure CurrentKept (renderQqPlainText : String → String) (messages : Nat → QqMessage) (s : QqSender) (n : Nat)
    (reservation : QqRetryableSendReservation) : Prop where
  covers : reservation.Covers (max (qqPayloadChunkCountForMessage renderQqPlainText (messages n)) 1)
  same : ∀ e ∈ s.rendered, e.message = n → e.reservation = reservation
  next : ∀ msgId ∈ reservation.msgId, ∀ state,
    s.turnTracker.byKey.lookup (.fromMsgId (messages n).chatId msgId) = some state → reservation.stop ≤ state.nextSeq
  apart : ∀ msgId ∈ reservation.msgId, ∀ e ∈ s.rendered, e.message ≠ n → e.answers messages (messages n).chatId msgId →
    s.clock ≤ e.time + qqTurnReservationTtlSecs → e.reservation.stop ≤ reservation.first

/-- What every step keeps. -/
structure Kept (renderQqPlainText : String → String) (messages : Nat → QqMessage) (s : QqSender) : Prop where
  sound : s.turnTracker.Sound
  active : ∀ reservation, s.active = some reservation → ∃ n, s.current = some (n, reservation)
  current : ∀ n reservation, s.current = some (n, reservation) →
    CurrentKept renderQqPlainText messages s n reservation
  past : ∀ e ∈ s.rendered, e.time ≤ s.clock
  numbered : ∀ e ∈ s.rendered, e.Numbered (payloadCount renderQqPlainText (messages e.message))
  next : ∀ e ∈ s.rendered, ∀ chatId msgId, e.answers messages chatId msgId →
    s.clock ≤ e.time + qqTurnReservationTtlSecs → ∀ state,
    s.turnTracker.byKey.lookup (.fromMsgId chatId msgId) = some state → e.reservation.stop ≤ state.nextSeq
  same : ∀ e ∈ s.rendered, ∀ e' ∈ s.rendered, e.message = e'.message → e.reservation = e'.reservation
  apart : ∀ e ∈ s.rendered, ∀ e' ∈ s.rendered, e.message ≠ e'.message → ∀ chatId msgId,
    e.answers messages chatId msgId → e'.answers messages chatId msgId →
    e.time ≤ e'.time + qqTurnReservationTtlSecs → e'.time ≤ e.time + qqTurnReservationTtlSecs →
    e.reservation.stop ≤ e'.reservation.first ∨ e'.reservation.stop ≤ e.reservation.first

section
variable {renderQqPlainText : String → String} {messages : Nat → QqMessage} {s t : QqSender} {e : Rendered}
  {reservation : QqRetryableSendReservation}

theorem Rendered.Numbered.mem {count : Nat} (h : e.Numbered count) {payload : QqPayload} (hp : payload ∈ e.payloads) :
    ∃ seq, payload.msgSeq = some seq ∧ e.reservation.first ≤ seq ∧ seq < e.reservation.stop := by
  obtain ⟨⟨seqs, hseqs, hle, -⟩, hmap⟩ := h
  have hin := List.mem_map_of_mem (f := fun payload : QqPayload => payload.msgSeq) hp
  rw [hmap] at hin
  obtain ⟨i, hi, heq⟩ := List.mem_map.mp hin
  refine ⟨_, heq.symm, Nat.le_add_right _ _, ?_⟩
  have hlt := List.mem_range.mp hi
  simp only [QqRetryableSendReservation.first, QqRetryableSendReservation.stop, hseqs, Option.elim_some]
  omega

theorem Kept.seqsKept (h : Kept renderQqPlainText messages s) : SeqsKept messages s where
  complete e he payload hp := by
    obtain ⟨seq, hseq, -⟩ := (h.numbered e he).mem hp
    rw [hseq]
    rfl
  retried e he e' he' heq := by
    rw [(h.numbered e he).2, (h.numbered e' he').2, h.same e he e' he' heq, heq]
  distinct e he e' he' hne chatId msgId ha ha' htime htime' payload hp payload' hp' := by
    obtain ⟨seq, hseq, hfirst, hstop⟩ := (h.numbered e he).mem hp
    obtain ⟨seq', hseq', hfirst', hstop'⟩ := (h.numbered e' he').mem hp'
    rw [hseq, hseq', Ne, Option.some.injEq]
    rcases h.apart e he e' he' hne chatId msgId ha ha' htime htime' with hbefore | hbefore
    · omega
    · omega

theorem seqForChunk_of_lt {seqs : QqMsgSeqReservation} {i : Nat} (hi : i < seqs.chunkCount)
    (hlt : seqs.start + seqs.chunkCount < 2 ^ 64) : seqs.seqForChunk i = some (seqs.start + i) := by
  rw [QqMsgSeqReservation.seqForChunk, if_neg (by omega), saturatingAddU64, Nat.min_eq_left (by omega)]

theorem Kept.start : Kept renderQqPlainText messages .start where
  sound := by
    refine ⟨fun chatId msgId state h => ?_, fun reqKey state h => ?_, fun reqKey key h => ?_⟩
    all_goals
      rw [QqSender.start, Finmap.lookup_empty] at h
      cases h
  active _ h := by cases h
  current _ _ h := by cases h
  past _ h := by cases h
  numbered _ h := by cases h
  next _ h := by cases h
  same _ h := by cases h
  apart _ h := by cases h

theorem Kept.later (h : Kept renderQqPlainText messages s) {nowSecs : Nat} (hle : s.clock ≤ nowSecs) :
    Kept renderQqPlainText messages { s with clock := nowSecs } where
  sound := h.sound
  active := h.active
  current n reservation hcurrent := by
    obtain ⟨hcovers, hsame, hnext, hapart⟩ := h.current n reservation hcurrent
    exact ⟨hcovers, hsame, hnext, fun msgId hmsg e he hne ha hlate => hapart msgId hmsg e he hne ha (hle.trans hlate)⟩
  past e he := (h.past e he).trans hle
  numbered := h.numbered
  next e he chatId msgId ha hlate := h.next e he chatId msgId ha (hle.trans hlate)
  same := h.same
  apart := h.apart

section
variable (h : Kept renderQqPlainText messages s)
include h

theorem Kept.released (transportSendId : Nat) :
    Kept renderQqPlainText messages { s with active := releaseRetryableSendReservation s.active transportSendId } where
  sound := h.sound
  active reservation hactive := by
    refine h.active reservation ?_
    simp only [releaseRetryableSendReservation] at hactive
    split at hactive
    · cases hactive
    · exact hactive
  current n reservation hcurrent :=
    let hkept := h.current n reservation hcurrent
    ⟨hkept.covers, hkept.same, hkept.next, hkept.apart⟩
  past := h.past
  numbered := h.numbered
  next := h.next
  same := h.same
  apart := h.apart

/-- The payloads that are rendered for the current message come after all others that are near enough. -/
theorem Kept.rendered {n : Nat} (hcurrent : s.current = some (n, reservation)) {payloads : List QqPayload}
    (hnumbered : (Rendered.mk n reservation payloads s.clock).Numbered (payloadCount renderQqPlainText (messages n))) :
    Kept renderQqPlainText messages { s with rendered := s.rendered ++ [⟨n, reservation, payloads, s.clock⟩] } := by
  obtain ⟨hcovers, hsame, hnext, hapart⟩ := h.current n reservation hcurrent
  have hcases {e : Rendered} (he : e ∈ s.rendered ++ [⟨n, reservation, payloads, s.clock⟩]) :
      e ∈ s.rendered ∨ e = ⟨n, reservation, payloads, s.clock⟩ := by
    simpa using he
  refine ⟨h.sound, h.active, ?_, ?_, ?_, ?_, ?_, ?_⟩
  · intro n' reservation' hcurrent'
    obtain ⟨rfl, rfl⟩ := Prod.mk.inj (Option.some.inj (hcurrent.symm.trans hcurrent'))
    refine ⟨hcovers, fun e he heq => ?_, hnext, fun msgId hmsg e he hne ha hlate => ?_⟩
    · rcases hcases he with he | rfl
      · exact hsame e he heq
      · rfl
    · rcases hcases he with he | rfl
      · exact hapart msgId hmsg e he hne ha hlate
      · exact absurd rfl hne
  · intro e he
    rcases hcases he with he | rfl
    · exact h.past e he
    · exact Nat.le_refl _
  · intro e he
    rcases hcases he with he | rfl
    · exact h.numbered e he
    · exact hnumbered
  · intro e he chatId msgId ha hlate state hstate
    rcases hcases he with he | rfl
    · exact h.next e he chatId msgId ha hlate state hstate
    · obtain ⟨rfl, hmsg⟩ := ha
      exact hnext msgId hmsg state hstate
  · intro e he e' he' heq
    rcases hcases he with he | rfl
    · rcases hcases he' with he' | rfl
      · exact h.same e he e' he' heq
      · exact hsame e he heq
    · rcases hcases he' with he' | rfl
      · exact (hsame e' he' heq.symm).symm
      · rfl
  · intro e he e' he' hne chatId msgId ha ha' htime htime'
    rcases hcases he with he | rfl
    · rcases hcases he' with he' | rfl
      · exact h.apart e he e' he' hne chatId msgId ha ha' htime htime'
      · obtain ⟨rfl, hmsg⟩ := ha'
        exact .inl (hapart msgId hmsg e he hne ha htime')
    · rcases hcases he' with he' | rfl
      · obtain ⟨rfl, hmsg⟩ := ha
        exact .inr (hapart msgId hmsg e' he' hne.symm ha' htime)
      · exact absurd rfl hne

/-- A fresh reservation comes after all numbers that answer its message id and are near enough. -/
theorem Kept.reserved {n nowSecs : Nat} {evicted : List QqReservationKey}
    {popped : Option String} {tracker : QqTurnReservationTracker}
    (hv2 : isV2Chat (messages n).chatId) (hle : s.clock ≤ nowSecs) (hfresh : ∀ e ∈ s.rendered, e.message ≠ n)
    (hprune : s.turnTracker.prune nowSecs evicted = some tracker)
    (hkept : ∀ e ∈ s.rendered, (messages e.message).chatId = (messages n).chatId →
      nowSecs ≤ e.time + qqTurnReservationTtlSecs → ∀ msgId ∈ e.reservation.msgId,
      tracker.Names popped (messages n) msgId → .fromMsgId (messages n).chatId msgId ∈ tracker.byKey)
    (hone : 1 + max (qqPayloadChunkCountForMessage renderQqPlainText (messages n)) 1 < 2 ^ 64)
    (hroom : ∀ key ∈ tracker.byKey.keys, ∀ state ∈ tracker.byKey.lookup key,
      state.nextSeq + max (qqPayloadChunkCountForMessage renderQqPlainText (messages n)) 1 < 2 ^ 64)
    {tracker' : QqTurnReservationTracker} (hreserve : tracker.reservePruned nowSecs popped (messages n)
      (qqPayloadChunkCountForMessage renderQqPlainText (messages n)) = (tracker', reservation)) :
    Kept renderQqPlainText messages ⟨some reservation, tracker', nowSecs, some (n, reservation), s.rendered⟩ := by
  have hwithin := QqTurnReservationTracker.within_prune hprune
  obtain ⟨start, hr⟩ := (h.sound.within hwithin).reserves hreserve
  have hseq := hr.msgSeq hv2
  have hfirst : reservation.first = start := by rw [QqRetryableSendReservation.first, hseq, Option.elim_some]
  have hstop : reservation.stop = start + max (qqPayloadChunkCountForMessage renderQqPlainText (messages n)) 1 := by
    rw [QqRetryableSendReservation.stop, hseq, Option.elim_some]
  have hlt : start + max (qqPayloadChunkCountForMessage renderQqPlainText (messages n)) 1 < 2 ^ 64 := by
    rcases hr.begun with rfl | ⟨key, state, hstate, rfl⟩
    · exact hone
    · exact hroom key (Finmap.mem_keys.mpr (Finmap.mem_of_lookup_eq_some hstate)) state hstate
  have hnext {msgId : String} (hmsg : reservation.msgId = some msgId) {state : QqTurnReservationState}
      (hstate : tracker'.byKey.lookup (.fromMsgId (messages n).chatId msgId) = some state) :
      state.nextSeq = reservation.stop := by
    obtain ⟨state', hstate', heq⟩ := hr.next msgId hmsg
    rw [← Option.some.inj (hstate'.symm.trans hstate), heq, hstop]
    exact Nat.min_eq_left (by omega)
  have hapart {msgId : String} (hmsg : reservation.msgId = some msgId) {e : Rendered} (he : e ∈ s.rendered)
      (ha : e.answers messages (messages n).chatId msgId) (hlate : nowSecs ≤ e.time + qqTurnReservationTtlSecs) :
      e.reservation.stop ≤ start := by
    have hin : .fromMsgId (messages n).chatId msgId ∈ tracker.byKey :=
      (hr.named msgId hmsg).elim id (hkept e he ha.1 hlate msgId ha.2)
    obtain ⟨state, hstate⟩ := Finmap.mem_iff.mp hin
    rw [hr.continued msgId state hmsg hstate]
    exact h.next e he _ msgId ha (hle.trans hlate) state (hwithin.byKey _ state hstate)
  refine ⟨hr.sound, ?_, ?_, ?_, h.numbered, ?_, h.same, h.apart⟩
  · rintro _ ⟨⟩
    exact ⟨n, rfl⟩
  · rintro _ _ ⟨⟩
    refine ⟨⟨_, hseq, Nat.le_refl _, hlt⟩, fun e he heq => absurd heq (hfresh e he), ?_, ?_⟩
    · intro msgId hmsg state hstate
      exact (hnext hmsg hstate).ge
    · intro msgId hmsg e he _ ha hlate
      rw [hfirst]
      exact hapart hmsg he ha hlate
  · intro e he
    exact (h.past e he).trans hle
  · intro e he chatId msgId ha hlate state hstate
    by_cases hanswered : chatId = (messages n).chatId ∧ reservation.msgId = some msgId
    · obtain ⟨rfl, hmsg⟩ := hanswered
      have hbefore := hapart hmsg he ha hlate
      rw [hnext hmsg hstate, hstop]
      omega
    · have hold := hwithin.byKey _ state (hr.others chatId msgId state hanswered hstate)
      exact h.next e he chatId msgId ha (hle.trans hlate) state hold

end

theorem Kept.step (hv2 : ∀ n, isV2Chat (messages n).chatId) {a : QqAction} (h : Kept renderQqPlainText messages s)
    (hc : KeepsNumbers renderQqPlainText messages s a) (ht : step renderQqPlainText messages s a = some t) :
    Kept renderQqPlainText messages t := by
  cases a with
  | resolve n nowSecs evicted popped =>
    simp only [Qq.step] at ht
    split at ht
    · cases ht
    · rename_i hle
      have hle : s.clock ≤ nowSecs := by omega
      obtain ⟨⟨active, tracker', reservation⟩, hresolve, rfl⟩ := Option.map_eq_some_iff.mp ht
      unfold resolveRetryableSendReservation at hresolve
      cases hactive : s.active.filter (·.transportSendId = (messages n).transportSendId) with
      | some existing =>
        simp only [hactive, Option.some.injEq, Prod.mk.injEq] at hresolve
        obtain ⟨rfl, rfl, rfl⟩ := hresolve
        obtain ⟨hsome, hid⟩ := Option.filter_eq_some_iff.mp hactive
        -- its reservation is that of the current message, which the condition says it is
        rw [KeepsNumbers, if_pos (by rw [hsome]; exact hid)] at hc
        obtain ⟨n', hcurrent⟩ := h.active existing hsome
        rw [hcurrent, Option.map_some, Option.some.injEq] at hc
        obtain rfl : n' = n := hc
        rw [← hcurrent]
        exact h.later hle
      | none =>
        simp only [hactive, Option.map_eq_some_iff, reserveFreshSendReservation] at hresolve
        obtain ⟨_, ⟨tracker, hprune, rfl⟩, heq⟩ := hresolve
        obtain ⟨rfl, rfl, rfl⟩ := heq
        have hother : ¬ (s.active.any fun existing => existing.transportSendId = (messages n).transportSendId) := by
          intro hany
          obtain ⟨existing, hsome, hid⟩ := (Option.any_eq_true _ _).mp hany
          rw [Option.filter_eq_none_iff] at hactive
          exact hactive existing hsome hid
        rw [KeepsNumbers, if_neg hother] at hc
        obtain ⟨hfresh, hc⟩ := hc
        obtain ⟨hkept, hone, hroom⟩ := hc tracker hprune
        exact h.reserved (hv2 n) hle hfresh hprune hkept hone hroom rfl
  | render nowSecs posted =>
    simp only [Qq.step] at ht
    split at ht
    · cases ht
    · rename_i hle
      have hle : s.clock ≤ nowSecs := by omega
      obtain ⟨⟨n, reservation⟩, hcurrent, rfl⟩ := Option.map_eq_some_iff.mp ht
      have hlater := h.later hle
      cases hrender : renderQqSendPayloads renderQqPlainText posted (messages n) reservation.msgId
        reservation.msgSeq with
      | error e => simpa only [hrender] using hlater
      | ok payloads =>
        simp only
        refine hlater.rendered hcurrent ?_
        obtain ⟨seqs, hseqs, hcount, hlt⟩ := (h.current n reservation hcurrent).covers
        have hall : payloadCount renderQqPlainText (messages n) ≤ seqs.chunkCount :=
          (payloadCount_le (hc (n, reservation) hcurrent)).trans hcount
        refine ⟨⟨seqs, hseqs, hall, hlt⟩, ?_⟩
        rw [renderQqSendPayloads_msgSeq (hv2 n) hrender]
        apply List.map_congr_left
        intro i hi
        rw [QqRetryableSendReservation.first, hseqs, Option.bind_some, Option.elim_some]
        exact seqForChunk_of_lt ((List.mem_range.mp hi).trans_le hall) hlt
  | release transportSendId =>
    cases ht
    exact h.released transportSendId

end

/-- In every run that keeps its reservations and the entries behind them, the numbers are complete, kept by
retries, and different for the answers to one message. -/
theorem seqs_kept_of_keepsNumbers (renderQqPlainText : String → String) (messages : Nat → QqMessage)
    (hv2 : ∀ n, isV2Chat (messages n).chatId) (as : List QqAction)
    (h : Meets (step renderQqPlainText messages) (KeepsNumbers renderQqPlainText messages) as .start) :
    Always (step renderQqPlainText messages) (SeqsKept messages) as .start :=
  always_of_meets (I := Kept renderQqPlainText messages) (fun _ _ _ hs hc ht => hs.step hv2 hc ht)
    (fun _ hs => hs.seqsKept) as _ .start h

/-- Replies to one message of a single chat. -/
def replyTo (n : Nat) : QqMessage := ⟨⟨n, "c2c:u", "hi", none, .primary⟩, .text "hi" .plain, "m"⟩

def attempt (n nowSecs : Nat) : List QqAction := [.resolve n nowSecs [] none, .render nowSecs (.ok ⟨200, .ok none⟩)]

/-- A reply with a retry, and a second one, which continues the numbers. -/
theorem second_reply_continues : Always (step id replyTo) (SeqsKept replyTo)
    (attempt 0 10 ++ attempt 0 20 ++ .release 0 :: attempt 1 30) .start :=
  seqs_kept_of_keepsNumbers id replyTo (fun _ => (by decide : isV2Chat "c2c:u" = true)) _ (by decide)

/-- What is rendered for a reply that gets the first number. -/
def firstNumber (n nowSecs : Nat) : Rendered :=
  ⟨n, ⟨n, some "m", some ⟨1, 1⟩⟩, [⟨.text "hi", some "m", some 1⟩], nowSecs⟩

/-- A retry does not keep the entry alive: the second reply, within a minute of it, starts again. -/
theorem second_reply_restarts : ¬ Always (step id replyTo) (SeqsKept replyTo)
    (attempt 0 0 ++ attempt 0 250 ++ .release 0 :: attempt 1 301) .start := by
  intro h
  obtain ⟨t, ht, hrendered⟩ : ∃ t,
      exec (step id replyTo) (attempt 0 0 ++ attempt 0 250 ++ .release 0 :: attempt 1 301) .start = some t ∧
        t.rendered = [firstNumber 0 0, firstNumber 0 250, firstNumber 1 301] := ⟨_, rfl, rfl⟩
  have hdistinct := (h.last ht).distinct (firstNumber 0 250) (by simp [hrendered]) (firstNumber 1 301)
    (by simp [hrendered]) (by decide) "c2c:u" "m" ⟨rfl, rfl⟩ ⟨rfl, rfl⟩ (by decide) (by decide)
  exact hdistinct _ (List.mem_singleton_self _) _ (List.mem_singleton_self _) rfl

end Beetle.Channels.Qq
