import Beetle.Channels.Telegram.Send
import Beetle.Lib.Maps

/-! The QQ sender: the numbers that the payloads of a reply carry, and the payloads. -/
namespace Beetle.Channels.Qq
open Beetle.Lib
open Telegram (TextFormat)

def qqMaxMessageLen : Nat := 4096

def qqTurnReservationTtlSecs : Nat := 300

def qqTurnReservationCacheMax : Nat := 64

/-- `u64::saturating_add`. -/
def saturatingAddU64 (a b : Nat) : Nat := min (a + b) (2 ^ 64 - 1)

inductive CardFormat where
  | interactive
  | templateCard
  | ark
  | embed
  | richPost

inductive MediaLocatorKind where
  | platformHandle
  | beetleBlob
  | externalUrl

inductive MediaKind where
  | image
  | audio
  | video
  | file

/-- What the sender reads of a message's body. -/
inductive MessageBody where
  | text (text : String) (format : TextFormat)
  | card (format : CardFormat) (payloadJson : Json) (fallbackText : String)
  | media (kind : MediaKind) (locatorKind : MediaLocatorKind) (locator : String)
  | platformNative (fallbackText : String)

structure QqMessage extends QueuedOutboundMessage where
  body : MessageBody
  platformMessageId : String

structure QqMsgSeqReservation where
  start : Nat
  chunkCount : Nat

def QqMsgSeqReservation.seqForChunk (reservation : QqMsgSeqReservation) (chunkIndex : Nat) : Option Nat :=
  if reservation.chunkCount ≤ chunkIndex then none else some (saturatingAddU64 reservation.start chunkIndex)

structure QqTurnKey where
  chatId : String
  reqId : String
  deriving DecidableEq

structure QqReservationKey where
  chatId : String
  anchor : String
  deriving DecidableEq

namespace QqReservationKey

def fromReqKey (reqKey : QqTurnKey) : QqReservationKey := ⟨reqKey.chatId, "req:" ++ reqKey.reqId⟩

def fromMsgId (chatId msgId : String) : QqReservationKey := ⟨chatId, "msg:" ++ msgId⟩

theorem fromMsgId_inj {chatId chatId' msgId msgId' : String} :
    fromMsgId chatId msgId = fromMsgId chatId' msgId' ↔ chatId = chatId' ∧ msgId = msgId' := by
  simp [fromMsgId]

theorem fromReqKey_ne_fromMsgId (reqKey : QqTurnKey) (chatId msgId : String) :
    fromReqKey reqKey ≠ fromMsgId chatId msgId := by
  intro h
  have hanchor := congrArg (fun key => key.anchor.toList.head?) h
  simp [fromReqKey, fromMsgId] at hanchor

end QqReservationKey

structure QqTurnReservationState where
  msgId : Option String
  nextSeq : Nat
  lastUsedAtSecs : Nat

structure QqTurnReservationTracker where
  byKey : HashMap QqReservationKey QqTurnReservationState
  reqAliases : HashMap QqTurnKey QqReservationKey

structure QqRetryableSendReservation where
  transportSendId : Nat
  msgId : Option String
  msgSeq : Option QqMsgSeqReservation

def turnKeyForMessage (message : QqMessage) : QqTurnKey :=
  ⟨message.chatId, (message.reqId.filter fun value => trimStr value ≠ "").getD "-"⟩

def messagePlatformMessageId (message : QqMessage) : Option String :=
  let trimmed := trimStr message.platformMessageId
  if trimmed = "" then none else some trimmed

def isGroupChat (chatId : String) : Bool := "group:".toList.isPrefixOf chatId.toList

def isV2Chat (chatId : String) : Bool := isGroupChat chatId || "c2c:".toList.isPrefixOf chatId.toList

namespace QqTurnReservationTracker

def isOldest (tracker : QqTurnReservationTracker) (key : QqReservationKey) : Bool :=
  (tracker.byKey.lookup key).any fun state =>
    tracker.byKey.all fun _ other => decide (state.lastUsedAtSecs ≤ other.lastUsedAtSecs)

/-- The loop that makes room, with the keys that `min_by_key` finds: of the oldest entries
the order of the map decides. -/
def makeRoom (tracker : QqTurnReservationTracker) : List QqReservationKey → Option QqTurnReservationTracker
  | [] => if tracker.byKey.keys.card ≤ qqTurnReservationCacheMax then some tracker else none
  | oldestKey :: rest =>
    if qqTurnReservationCacheMax < tracker.byKey.keys.card ∧ tracker.isOldest oldestKey then
      makeRoom ⟨tracker.byKey.erase oldestKey, tracker.reqAliases.retain fun _ key => key ≠ oldestKey⟩ rest
    else none

def dropExpired (tracker : QqTurnReservationTracker) (nowSecs : Nat) : QqTurnReservationTracker :=
  let byKey := tracker.byKey.retain fun _ state =>
    decide (nowSecs - state.lastUsedAtSecs ≤ qqTurnReservationTtlSecs)
  ⟨byKey, tracker.reqAliases.retain fun _ key => decide (key ∈ byKey)⟩

def prune (tracker : QqTurnReservationTracker) (nowSecs : Nat) (evicted : List QqReservationKey) :
    Option QqTurnReservationTracker :=
  (tracker.dropExpired nowSecs).makeRoom evicted

/-- What `req:` kept for the turn goes over to the message's id. -/
def moveToMsgKey (tracker : QqTurnReservationTracker) (reqStateKey msgKey : QqReservationKey) (msgId : String) :
    QqTurnReservationTracker :=
  if msgKey ∈ tracker.byKey then tracker
  else
    match tracker.byKey.lookup reqStateKey with
    | none => tracker
    | some state =>
      if state.msgId = none ∨ state.msgId = some msgId then
        { tracker with
          byKey := (tracker.byKey.erase reqStateKey).insert msgKey { state with msgId := some msgId } }
      else tracker

/-- `popped` is what `pop_msg_id` has for the chat. -/
def resolveKey (tracker : QqTurnReservationTracker) (popped : Option String) (message : QqMessage)
    (reqKey : QqTurnKey) : QqTurnReservationTracker × QqReservationKey × Option String :=
  match messagePlatformMessageId message with
  | some msgId =>
    let msgKey := QqReservationKey.fromMsgId message.chatId msgId
    let tracker := tracker.moveToMsgKey (.fromReqKey reqKey) msgKey msgId
    ({ tracker with reqAliases := tracker.reqAliases.insert reqKey msgKey }, msgKey, some msgId)
  | none =>
    match tracker.reqAliases.lookup reqKey with
    | some aliasedKey => (tracker, aliasedKey, (tracker.byKey.lookup aliasedKey).bind (·.msgId))
    | none =>
      match popped with
      | some msgId =>
        let msgKey := QqReservationKey.fromMsgId message.chatId msgId
        ({ tracker with reqAliases := tracker.reqAliases.insert reqKey msgKey }, msgKey, some msgId)
      | none => (tracker, .fromReqKey reqKey, none)

/-- `reserve` behind `prune`. -/
def reservePruned (tracker : QqTurnReservationTracker) (nowSecs : Nat) (popped : Option String)
    (message : QqMessage) (chunkCount : Nat) : QqTurnReservationTracker × QqRetryableSendReservation :=
  let normalizedChunkCount := max chunkCount 1
  let reqKey := turnKeyForMessage message
  let (tracker, reservationKey, resolvedMsgId) := tracker.resolveKey popped message reqKey
  let state := (tracker.byKey.lookup reservationKey).getD ⟨resolvedMsgId, 1, nowSecs⟩
  let msgId := state.msgId.or resolvedMsgId
  let byKey := tracker.byKey.insert reservationKey
    ⟨msgId, saturatingAddU64 state.nextSeq normalizedChunkCount, nowSecs⟩
  let reqAliases := if msgId.isSome then tracker.reqAliases.insert reqKey reservationKey else tracker.reqAliases
  (⟨byKey, reqAliases⟩,
    ⟨message.transportSendId, msgId,
      if isV2Chat message.chatId then some ⟨state.nextSeq, normalizedChunkCount⟩ else none⟩)

end QqTurnReservationTracker

namespace QqTurnReservationTracker

/-- What is kept for a message id bears it, and the aliases of a turn lead to such entries of its chat. -/
structure Sound (tracker : QqTurnReservationTracker) : Prop where
  msg : ∀ chatId msgId state, tracker.byKey.lookup (.fromMsgId chatId msgId) = some state → state.msgId = some msgId
  req : ∀ reqKey state, tracker.byKey.lookup (.fromReqKey reqKey) = some state → state.msgId = none
  aliased : ∀ reqKey key, tracker.reqAliases.lookup reqKey = some key →
    key ∈ tracker.byKey ∧ ∃ msgId, key = .fromMsgId reqKey.chatId msgId

/-- Some of the entries may be gone. -/
structure Within (tracker' tracker : QqTurnReservationTracker) : Prop where
  byKey : ∀ key state, tracker'.byKey.lookup key = some state → tracker.byKey.lookup key = some state
  reqAliases : ∀ reqKey key, tracker'.reqAliases.lookup reqKey = some key →
    key ∈ tracker'.byKey ∧ tracker.reqAliases.lookup reqKey = some key

/-- The message answers this message id: by itself, or because its turn takes it from the cache. -/
def Names (tracker : QqTurnReservationTracker) (popped : Option String) (message : QqMessage) (msgId : String) : Prop :=
  messagePlatformMessageId message = some msgId ∨
    (messagePlatformMessageId message = none ∧ tracker.reqAliases.lookup (turnKeyForMessage message) = none ∧
      popped = some msgId)

instance (tracker : QqTurnReservationTracker) (popped : Option String) (message : QqMessage) (msgId : String) :
    Decidable (tracker.Names popped message msgId) :=
  inferInstanceAs (Decidable (_ ∨ _))

variable {tracker tracker' : QqTurnReservationTracker} {nowSecs chunkCount : Nat} {popped : Option String}
  {message : QqMessage} {reservation : QqRetryableSendReservation} {msgId : String} {evicted : List QqReservationKey}

theorem Sound.within (h : tracker.Sound) (hw : tracker'.Within tracker) : tracker'.Sound where
  msg chatId msgId state hstate := h.msg chatId msgId state (hw.byKey _ state hstate)
  req reqKey state hstate := h.req reqKey state (hw.byKey _ state hstate)
  aliased reqKey key hkey := by
    obtain ⟨hin, hkey⟩ := hw.reqAliases reqKey key hkey
    exact ⟨hin, (h.aliased reqKey key hkey).2⟩

theorem within_dropExpired (tracker : QqTurnReservationTracker) (nowSecs : Nat) :
    (tracker.dropExpired nowSecs).Within tracker where
  byKey _ _ hstate := (HashMap.lookup_of_retain hstate).1
  reqAliases reqKey key hkey := by
    obtain ⟨hkey, hin⟩ := HashMap.lookup_of_retain hkey
    exact ⟨of_decide_eq_true hin, hkey⟩

theorem Within.makeRoom {before : QqTurnReservationTracker}
    (hw : tracker.Within before) (h : tracker.makeRoom evicted = some tracker') : tracker'.Within before := by
  induction evicted generalizing tracker with
  | nil =>
    simp only [QqTurnReservationTracker.makeRoom] at h
    split at h
    · cases h
      exact hw
    · cases h
  | cons oldestKey rest ih =>
    simp only [QqTurnReservationTracker.makeRoom] at h
    split at h
    · refine ih ⟨fun key state hstate => ?_, fun reqKey key hkey => ?_⟩ h
      · by_cases heq : key = oldestKey
        · subst heq
          rw [Finmap.lookup_erase] at hstate
          cases hstate
        · rw [Finmap.lookup_erase_ne heq] at hstate
          exact hw.byKey key state hstate
      · obtain ⟨hkey, hne⟩ := HashMap.lookup_of_retain hkey
        obtain ⟨hin, hbefore⟩ := hw.reqAliases reqKey key hkey
        exact ⟨Finmap.mem_erase.mpr ⟨of_decide_eq_true hne, hin⟩, hbefore⟩
    · cases h

theorem within_prune (h : tracker.prune nowSecs evicted = some tracker') : tracker'.Within tracker :=
  (within_dropExpired tracker nowSecs).makeRoom h

/-- What `resolve_key` leaves when it answers a message id. -/
structure Resolves (tracker tracker' : QqTurnReservationTracker) (popped : Option String) (message : QqMessage)
    (msgId : String) : Prop where
  others : ∀ key state, key ≠ .fromMsgId message.chatId msgId → tracker'.byKey.lookup key = some state →
    tracker.byKey.lookup key = some state
  kept : ∀ chatId msgId state, tracker.byKey.lookup (.fromMsgId chatId msgId) = some state →
    tracker'.byKey.lookup (.fromMsgId chatId msgId) = some state
  state : ∀ state, tracker'.byKey.lookup (.fromMsgId message.chatId msgId) = some state →
    state.msgId = some msgId ∧ ∃ key old, tracker.byKey.lookup key = some old ∧ state.nextSeq = old.nextSeq
  aliases : ∀ reqKey key, tracker'.reqAliases.lookup reqKey = some key →
    tracker.reqAliases.lookup reqKey = some key ∨
      (reqKey = turnKeyForMessage message ∧ key = .fromMsgId message.chatId msgId)
  named : .fromMsgId message.chatId msgId ∈ tracker.byKey ∨ tracker.Names popped message msgId

theorem Sound.resolves_self (h : tracker.Sound)
    (hnamed : .fromMsgId message.chatId msgId ∈ tracker.byKey ∨ tracker.Names popped message msgId) :
    tracker.Resolves tracker popped message msgId where
  others _ _ _ hstate := hstate
  kept _ _ _ hstate := hstate
  state state hstate := ⟨h.msg _ _ state hstate, _, state, hstate, rfl⟩
  aliases _ _ hkey := .inl hkey
  named := hnamed

theorem Resolves.insert_alias (h : tracker.Resolves tracker' popped message msgId) :
    tracker.Resolves { tracker' with
      reqAliases := tracker'.reqAliases.insert (turnKeyForMessage message) (.fromMsgId message.chatId msgId) }
      popped message msgId where
  others := h.others
  kept := h.kept
  state := h.state
  aliases reqKey key hkey := by
    by_cases heq : reqKey = turnKeyForMessage message
    · subst heq
      rw [Finmap.lookup_insert] at hkey
      exact .inr ⟨rfl, (Option.some.inj hkey).symm⟩
    · rw [Finmap.lookup_insert_of_ne _ heq] at hkey
      exact h.aliases reqKey key hkey
  named := h.named

theorem Sound.moveToMsgKey (h : tracker.Sound) (hmsg : messagePlatformMessageId message = some msgId) :
    tracker.Resolves (tracker.moveToMsgKey (.fromReqKey (turnKeyForMessage message))
      (.fromMsgId message.chatId msgId) msgId) popped message msgId := by
  have hself : tracker.Resolves tracker popped message msgId := h.resolves_self (.inr (.inl hmsg))
  unfold QqTurnReservationTracker.moveToMsgKey
  split
  · exact hself
  · rename_i hnotIn
    split
    · exact hself
    · rename_i state hstate
      split
      · refine ⟨fun key other hne hother => ?_, fun chatId other state hother => ?_, fun other hother => ?_, ?_, hself.named⟩
        · rw [Finmap.lookup_insert_of_ne _ hne] at hother
          by_cases heq : key = .fromReqKey (turnKeyForMessage message)
          · subst heq
            rw [Finmap.lookup_erase] at hother
            cases hother
          · rwa [Finmap.lookup_erase_ne heq] at hother
        · have hne : QqReservationKey.fromMsgId chatId other ≠ .fromMsgId message.chatId msgId := by
            intro heq
            rw [heq] at hother
            exact hnotIn (Finmap.mem_of_lookup_eq_some hother)
          rw [Finmap.lookup_insert_of_ne _ hne,
            Finmap.lookup_erase_ne (QqReservationKey.fromReqKey_ne_fromMsgId _ _ _).symm, hother]
        · rw [Finmap.lookup_insert] at hother
          obtain rfl := Option.some.inj hother
          exact ⟨rfl, _, state, hstate, rfl⟩
        · exact fun reqKey key hkey => .inl hkey
      · exact hself

/-- A turn without a message id, or one that answers some message id. -/
theorem Sound.resolveKey_cases (h : tracker.Sound) {key : QqReservationKey} {resolvedMsgId : Option String}
    (heq : tracker.resolveKey popped message (turnKeyForMessage message) = (tracker', key, resolvedMsgId)) :
    (tracker' = tracker ∧ key = .fromReqKey (turnKeyForMessage message) ∧ resolvedMsgId = none) ∨
      ∃ msgId, key = .fromMsgId message.chatId msgId ∧ resolvedMsgId = some msgId ∧
        tracker.Resolves tracker' popped message msgId := by
  unfold resolveKey at heq
  cases hmsg : messagePlatformMessageId message with
  | some msgId =>
    simp only [hmsg, Prod.mk.injEq] at heq
    obtain ⟨rfl, rfl, rfl⟩ := heq
    exact .inr ⟨msgId, rfl, rfl, (h.moveToMsgKey hmsg).insert_alias⟩
  | none =>
    simp only [hmsg] at heq
    cases halias : tracker.reqAliases.lookup (turnKeyForMessage message) with
    | some aliasedKey =>
      simp only [halias, Prod.mk.injEq] at heq
      obtain ⟨rfl, rfl, rfl⟩ := heq
      obtain ⟨hin, msgId, rfl⟩ := h.aliased _ _ halias
      obtain ⟨state, hstate⟩ := Finmap.mem_iff.mp hin
      refine .inr ⟨msgId, rfl, ?_, h.resolves_self (.inl hin)⟩
      rw [hstate, Option.bind_some]
      exact h.msg _ _ state hstate
    | none =>
      simp only [halias] at heq
      cases popped with
      | some msgId =>
        simp only [Prod.mk.injEq] at heq
        obtain ⟨rfl, rfl, rfl⟩ := heq
        exact .inr ⟨msgId, rfl, rfl, (h.resolves_self (.inr (.inr ⟨hmsg, halias, rfl⟩))).insert_alias⟩
      | none =>
        simp only [Prod.mk.injEq] at heq
        obtain ⟨rfl, rfl, rfl⟩ := heq
        exact .inl ⟨rfl, rfl, rfl⟩

/-- What a fresh reservation gets, and what the tracker keeps for it. -/
structure Reserves (tracker tracker' : QqTurnReservationTracker) (popped : Option String) (message : QqMessage)
    (chunkCount start : Nat) (reservation : QqRetryableSendReservation) : Prop where
  sound : tracker'.Sound
  msgSeq : isV2Chat message.chatId → reservation.msgSeq = some ⟨start, max chunkCount 1⟩
  begun : start = 1 ∨ ∃ key state, tracker.byKey.lookup key = some state ∧ start = state.nextSeq
  next : ∀ msgId, reservation.msgId = some msgId → ∃ state,
    tracker'.byKey.lookup (.fromMsgId message.chatId msgId) = some state ∧
      state.nextSeq = saturatingAddU64 start (max chunkCount 1)
  continued : ∀ msgId state, reservation.msgId = some msgId →
    tracker.byKey.lookup (.fromMsgId message.chatId msgId) = some state → start = state.nextSeq
  named : ∀ msgId, reservation.msgId = some msgId →
    .fromMsgId message.chatId msgId ∈ tracker.byKey ∨ tracker.Names popped message msgId
  others : ∀ chatId msgId state, ¬ (chatId = message.chatId ∧ reservation.msgId = some msgId) →
    tracker'.byKey.lookup (.fromMsgId chatId msgId) = some state →
      tracker.byKey.lookup (.fromMsgId chatId msgId) = some state

/-- A turn that answers no message id has an entry of its own. -/
theorem Sound.reserves_turn (h : tracker.Sound) {start : Nat}
    (hbegun : start = 1 ∨ ∃ key old, tracker.byKey.lookup key = some old ∧ start = old.nextSeq)
    (hmsgSeq : isV2Chat message.chatId → reservation.msgSeq = some ⟨start, max chunkCount 1⟩)
    (hmsgId : reservation.msgId = none) (nextSeq : Nat) (reqKey : QqTurnKey) :
    tracker.Reserves ⟨tracker.byKey.insert (.fromReqKey reqKey) ⟨none, nextSeq, nowSecs⟩, tracker.reqAliases⟩
      popped message chunkCount start reservation := by
  have hne {chatId msgId : String} := (QqReservationKey.fromReqKey_ne_fromMsgId reqKey chatId msgId).symm
  refine ⟨⟨?_, ?_, ?_⟩, hmsgSeq, hbegun, ?_, ?_, ?_, ?_⟩
  · intro chatId msgId state hstate
    rw [Finmap.lookup_insert_of_ne _ hne] at hstate
    exact h.msg chatId msgId state hstate
  · intro other state hstate
    by_cases hreq : QqReservationKey.fromReqKey other = .fromReqKey reqKey
    · rw [hreq, Finmap.lookup_insert] at hstate
      rw [← Option.some.inj hstate]
    · rw [Finmap.lookup_insert_of_ne _ hreq] at hstate
      exact h.req other state hstate
  · intro other key halias
    obtain ⟨hin, hmsg⟩ := h.aliased other key halias
    exact ⟨Finmap.mem_insert.mpr (.inr hin), hmsg⟩
  · rw [hmsgId]
    rintro msgId ⟨⟩
  · rw [hmsgId]
    rintro msgId state ⟨⟩
  · rw [hmsgId]
    rintro msgId ⟨⟩
  · intro chatId msgId state _ hstate
    rwa [Finmap.lookup_insert_of_ne _ hne] at hstate

theorem Resolves.reserves (hr : tracker.Resolves tracker' popped message msgId) (h : tracker.Sound)
    {start : Nat} (hbegun : start = 1 ∨ ∃ key old, tracker.byKey.lookup key = some old ∧ start = old.nextSeq)
    (hstart : ∀ state, tracker'.byKey.lookup (.fromMsgId message.chatId msgId) = some state → start = state.nextSeq)
    (hmsgSeq : isV2Chat message.chatId → reservation.msgSeq = some ⟨start, max chunkCount 1⟩)
    (hmsgId : reservation.msgId = some msgId) :
    tracker.Reserves
      ⟨tracker'.byKey.insert (.fromMsgId message.chatId msgId)
        ⟨some msgId, saturatingAddU64 start (max chunkCount 1), nowSecs⟩,
        tracker'.reqAliases.insert (turnKeyForMessage message) (.fromMsgId message.chatId msgId)⟩
      popped message chunkCount start reservation := by
  refine ⟨⟨?_, ?_, ?_⟩, hmsgSeq, hbegun, ?_, ?_, ?_, ?_⟩
  · intro chatId other state hstate
    by_cases heq : QqReservationKey.fromMsgId chatId other = .fromMsgId message.chatId msgId
    · rw [heq, Finmap.lookup_insert] at hstate
      rw [← Option.some.inj hstate, (QqReservationKey.fromMsgId_inj.mp heq).2]
    · rw [Finmap.lookup_insert_of_ne _ heq] at hstate
      exact h.msg chatId other state (hr.others _ state heq hstate)
  · intro reqKey state hstate
    have hne := QqReservationKey.fromReqKey_ne_fromMsgId reqKey message.chatId msgId
    rw [Finmap.lookup_insert_of_ne _ hne] at hstate
    exact h.req reqKey state (hr.others _ state hne hstate)
  · intro reqKey key halias
    rcases hr.insert_alias.aliases reqKey key halias with hold | ⟨rfl, rfl⟩
    · obtain ⟨hin, other, rfl⟩ := h.aliased reqKey key hold
      obtain ⟨state, hstate⟩ := Finmap.mem_iff.mp hin
      have hkept := Finmap.mem_of_lookup_eq_some (hr.kept _ _ state hstate)
      exact ⟨Finmap.mem_insert.mpr (.inr hkept), other, rfl⟩
    · exact ⟨Finmap.mem_insert.mpr (.inl rfl), msgId, rfl⟩
  · intro other hother
    obtain rfl := Option.some.inj (hmsgId.symm.trans hother)
    exact ⟨_, Finmap.lookup_insert _, rfl⟩
  · intro other state hother hstate
    obtain rfl := Option.some.inj (hmsgId.symm.trans hother)
    exact hstart state (hr.kept _ _ state hstate)
  · intro other hother
    obtain rfl := Option.some.inj (hmsgId.symm.trans hother)
    exact hr.named
  · intro chatId other state hother hstate
    have hne : QqReservationKey.fromMsgId chatId other ≠ .fromMsgId message.chatId msgId := by
      intro heq
      obtain ⟨rfl, rfl⟩ := QqReservationKey.fromMsgId_inj.mp heq
      exact hother ⟨rfl, hmsgId⟩
    rw [Finmap.lookup_insert_of_ne _ hne] at hstate
    exact hr.others _ state hne hstate

theorem Sound.reserves (h : tracker.Sound)
    (heq : tracker.reservePruned nowSecs popped message chunkCount = (tracker', reservation)) :
    ∃ start, tracker.Reserves tracker' popped message chunkCount start reservation := by
  unfold reservePruned at heq
  rcases hkey : tracker.resolveKey popped message (turnKeyForMessage message) with ⟨resolved, key, resolvedMsgId⟩
  dsimp only at heq
  rw [hkey] at heq
  obtain ⟨rfl, rfl⟩ := Prod.mk.inj heq
  rcases h.resolveKey_cases hkey with ⟨rfl, rfl, rfl⟩ | ⟨msgId, rfl, rfl, hresolves⟩
  · cases hstate : resolved.byKey.lookup (.fromReqKey (turnKeyForMessage message)) with
    | none =>
      rw [Option.getD_none]
      exact ⟨1, h.reserves_turn (.inl rfl) (fun hv2 => if_pos hv2) rfl _ _⟩
    | some state =>
      rw [Option.getD_some, h.req _ state hstate]
      exact ⟨_, h.reserves_turn (.inr ⟨_, state, hstate, rfl⟩) (fun hv2 => if_pos hv2) rfl _ _⟩
  · cases hstate : resolved.byKey.lookup (.fromMsgId message.chatId msgId) with
    | none =>
      rw [Option.getD_none]
      refine ⟨1, hresolves.reserves h (.inl rfl) ?_ (fun hv2 => if_pos hv2) rfl⟩
      rw [hstate]
      rintro state ⟨⟩
    | some state =>
      obtain ⟨hmsgId, key, old, hold, hnext⟩ := hresolves.state state hstate
      rw [Option.getD_some, hmsgId]
      refine ⟨state.nextSeq, hresolves.reserves h (.inr ⟨key, old, hold, hnext⟩) ?_ (fun hv2 => if_pos hv2) rfl⟩
      intro other hother
      rw [← Option.some.inj (hstate.symm.trans hother)]

end QqTurnReservationTracker

section
variable (renderQqPlainText : String → String)

def qqPlainTextChunkCount (content : String) : Nat :=
  max (chunkTextByCharCount content.toList qqMaxMessageLen).length 1

def qqPayloadChunkCountForMessage (message : QqMessage) : Nat :=
  match message.body with
  | .text text .plain => qqPlainTextChunkCount text
  | .text text .markdown => qqPlainTextChunkCount (renderQqPlainText text)
  | _ => 1

/-- `reserve_fresh_send_reservation`, which reads the clock and prunes first. -/
def reserveFreshSendReservation (tracker : QqTurnReservationTracker) (nowSecs : Nat)
    (evicted : List QqReservationKey) (popped : Option String) (message : QqMessage) :
    Option (QqTurnReservationTracker × QqRetryableSendReservation) :=
  (tracker.prune nowSecs evicted).map fun tracker =>
    tracker.reservePruned nowSecs popped message (qqPayloadChunkCountForMessage renderQqPlainText message)

/-- The active reservation, the tracker, and the reservation for the message. -/
def resolveRetryableSendReservation (active : Option QqRetryableSendReservation) (tracker : QqTurnReservationTracker)
    (nowSecs : Nat) (evicted : List QqReservationKey) (popped : Option String) (message : QqMessage) :
    Option (Option QqRetryableSendReservation × QqTurnReservationTracker × QqRetryableSendReservation) :=
  match active.filter (·.transportSendId = message.transportSendId) with
  | some existing => some (active, tracker, existing)
  | none =>
    (reserveFreshSendReservation renderQqPlainText tracker nowSecs evicted popped message).map
      fun (tracker, reservation) => (some reservation, tracker, reservation)

def releaseRetryableSendReservation (active : Option QqRetryableSendReservation) (transportSendId : Nat) :
    Option QqRetryableSendReservation :=
  if active.map (·.transportSendId) = some transportSendId then none else active

inductive PayloadContent where
  | text (content : String)
  | card (msgType : Nat) (field : String) (payload : Json)
  | media (fileInfo : String)

/-- The JSON body of one request. -/
structure QqPayload where
  content : PayloadContent
  msgId : Option String
  msgSeq : Option Nat

def qqSend : String := "qq_send"

def qqMediaFileType : MediaKind → Nat
  | .image => 1
  | .video => 2
  | .audio => 3
  | .file => 4

/-- The answer to an upload: its status, and the `file_info` that is read in its body. -/
structure UploadResponse where
  status : Nat
  fileInfo : Except Error (Option String)

/-- `posted` is what the upload gives, if there is one. -/
def resolveQqMediaFileInfo (posted : Except Error UploadResponse) (chatId : String) (kind : MediaKind)
    (locatorKind : MediaLocatorKind) (locator : String) : Except Error String :=
  match locatorKind with
  | .platformHandle =>
    let locator := trimStr locator
    if locator = "" then .error (.config "qq media platform handle is empty" qqSend) else .ok locator
  | .externalUrl =>
    if trimStr locator = "" then .error (.config "qq media external url is empty" qqSend)
    else if qqMediaFileType kind = 4 ∧ isGroupChat chatId then
      .error (.config "qq group rich media upload does not support file body" qqSend)
    else if !isV2Chat chatId then
      .error (.config ("qq media upload unsupported for chat_id=" ++ chatId) qqSend)
    else do
      let response ← posted
      if response.status ≥ 400 then throw (.http response.status "qq_send_http")
      let fileInfo := (← response.fileInfo).getD ""
      if trimStr fileInfo = "" then throw (.config "qq rich media upload returned empty file_info" qqSend)
      return fileInfo
  | .beetleBlob => .error (.config "qq media send does not support BeetleBlob yet" qqSend)

def qqMessageTextFallback (message : QqMessage) (textProjection : String) : String :=
  if Bus.isBlankText textProjection then message.content else textProjection

def renderQqPlainTextPayloads (chatId content : String) (msgId : Option String)
    (msgSeq : Option QqMsgSeqReservation) : List QqPayload :=
  (chunkTextByCharCount content.toList qqMaxMessageLen).mapIdx fun index chunk =>
    ⟨.text (String.ofList chunk), if index = 0 then msgId else none,
      if isV2Chat chatId then msgSeq.bind (·.seqForChunk index) else none⟩

def renderQqSendPayloads (posted : Except Error UploadResponse) (message : QqMessage) (msgId : Option String)
    (msgSeq : Option QqMsgSeqReservation) : Except Error (List QqPayload) :=
  let seq := msgSeq.bind (·.seqForChunk 0)
  match message.body with
  | .text text .markdown => .ok (renderQqPlainTextPayloads message.chatId (renderQqPlainText text) msgId msgSeq)
  | .text text _ => .ok (renderQqPlainTextPayloads message.chatId text msgId msgSeq)
  | .card .ark payloadJson _ => .ok [⟨.card 3 "ark" payloadJson, msgId, seq⟩]
  | .card .embed payloadJson _ => .ok [⟨.card 4 "embed" payloadJson, msgId, seq⟩]
  | .card _ _ fallbackText =>
    .ok [⟨.text (qqMessageTextFallback message (Bus.fallbackProjection fallbackText "[card]")), msgId, seq⟩]
  | .media kind locatorKind locator => do
    let fileInfo ← resolveQqMediaFileInfo posted message.chatId kind locatorKind locator
    return [⟨.media fileInfo, msgId, seq⟩]
  | .platformNative fallbackText =>
    .ok [⟨.text (qqMessageTextFallback message (Bus.fallbackProjection fallbackText "[platform_native]")), msgId, seq⟩]

/-- So many payloads are rendered for a message. -/
def payloadCount (message : QqMessage) : Nat :=
  match message.body with
  | .text text .markdown => (chunkTextByCharCount (renderQqPlainText text).toList qqMaxMessageLen).length
  | .text text _ => (chunkTextByCharCount text.toList qqMaxMessageLen).length
  | _ => 1

/-- A text in a format whose chunks are not counted has no second one. -/
def QqMessage.ChunksCounted (message : QqMessage) : Prop :=
  match message.body with
  | .text text .html | .text text .richText => (chunkTextByCharCount text.toList qqMaxMessageLen).length ≤ 1
  | _ => True

instance (message : QqMessage) : Decidable message.ChunksCounted := by
  unfold QqMessage.ChunksCounted
  split <;> infer_instance

variable {renderQqPlainText} {posted : Except Error UploadResponse} {message : QqMessage} {msgId : Option String}
  {msgSeq : Option QqMsgSeqReservation} {payloads : List QqPayload}

theorem renderQqPlainTextPayloads_msgSeq {chatId : String} (hv2 : isV2Chat chatId) (content : String) :
    (renderQqPlainTextPayloads chatId content msgId msgSeq).map (·.msgSeq) =
      (List.range (chunkTextByCharCount content.toList qqMaxMessageLen).length).map fun i =>
        msgSeq.bind (·.seqForChunk i) := by
  apply List.ext_getElem
  · simp [renderQqPlainTextPayloads]
  · intro i hi hi'
    simp [renderQqPlainTextPayloads, hv2]

/-- The payloads are numbered one after the other, as far as the reservation goes. -/
theorem renderQqSendPayloads_msgSeq (hv2 : isV2Chat message.chatId)
    (h : renderQqSendPayloads renderQqPlainText posted message msgId msgSeq = .ok payloads) :
    payloads.map (·.msgSeq) =
      (List.range (payloadCount renderQqPlainText message)).map fun i => msgSeq.bind (·.seqForChunk i) := by
  unfold renderQqSendPayloads at h
  unfold payloadCount
  cases hbody : message.body with
  | text text format =>
    rw [hbody] at h
    cases format with
    | markdown =>
      rw [← Except.ok.inj h]
      exact renderQqPlainTextPayloads_msgSeq hv2 _
    | plain | html | richText =>
      rw [← Except.ok.inj h]
      exact renderQqPlainTextPayloads_msgSeq hv2 _
  | card format payloadJson fallbackText =>
    rw [hbody] at h
    cases format <;>
      · rw [← Except.ok.inj h]
        rfl
  | media kind locatorKind locator =>
    rw [hbody] at h
    cases hinfo : resolveQqMediaFileInfo posted message.chatId kind locatorKind locator with
    | error e =>
      simp only [hinfo] at h
      cases h
    | ok fileInfo =>
      simp only [hinfo] at h
      rw [← Except.ok.inj h]
      rfl
  | platformNative fallbackText =>
    rw [hbody] at h
    rw [← Except.ok.inj h]
    rfl

theorem payloadCount_le (h : message.ChunksCounted) :
    payloadCount renderQqPlainText message ≤ max (qqPayloadChunkCountForMessage renderQqPlainText message) 1 := by
  unfold QqMessage.ChunksCounted at h
  unfold payloadCount qqPayloadChunkCountForMessage
  cases hbody : message.body with
  | text text format =>
    cases format with
    | plain | markdown =>
      simp only [qqPlainTextChunkCount]
      omega
    | html | richText =>
      simp only [hbody] at h ⊢
      omega
  | _ => simp

end

end Beetle.Channels.Qq
