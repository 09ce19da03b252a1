import Beetle.Channels.Telegram.Poll

/-! Which of the messages of a batch are still somewhere after the poll. -/
namespace Beetle.Channels.Telegram
open Beetle.Lib Beetle.Bus Beetle.Platform.Storage StoragePendingRetryStore

/-! The messages of a batch, with the places of their updates. -/

def inboundMsg (env : PollEnv) (u : TelegramUpdate × Nat) : Option (Nat × TelegramMsg) :=
  match env.readUpdate u.2 u.1 with
  | .message pc => some (u.2, pc)
  | _ => none

/-- The messages that come through the filters and are parsed. -/
def inboundMsgs (env : PollEnv) (updates : List (TelegramUpdate × Nat)) : List (Nat × TelegramMsg) :=
  updates.filterMap (inboundMsg env)

/-- All three tries find the queue full. -/
def Refused (env : PollEnv) (m : Nat × TelegramMsg) : Bool := tryEnqueue (env.trySend m.1) 3 0 = .full

def queuedMsgs (env : PollEnv) (msgs : List (Nat × TelegramMsg)) : List TelegramMsg :=
  (msgs.filter (!Refused env ·)).map (·.2)

def refusedMsgs (env : PollEnv) (msgs : List (Nat × TelegramMsg)) : List (Nat × TelegramMsg) :=
  msgs.filter (Refused env)

section
variable (cfg : PendingRetryConfig TelegramDetails) (env : PollEnv) (retry : PendingRetryState TelegramDetails)

/-- The slot is known, or its file can be read at the place of the message. -/
def Readable (m : Nat × TelegramMsg) : Bool :=
  match (loadCacheLocked cfg retry (env.readFault m.1)).2 with
  | .ok () => true
  | .error _ => false

/-- The refused messages from the first on for which the slot is readable. -/
def savedMsgs (refused : List (Nat × TelegramMsg)) : List TelegramMsg :=
  (refused.dropWhile (!Readable cfg env retry ·)).map (·.2)

/-- What is in the slot. -/
def slotEntry : Option (PendingRetryEntry TelegramDetails) :=
  match slot cfg retry with
  | .ok entry => entry
  | .error _ => none

def slotReplays : Nat := ((slotEntry cfg retry).map (·.replayCount)).getD 0

/-- The slot can hold on to the message: it is the last one that comes to the slot, and with all that come its replays
are not used up. -/
def Keeps (saved : List TelegramMsg) (pc : TelegramMsg) : Prop :=
  (((slotEntry cfg retry).map (·.msg)).toList ++ saved).getLast? = some pc ∧
    slotReplays cfg retry + saved.length < pendingRetryMaxReplay

/-- Every refused message is in the queue after all, as another update brought it too, or the slot holds on to it. -/
def RefusedKept (msgs : List (Nat × TelegramMsg)) : Prop :=
  ∀ m ∈ refusedMsgs env msgs, m.2 ∈ queuedMsgs env msgs ∨
    Keeps cfg retry (savedMsgs cfg env retry (refusedMsgs env msgs)) m.2

/-- The slot after messages were saved in it one after the other. -/
def saveAll (refused : List (Nat × TelegramMsg)) : PendingRetryState TelegramDetails :=
  refused.foldl (fun retry m => (savePendingRetry cfg retry (env.readFault m.1) m.2).1) retry

end

/-- The limits and the JSON library let the message be saved with every count there can be. -/
def Saveable (cfg : PendingRetryConfig TelegramDetails) (pc : TelegramMsg) : Prop :=
  ∀ n, 1 ≤ n → n ≤ pendingRetryMaxReplay → ∃ json, cfg.toVec ⟨pc, n⟩ = .ok json ∧ json.length ≤ cfg.maxWriteSize

section
variable {cfg : PendingRetryConfig TelegramDetails} {env : PollEnv} {retry : PendingRetryState TelegramDetails}
  {m : Nat × TelegramMsg} {pc : TelegramMsg} {disk : Option Bytes} {entry : Option (PendingRetryEntry TelegramDetails)}
  {msg : TelegramMessage}

/-! What the loop does to the queue and to the slot. -/

theorem tryEnqueue_ne_disconnected {trySend : Nat → TrySend} (h : ∀ attempt, trySend attempt ≠ .disconnected)
    (tries attempt : Nat) : tryEnqueue trySend tries attempt ≠ .disconnected := by
  induction tries generalizing attempt with
  | zero => exact TrySend.noConfusion
  | succ tries ih =>
    rw [tryEnqueue]
    have hattempt := h attempt
    split
    · exact ih (attempt + 1)
    · exact hattempt

theorem pollUpdates_eq (hconnected : ∀ place attempt, env.trySend place attempt ≠ .disconnected)
    (updates : List (TelegramUpdate × Nat)) (polled : Polled) :
    (pollUpdates env polled updates).enqueued = polled.enqueued ++ queuedMsgs env (inboundMsgs env updates) ∧
    (pollUpdates env polled updates).retry =
      saveAll env.pendingRetry env polled.retry (refusedMsgs env (inboundMsgs env updates)) := by
  induction updates generalizing polled with
  | nil => simp [pollUpdates, inboundMsgs, queuedMsgs, refusedMsgs, saveAll]
  | cons u updates ih =>
    obtain ⟨henqueued, hretry⟩ := ih (pollUpdate env polled u)
    have hcons : pollUpdates env polled (u :: updates) = pollUpdates env (pollUpdate env polled u) updates := rfl
    rw [hcons, henqueued, hretry]
    cases hread : env.readUpdate u.2 u.1 with
    | skipped => simp [pollUpdate, inboundMsgs, inboundMsg, hread]
    | command chatId command => simp [pollUpdate, inboundMsgs, inboundMsg, hread]
    | message pc =>
      have hmsgs : inboundMsgs env (u :: updates) = (u.2, pc) :: inboundMsgs env updates := by
        simp [inboundMsgs, inboundMsg, hread]
      rw [hmsgs]
      cases hanswer : tryEnqueue (env.trySend u.2) 3 0 with
      | disconnected => exact absurd hanswer (tryEnqueue_ne_disconnected (hconnected u.2) 3 0)
      | sent => simp [pollUpdate, hread, enqueueOrSave, hanswer, queuedMsgs, refusedMsgs, Refused]
      | full => simp [pollUpdate, hread, enqueueOrSave, hanswer, queuedMsgs, refusedMsgs, Refused, saveAll]

/-! The slot. -/

/-- A save succeeds when the slot is readable. -/
theorem savePendingRetry_of_saveable (hsave : Saveable cfg m.2)
    (hlen : (utf8 m.2.content.toList).length ≤ cfg.maxContentLen) (hreadable : Readable cfg env retry m = true) :
    ∃ json, (savePendingRetry cfg retry (env.readFault m.1) m.2).1 =
      ⟨⟨true, some ⟨m.2, nextReplay (slotEntry cfg retry)⟩⟩, some json⟩ := by
  unfold Readable at hreadable
  rcases loadCacheLocked_cases cfg retry (env.readFault m.1) with ⟨e, herror⟩ | ⟨entry, hload, hslot⟩
  · rw [herror] at hreadable
    cases hreadable
  · have hentry : slotEntry cfg retry = entry := by rw [slotEntry, hslot]
    have hcount : 1 ≤ nextReplay entry ∧ nextReplay entry ≤ pendingRetryMaxReplay := by
      cases entry with
      | none => exact ⟨Nat.le_refl 1, by decide⟩
      | some entry =>
        simp only [nextReplay, Option.map_some, Option.getD_some, pendingRetryMaxReplay]
        omega
    obtain ⟨json, hjson, hsize⟩ := hsave (nextReplay entry) hcount.1 hcount.2
    have hfits : ¬ json.length > cfg.maxWriteSize := by omega
    refine ⟨json, ?_⟩
    rw [hentry]
    simp only [savePendingRetry, if_neg (Nat.not_lt.mpr hlen), hload]
    rw [show (entry.map fun entry => min (entry.replayCount + 1) pendingRetryMaxReplay).getD 1 = nextReplay entry from rfl,
      hjson]
    simp only [writeFileUnlocked, if_neg hfits]

theorem savePendingRetry_of_unreadable
    (hlen : (utf8 m.2.content.toList).length ≤ cfg.maxContentLen) (hreadable : Readable cfg env retry m = false) :
    (savePendingRetry cfg retry (env.readFault m.1) m.2).1 = retry := by
  unfold Readable at hreadable
  rcases loadCacheLocked_cases cfg retry (env.readFault m.1) with ⟨e, herror⟩ | ⟨entry, hload, hslot⟩
  · simp only [savePendingRetry, if_neg (Nat.not_lt.mpr hlen), herror]
  · rw [hload] at hreadable
    cases hreadable

theorem keeps_nil_iff : Keeps cfg retry [] pc ↔ (loadPendingRetry cfg retry none).2 = .ok (some pc) := by
  rw [loads_iff, Keeps, slotReplays, slotEntry]
  cases slot cfg retry with
  | error e => simp
  | ok entry =>
    cases entry with
    | none => simp
    | some entry => simp [pendingRetryMaxReplay]

/-- A saved message stands before those that are saved after it. -/
theorem keeps_cons_iff {pc pc' : TelegramMsg} {saved : List TelegramMsg} :
    Keeps cfg ⟨⟨true, some ⟨pc, nextReplay (slotEntry cfg retry)⟩⟩, disk⟩ saved pc' ↔
      Keeps cfg retry (pc :: saved) pc' := by
  have hlast : (((slotEntry cfg retry).map (·.msg)).toList ++ pc :: saved).getLast? = (pc :: saved).getLast? := by
    rw [List.getLast?_append, List.getLast?_cons, Option.some_or]
  have hcount : nextReplay (slotEntry cfg retry) = min (slotReplays cfg retry + 1) pendingRetryMaxReplay := by
    unfold slotReplays nextReplay
    cases slotEntry cfg retry with
    | none => rfl
    | some entry => rfl
  have hreplays : slotReplays cfg ⟨⟨true, some ⟨pc, nextReplay (slotEntry cfg retry)⟩⟩, disk⟩ =
      nextReplay (slotEntry cfg retry) := rfl
  have hmsg : slotEntry cfg ⟨⟨true, some ⟨pc, nextReplay (slotEntry cfg retry)⟩⟩, disk⟩ =
      some ⟨pc, nextReplay (slotEntry cfg retry)⟩ := rfl
  rw [Keeps, Keeps, hlast, hmsg, hreplays, hcount, List.length_cons]
  simp only [Option.map_some, Option.toList_some, List.singleton_append, pendingRetryMaxReplay]
  refine and_congr_right fun _ => ?_
  omega

theorem readable_of_loaded (m : Nat × TelegramMsg) : Readable cfg env ⟨⟨true, entry⟩, disk⟩ m = true := rfl

theorem savedMsgs_of_loaded (refused : List (Nat × TelegramMsg)) :
    savedMsgs cfg env ⟨⟨true, entry⟩, disk⟩ refused = refused.map (·.2) := by
  unfold savedMsgs
  cases refused with
  | nil => rfl
  | cons m refused => rw [List.dropWhile_cons_of_neg (by simp [readable_of_loaded])]

/-- What can be loaded after messages were saved one after the other. -/
theorem loads_saveAll_iff {refused : List (Nat × TelegramMsg)} (hsave : ∀ m ∈ refused, Saveable cfg m.2)
    (hlen : ∀ m ∈ refused, (utf8 m.2.content.toList).length ≤ cfg.maxContentLen) :
    (loadPendingRetry cfg (saveAll cfg env retry refused) none).2 = .ok (some pc) ↔
      Keeps cfg retry (savedMsgs cfg env retry refused) pc := by
  induction refused generalizing retry with
  | nil => exact keeps_nil_iff.symm
  | cons m refused ih =>
    rw [List.forall_mem_cons] at hsave hlen
    have hcons : saveAll cfg env retry (m :: refused) =
        saveAll cfg env (savePendingRetry cfg retry (env.readFault m.1) m.2).1 refused := rfl
    rw [hcons]
    cases hreadable : Readable cfg env retry m with
    | false =>
      rw [savePendingRetry_of_unreadable hlen.1 hreadable, ih hsave.2 hlen.2]
      have hsaved : savedMsgs cfg env retry (m :: refused) = savedMsgs cfg env retry refused := by
        unfold savedMsgs
        rw [List.dropWhile_cons_of_pos (by simp [hreadable])]
      rw [hsaved]
    | true =>
      obtain ⟨json, hsaved⟩ := savePendingRetry_of_saveable hsave.1 hlen.1 hreadable
      have hfirst : savedMsgs cfg env retry (m :: refused) = m.2 :: refused.map (·.2) := by
        unfold savedMsgs
        rw [List.dropWhile_cons_of_neg (by simp [hreadable])]
        rfl
      rw [hsaved, ih hsave.2 hlen.2, savedMsgs_of_loaded, keeps_cons_iff, hfirst]

/-! A poll. -/

/-- A message that is built is short enough for the slot. -/
theorem readMessage_eq_message {place : Nat}
    (h : env.readMessage place msg = .message pc) : ∃ body asset, env.buildMsg place msg body asset = .ok pc := by
  unfold PollEnv.readMessage at h
  dsimp only at h
  split at h
  · cases h
  split at h
  · cases h
  split at h
  · cases h
  split at h
  · cases h
  split at h
  · cases h
  split at h
  · cases h
  · rename_i body asset _
    split at h
    · rename_i hok
      cases h
      exact ⟨body, asset, hok⟩
    · cases h

theorem length_content_of_buildMsg {place : Nat} {body : CanonicalMessageBody}
    {asset : Option MediaAssetRef} (h : env.buildMsg place msg body asset = .ok pc) :
    (utf8 pc.content.toList).length ≤ env.pendingRetry.maxContentLen := by
  unfold PollEnv.buildMsg PcMsg.build at h
  split at h
  · cases h
  · rename_i hlen
    cases h
    rw [length_utf8_toList]
    exact Nat.le_of_not_lt hlen

theorem length_content_of_mem {updates : List (TelegramUpdate × Nat)}
    (hm : m ∈ inboundMsgs env updates) : (utf8 m.2.content.toList).length ≤ env.pendingRetry.maxContentLen := by
  obtain ⟨u, -, hu⟩ := List.mem_filterMap.mp hm
  unfold inboundMsg at hu
  split at hu
  · rename_i pc hread
    obtain rfl := Option.some.inj hu
    unfold PollEnv.readUpdate at hread
    split at hread
    · cases hread
    · obtain ⟨body, asset, hbuild⟩ := readMessage_eq_message hread
      exact length_content_of_buildMsg hbuild
  · cases hu

theorem mem_msgs_iff {msgs : List (Nat × TelegramMsg)} {P : TelegramMsg → Prop} :
    (∀ m ∈ msgs, m.2 ∈ queuedMsgs env msgs ∨ P m.2) ↔ ∀ m ∈ refusedMsgs env msgs, m.2 ∈ queuedMsgs env msgs ∨ P m.2 := by
  constructor
  · exact fun h m hm => h m (List.mem_of_mem_filter hm)
  · intro h m hm
    cases hrefused : Refused env m with
    | true => exact h m (List.mem_filter.mpr ⟨hm, hrefused⟩)
    | false => exact .inl (List.mem_map_of_mem (List.mem_filter.mpr ⟨hm, by simp [hrefused]⟩))

end

/-- While the queue is not closed and what comes to the slot can be written: each message of the batch is in the queue or
is loaded afterwards, exactly when the slot holds on to every refused one that no other update has brought to the queue. -/
theorem accepted_updates_kept_iff (env : PollEnv) (offset : Option Int) (status : Nat) (body : Bytes)
    (result : Option (List TelegramUpdate)) (retry : PendingRetryState TelegramDetails) (polled : Polled)
    (hconnected : ∀ place attempt, env.trySend place attempt ≠ .disconnected)
    (hwrites : ∀ m ∈ refusedMsgs env (inboundMsgs env (result.getD []).zipIdx), Saveable env.pendingRetry m.2)
    (hresult : env.parseUpdates body = some result)
    (hpolled : pollTelegramOnce env offset (.ok (status, body)) retry = .ok polled) :
    (∀ m ∈ inboundMsgs env (result.getD []).zipIdx,
      m.2 ∈ polled.enqueued ∨ (loadPendingRetry env.pendingRetry polled.retry none).2 = .ok (some m.2)) ↔
    RefusedKept env.pendingRetry env retry (inboundMsgs env (result.getD []).zipIdx) := by
  have hfold : polled = pollUpdates env ⟨offset, [], [], retry⟩ (result.getD []).zipIdx := by
    simp only [pollTelegramOnce] at hpolled
    split at hpolled
    · cases hpolled
    · rw [hresult] at hpolled
      exact (Except.ok.inj hpolled).symm
  obtain ⟨henqueued, hretry⟩ := @pollUpdates_eq env hconnected (result.getD []).zipIdx ⟨offset, [], [], retry⟩
  rw [← hfold, List.nil_append] at henqueued
  rw [← hfold] at hretry
  have hlen : ∀ m ∈ refusedMsgs env (inboundMsgs env (result.getD []).zipIdx),
      (utf8 m.2.content.toList).length ≤ env.pendingRetry.maxContentLen :=
    fun m hm => length_content_of_mem (List.mem_of_mem_filter hm)
  simp only [henqueued, hretry, loads_saveAll_iff hwrites hlen]
  exact mem_msgs_iff

/-! Batches of short texts that find the queue full, with an empty slot. -/

def textUpdate (id : Int) (text : String) : TelegramUpdate :=
  ⟨id, some ⟨⟨7, none⟩, id, none, some text, none, none, none, none, none, none, none, none⟩⟩

def textMsg (id : Int) (text : String) : TelegramMsg :=
  ⟨text, .text text, ⟨"7", false, none, "", toString id, "telegram_message:" ++ toString id, 0⟩⟩

def updateJson (id text : String) : String :=
  "\x7b\"update_id\":" ++ id ++ ",\"message\":\x7b\"chat\":\x7b\"id\":7\x7d,\"message_id\":" ++ id ++ ",\"text\":\"" ++
    text ++ "\"\x7d\x7d"

def batchJson (updates : List String) : Bytes :=
  utf8 ("\x7b\"result\":[" ++ ",".intercalate updates ++ "]\x7d").toList

/-- The slots that come up, with their texts in the file. -/
def slotTexts : List (PendingRetryEntry TelegramDetails × Bytes) :=
  [(⟨textMsg 1 "a", 1⟩, retryJson "a" "1"), (⟨textMsg 1 "a", 2⟩, retryJson "a" "2"), (⟨textMsg 1 "a", 3⟩, retryJson "a" "3"),
    (⟨textMsg 2 "b", 1⟩, retryJson "b" "1"), (⟨textMsg 2 "b", 2⟩, retryJson "b" "2"), (⟨textMsg 2 "b", 3⟩, retryJson "b" "3")]

def slotConfig : PendingRetryConfig TelegramDetails where
  maxContentLen := 262144
  maxWriteSize := maxWriteSizeHost
  toVec entry :=
    match slotTexts.find? (·.1 = entry) with
    | some row => .ok row.2
    | none => .error "not written here"
  parseEntry json := (slotTexts.find? (·.2 = json)).map fun row => (row.1.msg.serialize, row.1.replayCount)
  parseMsg _ := none
  parse_toVec entry json h := by
    have hrows : ∀ row ∈ slotTexts,
        (slotTexts.find? (·.2 = row.2)).map (fun row => (row.1.msg.serialize, row.1.replayCount)) =
          some (row.1.msg.serialize, row.1.replayCount) ∧ 2 < row.2.length := by
      decide
    split at h
    · rename_i row hrow
      cases h
      obtain rfl : row.1 = entry := by simpa using List.find?_some hrow
      exact hrows row (List.mem_of_find?_eq_some hrow)
    · cases h
  two_le := StoragePendingRetryStore.retryConfig.two_le

def fullQueue : PollEnv where
  pendingRetry := slotConfig
  allowedChatIds := ["7"]
  groupActivation := "always"
  botUsername := none
  cmdCtx := false
  currentUnixMs _ := 0
  trySend _ _ := .full
  readFault _ := none
  parseUpdates body :=
    if body = batchJson [updateJson "1" "a"] then some (some [textUpdate 1 "a"])
    else if body = batchJson [updateJson "1" "a", updateJson "2" "b"] then some (some [textUpdate 1 "a", textUpdate 2 "b"])
    else none

theorem saveable_slotTexts {pc : TelegramMsg} (hpc : pc = textMsg 1 "a" ∨ pc = textMsg 2 "b") : Saveable slotConfig pc := by
  intro n hpos hmax
  have hn : n = 1 ∨ n = 2 ∨ n = 3 := by
    rw [pendingRetryMaxReplay] at hmax
    omega
  rcases hpc with rfl | rfl
  · rcases hn with rfl | rfl | rfl
    · exact ⟨retryJson "a" "1", by decide⟩
    · exact ⟨retryJson "a" "2", by decide⟩
    · exact ⟨retryJson "a" "3", by decide⟩
  · rcases hn with rfl | rfl | rfl
    · exact ⟨retryJson "b" "1", by decide⟩
    · exact ⟨retryJson "b" "2", by decide⟩
    · exact ⟨retryJson "b" "3", by decide⟩

theorem one_refused_update_kept :
    let retry : PendingRetryState TelegramDetails := ⟨.default, none⟩
    ∃ polled, pollTelegramOnce fullQueue none (.ok (200, batchJson [updateJson "1" "a"])) retry = .ok polled ∧
      ((∀ m ∈ inboundMsgs fullQueue [textUpdate 1 "a"].zipIdx,
        m.2 ∈ polled.enqueued ∨ (loadPendingRetry slotConfig polled.retry none).2 = .ok (some m.2)) ↔
      RefusedKept slotConfig fullQueue retry (inboundMsgs fullQueue [textUpdate 1 "a"].zipIdx)) := by
  have hmsgs : inboundMsgs fullQueue [textUpdate 1 "a"].zipIdx = [(0, textMsg 1 "a")] := by decide
  have hparse : fullQueue.parseUpdates (batchJson [updateJson "1" "a"]) = some (some [textUpdate 1 "a"]) := rfl
  refine ⟨pollUpdates fullQueue ⟨none, [], [], ⟨.default, none⟩⟩ [textUpdate 1 "a"].zipIdx, by
    simp [pollTelegramOnce, hparse], ?_⟩
  refine accepted_updates_kept_iff fullQueue none 200 (batchJson [updateJson "1" "a"]) (some [textUpdate 1 "a"])
    ⟨.default, none⟩ _ (fun _ _ => TrySend.noConfusion) ?_ hparse (by simp [pollTelegramOnce, hparse])
  intro m hm
  have hm' := List.mem_of_mem_filter hm
  rw [Option.getD_some, hmsgs] at hm'
  obtain rfl := List.mem_singleton.mp hm'
  exact saveable_slotTexts (.inl rfl)

theorem first_refused_update_lost :
    ¬ ∀ (env : PollEnv) (offset : Option Int) (status : Nat) (body : Bytes) (result : Option (List TelegramUpdate))
      (retry : PendingRetryState TelegramDetails) (polled : Polled),
      (∀ place attempt, env.trySend place attempt ≠ .disconnected) →
      (∀ m ∈ refusedMsgs env (inboundMsgs env (result.getD []).zipIdx), Saveable env.pendingRetry m.2) →
      env.parseUpdates body = some result →
      pollTelegramOnce env offset (.ok (status, body)) retry = .ok polled →
      ∀ m ∈ inboundMsgs env (result.getD []).zipIdx,
        m.2 ∈ polled.enqueued ∨ (loadPendingRetry env.pendingRetry polled.retry none).2 = .ok (some m.2) := by
  intro h
  let updates := [textUpdate 1 "a", textUpdate 2 "b"]
  have hmsgs : inboundMsgs fullQueue updates.zipIdx = [(0, textMsg 1 "a"), (1, textMsg 2 "b")] := by decide
  have hparse : fullQueue.parseUpdates (batchJson [updateJson "1" "a", updateJson "2" "b"]) = some (some updates) := by
    decide +kernel
  have hlost := h fullQueue none 200 (batchJson [updateJson "1" "a", updateJson "2" "b"]) (some updates) ⟨.default, none⟩
    (pollUpdates fullQueue ⟨none, [], [], ⟨.default, none⟩⟩ updates.zipIdx) (fun _ _ => TrySend.noConfusion) ?_ hparse
    (by simp [pollTelegramOnce, hparse]) (0, textMsg 1 "a") (by rw [Option.getD_some, hmsgs]; simp)
  · have hqueue : (pollUpdates fullQueue ⟨none, [], [], ⟨.default, none⟩⟩ updates.zipIdx).enqueued = [] := by
      decide
    have hslot : (loadPendingRetry fullQueue.pendingRetry
        (pollUpdates fullQueue ⟨none, [], [], ⟨.default, none⟩⟩ updates.zipIdx).retry none).2.toOption =
          some (some (textMsg 2 "b")) := by
      decide
    rw [hqueue] at hlost
    rcases hlost with hlost | hlost
    · cases hlost
    · rw [hlost] at hslot
      exact absurd (Option.some.inj (Option.some.inj hslot)) (by decide)
  · intro m hm
    have hm' := List.mem_of_mem_filter hm
    rw [Option.getD_some, hmsgs] at hm'
    rcases List.mem_cons.mp hm' with rfl | hm'
    · exact saveable_slotTexts (.inl rfl)
    · obtain rfl := List.mem_singleton.mp hm'
      exact saveable_slotTexts (.inr rfl)

end Beetle.Channels.Telegram
