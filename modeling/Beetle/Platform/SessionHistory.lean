import Beetle.Platform.SessionCoherence
import Beetle.Platform.SessionJson

/-! Whole runs of calls on one session store, and what its caches may be asked. -/
namespace Beetle.Platform.Storage
open Beetle.Lib Beetle.Memory

/-- The calls on a session store; `first` is the key that an eviction in it would take. -/
inductive SessionCall where
  | appendBatch (first : FirstKey) (chatId : String) (messages : List SessionMessage)
  | loadRecent (first : FirstKey) (chatId : String) (n : Nat)
  | loadRecentRecords (first : FirstKey) (chatId : String) (n : Nat)
  | messageCount (chatId : String)
  | clear (chatId : String)

def SessionCall.chatId : SessionCall → String
  | appendBatch _ chatId _ => chatId
  | loadRecent _ chatId _ => chatId
  | loadRecentRecords _ chatId _ => chatId
  | messageCount chatId => chatId
  | clear chatId => chatId

inductive SessionAnswer where
  | messages (chatId : String) (n : Nat) (result : Except Error (List SessionMessage))
  | count (chatId : String) (result : Except Error Nat)

/-- A store with the log of the appends and clears that it has taken, and the
answer of the last call, if it was a `load_recent` or a `message_count`. -/
structure SessionHistory where
  store : StorageSessionStore
  log : SessionLog
  answer : Option SessionAnswer

/-- A store just opened on a disk. -/
def SessionHistory.open (files : HashMap String Bytes) (counter : Nat) (log : SessionLog) : SessionHistory :=
  ⟨.new files counter, log, none⟩

variable (cfg : SessionConfig)

def SessionHistory.call (w : SessionHistory) : SessionCall → Option SessionHistory
  | .appendBatch first chatId messages =>
    match w.store.appendBatch cfg first chatId messages with
    | (store, .ok ()) => some ⟨store, w.log.append chatId messages, none⟩
    | (store, .error _) => some ⟨store, w.log, none⟩
  | .loadRecent first chatId n =>
    let (store, result) := w.store.loadRecent cfg first chatId n
    some ⟨store, w.log, some (.messages chatId n result)⟩
  | .loadRecentRecords first chatId n =>
    let (store, _) := w.store.loadRecentRecords cfg first chatId n
    some ⟨store, w.log, none⟩
  | .messageCount chatId =>
    let (store, result) := w.store.messageCount cfg chatId
    some ⟨store, w.log, some (.count chatId result)⟩
  | .clear chatId =>
    match w.store.clear cfg chatId with
    | (store, .ok ()) => some ⟨store, w.log.clear chatId, none⟩
    | (store, .error _) => some ⟨store, w.log, none⟩

/-- The last answer is what the log says. -/
def SessionHistory.AnswersLog (w : SessionHistory) : Prop :=
  match w.answer with
  | none => True
  | some (.messages chatId n result) => result = .ok ((w.log chatId).rtake (min n maxSessionEntries))
  | some (.count chatId result) => result = .ok (min (w.log chatId).length maxSessionEntries)

def sessionFile (s : StorageSessionStore) (chatId : String) : Bytes :=
  match sessionPath cfg chatId with
  | .ok (path, _) => s.fileOf path
  | .error _ => []

/-- What a call may be asked in a state: `load_recent` no more messages than the
recent cache holds, counts no file that a bounded read does not cover, and appends
no message that a later read would skip. -/
def Answerable (w : SessionHistory) : SessionCall → Prop
  | .appendBatch _ chatId messages =>
    (∀ message ∈ messages, ¬ (isBlank message.role = true ∧ isBlank message.content = true)) ∧
      (w.store.counts.lookup chatId = none → cfg.deferCompactOnAppend = true →
        CountCovers cfg (sessionFile cfg w.store chatId) (w.log chatId).length)
  | .loadRecent _ chatId n =>
    LoadCovered cfg (w.store.recent.lookup chatId) (sessionFile cfg w.store chatId) (w.log chatId).length n
  | .loadRecentRecords _ _ _ => True
  | .messageCount chatId =>
    w.store.counts.lookup chatId = none → cfg.deferCompactOnAppend = true →
      CountCovers cfg (sessionFile cfg w.store chatId) (w.log chatId).length
  | .clear _ => True

/-- Chats with valid ids, each with a session file of its own. -/
structure OwnFiles (chats : List String) : Prop where
  accepted : ∀ c ∈ chats, ∃ path header, sessionPath cfg c = .ok (path, header)
  distinct : ∀ c ∈ chats, ∀ d ∈ chats, ∀ path h h',
    sessionPath cfg c = .ok (path, h) → sessionPath cfg d = .ok (path, h') → c = d

/-- The disk holds what a ring retains of the log of each chat. -/
def DiskHolds (chats : List String) (files : HashMap String Bytes) (log : SessionLog) : Prop :=
  ∀ c ∈ chats, ∀ path header, sessionPath cfg c = .ok (path, header) → ∃ kept,
    (∃ header, (files.lookup path).getD [] = sessionBody header c kept) ∧
      (∀ message ∈ kept, message.WellFormed) ∧
      (kept.map (·.toSessionMessage)).rtake maxSessionEntries = log.retained c

def Coherent (counting : Prop) (chats : List String) (s : StorageSessionStore) (log : SessionLog) : Prop :=
  ∀ c ∈ chats, ∀ path header, sessionPath cfg c = .ok (path, header) →
    ∃ kept, ChatCoherent cfg counting s c path (log c) kept

variable {cfg} {counting : Prop} {chats : List String}

/-- A call on one chat keeps the others coherent. -/
theorem Coherent.update (hown : OwnFiles cfg chats) {s t : StorageSessionStore} {log log' : SessionLog}
    (hs : Coherent cfg counting chats s log) {c path : String} {header : Bool} {kept : List StoredSessionMessage}
    (hc : c ∈ chats) (hpath : sessionPath cfg c = .ok (path, header)) (hframe : Frame s t c path)
    (ht : ChatCoherent cfg counting t c path (log' c) kept) (hlog : ∀ d, d ≠ c → log' d = log d) :
    Coherent cfg counting chats t log' := by
  intro d hd path' header' hpath'
  by_cases hdc : d = c
  · subst hdc
    obtain ⟨rfl, -⟩ : path = path' ∧ header = header' := by simpa using hpath.symm.trans hpath'
    exact ⟨kept, ht⟩
  · obtain ⟨kept', hkept'⟩ := hs d hd path' header' hpath'
    rw [hlog d hdc]
    refine ⟨kept', hframe.coherent hkept' hdc fun hsame => hdc ?_⟩
    subst hsame
    exact hown.distinct d hd c hc _ _ _ hpath' hpath

theorem Coherent.call (hown : OwnFiles cfg chats) {w t : SessionHistory} {call : SessionCall}
    (hw : Coherent cfg True chats w.store w.log) (hc : call.chatId ∈ chats) (hsafe : Answerable cfg w call)
    (h : w.call cfg call = some t) : Coherent cfg True chats t.store t.log ∧ t.AnswersLog := by
  obtain ⟨path, header, hpath⟩ := hown.accepted call.chatId hc
  obtain ⟨kept, hkept⟩ := hw call.chatId hc path header hpath
  have hfile : sessionFile cfg w.store call.chatId = w.store.fileOf path := by simp [sessionFile, hpath]
  cases call with
  | appendBatch first c messages =>
    simp only [SessionCall.chatId] at hfile hpath hkept hc
    obtain ⟨hblank, hcount⟩ := hsafe
    rw [hfile] at hcount
    by_cases hfits : ∀ message ∈ messages, lineLength message ≤ maxSessionMessageLen
    · obtain ⟨store, kept', hok, hframe, hstore⟩ := hkept.appendBatch_ok hpath first
        (fun message hm => ⟨hfits message hm, hblank message hm⟩) fun _ => hcount
      simp only [SessionHistory.call, hok] at h
      cases h
      exact ⟨hw.update hown hc hpath hframe (by simpa using hstore) fun d hd => SessionLog.append_of_ne hd,
        trivial⟩
    · obtain ⟨store, text, herror, hframe, hstore⟩ := hkept.appendBatch_refused first hfits
      simp only [SessionHistory.call, herror] at h
      cases h
      exact ⟨hw.update hown hc hpath hframe hstore fun _ _ => rfl, trivial⟩
  | loadRecent first c n =>
    simp only [SessionCall.chatId] at hfile hpath hkept hc
    simp only [Answerable, hfile] at hsafe
    obtain ⟨store, hok, hframe, hstore⟩ := hkept.loadRecent_eq hpath first n hsafe
    simp only [SessionHistory.call, hok] at h
    cases h
    exact ⟨hw.update hown hc hpath hframe hstore fun _ _ => rfl, rfl⟩
  | loadRecentRecords first c n =>
    simp only [SessionCall.chatId] at hfile hpath hkept hc
    obtain ⟨store, result, hok, hframe, hstore⟩ := hkept.loadRecentRecords_eq hpath first n
    simp only [SessionHistory.call, hok] at h
    cases h
    exact ⟨hw.update hown hc hpath hframe hstore fun _ _ => rfl, trivial⟩
  | messageCount c =>
    simp only [SessionCall.chatId] at hfile hpath hkept hc
    simp only [Answerable, hfile] at hsafe
    obtain ⟨store, hok, hframe, hstore⟩ := hkept.messageCount_eq hpath trivial hsafe
    simp only [SessionHistory.call, hok] at h
    cases h
    exact ⟨hw.update hown hc hpath hframe hstore fun _ _ => rfl, rfl⟩
  | clear c =>
    simp only [SessionCall.chatId] at hfile hpath hkept hc
    obtain ⟨store, hok, hframe, hstore⟩ := ChatCoherent.clear_eq (s := w.store) hpath
    simp only [SessionHistory.call, hok] at h
    cases h
    exact ⟨hw.update hown hc hpath hframe (by simpa using hstore) fun d hd => SessionLog.clear_of_ne hd,
      trivial⟩

theorem coherent_new {files : HashMap String Bytes} {log : SessionLog}
    (h : DiskHolds cfg chats files log) (counter : Nat) : Coherent cfg counting chats (.new files counter) log := by
  intro c hc path header hpath
  obtain ⟨kept, hfile, hwf, hretained⟩ := h c hc path header hpath
  exact ⟨kept, hfile, hwf, hretained, fun state hstate => by simp [StorageSessionStore.new] at hstate,
    fun recent hrecent => by simp [StorageSessionStore.new] at hrecent⟩

theorem diskHolds_empty : DiskHolds cfg chats ∅ fun _ => [] :=
  fun _ _ _ _ _ => ⟨[], ⟨false, rfl⟩, by simp, rfl⟩

/-- In a run of calls on chats with files of their own that are all answerable
where they are made, every answer is what the log says. -/
theorem session_answers_log (hown : OwnFiles cfg chats) {files : HashMap String Bytes} {log : SessionLog}
    (hdisk : DiskHolds cfg chats files log) (counter : Nat) (calls : List SessionCall)
    (hchats : ∀ call ∈ calls, call.chatId ∈ chats)
    (hsafe : Meets (SessionHistory.call cfg) (Answerable cfg) calls (.open files counter log)) :
    Always (SessionHistory.call cfg) SessionHistory.AnswersLog calls (.open files counter log) := by
  refine always_of_meets (I := fun w => Coherent cfg True chats w.store w.log ∧ w.AnswersLog)
    (C := fun w call => Answerable cfg w call ∧ call.chatId ∈ chats)
    (fun w call t hw hcall ht => hw.1.call hown hcall.2 hcall.1 ht) (fun _ hw => hw.2) calls _
    ⟨coherent_new hdisk counter, trivial⟩ (hsafe.mono fun w call hcall hs => ⟨hs, hchats call hcall⟩)

/-- The configuration of the ESP targets. -/
def espSessionConfig : SessionConfig :=
  ⟨"/storage/s", true, some sessionTailReadMaxBytes, .reader, fun _ => 0, by simp⟩

def hostSessionConfig : SessionConfig := ⟨"/tmp/beetle/s", false, none, .reader, fun _ => 0, unbounded_reads_all⟩

theorem ownFiles_host : OwnFiles hostSessionConfig ["a"] := by
  refine ⟨fun c hc => ?_, by simp⟩
  obtain rfl : c = "a" := by simpa using hc
  exact ⟨"/tmp/beetle/s/a.jsonl", false, rfl⟩

def SessionHistory.lastLoad (w : SessionHistory) : Option (String × Nat × List SessionMessage) :=
  match w.answer with
  | some (.messages chatId n (.ok messages)) => some (chatId, n, messages)
  | _ => none

/-- A read of one message fills the recent cache, and a read of two is answered from it. -/
def shortTailRun : List SessionCall :=
  [.appendBatch (fun _ => none) "a" [⟨"user", "1"⟩, ⟨"assistant", "2"⟩],
    .loadRecent (fun _ => none) "a" 1, .loadRecent (fun _ => none) "a" 2]

theorem short_tail_answers_longer_read :
    ¬ Always (SessionHistory.call espSessionConfig) SessionHistory.AnswersLog shortTailRun
      (.open ∅ 1 fun _ => []) := by
  intro h
  have hrun : (exec (SessionHistory.call espSessionConfig) shortTailRun (.open ∅ 1 fun _ => [])).map
      (fun w => (w.lastLoad, w.log "a")) =
      some (some ("a", 2, [⟨"assistant", "2"⟩]), [⟨"user", "1"⟩, ⟨"assistant", "2"⟩]) := by
    decide +kernel
  obtain ⟨t, ht, hlast⟩ := Option.map_eq_some_iff.mp hrun
  obtain ⟨hload, hlog⟩ := Prod.mk.inj hlast
  have hanswer := h.last ht
  unfold SessionHistory.lastLoad at hload
  split at hload
  · rename_i c n messages hmessages
    obtain ⟨rfl, rfl, rfl⟩ : c = "a" ∧ n = 2 ∧ messages = [⟨"assistant", "2"⟩] := by simpa using hload
    simp only [SessionHistory.AnswersLog, hmessages, hlog] at hanswer
    exact absurd (Except.ok.inj hanswer) (by decide)
  · cases hload

theorem session_answers_log_of_append :
    Always (SessionHistory.call hostSessionConfig) SessionHistory.AnswersLog
      [.appendBatch (fun _ => none) "a" [⟨"user", "1"⟩], .loadRecent (fun _ => none) "a" 8, .messageCount "a"]
      (.open ∅ 1 fun _ => []) := by
  have hwhole : ¬ Truncated hostSessionConfig [] := fun ⟨_, hmax, _⟩ => nomatch hmax
  have hcached : ∀ t, SessionHistory.call hostSessionConfig (.open ∅ 1 fun _ => [])
      (.appendBatch (fun _ => none) "a" [⟨"user", "1"⟩]) = some t → t.store.recent.lookup "a" = none := by
    intro t ht
    have hnone : (SessionHistory.call hostSessionConfig (.open ∅ 1 fun _ => [])
        (.appendBatch (fun _ => none) "a" [⟨"user", "1"⟩])).map (fun t => t.store.recent.lookup "a") =
        some none := by decide
    rw [ht] at hnone
    exact Option.some.inj hnone
  refine session_answers_log ownFiles_host diskHolds_empty 1 _ (by simp [SessionCall.chatId]) ?_
  refine fun t ht => ⟨⟨by decide, fun _ hdefer => nomatch hdefer⟩, fun u hu => ⟨?_, fun v _ => ⟨?_, trivial⟩⟩⟩
  · simp only [Answerable, hcached t ht]
    exact fun _ => ⟨fun _ hmax => (nomatch hmax), fun hdefer => (nomatch hdefer)⟩
  · exact fun _ hdefer => nomatch hdefer

end Beetle.Platform.Storage
