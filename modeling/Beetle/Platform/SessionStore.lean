import Beetle.Lib.Run
import Beetle.Platform.SessionFile

/-! The session store over files, with its caches; all file operations succeed. -/
namespace Beetle.Platform.Storage
open Beetle.Lib Beetle.Memory

/-- Bound on the chats with a recent cache. -/
def recentCacheChatLimit : Nat := 16

/-- `files` is the disk; `messageIdCounter` counts the message ids made so far. -/
structure StorageSessionStore where
  files : HashMap String Bytes
  counts : HashMap String SessionAppendState
  recent : HashMap String (List StoredSessionMessage)
  messageIdCounter : Nat

/-- The key that `keys().next()` of the recent cache gives. -/
abbrev FirstKey := HashMap String (List StoredSessionMessage) → Option String

inductive SessionRepairMode where
  | deferred
  | immediate
  deriving DecidableEq

namespace StorageSessionStore

/-- A store that has just been opened. -/
def new (files : HashMap String Bytes) (messageIdCounter : Nat) : StorageSessionStore :=
  ⟨files, ∅, ∅, messageIdCounter⟩

def upsertRecentCache (first : FirstKey) (chatId : String) (messages : List StoredSessionMessage)
    (recent : HashMap String (List StoredSessionMessage)) : HashMap String (List StoredSessionMessage) :=
  let recent :=
    if chatId ∉ recent ∧ recentCacheChatLimit ≤ recent.keys.card then
      match first recent with
      | some evictKey => recent.erase evictKey
      | none => recent
    else recent
  recent.insert chatId messages

variable (cfg : SessionConfig)

def loadSessionSnapshot (s : StorageSessionStore) (path chatId : String) (writeHeader : Bool)
    (repairMode : SessionRepairMode) : StorageSessionStore × Except Error SessionFileSnapshot :=
  let (snapshot, counter) := scanSessionFile cfg s.messageIdCounter ((s.files.lookup path).getD [])
  let s := { s with messageIdCounter := counter }
  if snapshot.needsRepair ∧ repairMode = .immediate then
    match writeSessionMessages chatId writeHeader snapshot.messages with
    | .error e => (s, .error e)
    | .ok (body, _) => ({ s with files := s.files.insert path body }, .ok snapshot)
  else (s, .ok snapshot)

def loadSessionTailSnapshot (s : StorageSessionStore) (path : String) (limit : Nat) :
    StorageSessionStore × SessionFileSnapshot :=
  let (buf, tailTruncated) := readSessionRecentBytes cfg ((s.files.lookup path).getD [])
  let (snapshot, counter) := scanSessionTail cfg s.messageIdCounter buf limit tailTruncated
  ({ s with messageIdCounter := counter }, snapshot)

/-- What an append needs to know of the file, with the messages where it was scanned for that. -/
def appendState (s : StorageSessionStore) (path chatId : String) (writeHeader : Bool) :
    StorageSessionStore × Except Error (SessionAppendState × Option (List StoredSessionMessage)) :=
  match s.counts.lookup chatId with
  | some state => (s, .ok (state, none))
  | none =>
    if cfg.deferCompactOnAppend then
      let (state, counter) := observeSessionAppendState cfg s.messageIdCounter (s.files.lookup path)
      ({ s with counts := s.counts.insert chatId state, messageIdCounter := counter }, .ok (state, none))
    else
      match loadSessionSnapshot cfg s path chatId writeHeader .deferred with
      | (s, .error e) => (s, .error e)
      | (s, .ok snapshot) =>
        let state := SessionAppendState.fromObservedSnapshot snapshot
        ({ s with counts := s.counts.insert chatId state }, .ok (state, some snapshot.messages))

/-- The fast path, and the deferred one: lines go to the end of the file. -/
def appendInPlace (s : StorageSessionStore) (path chatId : String) (writeHeader : Bool)
    (state : SessionAppendState) (stored : List StoredSessionMessage) (lines : List Bytes) :
    StorageSessionStore :=
  let prependNewline := state.hasData && !state.endsWithNewline
  let file := appendSessionLines (s.files.lookup path) chatId writeHeader prependNewline lines
  let recent :=
    match s.recent.lookup chatId with
    | some recent => s.recent.insert chatId ((recent ++ stored).rtake maxSessionEntries)
    | none => s.recent
  { s with
    files := s.files.insert path file
    recent
    counts := s.counts.insert chatId (state.afterAppending stored.length) }

/-- The messages that the slow path adds to. -/
def compactBase (s : StorageSessionStore) (first : FirstKey) (path chatId : String) (writeHeader : Bool)
    (existing : Option (List StoredSessionMessage)) :
    StorageSessionStore × Except Error (List StoredSessionMessage) :=
  match s.recent.lookup chatId with
  | some recent => (s, .ok recent)
  | none =>
    match existing with
    | some loaded => ({ s with recent := upsertRecentCache first chatId loaded s.recent }, .ok loaded)
    | none =>
      match loadSessionSnapshot cfg s path chatId writeHeader .immediate with
      | (s, .error e) => (s, .error e)
      | (s, .ok snapshot) =>
        ({ s with recent := upsertRecentCache first chatId snapshot.messages s.recent },
          .ok snapshot.messages)

/-- The slow path: the file is written anew with what the ring retains. -/
def appendCompacting (s : StorageSessionStore) (first : FirstKey) (path chatId : String)
    (writeHeader : Bool) (existing : Option (List StoredSessionMessage))
    (newMessages : List SessionMessage) : StorageSessionStore × Except Error Unit :=
  match compactBase cfg s first path chatId writeHeader existing with
  | (s, .error e) => (s, .error e)
  | (s, .ok base) =>
    let stored := fromSessionMessages cfg.clock s.messageIdCounter newMessages
    let s := { s with messageIdCounter := s.messageIdCounter + newMessages.length }
    let messages := (base ++ stored).rtake maxSessionEntries
    match writeSessionMessages chatId writeHeader messages with
    | .error e => (s, .error e)
    | .ok (body, state) =>
      ({ s with
        files := s.files.insert path body
        recent := upsertRecentCache first chatId messages s.recent
        counts := s.counts.insert chatId state }, .ok ())

def appendBatch (s : StorageSessionStore) (first : FirstKey) (chatId : String)
    (newMessages : List SessionMessage) : StorageSessionStore × Except Error Unit :=
  if newMessages = [] then (s, .ok ())
  else
    let stored := fromSessionMessages cfg.clock s.messageIdCounter newMessages
    let s := { s with messageIdCounter := s.messageIdCounter + newMessages.length }
    match stored.mapM (sessionLine "session_append") with
    | .error e => (s, .error e)
    | .ok lines =>
      match sessionPath cfg chatId with
      | .error e => (s, .error e)
      | .ok (path, writeHeader) =>
        match appendState cfg s path chatId writeHeader with
        | (s, .error e) => (s, .error e)
        | (s, .ok (state, existing)) =>
          if state.messageCount + newMessages.length ≤ maxSessionEntries then
            (appendInPlace s path chatId writeHeader state stored lines, .ok ())
          else if cfg.deferCompactOnAppend then
            (appendInPlace s path chatId writeHeader state stored lines, .ok ())
          else appendCompacting cfg s first path chatId writeHeader existing newMessages

def loadRecent (s : StorageSessionStore) (first : FirstKey) (chatId : String) (n : Nat) :
    StorageSessionStore × Except Error (List SessionMessage) :=
  match sessionPath cfg chatId with
  | .error e => (s, .error e)
  | .ok (path, _) =>
    let cap := min n maxSessionEntries
    if cap = 0 then (s, .ok [])
    else
      match s.recent.lookup chatId with
      | some recent => (s, .ok ((recent.rtake cap).map (·.toSessionMessage)))
      | none =>
        let (s, snapshot) := loadSessionTailSnapshot cfg s path cap
        let recent := snapshot.messages.rtake cap
        let s :=
          if cfg.deferCompactOnAppend then
            { s with counts := s.counts.insert chatId (.fromObservedSnapshot snapshot) }
          else s
        let s :=
          if cap = maxSessionEntries ∨ cfg.deferCompactOnAppend then
            { s with recent := upsertRecentCache first chatId recent s.recent }
          else s
        (s, .ok (recent.map (·.toSessionMessage)))

def loadRecentRecords (s : StorageSessionStore) (first : FirstKey) (chatId : String) (n : Nat) :
    StorageSessionStore × Except Error (List SessionMessageRecord) :=
  match sessionPath cfg chatId with
  | .error e => (s, .error e)
  | .ok (path, _) =>
    let cap := min n maxSessionEntries
    if cap = 0 then (s, .ok [])
    else
      let (s, snapshot) := loadSessionTailSnapshot cfg s path cap
      let recent := snapshot.messages.rtake cap
      let s :=
        if cap = maxSessionEntries ∨ cfg.deferCompactOnAppend then
          { s with recent := upsertRecentCache first chatId recent s.recent }
        else s
      if snapshot.needsRepair then
        (s, .ok (synthesizeSessionMessageRecords chatId (recent.map (·.toSessionMessage))))
      else (s, .ok (recent.map (·.toSessionRecord)))

def messageCount (s : StorageSessionStore) (chatId : String) : StorageSessionStore × Except Error Nat :=
  if (s.recent.lookup chatId).map List.length = some maxSessionEntries then (s, .ok maxSessionEntries)
  else
    match sessionPath cfg chatId with
    | .error e => (s, .error e)
    | .ok (path, writeHeader) =>
      match appendState cfg s path chatId writeHeader with
      | (s, .error e) => (s, .error e)
      | (s, .ok (state, _)) => (s, .ok state.messageCount)

def clear (s : StorageSessionStore) (chatId : String) : StorageSessionStore × Except Error Unit :=
  match sessionPath cfg chatId with
  | .error e => (s, .error e)
  | .ok (path, writeHeader) =>
    ({ s with
      files := s.files.insert path (if writeHeader then chatIdHeader chatId else [])
      counts := s.counts.insert chatId ⟨0, writeHeader, writeHeader⟩
      recent := s.recent.erase chatId }, .ok ())

end StorageSessionStore

/-- The implementation of the session store trait. -/
def storageSessionStore (cfg : SessionConfig) : SessionStore StorageSessionStore FirstKey where
  appendBatch s := s.appendBatch cfg
  loadRecent s := s.loadRecent cfg
  messageCount s _ := s.messageCount cfg
  clear s _ := s.clear cfg

/-! The session store under any number of threads that append, load and clear;
each section under the file lock or under the lock of a cache is one step. -/

/-- Where a thread stands: `load_recent` between its look at the recent cache and
its return, or `clear` after it has emptied the file. `append_batch` holds the
file lock and both caches from start to end. -/
inductive SessionPc where
  | idle
  | missed (chatId path : String) (cap : Nat)
  | loaded (chatId : String) (cap : Nat) (recent : List StoredSessionMessage) (state : SessionAppendState)
      (seen : List SessionMessage)
  | counted (chatId : String) (cap : Nat) (recent : List StoredSessionMessage) (seen : List SessionMessage)
  | emptied (chatId : String) (writeHeader : Bool)
  | uncounted (chatId : String)
  deriving DecidableEq

/-- The store and its threads, with the log of the appends and clears in the
order in which they had the file lock; a thread that has read the file
remembers the log of that time. -/
structure SessionThreads where
  store : StorageSessionStore
  threads : Nat → SessionPc
  log : SessionLog

inductive SessionAction where
  | appendBatch (i : Nat) (first : FirstKey) (chatId : String) (messages : List SessionMessage)
  | lookRecent (i : Nat) (chatId : String) (n : Nat)
  | readFile (i : Nat)
  | publishCounts (i : Nat)
  | publishRecent (i : Nat) (first : FirstKey)
  | emptyFile (i : Nat) (chatId : String)
  | resetCounts (i : Nat)
  | dropRecent (i : Nat)

/-- A store just opened on a disk, with no call in progress. -/
def SessionThreads.open (files : HashMap String Bytes) (counter : Nat) (log : SessionLog) : SessionThreads :=
  ⟨.new files counter, fun _ => .idle, log⟩

/-- Move thread `i` to a new place. -/
def SessionThreads.at (w : SessionThreads) (i : Nat) (pc : SessionPc) : SessionThreads :=
  { w with threads := Function.update w.threads i pc }

@[grind =] def SessionThreads.step (cfg : SessionConfig) (w : SessionThreads) : SessionAction → Option SessionThreads
  | .appendBatch i first chatId messages =>
    match w.threads i with
    | .idle =>
      match w.store.appendBatch cfg first chatId messages with
      | (store, .ok ()) => some { w with store, log := w.log.append chatId messages }
      | (store, .error _) => some { w with store }
    | _ => none
  | .lookRecent i chatId n =>
    match w.threads i with
    | .idle =>
      match sessionPath cfg chatId with
      | .error _ => some w
      | .ok (path, _) =>
        let cap := min n maxSessionEntries
        if cap = 0 then some w
        else
          match w.store.recent.lookup chatId with
          | some _ => some w
          | none => some (w.at i (.missed chatId path cap))
    | _ => none
  | .readFile i =>
    match w.threads i with
    | .missed chatId path cap =>
      let (store, snapshot) := w.store.loadSessionTailSnapshot cfg path cap
      some ({ w with store }.at i (.loaded chatId cap (snapshot.messages.rtake cap)
        (.fromObservedSnapshot snapshot) (w.log chatId)))
    | _ => none
  | .publishCounts i =>
    match w.threads i with
    | .loaded chatId cap recent state seen =>
      let store :=
        if cfg.deferCompactOnAppend then { w.store with counts := w.store.counts.insert chatId state }
        else w.store
      some ({ w with store }.at i (.counted chatId cap recent seen))
    | _ => none
  | .publishRecent i first =>
    match w.threads i with
    | .counted chatId cap recent _ =>
      let store :=
        if cap = maxSessionEntries ∨ cfg.deferCompactOnAppend then
          { w.store with recent := StorageSessionStore.upsertRecentCache first chatId recent w.store.recent }
        else w.store
      some ({ w with store }.at i .idle)
    | _ => none
  | .emptyFile i chatId =>
    match w.threads i with
    | .idle =>
      match sessionPath cfg chatId with
      | .error _ => some w
      | .ok (path, writeHeader) =>
        let body := if writeHeader then chatIdHeader chatId else []
        let store := { w.store with files := w.store.files.insert path body }
        some ({ w with store, log := w.log.clear chatId }.at i (.emptied chatId writeHeader))
    | _ => none
  | .resetCounts i =>
    match w.threads i with
    | .emptied chatId writeHeader =>
      let counts := w.store.counts.insert chatId ⟨0, writeHeader, writeHeader⟩
      some ({ w with store := { w.store with counts } }.at i (.uncounted chatId))
    | _ => none
  | .dropRecent i =>
    match w.threads i with
    | .uncounted chatId =>
      some ({ w with store := { w.store with recent := w.store.recent.erase chatId } }.at i .idle)
    | _ => none

/-- All that a step can be, each with the state it is taken in. -/
inductive SessionFires (cfg : SessionConfig) (w : SessionThreads) : SessionAction → SessionThreads → Prop where
  | appended (i : Nat) (first : FirstKey) (chatId : String) (messages : List SessionMessage)
      (store : StorageSessionStore) (h : w.store.appendBatch cfg first chatId messages = (store, .ok ())) :
      SessionFires cfg w (.appendBatch i first chatId messages)
        { w with store, log := w.log.append chatId messages }
  | refused (i : Nat) (first : FirstKey) (chatId : String) (messages : List SessionMessage)
      (store : StorageSessionStore) (e : Error)
      (h : w.store.appendBatch cfg first chatId messages = (store, .error e)) :
      SessionFires cfg w (.appendBatch i first chatId messages) { w with store }
  | hit (i : Nat) (chatId : String) (n : Nat) : SessionFires cfg w (.lookRecent i chatId n) w
  | miss (i : Nat) (chatId path : String) (header : Bool) (n : Nat) (hi : w.threads i = .idle)
      (hpath : sessionPath cfg chatId = .ok (path, header)) (hn : min n maxSessionEntries ≠ 0) :
      SessionFires cfg w (.lookRecent i chatId n) (w.at i (.missed chatId path (min n maxSessionEntries)))
  | readFile (i : Nat) (chatId path : String) (cap : Nat) (store : StorageSessionStore)
      (snapshot : SessionFileSnapshot) (hi : w.threads i = .missed chatId path cap)
      (h : w.store.loadSessionTailSnapshot cfg path cap = (store, snapshot)) :
      SessionFires cfg w (.readFile i) ({ w with store }.at i (.loaded chatId cap (snapshot.messages.rtake cap)
        (.fromObservedSnapshot snapshot) (w.log chatId)))
  | publishCounts (i : Nat) (chatId : String) (cap : Nat) (recent : List StoredSessionMessage)
      (state : SessionAppendState) (seen : List SessionMessage)
      (hi : w.threads i = .loaded chatId cap recent state seen) (hdefer : cfg.deferCompactOnAppend = true) :
      SessionFires cfg w (.publishCounts i)
        ({ w with store := { w.store with counts := w.store.counts.insert chatId state } }.at i
          (.counted chatId cap recent seen))
  | skipCounts (i : Nat) (chatId : String) (cap : Nat) (recent : List StoredSessionMessage)
      (state : SessionAppendState) (seen : List SessionMessage)
      (hi : w.threads i = .loaded chatId cap recent state seen) :
      SessionFires cfg w (.publishCounts i) (w.at i (.counted chatId cap recent seen))
  | publishRecent (i : Nat) (first : FirstKey) (chatId : String) (cap : Nat) (recent : List StoredSessionMessage)
      (seen : List SessionMessage) (hi : w.threads i = .counted chatId cap recent seen)
      (hkeep : cap = maxSessionEntries ∨ cfg.deferCompactOnAppend = true) :
      SessionFires cfg w (.publishRecent i first) ({ w with store := { w.store with
        recent := StorageSessionStore.upsertRecentCache first chatId recent w.store.recent } }.at i .idle)
  | skipRecent (i : Nat) (first : FirstKey) (chatId : String) (cap : Nat) (recent : List StoredSessionMessage)
      (seen : List SessionMessage) (hi : w.threads i = .counted chatId cap recent seen) :
      SessionFires cfg w (.publishRecent i first) (w.at i .idle)
  | unnamed (i : Nat) (chatId : String) : SessionFires cfg w (.emptyFile i chatId) w
  | emptyFile (i : Nat) (chatId path : String) (header : Bool) (hi : w.threads i = .idle)
      (hpath : sessionPath cfg chatId = .ok (path, header)) :
      SessionFires cfg w (.emptyFile i chatId) ({ w with
        store := { w.store with files := w.store.files.insert path (if header then chatIdHeader chatId else []) }
        log := w.log.clear chatId }.at i (.emptied chatId header))
  | resetCounts (i : Nat) (chatId : String) (header : Bool) (hi : w.threads i = .emptied chatId header) :
      SessionFires cfg w (.resetCounts i) ({ w with store := { w.store with
        counts := w.store.counts.insert chatId ⟨0, header, header⟩ } }.at i (.uncounted chatId))
  | dropRecent (i : Nat) (chatId : String) (hi : w.threads i = .uncounted chatId) :
      SessionFires cfg w (.dropRecent i)
        ({ w with store := { w.store with recent := w.store.recent.erase chatId } }.at i .idle)

variable {w t : SessionThreads} {cfg : SessionConfig}

theorem sessionFires_of_step {a : SessionAction} (h : w.step cfg a = some t) : SessionFires cfg w a t := by
  cases a with
  | appendBatch i first chatId messages =>
    simp only [SessionThreads.step] at h
    split at h
    · split at h
      · rename_i store heq
        cases h
        exact .appended i first chatId messages store heq
      · rename_i store e heq
        cases h
        exact .refused i first chatId messages store e heq
    · cases h
  | lookRecent i chatId n =>
    simp only [SessionThreads.step] at h
    split at h
    · rename_i hi
      split at h
      · cases h
        exact .hit i chatId n
      · rename_i path header hpath
        split at h
        · cases h
          exact .hit i chatId n
        · rename_i hn
          split at h
          · cases h
            exact .hit i chatId n
          · cases h
            exact .miss i chatId path header n hi hpath hn
    · cases h
  | readFile i =>
    simp only [SessionThreads.step] at h
    split at h
    · rename_i chatId path cap hi
      cases h
      exact .readFile i chatId path cap _ _ hi rfl
    · cases h
  | publishCounts i =>
    simp only [SessionThreads.step] at h
    split at h
    · rename_i chatId cap recent state seen hi
      split at h
      · rename_i hdefer
        cases h
        exact .publishCounts i chatId cap recent state seen hi hdefer
      · cases h
        exact .skipCounts i chatId cap recent state seen hi
    · cases h
  | publishRecent i first =>
    simp only [SessionThreads.step] at h
    split at h
    · rename_i chatId cap recent seen hi
      split at h
      · rename_i hkeep
        cases h
        exact .publishRecent i first chatId cap recent seen hi hkeep
      · cases h
        exact .skipRecent i first chatId cap recent seen hi
    · cases h
  | emptyFile i chatId =>
    simp only [SessionThreads.step] at h
    split at h
    · rename_i hi
      split at h
      · cases h
        exact .unnamed i chatId
      · rename_i path header hpath
        cases h
        exact .emptyFile i chatId path header hi hpath
    · cases h
  | resetCounts i =>
    simp only [SessionThreads.step] at h
    split at h
    · rename_i chatId header hi
      cases h
      exact .resetCounts i chatId header hi
    · cases h
  | dropRecent i =>
    simp only [SessionThreads.step] at h
    split at h
    · rename_i chatId hi
      cases h
      exact .dropRecent i chatId hi
    · cases h

def SessionAction.thread : SessionAction → Nat
  | appendBatch i _ _ _ => i
  | lookRecent i _ _ => i
  | readFile i => i
  | publishCounts i => i
  | publishRecent i _ => i
  | emptyFile i _ => i
  | resetCounts i => i
  | dropRecent i => i

theorem SessionFires.threads_of_ne {a : SessionAction} {j : Nat}
    (h : SessionFires cfg w a t) (hj : j ≠ a.thread) : t.threads j = w.threads j := by
  cases h <;> first | rfl | exact Function.update_of_ne hj _ _

/-- Steps move only the threads that take them. -/
theorem exec_threads_of_ne {actions : List SessionAction} {j : Nat}
    (hj : ∀ a ∈ actions, j ≠ a.thread) (h : exec (SessionThreads.step cfg) actions w = some t) :
    t.threads j = w.threads j := by
  induction actions generalizing w with
  | nil =>
    cases h
    rfl
  | cons a actions ih =>
    obtain ⟨u, hu, hrest⟩ := Option.bind_eq_some_iff.mp h
    obtain ⟨ha, hactions⟩ := List.forall_mem_cons.mp hj
    rw [ih hactions hrest, (sessionFires_of_step hu).threads_of_ne ha]

end Beetle.Platform.Storage
