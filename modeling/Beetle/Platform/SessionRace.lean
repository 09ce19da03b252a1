import Beetle.Platform.SessionNames

/-! When a `load_recent` that races with appends and clears leaves the recent
cache, and with it the file, without a message. -/
namespace Beetle.Platform.Storage
open Beetle.Lib Beetle.Memory

/-- Messages that agree with the log as far as a ring retains it. -/
structure Retains (kept : List StoredSessionMessage) (log : List SessionMessage) : Prop where
  wellFormed : ∀ message ∈ kept, message.WellFormed
  retained : (kept.map (·.toSessionMessage)).rtake maxSessionEntries = log.rtake maxSessionEntries

/-- Just what a ring retains of the log. -/
structure RingHolds (ring : List StoredSessionMessage) (log : List SessionMessage) : Prop where
  wellFormed : ∀ message ∈ ring, message.WellFormed
  retained : ring.map (·.toSessionMessage) = log.rtake maxSessionEntries

variable {log : List SessionMessage}

theorem Retains.ring {kept : List StoredSessionMessage} (h : Retains kept log) :
    RingHolds (kept.rtake maxSessionEntries) log :=
  ⟨fun message hm => h.wellFormed message ((rtake_suffix _ _).subset hm), by rw [map_rtake, h.retained]⟩

theorem RingHolds.retains {ring : List StoredSessionMessage} (h : RingHolds ring log) : Retains ring log :=
  ⟨h.wellFormed, by rw [h.retained, rtake_rtake, min_self]⟩

theorem Retains.append {kept stored : List StoredSessionMessage} (h : Retains kept log)
    (hwf : ∀ message ∈ stored, message.WellFormed) :
    Retains (kept ++ stored) (log ++ stored.map (·.toSessionMessage)) :=
  ⟨fun message hm => (List.mem_append.mp hm).elim (h.wellFormed message) (hwf message),
    map_rtake_append h.retained⟩

/-- The cached state does not ask for a newline before the next line. -/
def NoNewline (state : SessionAppendState) : Prop := state.hasData = state.endsWithNewline

theorem NoNewline.prepend {state : SessionAppendState} (h : NoNewline state) :
    (state.hasData && !state.endsWithNewline) = false := by
  rw [h]
  simp

/-- The file of the chat holds what the log retains, and so does the recent
cache where there is an entry. -/
structure StoreHolds (s : StorageSessionStore) (chatId path : String) (log : List SessionMessage) : Prop where
  file : ∃ header kept, s.fileOf path = sessionBody header chatId kept ∧ Retains kept log
  counts : ∀ state, s.counts.lookup chatId = some state → NoNewline state
  recent : ∀ recent, s.recent.lookup chatId = some recent → RingHolds recent log

section
variable {cfg : SessionConfig} {s : StorageSessionStore} {chatId path : String} {log : List SessionMessage}
  {state : SessionAppendState} {existing : Option (List StoredSessionMessage)}

section
variable (h : StoreHolds s chatId path log)
include h

theorem StoreHolds.of_eq {t : StorageSessionStore} (hfiles : t.files = s.files)
    (hcounts : t.counts = s.counts) (hrecent : t.recent = s.recent) : StoreHolds t chatId path log := by
  have hfile : t.fileOf path = s.fileOf path := by simp [StorageSessionStore.fileOf, hfiles]
  exact ⟨by rw [hfile]; exact h.file, by rw [hcounts]; exact h.counts, by rw [hrecent]; exact h.recent⟩

theorem StoreHolds.with_counts (hstate : NoNewline state) (counter : Nat) :
    StoreHolds { s with counts := s.counts.insert chatId state, messageIdCounter := counter } chatId path log :=
  ⟨h.file, fun state' h' => by rwa [← Option.some.inj ((Finmap.lookup_insert _).symm.trans h')], h.recent⟩

theorem StoreHolds.scan (hid : ChatIdOk chatId) (cfg : SessionConfig) (counter : Nat) :
    ∃ snapshot, scanSessionFile cfg counter ((s.files.lookup path).getD []) = (snapshot, counter) ∧
      RingHolds snapshot.messages log ∧ NoNewline (.fromObservedSnapshot snapshot) := by
  obtain ⟨header, kept, hfile, hkept⟩ := h.file
  simp only [StorageSessionStore.fileOf] at hfile
  rw [hfile, scanSessionFile_sessionBody hid hkept.wellFormed cfg header counter]
  refine ⟨_, rfl, ?_, ?_⟩
  · dsimp only
    exact hkept.ring
  · simp only [NoNewline, SessionAppendState.fromObservedSnapshot]

theorem StoreHolds.observe (hid : ChatIdOk chatId) (cfg : SessionConfig) (counter : Nat) :
    ∃ state, observeSessionAppendState cfg counter (s.files.lookup path) = (state, counter) ∧ NoNewline state := by
  obtain ⟨header, kept, hfile, hkept⟩ := h.file
  cases hlookup : s.files.lookup path with
  | none => exact ⟨.default, rfl, rfl⟩
  | some file =>
    obtain ⟨shown, count, -, hscan⟩ := scanSessionTail_recent hid hkept.wellFormed cfg header
    have hof : s.fileOf path = file := by simp [StorageSessionStore.fileOf, hlookup]
    rw [← hfile, hof] at hscan
    by_cases hnil : file = []
    · exact ⟨.default, by rw [observeSessionAppendState, if_pos hnil], rfl⟩
    · rw [observeSessionAppendState, if_neg hnil]
      simp only [hscan]
      exact ⟨_, rfl, rfl⟩

theorem StoreHolds.appendState (hid : ChatIdOk chatId) (cfg : SessionConfig) (writeHeader : Bool) :
    ∃ t state existing, s.appendState cfg path chatId writeHeader = (t, .ok (state, existing)) ∧
      StoreHolds t chatId path log ∧ NoNewline state ∧
      ∀ loaded, existing = some loaded → RingHolds loaded log := by
  unfold StorageSessionStore.appendState
  cases hcounts : s.counts.lookup chatId with
  | some state => exact ⟨s, state, none, rfl, h, h.counts state hcounts, nofun⟩
  | none =>
    dsimp only
    split
    · obtain ⟨state, hobserve, hstate⟩ := h.observe hid cfg s.messageIdCounter
      rw [hobserve]
      exact ⟨_, state, none, rfl, h.with_counts hstate _, hstate, nofun⟩
    · obtain ⟨snapshot, hscan, hring, hstate⟩ := h.scan hid cfg s.messageIdCounter
      simp only [StorageSessionStore.loadSessionSnapshot, reduceCtorEq, and_false, if_false, hscan]
      refine ⟨_, _, _, rfl, h.with_counts hstate _, hstate, fun loaded hloaded => ?_⟩
      rwa [← Option.some.inj hloaded]

theorem StoreHolds.appendInPlace (hstate : NoNewline state) {stored : List StoredSessionMessage}
    (hwf : ∀ message ∈ stored, message.WellFormed) (writeHeader : Bool) :
    StoreHolds (s.appendInPlace path chatId writeHeader state stored (stored.map StoredSessionMessage.line))
      chatId path (log ++ stored.map (·.toSessionMessage)) := by
  obtain ⟨header, kept, hfile, hkept⟩ := h.file
  obtain ⟨header', hbody⟩ := appendSessionLines_sessionBody hfile writeHeader stored
  refine ⟨⟨header', kept ++ stored, ?_, hkept.append hwf⟩, fun state' hstate' => ?_, fun recent hrecent => ?_⟩
  · simp [StorageSessionStore.appendInPlace, StorageSessionStore.fileOf, hstate.prepend, hbody]
  · rw [← Option.some.inj ((Finmap.lookup_insert _).symm.trans hstate')]
    rfl
  · simp only [StorageSessionStore.appendInPlace] at hrecent
    cases hold : s.recent.lookup chatId with
    | none => simp [hold] at hrecent
    | some old =>
      obtain rfl : (old ++ stored).rtake maxSessionEntries = recent := by simpa [hold] using hrecent
      exact ((h.recent old hold).retains.append hwf).ring

/-- A new entry of the recent cache that holds what the log retains. -/
theorem StoreHolds.upsert (first : FirstKey) {recent : List StoredSessionMessage} (hrecent : RingHolds recent log) :
    StoreHolds { s with recent := StorageSessionStore.upsertRecentCache first chatId recent s.recent } chatId path log :=
  ⟨h.file, h.counts, fun recent' h' => by rwa [← Option.some.inj (lookup_upsertRecentCache.symm.trans h')]⟩

/-- The file written anew with what the log retains. -/
theorem StoreHolds.rewritten (writeHeader : Bool)
    {messages : List StoredSessionMessage} (hmessages : Retains messages log) :
    StoreHolds { s with files := s.files.insert path (sessionBody writeHeader chatId messages) } chatId path log := by
  refine ⟨⟨writeHeader, messages, ?_, hmessages⟩, h.counts, h.recent⟩
  simp [StorageSessionStore.fileOf]

theorem StoreHolds.compactBase (hid : ChatIdOk chatId) (cfg : SessionConfig)
    (first : FirstKey) (writeHeader : Bool) (hexisting : ∀ loaded, existing = some loaded → RingHolds loaded log) :
    ∃ t base, s.compactBase cfg first path chatId writeHeader existing = (t, .ok base) ∧
      StoreHolds t chatId path log ∧ RingHolds base log := by
  unfold StorageSessionStore.compactBase
  cases hrecent : s.recent.lookup chatId with
  | some recent => exact ⟨s, recent, rfl, h, h.recent recent hrecent⟩
  | none =>
    cases hloaded : existing with
    | some loaded => exact ⟨_, loaded, rfl, h.upsert first (hexisting loaded hloaded), hexisting loaded hloaded⟩
    | none =>
      obtain ⟨snapshot, hscan, hring, -⟩ := h.scan hid cfg s.messageIdCounter
      have hwrite := writeSessionMessages_of_fits chatId writeHeader fun message hm =>
        (hring.wellFormed message hm).fits
      simp only [StorageSessionStore.loadSessionSnapshot, hscan, hwrite, and_true]
      cases snapshot.needsRepair with
      | true => exact ⟨_, _, rfl, (h.rewritten writeHeader hring.retains).upsert first hring, hring⟩
      | false => exact ⟨_, _, rfl, h.upsert first hring, hring⟩

theorem StoreHolds.appendCompacting (hid : ChatIdOk chatId)
    (cfg : SessionConfig) (first : FirstKey) (writeHeader : Bool)
    (hexisting : ∀ loaded, existing = some loaded → RingHolds loaded log)
    {newMessages : List SessionMessage} (hstorable : ∀ message ∈ newMessages, Storable message) :
    ∃ t, s.appendCompacting cfg first path chatId writeHeader existing newMessages = (t, .ok ()) ∧
      StoreHolds t chatId path (log ++ newMessages) := by
  obtain ⟨t, base, hbase, ht, hring⟩ := h.compactBase hid cfg first writeHeader hexisting
  have hwf := wellFormed_from cfg.clock t.messageIdCounter newMessages hstorable
  have hmessages := (hring.retains.append hwf).ring
  rw [map_toSessionMessage_from] at hmessages
  simp only [StorageSessionStore.appendCompacting, hbase]
  rw [writeSessionMessages_of_fits chatId writeHeader fun message hm => (hmessages.wellFormed message hm).fits]
  refine ⟨_, rfl, ⟨writeHeader, _, ?_, hmessages.retains⟩, fun state hstate => ?_, fun recent hrecent => ?_⟩
  · simp [StorageSessionStore.fileOf]
  · rw [← Option.some.inj ((Finmap.lookup_insert _).symm.trans hstate)]
    rfl
  · rwa [← Option.some.inj (lookup_upsertRecentCache.symm.trans hrecent)]

/-- An append adds its messages to what the log retains, or is refused. -/
theorem StoreHolds.appendBatch {writeHeader : Bool}
    (hpath : sessionPath cfg chatId = .ok (path, writeHeader)) (first : FirstKey) {messages : List SessionMessage}
    (hblank : (∀ message ∈ messages, lineLength message ≤ maxSessionMessageLen) →
      ∀ message ∈ messages, ¬ (isBlank message.role = true ∧ isBlank message.content = true)) :
    ∃ t result, s.appendBatch cfg first chatId messages = (t, result) ∧
      StoreHolds t chatId path (if result.isOk then log ++ messages else log) := by
  have hid := chatIdOk_of_sessionPath hpath
  unfold StorageSessionStore.appendBatch
  split
  · rename_i hempty
    exact ⟨s, .ok (), rfl, by simpa [hempty] using h⟩
  · let s₁ := { s with messageIdCounter := s.messageIdCounter + messages.length }
    have h₁ : StoreHolds s₁ chatId path log := h.of_eq rfl rfl rfl
    by_cases hfits : ∀ message ∈ messages, lineLength message ≤ maxSessionMessageLen
    · have hstorable : ∀ message ∈ messages, Storable message := fun message hm =>
        ⟨hfits message hm, hblank hfits message hm⟩
      have hwf := wellFormed_from cfg.clock s.messageIdCounter messages hstorable
      have hlines := mapM_sessionLine_of_fits "session_append" fun message hm => (hwf message hm).fits
      obtain ⟨t, state, existing, hstate, ht, hflat, hexisting⟩ := h₁.appendState hid cfg writeHeader
      have hinPlace := ht.appendInPlace hflat hwf writeHeader
      rw [map_toSessionMessage_from] at hinPlace
      simp only [s₁] at hstate
      simp only [hlines, hpath, hstate]
      split
      · exact ⟨_, .ok (), rfl, hinPlace⟩
      · split
        · exact ⟨_, .ok (), rfl, hinPlace⟩
        · obtain ⟨u, hcompact, hu⟩ := ht.appendCompacting hid cfg first writeHeader hexisting hstorable
          exact ⟨u, .ok (), hcompact, hu⟩
    · obtain ⟨text, herror⟩ := mapM_sessionLine_of_long "session_append"
        (mt (forall_fits_from cfg.clock s.messageIdCounter messages).mp hfits)
      simp only [herror]
      exact ⟨s₁, .error _, rfl, h₁⟩

end

end

/-- No call is in progress. -/
def SessionThreads.Quiet (w : SessionThreads) : Prop := ∀ i, w.threads i = .idle

/-- A `clear` of the chat has emptied the file and has yet to drop the entry of the recent cache. -/
def SessionThreads.Clearing (w : SessionThreads) (chatId : String) : Prop :=
  ∃ i, (∃ header, w.threads i = .emptied chatId header) ∨ w.threads i = .uncounted chatId

/-- With no call in progress, the file of each chat and its entry of the recent
cache hold just what a ring retains of the log. -/
def SessionThreads.HoldsLog (cfg : SessionConfig) (chats : List String) (w : SessionThreads) : Prop :=
  w.Quiet → ∀ c ∈ chats, ∀ path header, sessionPath cfg c = .ok (path, header) →
    (∀ counter, (scanSessionFile cfg counter (w.store.fileOf path)).1.messages.map (·.toSessionMessage) =
      (w.log c).rtake maxSessionEntries) ∧
    ∀ recent, w.store.recent.lookup c = some recent →
      recent.map (·.toSessionMessage) = (w.log c).rtake maxSessionEntries

/-- The `load_recent` puts what it has read in the recent cache. -/
def Publishes (cfg : SessionConfig) (cap : Nat) : Prop :=
  cap = maxSessionEntries ∨ cfg.deferCompactOnAppend = true

/-- What a thread in the midst of a call on the chat carries. -/
def PcHolds (cfg : SessionConfig) (chatId path : String) : SessionPc → Prop
  | .missed c p cap => c = chatId → p = path ∧ 0 < cap ∧ cap ≤ maxSessionEntries
  | .loaded c cap recent state seen =>
    c = chatId → NoNewline state ∧ (Publishes cfg cap → RingHolds recent seen)
  | .counted c cap recent seen => c = chatId → Publishes cfg cap → RingHolds recent seen
  | _ => True

/-- What holds of one chat between any two steps: its entry of the recent cache
may be wrong only while a `clear` is about to drop it. -/
structure ChatHolds (cfg : SessionConfig) (chatId path : String) (w : SessionThreads) : Prop where
  file : ∃ header kept, w.store.fileOf path = sessionBody header chatId kept ∧ Retains kept (w.log chatId)
  counts : ∀ state, w.store.counts.lookup chatId = some state → NoNewline state
  recent : ∀ recent, w.store.recent.lookup chatId = some recent → w.Clearing chatId ∨
    RingHolds recent (w.log chatId)
  threads : ∀ i, PcHolds cfg chatId path (w.threads i)

section
variable {cfg : SessionConfig} {chatId path : String} {w t : SessionThreads}

theorem ChatHolds.store (h : ChatHolds cfg chatId path w)
    (hrecent : w.Clearing chatId → w.store.recent.lookup chatId = none) :
    StoreHolds w.store chatId path (w.log chatId) := by
  refine ⟨h.file, h.counts, fun recent hlookup => ?_⟩
  rcases h.recent recent hlookup with hclearing | hring
  · rw [hrecent hclearing] at hlookup
    cases hlookup
  · exact hring

/-- A step that leaves the chat alone, but for an entry that it may evict. -/
theorem ChatHolds.of_eq (h : ChatHolds cfg chatId path w)
    (hfile : t.store.files.lookup path = w.store.files.lookup path)
    (hcounts : t.store.counts.lookup chatId = w.store.counts.lookup chatId)
    (hrecent : t.store.recent.lookup chatId = none ∨
      t.store.recent.lookup chatId = w.store.recent.lookup chatId)
    (hlog : t.log chatId = w.log chatId) (hclearing : w.Clearing chatId → t.Clearing chatId)
    (hthreads : ∀ i, PcHolds cfg chatId path (t.threads i)) : ChatHolds cfg chatId path t := by
  have hfile : t.store.fileOf path = w.store.fileOf path := by simp [StorageSessionStore.fileOf, hfile]
  refine ⟨by rw [hfile, hlog]; exact h.file, fun state hstate => ?_, fun recent hlookup => ?_, hthreads⟩
  · exact h.counts state (by rw [← hcounts, hstate])
  · rcases hrecent with hnone | hsame
    · rw [hnone] at hlookup
      cases hlookup
    · rw [hlog]
      exact (h.recent recent (by rw [← hsame, hlookup])).imp_left hclearing

theorem pcHolds_update (h : ∀ i, PcHolds cfg chatId path (w.threads i)) {i : Nat} {pc : SessionPc}
    (hpc : PcHolds cfg chatId path pc) : ∀ j, PcHolds cfg chatId path ((w.at i pc).threads j) := by
  intro j
  by_cases hj : j = i
  · subst hj
    simpa [SessionThreads.at] using hpc
  · simpa [SessionThreads.at, hj] using h j

/-- A thread that is not clearing the chat may move. -/
theorem SessionThreads.Clearing.at (h : w.Clearing chatId) {i : Nat} {pc : SessionPc}
    (hi : (∀ header, w.threads i ≠ .emptied chatId header) ∧ w.threads i ≠ .uncounted chatId) :
    (w.at i pc).Clearing chatId := by
  obtain ⟨j, hj⟩ := h
  refine ⟨j, ?_⟩
  have hne : j ≠ i := by
    rintro rfl
    rcases hj with ⟨header, hj⟩ | hj
    · exact hi.1 header hj
    · exact hi.2 hj
  simpa [SessionThreads.at, hne] using hj

/-- The chat that a step is about, where the action names it. -/
def SessionAction.chatId? : SessionAction → Option String
  | .appendBatch _ _ c _ => some c
  | .lookRecent _ c _ => some c
  | .emptyFile _ c => some c
  | _ => none

/-- What a step must find in the state before it. An append of storable messages
finds no entry that a `clear` of the chat is about to drop, and a `load_recent`
publishes its messages only while the log retains what it did when the file was
read; where reads are bounded, it has asked for all that the log retains and the
bound covers it. -/
def RaceSafe (cfg : SessionConfig) (w : SessionThreads) : SessionAction → Prop
  | .appendBatch _ _ c messages =>
    ((∀ message ∈ messages, lineLength message ≤ maxSessionMessageLen) →
      ∀ message ∈ messages, ¬ (isBlank message.role = true ∧ isBlank message.content = true)) ∧
    (w.Clearing c → w.store.recent.lookup c = none)
  | .readFile i =>
    match w.threads i with
    | .missed c path cap => cfg.deferCompactOnAppend = true →
      min maxSessionEntries (w.log c).length ≤ cap ∧
        TailCovers cfg (w.store.fileOf path) (min maxSessionEntries (w.log c).length)
    | _ => True
  | .publishRecent i _ =>
    match w.threads i with
    | .counted c cap _ seen => Publishes cfg cap →
      seen.rtake maxSessionEntries = (w.log c).rtake maxSessionEntries ∨ w.Clearing c
    | _ => True
  | _ => True

/-- What `load_recent` reads of the file. -/
theorem ChatHolds.loaded (h : ChatHolds cfg chatId path w) (hid : ChatIdOk chatId) {cap : Nat} (hpos : 0 < cap)
    (hcap : cap ≤ maxSessionEntries)
    (hcovers : cfg.deferCompactOnAppend = true → min maxSessionEntries (w.log chatId).length ≤ cap ∧
      TailCovers cfg (w.store.fileOf path) (min maxSessionEntries (w.log chatId).length))
    {store : StorageSessionStore} {snapshot : SessionFileSnapshot}
    (heq : w.store.loadSessionTailSnapshot cfg path cap = (store, snapshot)) :
    NoNewline (.fromObservedSnapshot snapshot) ∧
      (Publishes cfg cap → RingHolds (snapshot.messages.rtake cap) (w.log chatId)) := by
  obtain ⟨header, kept, hfile, hkept⟩ := h.file
  obtain ⟨shown, count, hshown, hscan⟩ := scanSessionTail_recent hid hkept.wellFormed cfg header
  have hlength := congrArg List.length hkept.retained
  simp only [length_rtake, List.length_map] at hlength
  rw [← hfile] at hshown hscan
  simp only [StorageSessionStore.fileOf] at hscan
  simp only [StorageSessionStore.loadSessionTailSnapshot, hscan] at heq
  cases heq
  refine ⟨rfl, fun hpublish => ?_⟩
  have hlimit : max 1 (min cap maxSessionEntries) = cap := by omega
  dsimp only
  rw [hlimit, rtake_rtake, min_self]
  obtain ⟨hneed, htail⟩ : min maxSessionEntries kept.length ≤ cap ∧
      TailCovers cfg (w.store.fileOf path) (min maxSessionEntries kept.length) := by
    rw [hlength]
    rcases hpublish with rfl | hdefer
    · cases hdefer : cfg.deferCompactOnAppend with
      | true => exact hcovers hdefer
      | false =>
        refine ⟨min_le_left _ _, fun maxBytes hmax => ?_⟩
        rw [cfg.eager_reads_all hdefer] at hmax
        cases hmax
    · exact hcovers hdefer
  have hall : shown.rtake cap = kept.rtake cap := by
    have hlast := congrArg List.length (hshown.covers _ (min_le_right _ _) htail)
    rw [length_rtake, length_rtake] at hlast
    exact rtake_of_suffix hshown.suffix (by omega)
  have hring : kept.rtake cap = kept.rtake maxSessionEntries := by
    by_cases hfull : maxSessionEntries ≤ kept.length
    · rw [show cap = maxSessionEntries by omega]
    · rw [rtake_of_length_le (by omega), rtake_of_length_le (by omega)]
  rw [hall, hring]
  exact hkept.ring

section
variable {chats : List String} (hown : OwnFiles cfg chats) (hc : chatId ∈ chats) {header : Bool}
  (hpath : sessionPath cfg chatId = .ok (path, header)) (h : ChatHolds cfg chatId path w)
include hown hc hpath h

theorem ChatHolds.append {c : String} (hcc : c ∈ chats) {messages : List SessionMessage} {first : FirstKey}
    (hblank : (∀ message ∈ messages, lineLength message ≤ maxSessionMessageLen) →
      ∀ message ∈ messages, ¬ (isBlank message.role = true ∧ isBlank message.content = true))
    (hdropped : w.Clearing c → w.store.recent.lookup c = none) {store : StorageSessionStore}
    {result : Except Error Unit} (heq : w.store.appendBatch cfg first c messages = (store, result)) :
    ChatHolds cfg chatId path
      { w with store, log := if result.isOk then w.log.append c messages else w.log } := by
  by_cases hsame : chatId = c
  · subst hsame
    obtain ⟨t, result', heq', ht⟩ := (h.store hdropped).appendBatch hpath first hblank
    obtain ⟨rfl, rfl⟩ := Prod.mk.inj (heq'.symm.trans heq)
    have hlog : (if result'.isOk then w.log.append chatId messages else w.log) chatId =
        if result'.isOk then w.log chatId ++ messages else w.log chatId := by
      split <;> simp
    refine ⟨?_, ht.counts, fun recent hrecent => .inr ?_, h.threads⟩
    · dsimp only
      rw [hlog]
      exact ht.file
    · dsimp only
      rw [hlog]
      exact ht.recent recent hrecent
  · obtain ⟨p, header', hp⟩ := hown.accepted c hcc
    have hframe := (fileStep_appendBatch cfg hp w.store first messages).frame
    rw [heq] at hframe
    have hne : path ≠ p := by
      rintro rfl
      exact hsame (hown.distinct chatId hc c hcc _ _ _ hpath hp)
    have hlog : (if result.isOk then w.log.append c messages else w.log) chatId = w.log chatId := by
      split
      · exact SessionLog.append_of_ne hsame
      · rfl
    exact h.of_eq (hframe.files path hne) (hframe.counts chatId hsame) (hframe.recent chatId hsame) hlog
      (fun hclearing => hclearing) h.threads

theorem ChatHolds.fires {a : SessionAction} (hchat : ∀ c, a.chatId? = some c → c ∈ chats)
    (hsafe : RaceSafe cfg w a) (hstep : SessionFires cfg w a t) : ChatHolds cfg chatId path t := by
  have hid := chatIdOk_of_sessionPath hpath
  cases hstep with
  | appended i first c messages store heq =>
    exact h.append hown hc hpath (hchat c rfl) hsafe.1 hsafe.2 heq
  | refused i first c messages store e heq =>
    exact h.append hown hc hpath (hchat c rfl) hsafe.1 hsafe.2 heq
  | hit i c n => exact h
  | unnamed i c => exact h
  | miss i c p header' n hi hp hn =>
    refine h.of_eq rfl rfl (.inr rfl) rfl (fun hclearing => hclearing.at (by simp [hi]))
      (pcHolds_update h.threads ?_)
    rintro rfl
    obtain ⟨rfl, -⟩ : path = p ∧ header = header' := by simpa using hpath.symm.trans hp
    exact ⟨rfl, by omega, min_le_right _ _⟩
  | readFile i c p cap store snapshot hi heq =>
    have hstore : ∃ counter, store = { w.store with messageIdCounter := counter } := by
      simp only [StorageSessionStore.loadSessionTailSnapshot] at heq
      exact ⟨_, (Prod.mk.inj heq).1.symm⟩
    obtain ⟨counter, rfl⟩ := hstore
    refine h.of_eq rfl rfl (.inr rfl) rfl (fun hclearing => hclearing.at (by simp [hi]))
      (pcHolds_update h.threads ?_)
    rintro rfl
    have hpc := h.threads i
    simp only [hi, PcHolds] at hpc
    obtain ⟨rfl, hpos, hcap⟩ := hpc trivial
    simp only [RaceSafe, hi] at hsafe
    exact h.loaded hid hpos hcap hsafe heq
  | publishCounts i c cap recent state seen hi hdefer =>
    have hpc := h.threads i
    simp only [hi, PcHolds] at hpc
    have hthreads : ∀ j, PcHolds cfg chatId path ((w.at i (.counted c cap recent seen)).threads j) :=
      pcHolds_update h.threads fun hcc => (hpc hcc).2
    have hclearing (hw : w.Clearing chatId) : (w.at i (.counted c cap recent seen)).Clearing chatId :=
      hw.at (by simp [hi])
    by_cases hcc : chatId = c
    · subst hcc
      refine ⟨h.file, fun state' hstate => ?_, fun recent' hrecent => (h.recent recent' hrecent).imp_left hclearing,
        hthreads⟩
      rw [← Option.some.inj ((Finmap.lookup_insert _).symm.trans hstate)]
      exact (hpc rfl).1
    · exact h.of_eq rfl (Finmap.lookup_insert_of_ne _ hcc) (.inr rfl) rfl hclearing hthreads
  | skipCounts i c cap recent state seen hi =>
    have hpc := h.threads i
    simp only [hi, PcHolds] at hpc
    exact h.of_eq rfl rfl (.inr rfl) rfl (fun hclearing => hclearing.at (by simp [hi]))
      (pcHolds_update h.threads fun hcc => (hpc hcc).2)
  | publishRecent i first c cap recent seen hi hkeep =>
    have hpc := h.threads i
    simp only [hi, PcHolds] at hpc
    have hthreads : ∀ j, PcHolds cfg chatId path ((w.at i .idle).threads j) := pcHolds_update h.threads trivial
    have hclearing (hw : w.Clearing chatId) : (w.at i .idle).Clearing chatId := hw.at (by simp [hi])
    by_cases hcc : chatId = c
    · subst hcc
      refine ⟨h.file, h.counts, fun recent' hrecent => ?_, hthreads⟩
      rw [← Option.some.inj (lookup_upsertRecentCache.symm.trans hrecent)]
      simp only [RaceSafe, hi] at hsafe
      obtain ⟨hwf, hring⟩ := hpc rfl hkeep
      exact (hsafe hkeep).symm.imp hclearing fun hseen => ⟨hwf, hring.trans hseen⟩
    · exact h.of_eq rfl rfl (lookup_upsertRecentCache_of_ne hcc) rfl hclearing hthreads
  | skipRecent i first c cap recent seen hi =>
    exact h.of_eq rfl rfl (.inr rfl) rfl (fun hclearing => hclearing.at (by simp [hi]))
      (pcHolds_update h.threads trivial)
  | emptyFile i c p header' hi hp =>
    have hthreads : ∀ j, PcHolds cfg chatId path ((w.at i (.emptied c header')).threads j) :=
      pcHolds_update h.threads trivial
    by_cases hcc : chatId = c
    · subst hcc
      obtain ⟨rfl, rfl⟩ : path = p ∧ header = header' := by simpa using hpath.symm.trans hp
      refine ⟨⟨header, [], ?_, ⟨by simp, ?_⟩⟩, h.counts, fun recent hrecent => .inl ⟨i, .inl ⟨header, ?_⟩⟩, hthreads⟩
      · cases header <;> simp [StorageSessionStore.fileOf, SessionThreads.at, sessionBody]
      · simp [SessionThreads.at]
      · simp [SessionThreads.at]
    · have hne : path ≠ p := by
        rintro rfl
        exact hcc (hown.distinct chatId hc c (hchat c rfl) _ _ _ hpath hp)
      exact h.of_eq (Finmap.lookup_insert_of_ne _ hne) rfl (.inr rfl) (SessionLog.clear_of_ne hcc)
        (fun hclearing => hclearing.at (by simp [hi])) hthreads
  | resetCounts i c header' hi =>
    have hthreads : ∀ j, PcHolds cfg chatId path ((w.at i (.uncounted c)).threads j) :=
      pcHolds_update h.threads trivial
    by_cases hcc : chatId = c
    · subst hcc
      refine ⟨h.file, fun state hstate => ?_, fun recent hrecent => .inl ⟨i, .inr ?_⟩, hthreads⟩
      · rw [← Option.some.inj ((Finmap.lookup_insert _).symm.trans hstate)]
        rfl
      · simp [SessionThreads.at]
    · exact h.of_eq rfl (Finmap.lookup_insert_of_ne _ hcc) (.inr rfl) rfl
        (fun hclearing => hclearing.at (by simp [hi, Ne.symm hcc])) hthreads
  | dropRecent i c hi =>
    have hthreads : ∀ j, PcHolds cfg chatId path ((w.at i .idle).threads j) := pcHolds_update h.threads trivial
    by_cases hcc : chatId = c
    · subst hcc
      refine ⟨h.file, h.counts, fun recent hrecent => ?_, hthreads⟩
      simp [SessionThreads.at] at hrecent
    · exact h.of_eq rfl rfl (.inr (Finmap.lookup_erase_ne hcc)) rfl
        (fun hclearing => hclearing.at (by simp [hi, Ne.symm hcc])) hthreads

end

end

theorem ChatHolds.open {cfg : SessionConfig} {chatId path : String} {files : HashMap String Bytes}
    {log : SessionLog} (h : ∃ kept, (∃ header, (files.lookup path).getD [] = sessionBody header chatId kept) ∧
      (∀ message ∈ kept, message.WellFormed) ∧
      (kept.map (·.toSessionMessage)).rtake maxSessionEntries = log.retained chatId) (counter : Nat) :
    ChatHolds cfg chatId path (.open files counter log) := by
  obtain ⟨kept, ⟨header, hfile⟩, hwf, hretained⟩ := h
  refine ⟨⟨header, kept, hfile, hwf, hretained⟩, fun state hstate => ?_, fun recent hrecent => ?_, fun _ => trivial⟩
  · simp [SessionThreads.open, StorageSessionStore.new] at hstate
  · simp [SessionThreads.open, StorageSessionStore.new] at hrecent

/-- In every interleaving of appends, loads and clears of any number of threads
whose steps are all safe, the file and the recent cache hold what the log retains
whenever no call is in progress. -/
theorem racing_readers_keep_log {cfg : SessionConfig} {chats : List String} (hown : OwnFiles cfg chats)
    {files : HashMap String Bytes} {log : SessionLog} (hdisk : DiskHolds cfg chats files log) (counter : Nat)
    (actions : List SessionAction) (hchats : ∀ a ∈ actions, ∀ c, a.chatId? = some c → c ∈ chats)
    (hsafe : Meets (SessionThreads.step cfg) (RaceSafe cfg) actions (.open files counter log)) :
    Always (SessionThreads.step cfg) (SessionThreads.HoldsLog cfg chats) actions (.open files counter log) := by
  refine always_of_meets (I := fun w => ∀ c ∈ chats, ∀ path header, sessionPath cfg c = .ok (path, header) →
      ChatHolds cfg c path w)
    (C := fun w a => RaceSafe cfg w a ∧ ∀ c, a.chatId? = some c → c ∈ chats)
    (fun w a t hw ha ht c hc path header hpath => ?_) (fun w hw hquiet c hc path header hpath => ?_) actions _ ?_
    (hsafe.mono fun w a ha hs => ⟨hs, hchats a ha⟩)
  · exact (hw c hc path header hpath).fires hown hc hpath ha.2 ha.1 (sessionFires_of_step ht)
  · have hchat := hw c hc path header hpath
    obtain ⟨header', kept, hfile, hkept⟩ := hchat.file
    have hid := chatIdOk_of_sessionPath hpath
    refine ⟨fun counter => ?_, fun recent hrecent => ?_⟩
    · rw [hfile, scanSessionFile_sessionBody hid hkept.wellFormed cfg header' counter]
      dsimp only
      rw [map_rtake, hkept.retained]
    · rcases hchat.recent recent hrecent with ⟨i, hi⟩ | hring
      · rw [hquiet i] at hi
        simp at hi
      · exact hring.retained
  · exact fun c hc path header hpath => .open (hdisk c hc path header hpath) counter

/-- A `load_recent` that no other step comes between is safe where appends compact. -/
theorem meets_loadRecent {cfg : SessionConfig} (heager : cfg.deferCompactOnAppend = false) (i : Nat) (c : String)
    (n : Nat) (first : FirstKey) (w : SessionThreads) : Meets (SessionThreads.step cfg) (RaceSafe cfg)
      [.lookRecent i c n, .readFile i, .publishCounts i, .publishRecent i first] w := by
  refine fun w₁ _ => ⟨trivial, fun w₂ h₂ => ⟨?_, fun w₃ h₃ => ⟨trivial, fun _ _ => ⟨?_, trivial⟩⟩⟩⟩
  · simp only [RaceSafe, heager]
    split
    · exact nofun
    · trivial
  · cases sessionFires_of_step h₂ with
    | readFile _ chatId path cap store snapshot hi _ =>
      cases sessionFires_of_step h₃ with
      | publishCounts _ _ _ _ _ _ _ hdefer => exact absurd hdefer (by simp [heager])
      | skipCounts _ chatId' cap' recent state seen hi' =>
        simp only [SessionThreads.at, Function.update_self, SessionPc.loaded.injEq] at hi'
        obtain ⟨rfl, rfl, rfl, rfl, rfl⟩ := hi'
        simp only [RaceSafe, SessionThreads.at, Function.update_self]
        exact fun _ => .inl trivial

theorem append_then_load_keeps_log :
    Always (SessionThreads.step hostSessionConfig) (SessionThreads.HoldsLog hostSessionConfig ["a"])
      [.appendBatch 1 (fun _ => none) "a" [⟨"user", "1"⟩], .lookRecent 0 "a" 128, .readFile 0, .publishCounts 0,
        .publishRecent 0 fun _ => none] (.open ∅ 1 fun _ => []) := by
  refine racing_readers_keep_log ownFiles_host diskHolds_empty 1 _ (by simp [SessionAction.chatId?]) ?_
  refine fun w _ => ⟨⟨fun _ => by decide, fun _ => rfl⟩, ?_⟩
  exact meets_loadRecent rfl 0 "a" 128 (fun _ => none) w

/-- An append between the read of the file and the cache is missing in the entry. -/
theorem stale_load_hides_append :
    ¬ Always (SessionThreads.step hostSessionConfig) (SessionThreads.HoldsLog hostSessionConfig ["a"])
      [.lookRecent 0 "a" 128, .readFile 0, .appendBatch 1 (fun _ => none) "a" [⟨"user", "1"⟩], .publishCounts 0,
        .publishRecent 0 fun _ => none] (.open ∅ 1 fun _ => []) := by
  intro h
  have hrun : (exec (SessionThreads.step hostSessionConfig)
      [.lookRecent 0 "a" 128, .readFile 0, .appendBatch 1 (fun _ => none) "a" [⟨"user", "1"⟩], .publishCounts 0,
        .publishRecent 0 fun _ => none] (.open ∅ 1 fun _ => [])).map (fun w =>
      (w.store.recent.lookup "a", w.log "a", w.threads 0, w.threads 1)) =
      some (some [], [⟨"user", "1"⟩], .idle, .idle) := by
    decide
  obtain ⟨w, hw, hlast⟩ := Option.map_eq_some_iff.mp hrun
  obtain ⟨hrecent, hlog, hzero, hone⟩ : w.store.recent.lookup "a" = some [] ∧ w.log "a" = [⟨"user", "1"⟩] ∧
      w.threads 0 = .idle ∧ w.threads 1 = .idle := by
    simpa using hlast
  have hquiet : w.Quiet := by
    intro j
    by_cases hj : j = 0 ∨ j = 1
    · rcases hj with rfl | rfl
      · exact hzero
      · exact hone
    · obtain ⟨hj₀, hj₁⟩ := not_or.mp hj
      exact exec_threads_of_ne (by simp [SessionAction.thread, hj₀, hj₁]) hw
  have hring := (h.last hw hquiet "a" (by simp) "/tmp/beetle/s/a.jsonl" false rfl).2 [] hrecent
  rw [hlog] at hring
  exact absurd (congrArg List.length hring) (by decide)

end Beetle.Platform.Storage
