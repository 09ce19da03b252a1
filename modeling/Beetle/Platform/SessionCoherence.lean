import Beetle.Platform.SessionLines
import Beetle.Platform.SessionStore

/-! The session store answers from its caches what the log of its calls says, as
long as the caches are not asked for more than they hold. -/
namespace Beetle.Platform.Storage
open Beetle.Lib Beetle.Memory

@[grind =] def StorageSessionStore.fileOf (s : StorageSessionStore) (path : String) : Bytes :=
  (s.files.lookup path).getD []

/-- What the count cache is to say of a file with the messages `kept`; that the
count is right is `counting`, as an append does not need it. -/
structure Observed (counting : Prop) (file : Bytes) (kept : List StoredSessionMessage)
    (state : SessionAppendState) : Prop where
  hasData : state.hasData = decide (file ≠ [])
  endsWithNewline : state.endsWithNewline = decide (file ≠ [])
  messageCount : counting → state.messageCount = min kept.length maxSessionEntries

/-- The file of the chat holds the messages `kept`, which agree with the log as
far as a ring retains it, and the caches agree with the file; the recent cache
may hold less, but not where appends compact. -/
structure ChatCoherent (cfg : SessionConfig) (counting : Prop) (s : StorageSessionStore)
    (chatId path : String) (log : List SessionMessage) (kept : List StoredSessionMessage) : Prop where
  file : ∃ header, s.fileOf path = sessionBody header chatId kept
  wellFormed : ∀ message ∈ kept, message.WellFormed
  retained : (kept.map (·.toSessionMessage)).rtake maxSessionEntries = log.rtake maxSessionEntries
  counts : ∀ state, s.counts.lookup chatId = some state → Observed counting (s.fileOf path) kept state
  recent : ∀ recent, s.recent.lookup chatId = some recent → recent <:+ kept ∧
    recent.length ≤ maxSessionEntries ∧
    (cfg.deferCompactOnAppend = false → recent = kept.rtake maxSessionEntries)

/-- A call on the chat leaves the others alone, but for what it evicts. -/
structure Frame (s t : StorageSessionStore) (chatId path : String) : Prop where
  files : ∀ p, p ≠ path → t.files.lookup p = s.files.lookup p
  counts : ∀ c, c ≠ chatId → t.counts.lookup c = s.counts.lookup c
  recent : ∀ c, c ≠ chatId → t.recent.lookup c = none ∨ t.recent.lookup c = s.recent.lookup c

theorem Frame.refl (s : StorageSessionStore) (chatId path : String) : Frame s s chatId path :=
  ⟨fun _ _ => rfl, fun _ _ => rfl, fun _ _ => .inr rfl⟩

theorem Frame.trans {s t u : StorageSessionStore} {chatId path : String} (h : Frame s t chatId path)
    (h' : Frame t u chatId path) : Frame s u chatId path where
  files p hp := (h'.files p hp).trans (h.files p hp)
  counts c hc := (h'.counts c hc).trans (h.counts c hc)
  recent c hc := by
    rcases h'.recent c hc with hnone | hsame
    · exact .inl hnone
    · rw [hsame]
      exact h.recent c hc

theorem Frame.coherent {cfg : SessionConfig} {counting : Prop} {s t : StorageSessionStore} {c d p q : String}
    {log : List SessionMessage} {kept : List StoredSessionMessage} (h : Frame s t c p)
    (hd : ChatCoherent cfg counting s d q log kept) (hdc : d ≠ c) (hqp : q ≠ p) :
    ChatCoherent cfg counting t d q log kept := by
  have hfile : t.fileOf q = s.fileOf q := by rw [StorageSessionStore.fileOf, h.files q hqp]; rfl
  refine ⟨by rw [hfile]; exact hd.file, hd.wellFormed, hd.retained, fun state hstate => ?_,
    fun recent hrecent => ?_⟩
  · rw [hfile]
    exact hd.counts state (by rw [← h.counts d hdc, hstate])
  · rcases h.recent d hdc with hnone | hsame
    · rw [hnone] at hrecent
      cases hrecent
    · exact hd.recent recent (by rw [← hsame, hrecent])

section
variable {first : FirstKey} {chatId : String} {messages : List StoredSessionMessage}
  {recent : HashMap String (List StoredSessionMessage)}

@[simp] theorem lookup_upsertRecentCache :
    (StorageSessionStore.upsertRecentCache first chatId messages recent).lookup chatId = some messages := by
  simp [StorageSessionStore.upsertRecentCache]

theorem lookup_upsertRecentCache_of_ne {c : String} (h : c ≠ chatId) :
    (StorageSessionStore.upsertRecentCache first chatId messages recent).lookup c = none ∨
      (StorageSessionStore.upsertRecentCache first chatId messages recent).lookup c = recent.lookup c := by
  simp only [StorageSessionStore.upsertRecentCache, Finmap.lookup_insert_of_ne _ h]
  split
  · split
    · rename_i evictKey _
      by_cases hc : c = evictKey
      · subst hc
        exact .inl (Finmap.lookup_erase _ _)
      · exact .inr (Finmap.lookup_erase_ne hc)
    · exact .inr rfl
  · exact .inr rfl

end

/-- A count taken from a bounded read is right. -/
def CountCovers (cfg : SessionConfig) (file : Bytes) (total : Nat) : Prop :=
  Truncated cfg file → maxSessionEntries ≤ total ∧ TailCovers cfg file 1

section
variable {cfg : SessionConfig} {counting : Prop} {s : StorageSessionStore} {chatId path : String}
  {log : List SessionMessage} {kept : List StoredSessionMessage}

section
variable (h : ChatCoherent cfg counting s chatId path log kept)
include h

theorem ChatCoherent.min_length : min kept.length maxSessionEntries = min log.length maxSessionEntries := by
  have hlength := congrArg List.length h.retained
  simpa [Nat.min_comm] using hlength

theorem ChatCoherent.rtake {n : Nat}
    (hn : n ≤ maxSessionEntries) : (kept.rtake n).map (·.toSessionMessage) = log.rtake n := by
  have hcut := congrArg (·.rtake n) h.retained
  simp only [rtake_rtake, Nat.min_eq_left hn] at hcut
  rw [← hcut, map_rtake]

theorem ChatCoherent.count_eq
    {shown : List StoredSessionMessage} {count : Nat} (hshown : Shows cfg (s.fileOf path) kept shown count)
    (hcovers : CountCovers cfg (s.fileOf path) log.length) : count = min kept.length maxSessionEntries := by
  by_cases htruncated : Truncated cfg (s.fileOf path)
  · obtain ⟨htotal, htail⟩ := hcovers htruncated
    have hmin := h.min_length
    have hlength : maxSessionEntries ≤ kept.length := by omega
    have hpos : 0 < maxSessionEntries := by decide
    have hone : shown.rtake 1 = kept.rtake 1 := hshown.covers 1 (Nat.lt_of_lt_of_le hpos hlength) htail
    have hsome : shown ≠ [] := by
      intro hnil
      have hlast := congrArg List.length hone
      rw [hnil, List.rtake_nil, length_rtake, List.length_nil] at hlast
      omega
    rw [hshown.count_tail htruncated, if_neg hsome, Nat.min_eq_right hlength]
  · exact hshown.count_whole htruncated

end

variable (h : ChatCoherent cfg counting s chatId path log kept) (hid : ChatIdOk chatId)
include h hid

theorem ChatCoherent.loadSessionTailSnapshot_eq : ∃ shown count,
    Shows cfg (s.fileOf path) kept shown count ∧
    ∀ limit, s.loadSessionTailSnapshot cfg path limit =
      (s, ⟨shown.rtake (max 1 (min limit maxSessionEntries)), count, s.fileOf path ≠ [],
        s.fileOf path ≠ [], false⟩) := by
  obtain ⟨header, hfile⟩ := h.file
  obtain ⟨shown, count, hshown, hscan⟩ := scanSessionTail_recent hid h.wellFormed cfg header
  rw [← hfile] at hshown hscan
  refine ⟨shown, count, hshown, fun limit => ?_⟩
  have hlimit := hscan s.messageIdCounter limit
  simp only [StorageSessionStore.fileOf] at hlimit
  simp only [StorageSessionStore.loadSessionTailSnapshot, hlimit]
  rfl

theorem ChatCoherent.scanSessionFile_eq (counter : Nat) : scanSessionFile cfg counter (s.fileOf path) =
    (⟨kept.rtake maxSessionEntries, min maxSessionEntries kept.length, s.fileOf path ≠ [],
      s.fileOf path ≠ [], maxSessionEntries < kept.length⟩, counter) := by
  obtain ⟨header, hfile⟩ := h.file
  rw [hfile]
  exact scanSessionFile_sessionBody hid h.wellFormed cfg header counter

theorem ChatCoherent.loadSessionSnapshot_deferred (writeHeader : Bool) :
    s.loadSessionSnapshot cfg path chatId writeHeader .deferred =
      (s, .ok ⟨kept.rtake maxSessionEntries, min maxSessionEntries kept.length, s.fileOf path ≠ [],
        s.fileOf path ≠ [], maxSessionEntries < kept.length⟩) := by
  have hscan := h.scanSessionFile_eq hid s.messageIdCounter
  simp only [StorageSessionStore.fileOf] at hscan
  simp only [StorageSessionStore.loadSessionSnapshot, hscan]
  simp [StorageSessionStore.fileOf]

/-- The file is written anew when it holds more than a ring retains. -/
theorem ChatCoherent.loadSessionSnapshot_immediate (writeHeader : Bool) : ∃ files snapshot,
    s.loadSessionSnapshot cfg path chatId writeHeader .immediate = ({ s with files }, .ok snapshot) ∧
      snapshot.messages = kept.rtake maxSessionEntries ∧
      ∀ p, p ≠ path → files.lookup p = s.files.lookup p := by
  have hscan := h.scanSessionFile_eq hid s.messageIdCounter
  simp only [StorageSessionStore.fileOf] at hscan
  have hfits : ∀ message ∈ kept.rtake maxSessionEntries, message.line.length ≤ maxSessionMessageLen :=
    fun message hmessage => (h.wellFormed message ((rtake_suffix _ _).subset hmessage)).fits
  simp only [StorageSessionStore.loadSessionSnapshot, hscan, and_true]
  split
  · rw [writeSessionMessages_of_fits chatId writeHeader hfits]
    exact ⟨_, _, rfl, by dsimp only, fun p hp => Finmap.lookup_insert_of_ne _ hp⟩
  · exact ⟨s.files, _, rfl, by dsimp only, fun _ _ => rfl⟩

theorem ChatCoherent.observe_eq (hcovers : counting → CountCovers cfg (s.fileOf path) log.length) :
    ∃ state, observeSessionAppendState cfg s.messageIdCounter (s.files.lookup path) =
      (state, s.messageIdCounter) ∧ Observed counting (s.fileOf path) kept state := by
  obtain ⟨header, hfile⟩ := h.file
  obtain ⟨shown, count, hshown, hscan⟩ := scanSessionTail_recent hid h.wellFormed cfg header
  rw [← hfile] at hshown hscan
  have hempty (hnil : s.fileOf path = []) : Observed counting (s.fileOf path) kept .default := by
    rw [hnil] at hfile ⊢
    have hkept : kept = [] := by
      cases hkept : kept with
      | nil => rfl
      | cons message rest => simp [hkept, sessionBody] at hfile
    exact ⟨by simp [SessionAppendState.default], by simp [SessionAppendState.default],
      fun _ => by simp [SessionAppendState.default, hkept]⟩
  cases hlookup : s.files.lookup path with
  | none => exact ⟨.default, rfl, hempty (by simp [StorageSessionStore.fileOf, hlookup])⟩
  | some file =>
    have hof : s.fileOf path = file := by simp [StorageSessionStore.fileOf, hlookup]
    by_cases hnil : file = []
    · exact ⟨.default, by rw [observeSessionAppendState, if_pos hnil], hempty (hof.trans hnil)⟩
    · refine ⟨⟨count, s.fileOf path ≠ [], s.fileOf path ≠ []⟩, ?_, rfl, rfl,
        fun hc => h.count_eq hshown (hcovers hc)⟩
      rw [observeSessionAppendState, if_neg hnil]
      rw [hof] at hscan ⊢
      simp only [hscan, SessionAppendState.fromObservedSnapshot]

theorem ChatCoherent.appendState_eq (writeHeader : Bool)
    (hcovers : counting → s.counts.lookup chatId = none → cfg.deferCompactOnAppend = true →
      CountCovers cfg (s.fileOf path) log.length) :
    ∃ counts state existing, s.appendState cfg path chatId writeHeader =
        ({ s with counts }, .ok (state, existing)) ∧
      counts.lookup chatId = some state ∧ Observed counting (s.fileOf path) kept state ∧
      (∀ c, c ≠ chatId → counts.lookup c = s.counts.lookup c) ∧
      ∀ messages, existing = some messages → messages = kept.rtake maxSessionEntries := by
  unfold StorageSessionStore.appendState
  cases hcounts : s.counts.lookup chatId with
  | some state =>
    exact ⟨s.counts, state, none, rfl, hcounts, h.counts state hcounts, fun _ _ => rfl,
      fun _ he => nomatch he⟩
  | none =>
    have hother (state : SessionAppendState) : ∀ c, c ≠ chatId →
        (s.counts.insert chatId state).lookup c = s.counts.lookup c :=
      fun c hc => Finmap.lookup_insert_of_ne _ hc
    cases hdefer : cfg.deferCompactOnAppend with
    | true =>
      obtain ⟨state, hobserve, hstate⟩ := h.observe_eq hid fun hc => hcovers hc hcounts hdefer
      refine ⟨_, state, none, ?_, Finmap.lookup_insert _, hstate, hother _, fun _ he => nomatch he⟩
      simp only [if_true, hobserve]
    | false =>
      let state : SessionAppendState :=
        ⟨min maxSessionEntries kept.length, s.fileOf path ≠ [], s.fileOf path ≠ []⟩
      refine ⟨s.counts.insert chatId state, state, some (kept.rtake maxSessionEntries), ?_,
        Finmap.lookup_insert _, ⟨rfl, rfl, fun _ => Nat.min_comm _ _⟩, hother _,
        fun _ he => (Option.some.inj he).symm⟩
      simp only [Bool.false_eq_true, if_false, h.loadSessionSnapshot_deferred hid writeHeader,
        SessionAppendState.fromObservedSnapshot, state]

omit hid in
theorem ChatCoherent.with_counts (counter : Nat) {counts : HashMap String SessionAppendState}
    {state : SessionAppendState} (hcounts : counts.lookup chatId = some state)
    (hstate : Observed counting (s.fileOf path) kept state) :
    ChatCoherent cfg counting { s with counts, messageIdCounter := counter } chatId path log kept where
  file := h.file
  wellFormed := h.wellFormed
  retained := h.retained
  counts _ h' := by
    obtain rfl := Option.some.inj (h'.symm.trans hcounts)
    exact hstate
  recent := h.recent

end

theorem sessionBody_append (header : Bool) (chatId : String) (a b : List StoredSessionMessage) :
    sessionBody header chatId (a ++ b) =
      sessionBody header chatId a ++ unlines (b.map StoredSessionMessage.line) := by
  simp [sessionBody]

theorem sessionBody_ne_nil (header : Bool) (chatId : String) {messages : List StoredSessionMessage}
    (h : messages ≠ []) : sessionBody header chatId messages ≠ [] := by
  cases messages with
  | nil => exact absurd rfl h
  | cons message rest => simp [sessionBody]

/-- A file to which lines are added is as the store writes it. -/
theorem appendSessionLines_sessionBody {file : Option Bytes} {header : Bool} {chatId : String}
    {kept : List StoredSessionMessage} (h : file.getD [] = sessionBody header chatId kept)
    (writeHeader : Bool) (stored : List StoredSessionMessage) : ∃ header',
    appendSessionLines file chatId writeHeader false (stored.map StoredSessionMessage.line) =
      sessionBody header' chatId (kept ++ stored) := by
  by_cases hempty : file.getD [] = []
  · have hkept : kept = [] := by
      by_contra hkept
      exact sessionBody_ne_nil header chatId hkept (h.symm.trans hempty)
    refine ⟨writeHeader, ?_⟩
    simp [appendSessionLines, hempty, hkept, sessionBody]
  · refine ⟨header, ?_⟩
    rw [sessionBody_append, ← h]
    simp [appendSessionLines, hempty]

theorem map_rtake_append {kept stored : List StoredSessionMessage} {log : List SessionMessage}
    (h : (kept.map (·.toSessionMessage)).rtake maxSessionEntries = log.rtake maxSessionEntries) :
    ((kept ++ stored).map (·.toSessionMessage)).rtake maxSessionEntries =
      (log ++ stored.map (·.toSessionMessage)).rtake maxSessionEntries := by
  rw [List.map_append, ← rtake_rtake_append le_rfl, h, rtake_rtake_append le_rfl]

section
variable {cfg : SessionConfig} {counting : Prop} {s : StorageSessionStore} {chatId path : String}
  {log : List SessionMessage} {kept : List StoredSessionMessage} {state : SessionAppendState}
  {existing : Option (List StoredSessionMessage)} {messages : List SessionMessage}

theorem Observed.afterAppending {file file' : Bytes} {kept stored : List StoredSessionMessage}
    (h : Observed counting file kept state) (hfile' : file' ≠ []) (hsome : stored ≠ []) :
    Observed counting file' (kept ++ stored) (state.afterAppending stored.length) := by
  have hpos := List.length_pos_iff.mpr hsome
  refine ⟨by simp [SessionAppendState.afterAppending, hpos, hfile'],
    by simp [SessionAppendState.afterAppending, hpos, hfile'], fun hc => ?_⟩
  simp only [SessionAppendState.afterAppending, h.messageCount hc, List.length_append]
  omega

theorem ChatCoherent.appendInPlace (h : ChatCoherent cfg counting s chatId path log kept)
    {stored : List StoredSessionMessage} (hsome : stored ≠ [])
    (hwf : ∀ message ∈ stored, message.WellFormed) (writeHeader : Bool)
    (hstate : Observed counting (s.fileOf path) kept state) :
    ChatCoherent cfg counting (s.appendInPlace path chatId writeHeader state stored
      (stored.map StoredSessionMessage.line)) chatId path (log ++ stored.map (·.toSessionMessage))
      (kept ++ stored) := by
  obtain ⟨header, hfile⟩ := h.file
  have hprepend : (state.hasData && !state.endsWithNewline) = false := by
    simp [hstate.hasData, hstate.endsWithNewline]
  obtain ⟨header', hbody⟩ := appendSessionLines_sessionBody hfile writeHeader stored
  have hnew : (s.appendInPlace path chatId writeHeader state stored
      (stored.map StoredSessionMessage.line)).fileOf path = sessionBody header' chatId (kept ++ stored) := by
    simp [StorageSessionStore.appendInPlace, StorageSessionStore.fileOf, hprepend, hbody]
  refine ⟨⟨header', hnew⟩, ?_, map_rtake_append h.retained, fun state' hstate' => ?_, fun recent hrecent => ?_⟩
  · intro message hmessage
    rcases List.mem_append.mp hmessage with hm | hm
    · exact h.wellFormed message hm
    · exact hwf message hm
  · obtain rfl := Option.some.inj (hstate'.symm.trans (Finmap.lookup_insert _))
    rw [hnew]
    exact hstate.afterAppending (sessionBody_ne_nil _ _ (by simp [hsome])) hsome
  · simp only [StorageSessionStore.appendInPlace] at hrecent
    cases hold : s.recent.lookup chatId with
    | none => simp [hold] at hrecent
    | some old =>
      obtain ⟨hsuffix, hlength, heager⟩ := h.recent old hold
      obtain rfl : (old ++ stored).rtake maxSessionEntries = recent := by simpa [hold] using hrecent
      refine ⟨(rtake_suffix _ _).trans ?_, ?_, fun he => ?_⟩
      · obtain ⟨front, rfl⟩ := hsuffix
        exact ⟨front, by simp⟩
      · exact (length_rtake _ _).trans_le (min_le_left _ _)
      · rw [heager he, rtake_rtake_append le_rfl]

theorem frame_appendInPlace (s : StorageSessionStore) (path chatId : String) (writeHeader : Bool)
    (state : SessionAppendState) (stored : List StoredSessionMessage) (lines : List Bytes) :
    Frame s (s.appendInPlace path chatId writeHeader state stored lines) chatId path where
  files p hp := Finmap.lookup_insert_of_ne _ hp
  counts c hc := Finmap.lookup_insert_of_ne _ hc
  recent c hc := by
    refine .inr ?_
    simp only [StorageSessionStore.appendInPlace]
    split
    · exact Finmap.lookup_insert_of_ne _ hc
    · rfl

section
variable (h : ChatCoherent cfg counting s chatId path log kept)
include h

/-- Where appends compact, what they add to is what a ring retains of the file. -/
theorem ChatCoherent.compactBase_eq (hid : ChatIdOk chatId)
    (heager : cfg.deferCompactOnAppend = false) (first : FirstKey) (writeHeader : Bool)
    (hexisting : ∀ messages, existing = some messages → messages = kept.rtake maxSessionEntries) :
    ∃ files recent, s.compactBase cfg first path chatId writeHeader existing =
        ({ s with files, recent }, .ok (kept.rtake maxSessionEntries)) ∧
      (∀ p, p ≠ path → files.lookup p = s.files.lookup p) ∧
      ∀ c, c ≠ chatId → recent.lookup c = none ∨ recent.lookup c = s.recent.lookup c := by
  unfold StorageSessionStore.compactBase
  cases hrecent : s.recent.lookup chatId with
  | some recent =>
    obtain ⟨-, -, hfull⟩ := h.recent recent hrecent
    exact ⟨s.files, s.recent, by rw [hfull heager], fun _ _ => rfl, fun _ _ => .inr rfl⟩
  | none =>
    cases hloaded : existing with
    | some loaded =>
      exact ⟨s.files, _, by rw [hexisting loaded hloaded], fun _ _ => rfl,
        fun c hc => lookup_upsertRecentCache_of_ne hc⟩
    | none =>
      obtain ⟨files, snapshot, hload, hmessages, hfiles⟩ := h.loadSessionSnapshot_immediate hid writeHeader
      exact ⟨files, StorageSessionStore.upsertRecentCache first chatId (kept.rtake maxSessionEntries) s.recent,
        by simp only [hload, hmessages], hfiles, fun c hc => lookup_upsertRecentCache_of_ne hc⟩

theorem ChatCoherent.appendCompacting (hid : ChatIdOk chatId)
    (heager : cfg.deferCompactOnAppend = false) (first : FirstKey) (writeHeader : Bool)
    (hexisting : ∀ messages, existing = some messages → messages = kept.rtake maxSessionEntries)
    {newMessages : List SessionMessage} (hsome : newMessages ≠ [])
    (hstorable : ∀ message ∈ newMessages, Storable message) :
    ∃ t kept', s.appendCompacting cfg first path chatId writeHeader existing newMessages = (t, .ok ()) ∧
      Frame s t chatId path ∧ ChatCoherent cfg counting t chatId path (log ++ newMessages) kept' := by
  obtain ⟨files, recent, hbase, hfiles, hrecent⟩ := h.compactBase_eq hid heager first writeHeader hexisting
  let stored := fromSessionMessages cfg.clock s.messageIdCounter newMessages
  let messages := (kept.rtake maxSessionEntries ++ stored).rtake maxSessionEntries
  have hwf : ∀ message ∈ messages, message.WellFormed := by
    intro message hmessage
    rcases List.mem_append.mp ((rtake_suffix _ _).subset hmessage) with hm | hm
    · exact h.wellFormed message ((rtake_suffix _ _).subset hm)
    · exact wellFormed_from cfg.clock s.messageIdCounter newMessages hstorable message hm
  have hmessages : messages ≠ [] := by
    refine List.length_pos_iff.mp ?_
    have hpos := List.length_pos_iff.mpr hsome
    have hmax : 0 < maxSessionEntries := by decide
    simp only [messages, stored, length_rtake, List.length_append, length_fromSessionMessages]
    omega
  have hlength : messages.length ≤ maxSessionEntries := (length_rtake _ _).trans_le (min_le_left _ _)
  have hbody := sessionBody_ne_nil writeHeader chatId hmessages
  refine ⟨{ files := files.insert path (sessionBody writeHeader chatId messages)
            recent := StorageSessionStore.upsertRecentCache first chatId messages recent
            counts := s.counts.insert chatId (.fromWrittenMessages messages.length
              (sessionBody writeHeader chatId messages ≠ []))
            messageIdCounter := s.messageIdCounter + newMessages.length }, messages, ?_, ?_, ?_⟩
  · simp only [StorageSessionStore.appendCompacting, hbase]
    rw [writeSessionMessages_of_fits chatId writeHeader fun message hm => (hwf message hm).fits]
  · refine ⟨fun p hp => ?_, fun c hc => Finmap.lookup_insert_of_ne _ hc, fun c hc => ?_⟩
    · exact (Finmap.lookup_insert_of_ne _ hp).trans (hfiles p hp)
    · have hother : ((StorageSessionStore.upsertRecentCache first chatId messages recent).lookup c = none ∨
          (StorageSessionStore.upsertRecentCache first chatId messages recent).lookup c = recent.lookup c) :=
        lookup_upsertRecentCache_of_ne hc
      rcases hother with hnone | hsame
      · exact .inl hnone
      · rw [hsame]
        exact hrecent c hc
  · have hfile (t : StorageSessionStore) (ht : t.files = files.insert path
        (sessionBody writeHeader chatId messages)) : t.fileOf path = sessionBody writeHeader chatId messages := by
      simp [StorageSessionStore.fileOf, ht]
    refine ⟨⟨writeHeader, hfile _ rfl⟩, hwf, ?_, fun state hstate => ?_, fun recent' hrecent' => ?_⟩
    · simp only [messages, stored, map_rtake, List.map_append, map_toSessionMessage_from, rtake_rtake,
        min_self]
      rw [h.retained, rtake_rtake_append le_rfl]
    · obtain rfl := Option.some.inj (hstate.symm.trans (Finmap.lookup_insert _))
      rw [hfile _ rfl]
      refine ⟨rfl, rfl, fun _ => ?_⟩
      rw [SessionAppendState.fromWrittenMessages, Nat.min_eq_left hlength]
    · obtain rfl : messages = recent' := by simpa using hrecent'
      exact ⟨List.suffix_rfl, hlength, fun _ => (rtake_of_length_le hlength).symm⟩

end

variable (h : ChatCoherent cfg counting s chatId path log kept) {writeHeader : Bool}
  (hpath : sessionPath cfg chatId = .ok (path, writeHeader))
include h hpath

theorem ChatCoherent.appendBatch_ok (first : FirstKey) (hstorable : ∀ message ∈ messages, Storable message)
    (hcovers : counting → s.counts.lookup chatId = none → cfg.deferCompactOnAppend = true →
      CountCovers cfg (s.fileOf path) log.length) :
    ∃ t kept', s.appendBatch cfg first chatId messages = (t, .ok ()) ∧ Frame s t chatId path ∧
      ChatCoherent cfg counting t chatId path (log ++ messages) kept' := by
  have hid := chatIdOk_of_sessionPath hpath
  by_cases hsome : messages = []
  · subst hsome
    exact ⟨s, kept, by simp [StorageSessionStore.appendBatch], .refl s chatId path, by simpa using h⟩
  · let stored := fromSessionMessages cfg.clock s.messageIdCounter messages
    let s₁ := { s with messageIdCounter := s.messageIdCounter + messages.length }
    have hfits := (forall_fits_from cfg.clock s.messageIdCounter messages).mpr
      fun message hm => (hstorable message hm).1
    have hlines := mapM_sessionLine_of_fits "session_append" hfits
    have hwf := wellFormed_from cfg.clock s.messageIdCounter messages hstorable
    have h₁ : ChatCoherent cfg counting s₁ chatId path log kept :=
      ⟨h.file, h.wellFormed, h.retained, h.counts, h.recent⟩
    obtain ⟨counts, state, existing, hstate, hcounts, hobserved, hother, hexisting⟩ :=
      h₁.appendState_eq hid writeHeader hcovers
    have h₂ : ChatCoherent cfg counting { s₁ with counts } chatId path log kept :=
      h₁.with_counts s₁.messageIdCounter hcounts hobserved
    have hframe : Frame s { s₁ with counts } chatId path :=
      ⟨fun _ _ => rfl, hother, fun _ _ => .inr rfl⟩
    have hsomeStored : stored ≠ [] := by
      rw [← List.length_pos_iff, length_fromSessionMessages, List.length_pos_iff]
      exact hsome
    have hinPlace := h₂.appendInPlace hsomeStored hwf writeHeader hobserved
    rw [map_toSessionMessage_from] at hinPlace
    rw [StorageSessionStore.appendBatch, if_neg hsome]
    simp only [hlines, hpath]
    rw [hstate]
    dsimp only
    split
    · exact ⟨_, kept ++ stored, rfl, hframe.trans (frame_appendInPlace _ _ _ _ _ _ _), hinPlace⟩
    · split
      · exact ⟨_, kept ++ stored, rfl, hframe.trans (frame_appendInPlace _ _ _ _ _ _ _), hinPlace⟩
      · rename_i heager
        obtain ⟨t, kept', hcompact, hframe', ht⟩ := h₂.appendCompacting hid (Bool.eq_false_iff.mpr heager)
          first writeHeader hexisting hsome hstorable
        exact ⟨t, kept', hcompact, hframe.trans hframe', ht⟩

omit hpath in
theorem ChatCoherent.appendBatch_refused (first : FirstKey)
    (hlong : ¬ ∀ message ∈ messages, lineLength message ≤ maxSessionMessageLen) :
    ∃ t text, s.appendBatch cfg first chatId messages = (t, .error (.config text "session_append")) ∧
      Frame s t chatId path ∧ ChatCoherent cfg counting t chatId path log kept := by
  have hsome : messages ≠ [] := by
    rintro rfl
    exact hlong (by simp)
  obtain ⟨text, hlines⟩ := mapM_sessionLine_of_long "session_append"
    (mt (forall_fits_from cfg.clock s.messageIdCounter messages).mp hlong)
  refine ⟨{ s with messageIdCounter := s.messageIdCounter + messages.length }, text, ?_,
    ⟨fun _ _ => rfl, fun _ _ => rfl, fun _ _ => .inr rfl⟩,
    ⟨h.file, h.wellFormed, h.retained, h.counts, h.recent⟩⟩
  rw [StorageSessionStore.appendBatch, if_neg hsome]
  simp only [hlines]

theorem ChatCoherent.messageCount_eq (hcounting : counting)
    (hcovers : s.counts.lookup chatId = none → cfg.deferCompactOnAppend = true →
      CountCovers cfg (s.fileOf path) log.length) :
    ∃ t, s.messageCount cfg chatId = (t, .ok (min log.length maxSessionEntries)) ∧
      Frame s t chatId path ∧ ChatCoherent cfg counting t chatId path log kept := by
  have hid := chatIdOk_of_sessionPath hpath
  unfold StorageSessionStore.messageCount
  split
  · rename_i hfull
    obtain ⟨recent, hrecent, hlength⟩ := Option.map_eq_some_iff.mp hfull
    obtain ⟨hsuffix, -, -⟩ := h.recent recent hrecent
    have hle := hsuffix.length_le
    have hmin := h.min_length
    refine ⟨s, ?_, .refl s chatId path, h⟩
    rw [← hmin, Nat.min_eq_right (by omega)]
  · obtain ⟨counts, state, existing, hstate, hcounts, hobserved, hother, -⟩ :=
      h.appendState_eq hid writeHeader fun _ => hcovers
    refine ⟨{ s with counts }, ?_, ⟨fun _ _ => rfl, hother, fun _ _ => .inr rfl⟩,
      h.with_counts s.messageIdCounter hcounts hobserved⟩
    simp only [hpath, hstate, hobserved.messageCount hcounting, h.min_length]

omit h in
theorem ChatCoherent.clear_eq : ∃ t, s.clear cfg chatId = (t, .ok ()) ∧ Frame s t chatId path ∧
    ChatCoherent cfg counting t chatId path [] [] := by
  let body := if writeHeader then chatIdHeader chatId else []
  have hfile (t : StorageSessionStore) (ht : t.files = s.files.insert path body) : t.fileOf path = body := by
    simp [StorageSessionStore.fileOf, ht]
  have hclear : s.clear cfg chatId = ({ s with
      files := s.files.insert path body
      counts := s.counts.insert chatId ⟨0, writeHeader, writeHeader⟩
      recent := s.recent.erase chatId }, .ok ()) := by
    simp only [StorageSessionStore.clear, hpath]
    rfl
  refine ⟨_, hclear, ⟨fun p hp => Finmap.lookup_insert_of_ne _ hp,
    fun c hc => Finmap.lookup_insert_of_ne _ hc, fun c hc => .inr (Finmap.lookup_erase_ne hc)⟩,
    ⟨writeHeader, ?_⟩, by simp, rfl, fun state hstate => ?_, fun recent hrecent => ?_⟩
  · rw [hfile _ rfl]
    simp [body, sessionBody]
  · obtain rfl := Option.some.inj (hstate.symm.trans (Finmap.lookup_insert _))
    rw [hfile _ rfl]
    cases writeHeader with
    | false => exact ⟨by simp [body], by simp [body], fun _ => rfl⟩
    | true => exact ⟨by simp [body, chatIdHeader], by simp [body, chatIdHeader], fun _ => rfl⟩
  · rw [Finmap.lookup_erase] at hrecent
    cases hrecent

omit hpath in
/-- The recent cache takes up messages from the end of the file. -/
theorem ChatCoherent.upsert (first : FirstKey) {messages : List StoredSessionMessage}
    (hsuffix : messages <:+ kept) (hlength : messages.length ≤ maxSessionEntries)
    (hfull : cfg.deferCompactOnAppend = false → messages = kept.rtake maxSessionEntries) :
    ChatCoherent cfg counting
      { s with recent := StorageSessionStore.upsertRecentCache first chatId messages s.recent } chatId path
      log kept where
  file := h.file
  wellFormed := h.wellFormed
  retained := h.retained
  counts := h.counts
  recent recent hrecent := by
    obtain rfl : messages = recent := by simpa using hrecent
    exact ⟨hsuffix, hlength, hfull⟩

omit h hpath in
theorem frame_upsert (s : StorageSessionStore) (first : FirstKey) (chatId path : String)
    (messages : List StoredSessionMessage) : Frame s
      { s with recent := StorageSessionStore.upsertRecentCache first chatId messages s.recent } chatId path :=
  ⟨fun _ _ => rfl, fun _ _ => rfl, fun _ hc => lookup_upsertRecentCache_of_ne hc⟩

omit hpath in
/-- A bounded read that covers the messages asked for shows them. -/
theorem ChatCoherent.rtake_shown {shown : List StoredSessionMessage} {count n : Nat}
    (hshown : Shows cfg (s.fileOf path) kept shown count) (hn : n ≤ maxSessionEntries)
    (hcovers : TailCovers cfg (s.fileOf path) (min n log.length)) : shown.rtake n = kept.rtake n := by
  have hmin := h.min_length
  have hneed : min n log.length = min n kept.length := by omega
  rw [hneed] at hcovers
  have hlength := congrArg List.length (hshown.covers (min n kept.length) (min_le_right _ _) hcovers)
  rw [length_rtake, length_rtake] at hlength
  exact rtake_of_suffix hshown.suffix (by omega)

/-- What a call of `load_recent` may be asked: no more than the recent cache
holds, if there is one, and than a bounded read covers, if not. -/
def LoadCovered (cfg : SessionConfig) (recent : Option (List StoredSessionMessage)) (file : Bytes)
    (total n : Nat) : Prop :=
  match recent with
  | some recent => min (min n maxSessionEntries) total ≤ recent.length
  | none => 0 < n → TailCovers cfg file (min (min n maxSessionEntries) total) ∧
    (cfg.deferCompactOnAppend = true → CountCovers cfg file total)

theorem ChatCoherent.loadRecent_eq (first : FirstKey) (n : Nat)
    (hcovered : LoadCovered cfg (s.recent.lookup chatId) (s.fileOf path) log.length n) :
    ∃ t, s.loadRecent cfg first chatId n = (t, .ok (log.rtake (min n maxSessionEntries))) ∧
      Frame s t chatId path ∧ ChatCoherent cfg counting t chatId path log kept := by
  have hid := chatIdOk_of_sessionPath hpath
  have hcap := min_le_right n maxSessionEntries
  rw [← h.rtake hcap]
  unfold StorageSessionStore.loadRecent
  simp only [hpath]
  split
  · rename_i hzero
    exact ⟨s, by simp [hzero], .refl s chatId path, h⟩
  · rename_i hpos
    cases hrecent : s.recent.lookup chatId with
    | some recent =>
      obtain ⟨hsuffix, -, -⟩ := h.recent recent hrecent
      have hmin := h.min_length
      rw [hrecent] at hcovered
      simp only [LoadCovered] at hcovered
      refine ⟨s, ?_, .refl s chatId path, h⟩
      simp only [rtake_of_suffix hsuffix (show min (min n maxSessionEntries) kept.length ≤ recent.length by omega)]
    | none =>
      rw [hrecent] at hcovered
      obtain ⟨htail, hcount⟩ := hcovered (by omega)
      obtain ⟨shown, count, hshown, hload⟩ := h.loadSessionTailSnapshot_eq hid
      have hlimit : max 1 (min (min n maxSessionEntries) maxSessionEntries) = min n maxSessionEntries := by omega
      have hrtake := h.rtake_shown hshown hcap htail
      simp only [hload, hlimit, rtake_rtake, min_self, hrtake]
      have hlength : (kept.rtake (min n maxSessionEntries)).length ≤ maxSessionEntries :=
        (length_rtake _ _).trans_le ((min_le_left _ _).trans hcap)
      cases hdefer : cfg.deferCompactOnAppend with
      | true =>
        have hstate : Observed counting (s.fileOf path) kept
            ⟨count, s.fileOf path ≠ [], s.fileOf path ≠ []⟩ :=
          ⟨rfl, rfl, fun _ => h.count_eq hshown (hcount hdefer)⟩
        have hobserved := h.with_counts s.messageIdCounter (Finmap.lookup_insert s.counts) hstate
        refine ⟨_, by simp only [or_true, if_true]; rfl, ?_, hobserved.upsert first (rtake_suffix _ _) hlength
          fun heager => absurd hdefer (by simp [heager])⟩
        refine Frame.trans ?_ (frame_upsert _ first chatId path _)
        exact ⟨fun _ _ => rfl, fun c hc => Finmap.lookup_insert_of_ne _ hc, fun _ _ => .inr rfl⟩
      | false =>
        simp only [Bool.false_eq_true, or_false, if_false]
        by_cases hfull : min n maxSessionEntries = maxSessionEntries
        · rw [if_pos hfull]
          exact ⟨_, rfl, frame_upsert s first chatId path _,
            h.upsert first (rtake_suffix _ _) hlength fun _ => by rw [hfull]⟩
        · rw [if_neg hfull]
          exact ⟨s, rfl, .refl s chatId path, h⟩

/-- Where reads are bounded, the recent cache may take up fewer messages than asked for. -/
theorem ChatCoherent.loadRecentRecords_eq (first : FirstKey) (n : Nat) :
    ∃ t result, s.loadRecentRecords cfg first chatId n = (t, result) ∧
      Frame s t chatId path ∧ ChatCoherent cfg counting t chatId path log kept := by
  have hid := chatIdOk_of_sessionPath hpath
  have hcap := min_le_right n maxSessionEntries
  unfold StorageSessionStore.loadRecentRecords
  simp only [hpath]
  split
  · exact ⟨s, _, rfl, .refl s chatId path, h⟩
  · rename_i hpos
    obtain ⟨shown, count, hshown, hload⟩ := h.loadSessionTailSnapshot_eq hid
    have hlimit : max 1 (min (min n maxSessionEntries) maxSessionEntries) = min n maxSessionEntries := by omega
    simp only [hload, hlimit, rtake_rtake, min_self, Bool.false_eq_true, if_false]
    split
    · rename_i hkeep
      refine ⟨_, _, rfl, frame_upsert s first chatId path _,
        h.upsert first ((rtake_suffix _ _).trans hshown.suffix)
          ((length_rtake _ _).trans_le ((min_le_left _ _).trans hcap)) fun heager => ?_⟩
      have htail : cfg.tailMaxBytes = none := cfg.eager_reads_all heager
      have hfull : min n maxSessionEntries = maxSessionEntries := by simpa [heager] using hkeep
      rw [hfull]
      exact h.rtake_shown hshown le_rfl fun maxBytes hmax => by simp [htail] at hmax
    · exact ⟨s, _, rfl, .refl s chatId path, h⟩

end
end Beetle.Platform.Storage
