import Beetle.Platform.SessionCoherence
import Beetle.Platform.SessionJson
import Beetle.Platform.SessionTorn

/-! Runs of appends on one session file, any of which may tear its last line. -/
namespace Beetle.Platform.Storage
open Beetle.Lib Beetle.Memory

inductive TornCall where
  | appendBatch (first : FirstKey) (messages : List SessionMessage) (fault : AppendFault)
  | reopen (counter : Nat)

/-- The store, with the batches it was given and whether it answered that they are stored. -/
structure TornHistory where
  store : StorageSessionStore
  attempts : List (List SessionMessage × Bool)

def TornHistory.call (cfg : SessionConfig) (chatId : String) (w : TornHistory) : TornCall → Option TornHistory
  | .appendBatch first messages fault =>
    let (store, result) := w.store.appendBatchFaulty cfg first chatId messages fault
    some ⟨store, w.attempts ++ [(messages, result.isOk)]⟩
  | .reopen counter => some ⟨.new w.store.files counter, w.attempts⟩

/-- What may be left of a batch: all of it if it was stored, else its beginning. -/
def Survives (attempt : List SessionMessage × Bool) (part : List SessionMessage) : Prop :=
  part <+: attempt.1 ∧ (attempt.2 = true → part = attempt.1)

/-- Messages that agree with what is left of the batches as far as a ring retains it. -/
def Kept (attempts : List (List SessionMessage × Bool)) (messages : List StoredSessionMessage) : Prop :=
  ∃ parts, List.Forall₂ Survives attempts parts ∧
    (messages.map (·.toSessionMessage)).rtake maxSessionEntries = parts.flatten.rtake maxSessionEntries

/-- A scan of the file finds what is left of the batches, and all of those that were stored. -/
def TornHistory.Recovered (cfg : SessionConfig) (path : String) (w : TornHistory) : Prop :=
  ∃ parts, List.Forall₂ Survives w.attempts parts ∧ ∀ counter,
    (scanSessionFile cfg counter (w.store.fileOf path)).1.messages.map (·.toSessionMessage) =
      parts.flatten.rtake maxSessionEntries

section
variable {attempts : List (List SessionMessage × Bool)} {messages : List StoredSessionMessage}

section
variable (h : Kept attempts messages)
include h

theorem Kept.add {attempt : List SessionMessage × Bool}
    {stored : List StoredSessionMessage} (hlast : Survives attempt (stored.map (·.toSessionMessage))) :
    Kept (attempts ++ [attempt]) (messages ++ stored) := by
  obtain ⟨parts, hparts, hkept⟩ := h
  refine ⟨parts ++ [stored.map (·.toSessionMessage)], List.rel_append hparts (.cons hlast .nil), ?_⟩
  rw [map_rtake_append hkept, List.flatten_append, List.flatten_singleton]

/-- A batch of which nothing is left. -/
theorem Kept.fail (batch : List SessionMessage) : Kept (attempts ++ [(batch, false)]) messages := by
  have hnone : Survives (batch, false) (([] : List StoredSessionMessage).map (·.toSessionMessage)) :=
    ⟨List.nil_prefix, nofun⟩
  simpa using h.add hnone

theorem Kept.rtake : Kept attempts (messages.rtake maxSessionEntries) := by
  obtain ⟨parts, hparts, hkept⟩ := h
  refine ⟨parts, hparts, ?_⟩
  rw [map_rtake, rtake_rtake, min_self, hkept]

end

end

/-- Messages that the store may hold after these batches. -/
structure Holds (attempts : List (List SessionMessage × Bool)) (messages : List StoredSessionMessage) : Prop where
  wellFormed : ∀ message ∈ messages, message.WellFormed
  kept : Kept attempts messages

variable {attempts : List (List SessionMessage × Bool)} {messages : List StoredSessionMessage}

theorem Holds.rtake (h : Holds attempts messages) : Holds attempts (messages.rtake maxSessionEntries) :=
  ⟨fun message hm => h.wellFormed message ((rtake_suffix _ _).subset hm), h.kept.rtake⟩

theorem Holds.fail
    (h : Holds attempts messages) (batch : List SessionMessage) : Holds (attempts ++ [(batch, false)]) messages :=
  ⟨h.wellFormed, h.kept.fail batch⟩

theorem Holds.add {messages stored : List StoredSessionMessage}
    (h : Holds attempts messages) (hwf : ∀ message ∈ stored, message.WellFormed)
    {attempt : List SessionMessage × Bool} (hlast : Survives attempt (stored.map (·.toSessionMessage))) :
    Holds (attempts ++ [attempt]) (messages ++ stored) :=
  ⟨fun message hm => (List.mem_append.mp hm).elim (h.wellFormed message) (hwf message), h.kept.add hlast⟩

/-- The file and the recent cache of the chat each hold what is left of the
batches; the cache may lack what an append that failed has left in the file. -/
structure Sound (cfg : SessionConfig) (chatId path : String) (attempts : List (List SessionMessage × Bool))
    (s : StorageSessionStore) : Prop where
  file : ∃ messages, FileGives cfg (s.fileOf path) messages ∧ Holds attempts messages
  recent : ∀ recent, s.recent.lookup chatId = some recent → Holds attempts recent

section
variable {cfg : SessionConfig} {chatId path : String} {attempts : List (List SessionMessage × Bool)}
  {s : StorageSessionStore} {t : StorageSessionStore} {result : Except Error Unit}
  {existing : Option (List StoredSessionMessage)} {batch : List SessionMessage}

theorem Sound.of_eq (h : Sound cfg chatId path attempts s) (hfiles : t.files = s.files)
    (hrecent : t.recent = s.recent) : Sound cfg chatId path attempts t := by
  have hfile : t.fileOf path = s.fileOf path := by simp [StorageSessionStore.fileOf, hfiles]
  exact ⟨by rw [hfile]; exact h.file, by rw [hrecent]; exact h.recent⟩

theorem Sound.fail (h : Sound cfg chatId path attempts s) (batch : List SessionMessage) :
    Sound cfg chatId path (attempts ++ [(batch, false)]) s := by
  obtain ⟨messages, hgives, hholds⟩ := h.file
  exact ⟨⟨messages, hgives, hholds.fail batch⟩, fun recent hrecent => (h.recent recent hrecent).fail batch⟩

theorem Sound.recovered {w : TornHistory} (h : Sound cfg chatId path w.attempts w.store) :
    w.Recovered cfg path := by
  obtain ⟨messages, hgives, -, parts, hparts, hkept⟩ := h.file
  refine ⟨parts, hparts, fun counter => ?_⟩
  rw [hgives.scan counter, map_rtake, hkept]

/-- What the state of an append says of the end of the file. -/
def NewlineKnown (file : Bytes) (state : SessionAppendState) : Prop :=
  unfinished file = true → (state.hasData && !state.endsWithNewline) = true

theorem endsWithNewline_drop {file : Bytes} {n : Nat} (h : n < file.length) :
    endsWithNewline (file.drop n) = endsWithNewline file := by
  have hlast : (file.drop n).getLast? = file.getLast? := by
    rw [List.getLast?_drop, if_neg (Nat.not_le.mpr h)]
  simp only [endsWithNewline, hlast]

theorem newlineKnown_observe (cfg : SessionConfig) (counter : Nat) (file : Option Bytes) :
    NewlineKnown (file.getD []) (observeSessionAppendState cfg counter file).1 := by
  cases file with
  | none => exact fun h => nomatch h
  | some file =>
    by_cases hempty : file = []
    · subst hempty
      exact fun h => nomatch h
    · have hpos := List.length_pos_iff.mpr hempty
      have hread : (readSessionRecentBytes cfg file).1 ≠ [] ∧
          endsWithNewline (readSessionRecentBytes cfg file).1 = endsWithNewline file := by
        unfold readSessionRecentBytes
        cases cfg.tailMaxBytes with
        | none => exact ⟨hempty, rfl⟩
        | some maxBytes =>
          have hskip : file.length - min file.length (max maxBytes 1) < file.length := by omega
          refine ⟨fun h => ?_, endsWithNewline_drop hskip⟩
          have hlength := congrArg List.length h
          simp only [List.length_drop, List.length_nil] at hlength
          omega
      intro h
      have hends : endsWithNewline file = false := by simpa [unfinished, hempty] using h
      simp [observeSessionAppendState, hempty, scanSessionTail, SessionAppendState.fromObservedSnapshot, hread,
        hends]

/-- What an append that finds no cached state sees of the file is right. -/
theorem appendState_spec (cfg : SessionConfig) (s : StorageSessionStore) (path chatId : String)
    (writeHeader : Bool) : ∃ counts counter state existing,
      s.appendState cfg path chatId writeHeader =
        ({ s with counts, messageIdCounter := counter }, .ok (state, existing)) ∧
      (s.counts.lookup chatId = some state ∨ NewlineKnown (s.fileOf path) state) ∧
      ∀ loaded, existing = some loaded → ∃ k, loaded = (scanSessionFile cfg k (s.fileOf path)).1.messages := by
  unfold StorageSessionStore.appendState
  cases hcounts : s.counts.lookup chatId with
  | some state => exact ⟨s.counts, s.messageIdCounter, state, none, rfl, .inl rfl, nofun⟩
  | none =>
    dsimp only
    split
    · exact ⟨_, _, _, none, rfl, .inr (newlineKnown_observe cfg s.messageIdCounter _), nofun⟩
    · simp only [StorageSessionStore.loadSessionSnapshot, reduceCtorEq, and_false, if_false]
      refine ⟨_, _, _, _, rfl, .inr fun h => ?_, fun loaded hloaded => ?_⟩
      · have hunfinished : s.fileOf path ≠ [] ∧ endsWithNewline (s.fileOf path) = false := by
          simpa [unfinished] using h
        simp only [StorageSessionStore.fileOf] at hunfinished
        simp [SessionAppendState.fromObservedSnapshot, scanSessionFile, hunfinished]
      · exact ⟨s.messageIdCounter, (Option.some.inj hloaded).symm⟩

section
variable (h : Sound cfg chatId path attempts s)
include h

/-- What is in the file after an append on lines of its own. -/
theorem Sound.appendInPlaceFaulty (hid : ChatIdOk chatId)
    (hjson : cfg.json.RefusesCut) {state : SessionAppendState} (hstate : NewlineKnown (s.fileOf path) state)
    {stored : List StoredSessionMessage} (hwf : ∀ message ∈ stored, message.WellFormed) (writeHeader : Bool)
    (fault : Option (Nat × Error))
    (heq : s.appendInPlaceFaulty path chatId writeHeader state stored (stored.map StoredSessionMessage.line)
      fault = (t, result)) :
    Sound cfg chatId path (attempts ++ [(stored.map (·.toSessionMessage), result.isOk)]) t := by
  obtain ⟨messages, hgives, hholds⟩ := h.file
  cases fault with
  | none =>
    cases heq
    have hall : Survives (stored.map (·.toSessionMessage), true) (stored.map (·.toSessionMessage)) :=
      ⟨List.prefix_rfl, fun _ => rfl⟩
    refine ⟨⟨messages ++ stored, ?_, hholds.add hwf hall⟩, fun recent hrecent => ?_⟩
    · have hfile := FileGives.appendSessionLines hid hgives hwf hstate writeHeader
      simpa [StorageSessionStore.appendInPlace, StorageSessionStore.fileOf] using hfile
    · simp only [StorageSessionStore.appendInPlace] at hrecent
      cases hold : s.recent.lookup chatId with
      | none => simp [hold] at hrecent
      | some old =>
        obtain rfl : (old ++ stored).rtake maxSessionEntries = recent := by simpa [hold] using hrecent
        exact ((h.recent old hold).add hwf hall).rtake
  | some failure =>
    obtain ⟨written, e⟩ := failure
    cases heq
    obtain ⟨part, hpart, hfile⟩ := FileGives.torn hid hgives hwf hstate writeHeader hjson written
    have hsome : Survives (stored.map (·.toSessionMessage), false) (part.map (·.toSessionMessage)) :=
      ⟨hpart.map _, fun h => by cases h⟩
    refine ⟨⟨messages ++ part, ?_, ?_⟩, fun recent hrecent => ?_⟩
    · simpa [StorageSessionStore.fileOf] using hfile
    · exact hholds.add (fun message hm => hwf message (hpart.subset hm)) hsome
    · exact (h.recent recent hrecent).fail _

/-- A repair leaves in the file what its scan has found. -/
theorem Sound.loadRepairedSnapshot (hid : ChatIdOk chatId)
    (writeHeader : Bool) (repair : Option Error) {result : Except Error SessionFileSnapshot}
    (heq : s.loadRepairedSnapshot cfg path chatId writeHeader repair = (t, result)) :
    Sound cfg chatId path attempts t ∧ ∀ snapshot, result = .ok snapshot → Holds attempts snapshot.messages := by
  obtain ⟨messages, hgives, hholds⟩ := h.file
  have hscan := hgives.scan s.messageIdCounter
  simp only [StorageSessionStore.fileOf] at hscan
  have hread (counter : Nat) : Sound cfg chatId path attempts { s with messageIdCounter := counter } :=
    h.of_eq rfl rfl
  have hfound : Holds attempts
      (scanSessionFile cfg s.messageIdCounter ((s.files.lookup path).getD [])).1.messages := by
    rw [hscan]
    exact hholds.rtake
  cases repair with
  | none =>
    simp only [StorageSessionStore.loadRepairedSnapshot, StorageSessionStore.loadSessionSnapshot] at heq
    split at heq
    · rw [writeSessionMessages_of_fits chatId writeHeader fun message hm =>
        (hfound.wellFormed message hm).fits] at heq
      cases heq
      refine ⟨⟨⟨_, ?_, hfound⟩, h.recent⟩, fun snapshot hsnapshot => ?_⟩
      · have hbody : FileGives cfg _ _ := fileGives_sessionBody hid writeHeader hfound.wellFormed
        simpa [StorageSessionStore.fileOf] using hbody
      · rw [← Except.ok.inj hsnapshot]
        exact hfound
    · cases heq
      refine ⟨hread _, fun snapshot hsnapshot => ?_⟩
      rw [← Except.ok.inj hsnapshot]
      exact hfound
  | some e =>
    simp only [StorageSessionStore.loadRepairedSnapshot, StorageSessionStore.loadSessionSnapshot, reduceCtorEq,
      and_false, if_false] at heq
    split at heq
    · cases heq
      exact ⟨hread _, fun _ h => by cases h⟩
    · cases heq
      refine ⟨hread _, fun snapshot hsnapshot => ?_⟩
      rw [← Except.ok.inj hsnapshot]
      exact hfound

theorem Sound.compactBaseFaulty (hid : ChatIdOk chatId) (first : FirstKey)
    (writeHeader : Bool) (hexisting : ∀ loaded, existing = some loaded →
      ∃ k, loaded = (scanSessionFile cfg k (s.fileOf path)).1.messages)
    (repair : Option Error) {result : Except Error (List StoredSessionMessage)}
    (heq : s.compactBaseFaulty cfg first path chatId writeHeader existing repair = (t, result)) :
    Sound cfg chatId path attempts t ∧ ∀ base, result = .ok base → Holds attempts base := by
  have hcache {u : StorageSessionStore} (hu : Sound cfg chatId path attempts u)
      {messages : List StoredSessionMessage} (hm : Holds attempts messages) : Sound cfg chatId path attempts
        { u with recent := StorageSessionStore.upsertRecentCache first chatId messages u.recent } :=
    ⟨hu.file, fun recent hrecent => by rwa [← Option.some.inj (lookup_upsertRecentCache.symm.trans hrecent)]⟩
  unfold StorageSessionStore.compactBaseFaulty at heq
  split at heq
  · rename_i recent hrecent
    cases heq
    exact ⟨h, fun base hbase => by rw [← Except.ok.inj hbase]; exact h.recent recent hrecent⟩
  · split at heq
    · rename_i loaded
      cases heq
      obtain ⟨messages, hgives, hholds⟩ := h.file
      obtain ⟨k, rfl⟩ := hexisting loaded rfl
      have hfound : Holds attempts (scanSessionFile cfg k (s.fileOf path)).1.messages := by
        rw [hgives.scan k]
        exact hholds.rtake
      exact ⟨hcache h hfound, fun base hbase => by rw [← Except.ok.inj hbase]; exact hfound⟩
    · split at heq
      · rename_i hload
        cases heq
        exact ⟨(h.loadRepairedSnapshot hid writeHeader repair hload).1, nofun⟩
      · rename_i snapshot hload
        cases heq
        obtain ⟨hsound, hfound⟩ := h.loadRepairedSnapshot hid writeHeader repair hload
        have hmessages := hfound snapshot rfl
        exact ⟨hcache hsound hmessages, fun base hbase => by rw [← Except.ok.inj hbase]; exact hmessages⟩

theorem Sound.appendCompactingFaulty (hid : ChatIdOk chatId)
    (first : FirstKey) (writeHeader : Bool) (hexisting : ∀ loaded, existing = some loaded →
      ∃ k, loaded = (scanSessionFile cfg k (s.fileOf path)).1.messages)
    (hstorable : ∀ message ∈ batch, Storable message) (fault : AppendFault)
    (heq : s.appendCompactingFaulty cfg first path chatId writeHeader existing batch fault = (t, result)) :
    Sound cfg chatId path (attempts ++ [(batch, result.isOk)]) t := by
  unfold StorageSessionStore.appendCompactingFaulty at heq
  split at heq
  · rename_i hbase
    cases heq
    exact (h.compactBaseFaulty hid first writeHeader hexisting fault.repair hbase).1.fail batch
  · rename_i u base hbase
    obtain ⟨hu, hholds⟩ := h.compactBaseFaulty hid first writeHeader hexisting fault.repair hbase
    have hwf := wellFormed_from cfg.clock u.messageIdCounter batch hstorable
    have hall : Survives (batch, true)
        ((fromSessionMessages cfg.clock u.messageIdCounter batch).map (·.toSessionMessage)) := by
      rw [map_toSessionMessage_from]
      exact ⟨List.prefix_rfl, fun _ => rfl⟩
    have hmessages := ((hholds base rfl).add hwf hall).rtake
    dsimp only at heq
    rw [writeSessionMessages_of_fits chatId writeHeader fun message hm =>
      (hmessages.wellFormed message hm).fits] at heq
    dsimp only at heq
    split at heq
    · cases heq
      have hcounted : Sound cfg chatId path attempts
          { u with messageIdCounter := u.messageIdCounter + batch.length } := hu.of_eq rfl rfl
      exact hcounted.fail batch
    · cases heq
      refine ⟨⟨_, ?_, hmessages⟩, fun recent hrecent => ?_⟩
      · have hbody : FileGives cfg _ _ := fileGives_sessionBody hid writeHeader hmessages.wellFormed
        simpa [StorageSessionStore.fileOf] using hbody
      · rwa [← Option.some.inj (lookup_upsertRecentCache.symm.trans hrecent)]

end

/-- What an append must find in the state before it: none of its messages is
skipped by a scan, and where it is to add lines to a file with a torn line, the
cached state does not say that the file is empty or ends in a newline. -/
def AppendSafe (cfg : SessionConfig) (chatId path : String) (s : StorageSessionStore)
    (batch : List SessionMessage) : Prop :=
  batch ≠ [] → (∀ message ∈ batch, lineLength message ≤ maxSessionMessageLen) →
    (∀ message ∈ batch, ¬ (isBlank message.role = true ∧ isBlank message.content = true)) ∧
    ∀ state, s.counts.lookup chatId = some state →
      cfg.deferCompactOnAppend = true ∨ state.messageCount + batch.length ≤ maxSessionEntries →
      NewlineKnown (s.fileOf path) state

theorem Sound.appendBatchFaulty (h : Sound cfg chatId path attempts s) {writeHeader : Bool}
    (hpath : sessionPath cfg chatId = .ok (path, writeHeader)) (hjson : cfg.json.RefusesCut)
    (first : FirstKey) (hsafe : AppendSafe cfg chatId path s batch) (fault : AppendFault)
    (heq : s.appendBatchFaulty cfg first chatId batch fault = (t, result)) :
    Sound cfg chatId path (attempts ++ [(batch, result.isOk)]) t := by
  have hid := chatIdOk_of_sessionPath hpath
  obtain ⟨messages, hgives, hholds⟩ := h.file
  unfold StorageSessionStore.appendBatchFaulty at heq
  split at heq
  · rename_i hempty
    cases heq
    subst hempty
    have hnone : Survives (([] : List SessionMessage), true)
        (([] : List StoredSessionMessage).map (·.toSessionMessage)) := ⟨List.prefix_rfl, fun _ => rfl⟩
    have hadd {messages : List StoredSessionMessage} (hm : Holds attempts messages) :
        Holds (attempts ++ [([], true)]) messages := by
      simpa using hm.add (by simp) hnone
    exact ⟨⟨messages, hgives, hadd hholds⟩, fun recent hrecent => hadd (h.recent recent hrecent)⟩
  · rename_i hsome
    let stored := fromSessionMessages cfg.clock s.messageIdCounter batch
    let s₁ := { s with messageIdCounter := s.messageIdCounter + batch.length }
    have h₁ : Sound cfg chatId path attempts s₁ := h.of_eq rfl rfl
    by_cases hfits : ∀ message ∈ batch, lineLength message ≤ maxSessionMessageLen
    · obtain ⟨hblank, hknown⟩ := hsafe hsome hfits
      have hstorable : ∀ message ∈ batch, Storable message := fun message hm =>
        ⟨hfits message hm, hblank message hm⟩
      have hwf : ∀ message ∈ stored, message.WellFormed :=
        wellFormed_from cfg.clock s.messageIdCounter batch hstorable
      have hlines := mapM_sessionLine_of_fits "session_append" fun message hm => (hwf message hm).fits
      obtain ⟨counts, counter, state, existing, hstate, hcounts, hexisting⟩ :=
        appendState_spec cfg s₁ path chatId writeHeader
      have h₂ : Sound cfg chatId path attempts { s₁ with counts, messageIdCounter := counter } :=
        h₁.of_eq rfl rfl
      have hnewline (hinPlace : cfg.deferCompactOnAppend = true ∨
          state.messageCount + batch.length ≤ maxSessionEntries) : NewlineKnown (s.fileOf path) state :=
        hcounts.elim (fun hcached => hknown state hcached hinPlace) id
      have hall : stored.map (·.toSessionMessage) = batch := map_toSessionMessage_from _ _ _
      simp only [stored] at hlines hall
      simp only [hlines, hpath] at heq
      simp only [s₁] at hstate
      rw [hstate] at heq
      dsimp only at heq
      split at heq
      · rename_i hfew
        have hdone := h₂.appendInPlaceFaulty hid hjson (hnewline (.inr hfew)) hwf writeHeader fault.write heq
        rwa [hall] at hdone
      · split at heq
        · rename_i hdefer
          have hdone := h₂.appendInPlaceFaulty hid hjson (hnewline (.inl hdefer)) hwf writeHeader fault.write heq
          rwa [hall] at hdone
        · exact h₂.appendCompactingFaulty hid first writeHeader hexisting hstorable fault heq
    · obtain ⟨text, herror⟩ := mapM_sessionLine_of_long "session_append"
        (mt (forall_fits_from cfg.clock s.messageIdCounter batch).mp hfits)
      simp only [herror] at heq
      cases heq
      exact h₁.fail batch

end

def TornSafe (cfg : SessionConfig) (chatId path : String) (w : TornHistory) : TornCall → Prop
  | .appendBatch _ batch _ => AppendSafe cfg chatId path w.store batch
  | .reopen _ => True

/-- A store just opened on a disk, for a file that holds the messages of `batch`. -/
def TornHistory.open (files : HashMap String Bytes) (counter : Nat) (batch : List SessionMessage) : TornHistory :=
  ⟨.new files counter, [(batch, true)]⟩

/-- In a run of appends that may fail after any byte, every message that was
stored is found by a scan as far as a ring retains it, as long as no append adds
lines to a torn line of which the cached state does not know. -/
theorem torn_appends_recovered {cfg : SessionConfig} (hjson : cfg.json.RefusesCut) {chatId path : String}
    {writeHeader : Bool} (hpath : sessionPath cfg chatId = .ok (path, writeHeader))
    {files : HashMap String Bytes} {header : Bool} {kept : List StoredSessionMessage}
    (hwf : ∀ message ∈ kept, message.WellFormed)
    (hfile : (files.lookup path).getD [] = sessionBody header chatId kept) (counter : Nat) (calls : List TornCall)
    (hsafe : Meets (TornHistory.call cfg chatId) (TornSafe cfg chatId path) calls
      (.open files counter (kept.map (·.toSessionMessage)))) :
    Always (TornHistory.call cfg chatId) (TornHistory.Recovered cfg path) calls
      (.open files counter (kept.map (·.toSessionMessage))) := by
  refine always_of_meets (I := fun w => Sound cfg chatId path w.attempts w.store)
    (fun w call t hw hcall ht => ?_) (fun w hw => hw.recovered) calls _ ?_ hsafe
  · cases call with
    | appendBatch first batch fault =>
      cases ht
      exact hw.appendBatchFaulty hpath hjson first hcall fault rfl
    | reopen counter =>
      cases ht
      exact ⟨hw.file, fun recent hrecent => by simp [StorageSessionStore.new] at hrecent⟩
  · have hid := chatIdOk_of_sessionPath hpath
    refine ⟨⟨kept, ?_, hwf, [kept.map (·.toSessionMessage)], ?_, by simp⟩, fun recent hrecent => ?_⟩
    · have hbody : FileGives cfg _ _ := fileGives_sessionBody hid header hwf
      rwa [← hfile] at hbody
    · exact .cons ⟨List.prefix_rfl, fun _ => rfl⟩ .nil
    · simp [TornHistory.open, StorageSessionStore.new] at hrecent

theorem exactReader_refusesCut : SerdeJson.exactReader.RefusesCut where
  fromStr message text hprefix hne := by
    obtain ⟨rest, hrest⟩ := hprefix
    refine Option.filter_eq_none_iff.mpr fun found hfound htext => ?_
    have htext : found.toJson = text := of_decide_eq_true htext
    have hsome : rest ≠ [] := by
      rintro rfl
      exact hne (by simpa using hrest)
    have hnone := readMessage_append found hsome
    rw [htext, hrest, readMessage_toJson] at hnone
    cases hnone
  firstOfStream message text found _ _ h := by
    simp only [SerdeJson.exactReader] at h
    split at h <;> cases h

def tornSessionConfig : SessionConfig :=
  ⟨"/tmp/beetle/s", false, none, .exactReader, fun _ => 0, unbounded_reads_all⟩

/-- The first append is torn after five bytes. -/
def tornAppend : TornCall :=
  .appendBatch (fun _ => none) [⟨"user", "1"⟩] ⟨none, some (5, .io ⟨.other, some 28⟩ "session_append")⟩

def nextAppend : TornCall := .appendBatch (fun _ => none) [⟨"user", "2"⟩] ⟨none, none⟩

/-- An append after the store was opened again is on a line of its own. -/
theorem reopened_append_recovered :
    Always (TornHistory.call tornSessionConfig "a") (TornHistory.Recovered tornSessionConfig "/tmp/beetle/s/a.jsonl")
      [tornAppend, .reopen 1, nextAppend] (.open ∅ 1 []) := by
  have hpath : sessionPath tornSessionConfig "a" = .ok ("/tmp/beetle/s/a.jsonl", false) := rfl
  have hempty : ((∅ : HashMap String Bytes).lookup "/tmp/beetle/s/a.jsonl").getD [] = sessionBody false "a" [] := rfl
  have hbatch : ∀ message ∈ [(⟨"user", "1"⟩ : SessionMessage), ⟨"user", "2"⟩],
      ¬ (isBlank message.role = true ∧ isBlank message.content = true) := by decide
  refine torn_appends_recovered exactReader_refusesCut hpath (by simp) hempty 1 _ ?_
  refine fun w _ => ⟨fun _ _ => ⟨fun message hm => hbatch message ?_, fun state hstate => ?_⟩,
    fun u hu => ⟨trivial, fun v _ => ⟨fun _ _ => ⟨fun message hm => hbatch message ?_, fun state hstate => ?_⟩,
      trivial⟩⟩⟩
  · exact List.mem_cons.mpr (.inl (List.mem_singleton.mp hm))
  · simp [TornHistory.open, StorageSessionStore.new] at hstate
  · exact List.mem_cons_of_mem _ hm
  · cases hu
    simp [StorageSessionStore.new] at hstate

/-- An append at once is joined to the torn line, and a scan finds nothing. -/
theorem append_joins_torn_line :
    ¬ Always (TornHistory.call tornSessionConfig "a")
      (TornHistory.Recovered tornSessionConfig "/tmp/beetle/s/a.jsonl") [tornAppend, nextAppend] (.open ∅ 1 []) := by
  intro h
  have hrun : (exec (TornHistory.call tornSessionConfig "a") [tornAppend, nextAppend] (.open ∅ 1 [])).map (fun w =>
      (w.attempts, (scanSessionFile tornSessionConfig 0
        (w.store.fileOf "/tmp/beetle/s/a.jsonl")).1.messages.map (·.toSessionMessage))) =
      some ([([], true), ([⟨"user", "1"⟩], false), ([⟨"user", "2"⟩], true)], []) := by
    decide
  obtain ⟨w, hw, hlast⟩ := Option.map_eq_some_iff.mp hrun
  obtain ⟨hattempts, hscan⟩ := Prod.mk.inj hlast
  obtain ⟨parts, hparts, hrecovered⟩ := h.last hw
  rw [hattempts] at hparts
  cases hparts with
  | cons _ hrest =>
    cases hrest with
    | cons _ hrest =>
      cases hrest with
      | cons hstored hrest =>
        cases hrest
        have hnone := hrecovered 0
        rw [hscan, hstored.2 rfl] at hnone
        have hlength := congrArg List.length hnone
        simp only [length_rtake, List.length_nil, List.flatten_cons, List.length_append, List.length_cons,
          maxSessionEntries] at hlength
        omega

end Beetle.Platform.Storage
