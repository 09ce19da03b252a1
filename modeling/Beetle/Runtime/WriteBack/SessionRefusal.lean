import Beetle.Platform.SessionHistory
import Beetle.Runtime.WriteBack.SessionBuffer

/-! What a message that the session store refuses takes with it when the buffer
in front of it is flushed. -/
namespace Beetle.Runtime.WriteBack
open Beetle.Lib Beetle.Memory Beetle.Platform.Storage

def Fits (message : SessionMessage) : Prop := lineLength message ≤ maxSessionMessageLen

instance (message : SessionMessage) : Decidable (Fits message) :=
  inferInstanceAs (Decidable (lineLength message ≤ maxSessionMessageLen))

def Blank (message : SessionMessage) : Prop :=
  isBlank message.role = true ∧ isBlank message.content = true

/-- The messages that the store does not refuse. -/
def fitting (messages : List SessionMessage) : List SessionMessage := messages.filter (Fits ·)

@[simp] theorem fitting_nil : fitting [] = [] := rfl

@[simp] theorem fitting_append (a b : List SessionMessage) : fitting (a ++ b) = fitting a ++ fitting b :=
  List.filter_append ..

variable {messages : List SessionMessage} {w : LoggedSessions StorageSessionStore} {write : PendingSessionWrite}

theorem fitting_of_fits (h : ∀ message ∈ messages, Fits message) : fitting messages = messages :=
  List.filter_eq_self.mpr fun message hm => by simpa using h message hm

theorem fitting_of_not_fits (h : ∀ message ∈ messages, ¬ Fits message) : fitting messages = [] :=
  List.filter_eq_nil_iff.mpr fun message hm => by simpa using h message hm

/-- The messages that the file of the chat holds. -/
def persistedLog (cfg : SessionConfig) (s : StorageSessionStore) (chatId : String) : List SessionMessage :=
  match sessionPath cfg chatId with
  | .ok (path, _) =>
    (scanSessionFile cfg s.messageIdCounter (s.fileOf path)).1.messages.map (·.toSessionMessage)
  | .error _ => []

variable {cfg : SessionConfig} {chats : List String} {log : SessionLog} {c : String}

theorem persistedLog_of_coherent {counting : Prop} (hown : OwnFiles cfg chats) {s : StorageSessionStore}
    (h : Platform.Storage.Coherent cfg counting chats s log) (hc : c ∈ chats) :
    persistedLog cfg s c = log.retained c := by
  obtain ⟨path, header, hpath⟩ := hown.accepted c hc
  obtain ⟨kept, hkept⟩ := h c hc path header hpath
  have hscan := hkept.scanSessionFile_eq (chatIdOk_of_sessionPath hpath) s.messageIdCounter
  simp only [persistedLog, hpath, hscan, map_rtake]
  exact hkept.retained

/-- The calls of the claim at hand: appends to some chats, and flushes. -/
def Appends (chats : List String) : SessionAction FirstKey → Prop
  | .appendBatch chatId _ => chatId ∈ chats
  | .clear _ => False
  | .loadRecent _ _ _ => False
  | .messageCount _ _ => False
  | .takeAll => True
  | .applyWrite _ _ _ => True
  | .restoreMissing => True

/-- A flush takes no messages that are refused together with others of the same
chat that are not, and no message is blank. -/
def Unmixed (w : LoggedSessions StorageSessionStore) : SessionAction FirstKey → Prop
  | .appendBatch _ messages => ∀ message ∈ messages, ¬ Blank message
  | .takeAll => ∀ chatId write, w.buffer.pending.lookup chatId = some write →
    (∀ message ∈ write.appended, Fits message) ∨ ∀ message ∈ write.appended, ¬ Fits message
  | _ => True

/-- Where nothing is under way, the file of each chat holds the messages that it
held at first and those appended since that fit, as far as a ring retains them. -/
def Persisted (cfg : SessionConfig) (chats : List String) (log : SessionLog)
    (w : LoggedSessions StorageSessionStore) : Prop :=
  w.buffer.flush = none → ∀ c ∈ chats, c ∉ w.buffer.pending →
    persistedLog cfg w.buffer.inner c = (log c ++ fitting (w.log c)).rtake maxSessionEntries

@[grind =] def stagedMessages (write : Option PendingSessionWrite) : List SessionMessage :=
  write.elim [] (·.appended)

/-- A staged write that only appends, to one of the chats and nothing blank. -/
structure OnlyAppends (chats : List String) (chatId : String) (write : PendingSessionWrite) : Prop where
  mem : chatId ∈ chats
  noClear : write.clear = false
  notBlank : ∀ message ∈ write.appended, ¬ Blank message

structure FlushCoherent (cfg : SessionConfig) (chats : List String) (log : SessionLog)
    (w : LoggedSessions StorageSessionStore) (held : SessionLog) : Prop where
  store : Platform.Storage.Coherent cfg False chats w.buffer.inner held
  same : ∀ c ∈ chats, held c ++ fitting (stagedMessages (SessionFlush.inHand w.buffer.flush c)) ++
    fitting (stagedMessages (w.buffer.pending.lookup c)) = log c ++ fitting (w.log c)
  pending : ∀ c write, w.buffer.pending.lookup c = some write → OnlyAppends chats c write
  flush : ∀ flush, w.buffer.flush = some flush → flush.failed = [] ∧
    ∀ c write, flush.remaining.lookup c = some write → OnlyAppends chats c write ∧
      ((∀ message ∈ write.appended, Fits message) ∨ ∀ message ∈ write.appended, ¬ Fits message)

section
variable {cfg : SessionConfig} {chats : List String} {log : SessionLog}
  {w : LoggedSessions StorageSessionStore} {held : SessionLog} {c : String} {t : LoggedSessions StorageSessionStore}

section
variable (hw : FlushCoherent cfg chats log w held)
include hw

theorem FlushCoherent.stageAppend (hc : c ∈ chats)
    {messages : List SessionMessage} (hblank : ∀ message ∈ messages, ¬ Blank message) :
    FlushCoherent cfg chats log ⟨{ w.buffer with pending := w.buffer.pending.stageAppend c messages },
      w.log.append c messages⟩ held := by
  have hstaged : stagedMessages ((w.buffer.pending.stageAppend c messages).lookup c) =
      stagedMessages (w.buffer.pending.lookup c) ++ messages := by
    by_cases hempty : messages = []
    · simp [PendingSessions.stageAppend, hempty]
    · simp only [PendingSessions.stageAppend, hempty, if_false, Finmap.lookup_insert]
      cases w.buffer.pending.lookup c with
      | none => simp [stagedMessages, PendingSessionWrite.default]
      | some write => simp [stagedMessages]
  refine ⟨hw.store, fun d hd => ?_, fun d write hwrite => ?_, hw.flush⟩
  · have hsame := hw.same d hd
    by_cases hdc : d = c
    · subst hdc
      simp only [hstaged, SessionLog.append_self, fitting_append, ← List.append_assoc] at hsame ⊢
      rw [hsame]
    · simpa [PendingSessions.lookup_stageAppend_of_ne hdc, hdc] using hsame
  · by_cases hdc : d = c
    · subst hdc
      by_cases hempty : messages = []
      · exact hw.pending d write (by simpa [PendingSessions.stageAppend, hempty] using hwrite)
      · simp only [PendingSessions.stageAppend, hempty, if_false, Finmap.lookup_insert,
          Option.some.injEq] at hwrite
        subst hwrite
        cases hold : w.buffer.pending.lookup d with
        | none => exact ⟨hc, rfl, by simpa [PendingSessionWrite.default] using hblank⟩
        | some old =>
          obtain ⟨-, hclear, hold⟩ := hw.pending d old hold
          refine ⟨hc, hclear, fun message hm => ?_⟩
          rcases List.mem_append.mp hm with hm | hm
          · exact hold message hm
          · exact hblank message hm
    · rw [PendingSessions.lookup_stageAppend_of_ne hdc] at hwrite
      exact hw.pending d write hwrite

theorem FlushCoherent.takeAll (hnone : w.buffer.flush = none) (hunmixed : Unmixed w .takeAll) :
    FlushCoherent cfg chats log
      ⟨{ w.buffer with pending := ∅, flush := some ⟨w.buffer.pending, []⟩ }, w.log⟩ held := by
  refine ⟨hw.store, fun d hd => ?_, fun d write hwrite => by simp at hwrite, ?_⟩
  · have hsame := hw.same d hd
    simpa [SessionFlush.inHand, hnone, stagedMessages] using hsame
  · rintro _ ⟨⟩
    exact ⟨rfl, fun c write hwrite => ⟨hw.pending c write hwrite, hunmixed c write hwrite⟩⟩

theorem FlushCoherent.leave {flush : SessionFlush} (hflush : w.buffer.flush = some flush) {write : PendingSessionWrite}
    (hwrite : flush.remaining.lookup c = some write) {inner : StorageSessionStore} {held' : SessionLog}
    (hstore : Platform.Storage.Coherent cfg False chats inner held') (hself : held' c = held c ++ fitting write.appended)
    (hother : ∀ d, d ≠ c → held' d = held d) :
    FlushCoherent cfg chats log
      ⟨{ w.buffer with inner, flush := some ⟨flush.remaining.erase c, flush.failed⟩ }, w.log⟩ held' := by
  obtain ⟨hfailed, hremaining⟩ := hw.flush flush hflush
  refine ⟨hstore, fun d hd => ?_, hw.pending, ?_⟩
  · have hsame := hw.same d hd
    by_cases hdc : d = c
    · subst hdc
      simpa [SessionFlush.inHand, hflush, hwrite, hfailed, stagedMessages, hself] using hsame
    · simpa [SessionFlush.inHand, hflush, hfailed, Finmap.lookup_erase_ne hdc, hother d hdc] using hsame
  · rintro _ ⟨⟩
    refine ⟨hfailed, fun d write' hwrite' => ?_⟩
    have hdc : d ≠ c := by
      rintro rfl
      simp at hwrite'
    rw [Finmap.lookup_erase_ne hdc] at hwrite'
    exact hremaining d write' hwrite'

end

/-- One round of the flush: the messages of the chat are all taken or all refused. -/
theorem FlushCoherent.applyWrite (hown : OwnFiles cfg chats)
    {clearing appending : FirstKey} (hw : FlushCoherent cfg chats log w held)
    (h : w.step (storageSessionStore cfg) (.applyWrite clearing appending c) = some t) :
    ∃ held', FlushCoherent cfg chats log t held' := by
  obtain ⟨buffer, hbuffer, rfl⟩ := Option.map_eq_some_iff.mp h
  simp only [BufferedSessionStore.step] at hbuffer
  split at hbuffer
  · cases hbuffer
  · rename_i flush hflush
    split at hbuffer
    · cases hbuffer
    · rename_i write hwrite
      obtain ⟨hfailed, hremaining⟩ := hw.flush flush hflush
      obtain ⟨⟨hc, hclear, hblank⟩, hunmixed⟩ := hremaining c write hwrite
      obtain ⟨path, header, hpath⟩ := hown.accepted c hc
      obtain ⟨kept, hkept⟩ := hw.store c hc path header hpath
      by_cases hempty : write.appended = []
      · have happly : applySessionWrite (storageSessionStore cfg) w.buffer.inner clearing appending c write =
            (w.buffer.inner, .ok ()) := by simp [applySessionWrite, hclear, hempty]
        rw [happly] at hbuffer
        cases hbuffer
        exact ⟨held, hw.leave hflush hwrite hw.store (by simp [hempty, fitting]) fun _ _ => rfl⟩
      · have happly : applySessionWrite (storageSessionStore cfg) w.buffer.inner clearing appending c write =
            w.buffer.inner.appendBatch cfg appending c write.appended := by
          simp [applySessionWrite, hclear, hempty, storageSessionStore]
        rw [happly] at hbuffer
        rcases hunmixed with hfits | hfits
        · obtain ⟨inner, kept', hok, hframe, hinner⟩ := hkept.appendBatch_ok hpath appending
            (fun message hm => ⟨hfits message hm, hblank message hm⟩) fun hf => hf.elim
          rw [hok] at hbuffer
          cases hbuffer
          refine ⟨held.append c write.appended, hw.leave hflush hwrite
            (hw.store.update hown hc hpath hframe (by simpa using hinner) fun d hd => SessionLog.append_of_ne hd)
            (by simp [fitting_of_fits hfits]) fun d hd => SessionLog.append_of_ne hd⟩
        · have hlong : ¬ ∀ message ∈ write.appended, lineLength message ≤ maxSessionMessageLen := by
            obtain ⟨message, hm⟩ := List.exists_mem_of_ne_nil _ hempty
            exact fun hall => hfits message hm (hall message hm)
          obtain ⟨inner, text, herror, hframe, hinner⟩ := hkept.appendBatch_refused appending hlong
          rw [herror] at hbuffer
          simp only [shouldRetryWriteBackError, Bool.false_eq_true, if_false] at hbuffer
          cases hbuffer
          exact ⟨held, hw.leave hflush hwrite (hw.store.update hown hc hpath hframe hinner fun _ _ => rfl)
            (by simp [fitting_of_not_fits hfits]) fun _ _ => rfl⟩

theorem FlushCoherent.step (hown : OwnFiles cfg chats)
    {a : SessionAction FirstKey} (hw : FlushCoherent cfg chats log w held) (hunmixed : Unmixed w a)
    (ha : Appends chats a) (h : w.step (storageSessionStore cfg) a = some t) :
    ∃ held', FlushCoherent cfg chats log t held' := by
  have h' := h
  obtain ⟨buffer, hbuffer, rfl⟩ := Option.map_eq_some_iff.mp h
  cases a with
  | appendBatch c messages =>
    cases hbuffer
    exact ⟨held, hw.stageAppend ha hunmixed⟩
  | clear => exact ha.elim
  | loadRecent => exact ha.elim
  | messageCount => exact ha.elim
  | takeAll =>
    simp only [BufferedSessionStore.step] at hbuffer
    split at hbuffer
    · cases hbuffer
      exact ⟨held, hw.takeAll ‹_› hunmixed⟩
    · cases hbuffer
  | applyWrite clearing appending c => exact hw.applyWrite hown h'
  | restoreMissing =>
    simp only [BufferedSessionStore.step] at hbuffer
    split at hbuffer
    · cases hbuffer
    · rename_i flush hflush
      obtain ⟨hfailed, -⟩ := hw.flush flush hflush
      split at hbuffer
      · rename_i hremaining
        cases hbuffer
        refine ⟨held, hw.store, fun d hd => ?_, ?_, fun _ hnone => nomatch hnone⟩
        · have hsame := hw.same d hd
          simpa [SessionFlush.inHand, hflush, hremaining, hfailed, PendingSessions.restoreMissing,
            SessionAction.record] using hsame
        · rw [hfailed]
          exact hw.pending
      · cases hbuffer

theorem flushCoherent_init {files : HashMap String Bytes} (hdisk : DiskHolds cfg chats files log)
    (counter : Nat) : FlushCoherent cfg chats log (.init (fun _ _ => []) (.new files counter)) log :=
  ⟨coherent_new hdisk counter, fun c _ => by
      simp [LoggedSessions.init, SessionFlush.inHand, stagedMessages],
    fun c write hwrite => by simp [LoggedSessions.init] at hwrite,
    fun flush hflush => by simp [LoggedSessions.init] at hflush⟩

end

/-- Where each flush takes for a chat only messages that fit or only messages
that do not, every message that fits is persisted. -/
theorem fitting_messages_persisted {cfg : SessionConfig} {chats : List String} (hown : OwnFiles cfg chats)
    {files : HashMap String Bytes} {log : SessionLog} (hdisk : DiskHolds cfg chats files log) (counter : Nat)
    (as : List (SessionAction FirstKey)) (happends : ∀ a ∈ as, Appends chats a)
    (hunmixed : Meets (LoggedSessions.step (storageSessionStore cfg)) Unmixed as
      (.init (fun _ _ => []) (.new files counter))) :
    Always (LoggedSessions.step (storageSessionStore cfg)) (Persisted cfg chats log) as
      (.init (fun _ _ => []) (.new files counter)) := by
  refine always_of_meets (I := fun w => ∃ held, FlushCoherent cfg chats log w held)
    (C := fun w a => Unmixed w a ∧ Appends chats a) ?_ ?_ as _ ?_
    (hunmixed.mono fun w a ha hs => ⟨hs, happends a ha⟩)
  · rintro w a t ⟨held, hw⟩ ⟨hu, ha⟩ ht
    exact hw.step hown hu ha ht
  · rintro w ⟨held, hw⟩ hnone c hc hpending
    have hsame := hw.same c hc
    rw [Finmap.lookup_eq_none.mpr hpending, hnone] at hsame
    rw [persistedLog_of_coherent hown hw.store hc, SessionLog.retained, ← hsame]
    simp [SessionFlush.inHand, stagedMessages]
  · exact ⟨log, flushCoherent_init hdisk counter⟩

/-- A window with a message that does not fit is dropped as a whole: its flush
leaves what the file of the chat holds as it was, and puts nothing back. -/
theorem FlushCoherent.drops_unfit_window (hown : OwnFiles cfg chats) {held : SessionLog}
    (hw : FlushCoherent cfg chats log w held) (hnone : w.buffer.flush = none)
    (hwrite : w.buffer.pending.lookup c = some write)
    (halone : w.buffer.pending.erase c = ∅) (hunfit : ∃ message ∈ write.appended, ¬ Fits message)
    (clearing appending : FirstKey) :
    ∃ inner, exec (LoggedSessions.step (storageSessionStore cfg))
        [.takeAll, .applyWrite clearing appending c, .restoreMissing] w = some ⟨⟨inner, ∅, none⟩, w.log⟩ ∧
      persistedLog cfg inner c = held.retained c := by
  obtain ⟨hc, hclear, -⟩ := hw.pending c write hwrite
  obtain ⟨path, header, hpath⟩ := hown.accepted c hc
  obtain ⟨kept, hkept⟩ := hw.store c hc path header hpath
  obtain ⟨message, hm, hlong⟩ := hunfit
  have hempty : write.appended ≠ [] := List.ne_nil_of_mem hm
  obtain ⟨inner, text, herror, hframe, hinner⟩ :=
    hkept.appendBatch_refused appending fun hall => hlong (hall message hm)
  have happly : applySessionWrite (storageSessionStore cfg) w.buffer.inner clearing appending c write =
      (inner, .error (.config text "session_append")) := by
    simp only [applySessionWrite, hclear, hempty, if_false, Bool.false_eq_true]
    exact herror
  refine ⟨inner, ?_, ?_⟩
  · simp [LoggedSessions.step, BufferedSessionStore.step, hnone, hwrite, happly, shouldRetryWriteBackError,
      SessionAction.record, halone, PendingSessions.restoreMissing]
  · exact persistedLog_of_coherent hown (hw.store.update hown hc hpath hframe hinner fun _ _ => rfl) hc

/-- Where a message that fits is in such a window and the ring is not full, the
flush loses it. -/
theorem FlushCoherent.not_persisted (hown : OwnFiles cfg chats) {held : SessionLog}
    (hw : FlushCoherent cfg chats log w held) (hnone : w.buffer.flush = none)
    (hwrite : w.buffer.pending.lookup c = some write)
    (halone : w.buffer.pending.erase c = ∅) (hunfit : ∃ message ∈ write.appended, ¬ Fits message)
    (hfit : ∃ message ∈ write.appended, Fits message)
    (hroom : (log c ++ fitting (w.log c)).length ≤ maxSessionEntries) (clearing appending : FirstKey) :
    ¬ Always (LoggedSessions.step (storageSessionStore cfg)) (Persisted cfg chats log)
      [.takeAll, .applyWrite clearing appending c, .restoreMissing] w := by
  intro h
  have hc := (hw.pending c write hwrite).mem
  obtain ⟨inner, hexec, hpersisted⟩ :=
    hw.drops_unfit_window hown hnone hwrite halone hunfit clearing appending
  have hheld := h.last hexec rfl c hc Finmap.notMem_empty
  have hsame : held c ++ fitting write.appended = log c ++ fitting (w.log c) := by
    simpa [hnone, SessionFlush.inHand, stagedMessages, hwrite] using hw.same c hc
  have hheld' : held c = held c ++ fitting write.appended := by
    have hheldRoom : (held c).length ≤ maxSessionEntries := by
      rw [← hsame, List.length_append] at hroom
      omega
    rw [hpersisted, SessionLog.retained, rtake_of_length_le hroom, rtake_of_length_le hheldRoom] at hheld
    exact hheld.trans hsame.symm
  obtain ⟨message, hm, hfits⟩ := hfit
  have hmem : message ∈ fitting write.appended := List.mem_filter.mpr ⟨hm, by simpa using hfits⟩
  rw [List.self_eq_append_right.mp hheld'] at hmem
  exact absurd hmem List.not_mem_nil

theorem not_blank_user (content : String) : ¬ Blank ⟨"user", content⟩ := by
  have hrole : isBlank "user" = false := by decide
  exact fun hblank => absurd hblank.1 (by simp [hrole])

def longContent : String := String.ofList (List.replicate 4097 'x')

theorem not_fits_longContent : ¬ Fits ⟨"user", longContent⟩ := by
  have hlength : longContent.length = 4097 := String.length_ofList.trans List.length_replicate
  intro hfits
  have hle : longContent.length ≤ maxSessionMessageLen :=
    (length_content_le_lineLength ⟨"user", longContent⟩).trans hfits
  rw [hlength] at hle
  exact absurd hle (by decide)

/-- A message that fits and one that does not, staged for one chat before a flush. -/
def mixedWindow : List (SessionAction FirstKey) :=
  [.appendBatch "a" [⟨"user", "1"⟩], .appendBatch "a" [⟨"user", longContent⟩],
    .takeAll, .applyWrite (fun _ => none) (fun _ => none) "a", .restoreMissing]

theorem long_message_takes_short_with_it :
    ¬ Always (LoggedSessions.step (storageSessionStore hostSessionConfig))
      (Persisted hostSessionConfig ["a"] fun _ => []) mixedWindow
      (.init (fun _ _ => []) (.new ∅ 1)) := by
  intro h
  have hinit : FlushCoherent hostSessionConfig ["a"] (fun _ => [])
      (.init (fun _ _ => []) (.new ∅ 1)) (fun _ => []) := flushCoherent_init diskHolds_empty 1
  have hstaged := (hinit.stageAppend (List.mem_singleton_self "a")
    (List.forall_mem_singleton.mpr (not_blank_user "1"))).stageAppend (List.mem_singleton_self "a")
    (List.forall_mem_singleton.mpr (not_blank_user longContent))
  have hwrite : (PendingSessions.stageAppend (PendingSessions.stageAppend ∅ "a" [⟨"user", "1"⟩]) "a"
      [⟨"user", longContent⟩]).lookup "a" = some ⟨false, [⟨"user", "1"⟩, ⟨"user", longContent⟩]⟩ := by
    simp [PendingSessions.stageAppend, PendingSessionWrite.default]
  refine hstaged.not_persisted ownFiles_host rfl hwrite (by decide)
    ⟨⟨"user", longContent⟩, by simp, not_fits_longContent⟩ ⟨⟨"user", "1"⟩, by simp, by decide⟩ ?_ _ _
    ((h.2 _ rfl).2 _ rfl)
  refine (List.length_filter_le ..).trans ?_
  simp [LoggedSessions.init, maxSessionEntries]

theorem fitting_messages_persisted_of_append :
    Always (LoggedSessions.step (storageSessionStore hostSessionConfig))
      (Persisted hostSessionConfig ["a"] fun _ => [])
      [.appendBatch "a" [⟨"user", "1"⟩], .takeAll, .applyWrite (fun _ => none) (fun _ => none) "a",
        .restoreMissing]
      (.init (fun _ _ => []) (.new ∅ 1)) := by
  refine fitting_messages_persisted ownFiles_host diskHolds_empty 1 _ (by simp [Appends]) ?_
  refine fun t ht => ⟨?_, fun u _ => ⟨?_, fun v _ => ⟨trivial, fun x _ => ⟨trivial, trivial⟩⟩⟩⟩
  · exact List.forall_mem_singleton.mpr (not_blank_user "1")
  · obtain rfl := Option.some.inj ht
    intro c write hwrite
    left
    by_cases hc : c = "a"
    · subst hc
      obtain rfl : (⟨false, [⟨"user", "1"⟩]⟩ : PendingSessionWrite) = write := by
        simpa [LoggedSessions.init, PendingSessions.stageAppend, PendingSessionWrite.default] using hwrite
      exact List.forall_mem_singleton.mpr (by decide)
    · simp [LoggedSessions.init, PendingSessions.lookup_stageAppend_of_ne hc] at hwrite

end Beetle.Runtime.WriteBack
