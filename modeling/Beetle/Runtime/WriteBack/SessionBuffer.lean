import Beetle.Memory.Session
import Beetle.Runtime.WriteBack.MapBuffer

/-! The write-back buffer in front of the session store, and the log it stands
for together with what it wraps. -/
namespace Beetle.Runtime.WriteBack
open Beetle.Lib Beetle.Memory

/-- What is staged for one chat: a clear, then messages. -/
structure PendingSessionWrite where
  clear : Bool
  appended : List SessionMessage
  deriving DecidableEq

namespace PendingSessionWrite

def default : PendingSessionWrite := ⟨false, []⟩

/-- What the write makes of the messages of its chat. -/
@[grind =] def onto (write : PendingSessionWrite) (messages : List SessionMessage) : List SessionMessage :=
  (if write.clear then [] else messages) ++ write.appended

/-- A failed write under what was staged for its chat since. -/
def restore (write : PendingSessionWrite) : Option PendingSessionWrite → PendingSessionWrite
  | none => write
  | some current =>
    -- a clear staged after the failed write supersedes older appends
    if current.clear then current
    else ⟨write.clear, write.appended ++ current.appended⟩

end PendingSessionWrite

abbrev PendingSessions := HashMap String PendingSessionWrite

namespace PendingSessions

def stageAppend (pending : PendingSessions) (chatId : String) (messages : List SessionMessage) :
    PendingSessions :=
  if messages = [] then pending
  else
    let entry := (pending.lookup chatId).getD .default
    pending.insert chatId { entry with appended := entry.appended ++ messages }

def stageClear (pending : PendingSessions) (chatId : String) : PendingSessions :=
  pending.insert chatId ⟨true, []⟩

/-- The drained map is a list with one entry a chat, as its order does not matter. -/
def restoreMissing : PendingSessions → List (String × PendingSessionWrite) → PendingSessions
  | pending, [] => pending
  | pending, (chatId, write) :: drained =>
    restoreMissing (pending.insert chatId (write.restore (pending.lookup chatId))) drained

end PendingSessions

/-- A running `flush_session_store`: what it has drained and not applied yet, and
what it is to put back. -/
structure SessionFlush where
  remaining : PendingSessions
  failed : List (String × PendingSessionWrite)

structure BufferedSessionStore (σ : Type) where
  inner : σ
  pending : PendingSessions
  flush : Option SessionFlush

section
variable {σ Φ : Type} (store : SessionStore σ Φ)

/-- One round of the flush loop; the environment decides about the clear and
about the append. -/
def applySessionWrite (inner : σ) (clearing appending : Φ) (chatId : String)
    (write : PendingSessionWrite) : σ × Except Error Unit :=
  let cleared := if write.clear then store.clear inner clearing chatId else (inner, .ok ())
  match cleared with
  | (inner, .error e) => (inner, .error e)
  | (inner, .ok ()) =>
    if write.appended = [] then (inner, .ok ())
    else store.appendBatch inner appending chatId write.appended

namespace BufferedSessionStore

def loadRecent (s : BufferedSessionStore σ) (φ : Φ) (chatId : String) (n : Nat) :
    BufferedSessionStore σ × Except Error (List SessionMessage) :=
  match s.pending.lookup chatId with
  | none =>
    let (inner, result) := store.loadRecent s.inner φ chatId n
    ({ s with inner }, result)
  | some write =>
    let (inner, base) :=
      if write.clear then (s.inner, .ok [])
      else store.loadRecent s.inner φ chatId (min n maxSessionEntries)
    match base with
    | .error e => ({ s with inner }, .error e)
    | .ok base =>
      let combined := (base ++ write.appended).rtake maxSessionEntries
      ({ s with inner }, .ok (combined.rtake (min n maxSessionEntries)))

def messageCount (s : BufferedSessionStore σ) (φ : Φ) (chatId : String) :
    BufferedSessionStore σ × Except Error Nat :=
  match s.pending.lookup chatId with
  | none =>
    let (inner, result) := store.messageCount s.inner φ chatId
    ({ s with inner }, result)
  | some write =>
    let (inner, base) :=
      if write.clear then (s.inner, .ok 0) else store.messageCount s.inner φ chatId
    match base with
    | .error e => ({ s with inner }, .error e)
    | .ok base => ({ s with inner }, .ok (min (base + write.appended.length) maxSessionEntries))

end BufferedSessionStore

/-- Calls of the store and the parts of a flush. -/
inductive SessionAction (Φ : Type) where
  | appendBatch (chatId : String) (messages : List SessionMessage)
  | clear (chatId : String)
  | loadRecent (φ : Φ) (chatId : String) (n : Nat)
  | messageCount (φ : Φ) (chatId : String)
  | takeAll
  | applyWrite (clearing appending : Φ) (chatId : String)
  | restoreMissing

/-- Writes may be staged while a flush runs. -/
@[grind =] def BufferedSessionStore.step (s : BufferedSessionStore σ) :
    SessionAction Φ → Option (BufferedSessionStore σ)
  | .appendBatch chatId messages => some { s with pending := s.pending.stageAppend chatId messages }
  | .clear chatId => some { s with pending := s.pending.stageClear chatId }
  | .loadRecent φ chatId n => some (s.loadRecent store φ chatId n).1
  | .messageCount φ chatId => some (s.messageCount store φ chatId).1
  | .takeAll =>
    match s.flush with
    | none => some { s with pending := ∅, flush := some ⟨s.pending, []⟩ }
    | some _ => none
  | .applyWrite clearing appending chatId =>
    match s.flush with
    | none => none
    | some flush =>
      match flush.remaining.lookup chatId with
      | none => none
      | some write =>
        let remaining := flush.remaining.erase chatId
        match applySessionWrite store s.inner clearing appending chatId write with
        | (inner, .ok ()) => some { s with inner, flush := some ⟨remaining, flush.failed⟩ }
        | (inner, .error e) =>
          some { s with
            inner
            flush := some ⟨remaining,
              if shouldRetryWriteBackError e then (chatId, write) :: flush.failed else flush.failed⟩ }
  | .restoreMissing =>
    match s.flush with
    | none => none
    | some flush =>
      if flush.remaining = ∅ then
        some { s with pending := s.pending.restoreMissing flush.failed, flush := none }
      else none

end

/-! The buffered session store loses, repeats and reorders nothing. -/

/-- What a possible write makes of the messages of its chat. -/
def ontoOption (write : Option PendingSessionWrite) (messages : List SessionMessage) :
    List SessionMessage :=
  write.elim messages (·.onto messages)

@[simp] theorem ontoOption_none (messages : List SessionMessage) : ontoOption none messages = messages :=
  rfl

@[simp] theorem ontoOption_some (write : PendingSessionWrite) (messages : List SessionMessage) :
    ontoOption (some write) messages = write.onto messages := rfl

theorem PendingSessionWrite.onto_restore (write : PendingSessionWrite)
    (current : Option PendingSessionWrite) (messages : List SessionMessage) :
    (write.restore current).onto messages = ontoOption current (write.onto messages) := by
  cases current with
  | none => rfl
  | some current =>
    cases hclear : current.clear with
    | true => simp [restore, onto, hclear]
    | false => simp [restore, onto, hclear]

/-- A ring that holds the same before a write holds the same after it. -/
theorem rtake_ontoOption {a b : List SessionMessage}
    (h : a.rtake maxSessionEntries = b.rtake maxSessionEntries) (write : Option PendingSessionWrite) :
    (ontoOption write a).rtake maxSessionEntries = (ontoOption write b).rtake maxSessionEntries := by
  cases write with
  | none => exact h
  | some write =>
    cases hclear : write.clear with
    | true => simp [PendingSessionWrite.onto, hclear]
    | false =>
      simp only [ontoOption_some, PendingSessionWrite.onto, hclear, Bool.false_eq_true, if_false]
      rw [← rtake_rtake_append le_rfl, h, rtake_rtake_append le_rfl]

namespace PendingSessions
variable {pending : PendingSessions} {c chatId : String}

theorem ontoOption_stageAppend (messages base : List SessionMessage) :
    ontoOption ((pending.stageAppend c messages).lookup c) base =
      ontoOption (pending.lookup c) base ++ messages := by
  by_cases hempty : messages = []
  · simp [stageAppend, hempty]
  · simp only [stageAppend, hempty, if_false, Finmap.lookup_insert, ontoOption_some]
    cases pending.lookup c with
    | none => simp [PendingSessionWrite.onto, PendingSessionWrite.default]
    | some write => simp [PendingSessionWrite.onto]

theorem lookup_stageAppend_of_ne (h : chatId ≠ c) (messages : List SessionMessage) :
    (pending.stageAppend c messages).lookup chatId = pending.lookup chatId := by
  unfold stageAppend
  split
  · rfl
  · exact Finmap.lookup_insert_of_ne _ h

/-- Each restored chat gets its failed write under what is staged for it. -/
theorem lookup_restoreMissing {failed : List (String × PendingSessionWrite)}
    (hkeys : (failed.map Prod.fst).Nodup) (pending : PendingSessions) (chatId : String) :
    (pending.restoreMissing failed).lookup chatId =
      match failed.lookup chatId with
      | none => pending.lookup chatId
      | some write => some (write.restore (pending.lookup chatId)) := by
  induction failed generalizing pending with
  | nil => rfl
  | cons entry failed ih =>
    obtain ⟨c, write⟩ := entry
    obtain ⟨hfresh, hkeys⟩ := List.nodup_cons.mp hkeys
    rw [restoreMissing, ih hkeys]
    by_cases hc : chatId = c
    · subst hc
      simp [lookup_eq_none_of_notMem hfresh]
    · rw [lookup_cons_of_ne hc, Finmap.lookup_insert_of_ne _ hc]

end PendingSessions

/-- A buffered store with the log of the calls on it. -/
structure LoggedSessions (σ : Type) where
  buffer : BufferedSessionStore σ
  log : SessionLog

section
variable {σ Φ : Type} (store : SessionStore σ Φ)

def SessionAction.record (log : SessionLog) : SessionAction Φ → SessionLog
  | .appendBatch chatId messages => log.append chatId messages
  | .clear chatId => log.clear chatId
  | _ => log

@[grind =] def LoggedSessions.step (w : LoggedSessions σ) (a : SessionAction Φ) : Option (LoggedSessions σ) :=
  (w.buffer.step store a).map fun buffer => ⟨buffer, a.record w.log⟩

/-- Nothing staged, no flush, and the log of what the wrapped store holds. -/
def LoggedSessions.init (held : σ → SessionLog) (inner : σ) : LoggedSessions σ :=
  ⟨⟨inner, ∅, none⟩, held inner⟩

/-- A flush up to its end, which puts the failed writes back. -/
def flushSessionStore (rounds : List (Φ × Φ × String)) : List (SessionAction Φ) :=
  .takeAll :: rounds.map fun (clearing, appending, chatId) => .applyWrite clearing appending chatId

/-- Reads between flushes show the log, and a flush in which nothing fails leaves
it in the wrapped store. -/
structure Lossless (held : σ → SessionLog) (w : LoggedSessions σ) : Prop where
  loadRecent : w.buffer.flush = none → ∀ (φ : Φ) (chatId : String) (n : Nat),
    (w.buffer.loadRecent store φ chatId n).2 = .ok ((w.log chatId).rtake (min n maxSessionEntries))
  messageCount : w.buffer.flush = none → ∀ (φ : Φ) (chatId : String),
    (w.buffer.messageCount store φ chatId).2 = .ok (min (w.log chatId).length maxSessionEntries)
  flushed : ∀ (rounds : List (Φ × Φ × String)) (t : LoggedSessions σ),
    exec (LoggedSessions.step store) (flushSessionStore rounds) w = some t →
    t.buffer.flush = some ⟨∅, []⟩ → held t.buffer.inner = w.log.retained

end

/-- The write of a chat that a running flush still has in hand. -/
@[grind =] def SessionFlush.inHand (flush : Option SessionFlush) (chatId : String) : Option PendingSessionWrite :=
  flush.bind fun flush => (flush.remaining.lookup chatId).or (flush.failed.lookup chatId)

/-- The staged write over the one in hand over what the wrapped store holds is
the log, up to what a ring drops. -/
structure SessionsCoherent {σ : Type} (held : σ → SessionLog) (w : LoggedSessions σ) : Prop where
  same : ∀ chatId, (ontoOption (w.buffer.pending.lookup chatId)
    (ontoOption (SessionFlush.inHand w.buffer.flush chatId) (held w.buffer.inner chatId))).rtake
      maxSessionEntries = w.log.retained chatId
  keys : ∀ flush, w.buffer.flush = some flush → (flush.failed.map Prod.fst).Nodup ∧
    ∀ chatId, chatId ∈ flush.remaining → chatId ∉ flush.failed.map Prod.fst

section
variable {σ Φ : Type} {store : SessionStore σ Φ} {held : σ → SessionLog} {fails : Error → Prop}
  {write : PendingSessionWrite} {clearing appending : Φ} {c : String} {w : LoggedSessions σ}
  {failed : List (String × PendingSessionWrite)} {w t : LoggedSessions σ}

theorem applySessionWrite_ok (hstore : store.Holds held fails) {s t : σ}
    (h : applySessionWrite store s clearing appending c write = (t, .ok ())) :
    (held t c).rtake maxSessionEntries = (write.onto (held s c)).rtake maxSessionEntries ∧
      ∀ chatId, chatId ≠ c → held t chatId = held s chatId := by
  obtain ⟨clear, appended⟩ := write
  -- the append alone
  have happend (u : σ) (hu : (if appended = [] then (u, .ok ()) else
      store.appendBatch u appending c appended) = (t, .ok ())) :
      (held t c).rtake maxSessionEntries = (held u c ++ appended).rtake maxSessionEntries ∧
        ∀ chatId, chatId ≠ c → held t chatId = held u chatId := by
    split at hu
    · obtain rfl : u = t := by simpa using hu
      simp_all
    · have ht := hstore.append_ok _ _ _ _ _ hu
      refine ⟨?_, fun chatId hc => by simp [ht, hc]⟩
      simp [ht, SessionLog.retained, rtake_rtake]
  cases clear with
  | false =>
    obtain ⟨hc, hother⟩ := happend s (by simpa [applySessionWrite] using h)
    exact ⟨by simpa [PendingSessionWrite.onto] using hc, hother⟩
  | true =>
    simp only [applySessionWrite, if_true] at h
    split at h
    · cases h
    · rename_i u hu
      have hclear := hstore.clear_ok _ _ _ _ hu
      obtain ⟨hc, hother⟩ := happend u h
      refine ⟨by simpa [PendingSessionWrite.onto, hclear] using hc, fun chatId hne => ?_⟩
      rw [hother chatId hne, hclear, SessionLog.clear_of_ne hne]

/-- A failed write may have cleared, which it does again when it is tried again. -/
theorem applySessionWrite_error (hstore : store.Holds held fails) {s t : σ} {e : Error}
    (h : applySessionWrite store s clearing appending c write = (t, .error e)) :
    fails e ∧ write.onto (held t c) = write.onto (held s c) ∧
      ∀ chatId, chatId ≠ c → held t chatId = held s chatId := by
  obtain ⟨clear, appended⟩ := write
  have happend (u : σ) (hu : (if appended = [] then (u, .ok ()) else
      store.appendBatch u appending c appended) = (t, .error e)) : held t = held u ∧ fails e := by
    split at hu
    · simp at hu
    · exact hstore.append_error _ _ _ _ _ _ hu
  cases clear with
  | false =>
    obtain ⟨ht, he⟩ := happend s (by simpa [applySessionWrite] using h)
    exact ⟨he, by rw [ht], fun _ _ => by rw [ht]⟩
  | true =>
    simp only [applySessionWrite, if_true] at h
    split at h
    · rename_i u e' hu
      obtain ⟨rfl, rfl⟩ : u = t ∧ e' = e := by simpa using h
      obtain ⟨ht, he⟩ := hstore.clear_error _ _ _ _ _ hu
      exact ⟨he, by rw [ht], fun _ _ => by rw [ht]⟩
    · rename_i u hu
      have hclear := hstore.clear_ok _ _ _ _ hu
      obtain ⟨ht, he⟩ := happend u h
      refine ⟨he, by simp [PendingSessionWrite.onto], fun chatId hne => ?_⟩
      rw [ht, hclear, SessionLog.clear_of_ne hne]

/-- Only the wrapped store changes, and holds the same after. -/
theorem SessionsCoherent.of_held_eq (hw : SessionsCoherent held w) {inner : σ} (h : held inner = held w.buffer.inner) :
    SessionsCoherent held { w with buffer := { w.buffer with inner } } where
  same chatId := by
    rw [← hw.same chatId, h]
  keys := hw.keys

theorem loadRecent_state (hstore : store.Holds held fails) (s : BufferedSessionStore σ) (φ : Φ)
    (chatId : String) (n : Nat) : ∃ inner, (s.loadRecent store φ chatId n).1 = { s with inner } ∧
      held inner = held s.inner := by
  unfold BufferedSessionStore.loadRecent
  split
  · exact ⟨_, rfl, (hstore.loadRecent s.inner φ chatId n).2⟩
  · rename_i write _
    cases hclear : write.clear with
    | true => exact ⟨s.inner, by simp, rfl⟩
    | false =>
      obtain ⟨hbase, hheld⟩ := hstore.loadRecent s.inner φ chatId (min n maxSessionEntries)
      exact ⟨_, by simp [hbase], hheld⟩

theorem messageCount_state (hstore : store.Holds held fails) (s : BufferedSessionStore σ) (φ : Φ)
    (chatId : String) : ∃ inner, (s.messageCount store φ chatId).1 = { s with inner } ∧
      held inner = held s.inner := by
  unfold BufferedSessionStore.messageCount
  split
  · exact ⟨_, rfl, (hstore.messageCount s.inner φ chatId).2⟩
  · rename_i write _
    cases hclear : write.clear with
    | true => exact ⟨s.inner, by simp, rfl⟩
    | false =>
      obtain ⟨hbase, hheld⟩ := hstore.messageCount s.inner φ chatId
      exact ⟨_, by simp [hbase], hheld⟩

section
variable (hw : SessionsCoherent held w)
include hw

theorem SessionsCoherent.stageAppend (c : String) (messages : List SessionMessage) :
    SessionsCoherent held ⟨{ w.buffer with pending := w.buffer.pending.stageAppend c messages },
      w.log.append c messages⟩ where
  same chatId := by
    have hsame := hw.same chatId
    by_cases hc : chatId = c
    · subst hc
      simp only [PendingSessions.ontoOption_stageAppend, SessionLog.retained, SessionLog.append_self]
      rw [← rtake_rtake_append le_rfl, hsame, SessionLog.retained, rtake_rtake_append le_rfl]
    · simpa [PendingSessions.lookup_stageAppend_of_ne hc, SessionLog.retained, hc] using hsame
  keys := hw.keys

theorem SessionsCoherent.stageClear (c : String) :
    SessionsCoherent held ⟨{ w.buffer with pending := w.buffer.pending.stageClear c }, w.log.clear c⟩ where
  same chatId := by
    have hsame := hw.same chatId
    by_cases hc : chatId = c
    · subst hc
      simp [PendingSessions.stageClear, PendingSessionWrite.onto, SessionLog.retained]
    · simpa [PendingSessions.stageClear, Finmap.lookup_insert_of_ne _ hc, SessionLog.retained, hc] using hsame
  keys := hw.keys

theorem SessionsCoherent.takeAll (hnone : w.buffer.flush = none) :
    SessionsCoherent held
      ⟨{ w.buffer with pending := ∅, flush := some ⟨w.buffer.pending, []⟩ }, w.log⟩ where
  same chatId := by
    have hsame := hw.same chatId
    simpa [SessionFlush.inHand, hnone] using hsame
  keys := by simp

/-- One chat leaves the loop, with its write applied or kept for the end. -/
theorem SessionsCoherent.leave {flush : SessionFlush} (hflush : w.buffer.flush = some flush)
    (hwrite : flush.remaining.lookup c = some write) {inner : σ} (hfailed : failed.Sublist ((c, write) :: flush.failed))
    (hother : ∀ chatId, chatId ≠ c → held inner chatId = held w.buffer.inner chatId ∧
      failed.lookup chatId = flush.failed.lookup chatId)
    (hself : (ontoOption (failed.lookup c) (held inner c)).rtake maxSessionEntries =
      (write.onto (held w.buffer.inner c)).rtake maxSessionEntries) :
    SessionsCoherent held
      ⟨{ w.buffer with inner, flush := some ⟨flush.remaining.erase c, failed⟩ }, w.log⟩ where
  same chatId := by
    have hsame := hw.same chatId
    by_cases hc : chatId = c
    · subst hc
      simp only [SessionFlush.inHand, hflush, Option.bind_some, hwrite, Option.some_or,
        ontoOption_some] at hsame
      simpa [SessionFlush.inHand] using (rtake_ontoOption hself _).trans hsame
    · obtain ⟨hheld, hlookup⟩ := hother chatId hc
      simpa [SessionFlush.inHand, hflush, Finmap.lookup_erase_ne hc, hheld, hlookup] using hsame
  keys := by
    rintro _ ⟨⟩
    obtain ⟨hnodup, hapart⟩ := hw.keys flush hflush
    have hmem : c ∈ flush.remaining := Finmap.mem_of_lookup_eq_some hwrite
    have hsub := hfailed.map Prod.fst
    refine ⟨hsub.nodup (List.nodup_cons.mpr ⟨hapart c hmem, hnodup⟩), fun chatId hin hkey => ?_⟩
    obtain ⟨hne, hin⟩ := Finmap.mem_erase.mp hin
    rcases List.mem_cons.mp (hsub.subset hkey) with h | h
    · exact hne h
    · exact hapart chatId hin h

theorem SessionsCoherent.restoreMissing (hflush : w.buffer.flush = some ⟨∅, failed⟩) :
    SessionsCoherent held
      ⟨{ w.buffer with pending := w.buffer.pending.restoreMissing failed, flush := none }, w.log⟩ where
  same chatId := by
    have hsame := hw.same chatId
    obtain ⟨hnodup, -⟩ := hw.keys _ hflush
    have hlookup := PendingSessions.lookup_restoreMissing hnodup w.buffer.pending chatId
    simp only [SessionFlush.inHand, hflush, Option.bind_some, Finmap.lookup_empty, Option.none_or] at hsame
    simp only [SessionFlush.inHand, Option.bind_none, ontoOption_none, hlookup]
    cases hfailed : failed.lookup chatId with
    | none => simpa [hfailed] using hsame
    | some write =>
      simp only [ontoOption_some, PendingSessionWrite.onto_restore]
      simpa [hfailed] using hsame
  keys := by simp

end

variable (hstore : store.Holds held fun e => shouldRetryWriteBackError e = true)
include hstore

section
variable (hw : SessionsCoherent held w)
include hw

theorem SessionsCoherent.applyWrite (h : w.step store (.applyWrite clearing appending c) = some t) :
    SessionsCoherent held t := by
  obtain ⟨buffer, hbuffer, rfl⟩ := Option.map_eq_some_iff.mp h
  simp only [BufferedSessionStore.step] at hbuffer
  split at hbuffer
  · cases hbuffer
  · rename_i flush hflush
    split at hbuffer
    · cases hbuffer
    · rename_i write hwrite
      have hmem : c ∈ flush.remaining := Finmap.mem_of_lookup_eq_some hwrite
      have hfresh := lookup_eq_none_of_notMem ((hw.keys flush hflush).2 c hmem)
      split at hbuffer
      · rename_i inner happly
        cases hbuffer
        obtain ⟨hself, hother⟩ := applySessionWrite_ok hstore happly
        exact hw.leave hflush hwrite (List.sublist_cons_self _ _)
          (fun chatId hne => ⟨hother chatId hne, rfl⟩) (by simpa [hfresh] using hself)
      · rename_i inner e happly
        obtain ⟨hretry, hself, hother⟩ := applySessionWrite_error hstore happly
        rw [if_pos hretry] at hbuffer
        cases hbuffer
        refine hw.leave hflush hwrite (List.Sublist.refl _) 
          (fun chatId hne => ⟨hother chatId hne, lookup_cons_of_ne hne _ _⟩) ?_
        simp [hself]

theorem SessionsCoherent.step {a : SessionAction Φ} (h : w.step store a = some t) : SessionsCoherent held t := by
  have h' := h
  obtain ⟨buffer, hbuffer, rfl⟩ := Option.map_eq_some_iff.mp h
  cases a with
  | appendBatch c messages =>
    cases hbuffer
    exact hw.stageAppend c messages
  | clear c =>
    cases hbuffer
    exact hw.stageClear c
  | loadRecent φ c n =>
    cases hbuffer
    obtain ⟨inner, hstate, hheld⟩ := loadRecent_state hstore w.buffer φ c n
    rw [hstate]
    exact hw.of_held_eq hheld
  | messageCount φ c =>
    cases hbuffer
    obtain ⟨inner, hstate, hheld⟩ := messageCount_state hstore w.buffer φ c
    rw [hstate]
    exact hw.of_held_eq hheld
  | takeAll =>
    simp only [BufferedSessionStore.step] at hbuffer
    split at hbuffer
    · cases hbuffer
      exact hw.takeAll ‹_›
    · cases hbuffer
  | applyWrite clearing appending c => exact hw.applyWrite hstore h'
  | restoreMissing =>
    simp only [BufferedSessionStore.step] at hbuffer
    split at hbuffer
    · cases hbuffer
    · rename_i flush hflush
      split at hbuffer
      · rename_i hremaining
        cases hbuffer
        obtain ⟨remaining, failed⟩ := flush
        subst hremaining
        exact hw.restoreMissing hflush
      · cases hbuffer

theorem SessionsCoherent.loadRecent (hnone : w.buffer.flush = none) (φ : Φ) (chatId : String) (n : Nat) :
    (w.buffer.loadRecent store φ chatId n).2 = .ok ((w.log chatId).rtake (min n maxSessionEntries)) := by
  have hcut (k : Nat) (hk : k ≤ maxSessionEntries) : (ontoOption (w.buffer.pending.lookup chatId)
      (held w.buffer.inner chatId)).rtake k = (w.log chatId).rtake k := by
    have hsame := congrArg (·.rtake k) (hw.same chatId)
    simpa [SessionFlush.inHand, hnone, SessionLog.retained, rtake_rtake, Nat.min_eq_left hk] using hsame
  have hcap := min_le_right n maxSessionEntries
  unfold BufferedSessionStore.loadRecent
  split
  · rename_i hpending
    have hfull := hcut maxSessionEntries le_rfl
    rw [hpending, ontoOption_none, rtake_of_length_le (hstore.bounded _ _)] at hfull
    rw [(hstore.loadRecent _ _ _ _).1, hfull, rtake_rtake]
  · rename_i write hpending
    have hwrite := hcut _ hcap
    rw [hpending, ontoOption_some] at hwrite
    cases hclear : write.clear with
    | true =>
      simp only [if_true, rtake_rtake, Nat.min_eq_left hcap, List.nil_append]
      simpa [PendingSessionWrite.onto, hclear] using hwrite
    | false =>
      obtain ⟨hbase, -⟩ := hstore.loadRecent w.buffer.inner φ chatId (min n maxSessionEntries)
      simp only [Bool.false_eq_true, if_false, hbase, rtake_rtake, Nat.min_eq_left hcap]
      rw [rtake_rtake_append le_rfl]
      simpa [PendingSessionWrite.onto, hclear] using hwrite

theorem SessionsCoherent.messageCount (hnone : w.buffer.flush = none) (φ : Φ) (chatId : String) :
    (w.buffer.messageCount store φ chatId).2 = .ok (min (w.log chatId).length maxSessionEntries) := by
  have hlength : min maxSessionEntries (ontoOption (w.buffer.pending.lookup chatId)
      (held w.buffer.inner chatId)).length = min maxSessionEntries (w.log chatId).length := by
    have hsame := congrArg List.length (hw.same chatId)
    simpa [SessionFlush.inHand, hnone, SessionLog.retained] using hsame
  have hbound := hstore.bounded w.buffer.inner chatId
  obtain ⟨hbase, -⟩ := hstore.messageCount w.buffer.inner φ chatId
  unfold BufferedSessionStore.messageCount
  split
  · rename_i hpending
    rw [hpending, ontoOption_none] at hlength
    rw [hbase, Nat.min_comm (w.log chatId).length, ← hlength, Nat.min_eq_right hbound]
  · rename_i write hpending
    rw [hpending, ontoOption_some] at hlength
    rw [Nat.min_comm (w.log chatId).length, ← hlength, Nat.min_comm maxSessionEntries]
    cases hclear : write.clear with
    | true => simp [PendingSessionWrite.onto, hclear]
    | false => simp [PendingSessionWrite.onto, hclear, hbase]

end

omit hstore in
/-- The rounds of a flush stage nothing. -/
theorem exec_rounds {rounds : List (Φ × Φ × String)}
    (h : exec (LoggedSessions.step store) (rounds.map fun (clearing, appending, chatId) =>
      SessionAction.applyWrite clearing appending chatId) w = some t) :
    t.buffer.pending = w.buffer.pending ∧ t.log = w.log := by
  induction rounds generalizing w with
  | nil =>
    cases h
    exact ⟨rfl, rfl⟩
  | cons round rounds ih =>
    obtain ⟨clearing, appending, c⟩ := round
    obtain ⟨u, hu, hrest⟩ := Option.bind_eq_some_iff.mp h
    obtain ⟨hpending, hlog⟩ := ih hrest
    obtain ⟨buffer, hbuffer, rfl⟩ := Option.map_eq_some_iff.mp hu
    have hkeep : buffer.pending = w.buffer.pending := by
      simp only [BufferedSessionStore.step] at hbuffer
      split at hbuffer
      · cases hbuffer
      · split at hbuffer
        · cases hbuffer
        · split at hbuffer
          · cases hbuffer
            rfl
          · cases hbuffer
            rfl
    exact ⟨hpending.trans hkeep, hlog⟩

theorem SessionsCoherent.flushed (hw : SessionsCoherent held w) (rounds : List (Φ × Φ × String))
    (h : exec (LoggedSessions.step store) (flushSessionStore rounds) w = some t)
    (hclean : t.buffer.flush = some ⟨∅, []⟩) : held t.buffer.inner = w.log.retained := by
  have ht : SessionsCoherent held t :=
    (always_of_invariant (fun _ _ _ hs hstep => hs.step hstore hstep) _ w hw).last h
  obtain ⟨u, hu, hrest⟩ := Option.bind_eq_some_iff.mp h
  obtain ⟨hpending, hlog⟩ := exec_rounds hrest
  obtain ⟨buffer, hbuffer, rfl⟩ := Option.map_eq_some_iff.mp hu
  have hempty : buffer.pending = ∅ := by
    simp only [BufferedSessionStore.step] at hbuffer
    split at hbuffer
    · cases hbuffer
      rfl
    · cases hbuffer
  funext chatId
  have hsame := ht.same chatId
  simp only [hpending, hempty, hlog, hclean, SessionFlush.inHand, Option.bind_some, Finmap.lookup_empty,
    List.lookup_nil, Option.or_none, ontoOption_none] at hsame
  rwa [rtake_of_length_le (hstore.bounded _ _)] at hsame

end
end Beetle.Runtime.WriteBack
