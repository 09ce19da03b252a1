import Beetle.Platform.TurnLedgerStore
import Beetle.Runtime.WriteBack.MapBuffer

/-! The write-back buffer in front of the turn ledger store. -/
namespace Beetle.Runtime.WriteBack
open Beetle.Lib Beetle.Memory Beetle.Platform.Storage
variable {D : Type}

/-- A running `flush_map`: what it has drained and not applied yet, and what it is
to put back. -/
structure LedgerFlush (D : Type) where
  remaining : PendingMap (TurnLedger D)
  failed : PendingMap (TurnLedger D)

structure BufferedTurnLedgerStore (D : Type) where
  inner : LedgerFiles D
  pending : PendingMap (TurnLedger D)
  flush : Option (LedgerFlush D)

/-- Calls of `set` and `clear`, and the parts of a flush. -/
inductive LedgerAction (D : Type) where
  | write (chatId : String) (value : PendingValue (TurnLedger D))
  | takeAll
  | applyPending (chatId : String)
  | restoreMissing

namespace BufferedTurnLedgerStore

def applyPending (cfg : LedgerConfig) (inner : LedgerFiles D) (chatId : String) :
    PendingValue (TurnLedger D) → LedgerFiles D × Except Error Unit
  | .set ledger => StorageTurnLedgerStore.set cfg inner chatId ledger
  | .clear => StorageTurnLedgerStore.clear cfg inner chatId

def listRecent (cfg : LedgerConfig) (s : BufferedTurnLedgerStore D) (chatId : String) (limit : Nat) :
    Except Error (List (TurnLedger D)) :=
  if limit = 0 then .ok []
  else
    match StorageTurnLedgerStore.listRecent cfg s.inner chatId limit with
    | .error e => .error e
    | .ok recent =>
      match s.pending.lookup chatId with
      | some .clear => .ok []
      | some (.set ledger) =>
        if ledger.status.isTerminal then
          .ok ((ledger :: recent.filter fun existing => !ledger.replaces existing).take limit)
        else .ok (recent.take limit)
      | none => .ok (recent.take limit)

def recentPersonaEvidence (cfg : LedgerConfig) (s : BufferedTurnLedgerStore D) (chatId : String) :
    Except Error (Option RecentPersonaEvidence) :=
  match s.pending.lookup chatId with
  | some .clear => .ok none
  | some (.set ledger) =>
    if ledger.status.isTerminal then
      .ok (deriveRecentPersonaEvidence [ledger] recentPersonaEvidenceMeaningfulTurns)
    else StorageTurnLedgerStore.recentPersonaEvidence cfg s.inner chatId
  | none => StorageTurnLedgerStore.recentPersonaEvidence cfg s.inner chatId

/-- Writes may be staged while a flush runs. -/
def step [DecidableEq D] (cfg : LedgerConfig) (s : BufferedTurnLedgerStore D) :
    LedgerAction D → Option (BufferedTurnLedgerStore D)
  | .write chatId value => some { s with pending := s.pending.insert chatId value }
  | .takeAll =>
    match s.flush with
    | none => some { s with pending := ∅, flush := some ⟨s.pending, ∅⟩ }
    | some _ => none
  | .applyPending chatId =>
    match s.flush with
    | none => none
    | some flush =>
      match flush.remaining.lookup chatId with
      | none => none
      | some value =>
        let remaining := flush.remaining.erase chatId
        match applyPending cfg s.inner chatId value with
        | (inner, .ok ()) => some { s with inner, flush := some ⟨remaining, flush.failed⟩ }
        | (inner, .error e) =>
          some { s with
            inner
            flush := some ⟨remaining,
              if shouldRetryWriteBackError e then flush.failed.insert chatId value else flush.failed⟩ }
  | .restoreMissing =>
    match s.flush with
    | none => none
    | some flush =>
      if flush.remaining = ∅ then some { s with pending := s.pending ∪ flush.failed, flush := none } else none

end BufferedTurnLedgerStore

/-! What one write makes of a chat, and what a window of writes does. -/

def applyCall (turns : ChatTurns D) : PendingValue (TurnLedger D) → ChatTurns D
  | .set ledger => turns.set ledger
  | .clear => .cleared

theorem bounded_applyCall {turns : ChatTurns D} (h : turns.Bounded) (value : PendingValue (TurnLedger D)) :
    (applyCall turns value).Bounded := by
  cases value with
  | set ledger => exact h.set ledger
  | clear => exact ChatTurns.bounded_cleared

/-- The ledgers set after the last clear. -/
def setsSinceClear (calls : List (PendingValue (TurnLedger D))) : List (TurnLedger D) :=
  calls.foldl (fun sets value =>
    match value with
    | .set ledger => sets ++ [ledger]
    | .clear => []) []

@[simp] theorem setsSinceClear_nil : setsSinceClear ([] : List (PendingValue (TurnLedger D))) = [] := rfl

@[simp] theorem setsSinceClear_set (calls : List (PendingValue (TurnLedger D))) (ledger : TurnLedger D) :
    setsSinceClear (calls ++ [.set ledger]) = setsSinceClear calls ++ [ledger] := by
  simp [setsSinceClear]

@[simp] theorem setsSinceClear_clear (calls : List (PendingValue (TurnLedger D))) :
    setsSinceClear (calls ++ [.clear]) = [] := by
  simp [setsSinceClear]

theorem foldl_applyCall [DecidableEq D] (turns : ChatTurns D) (calls : List (PendingValue (TurnLedger D))) :
    calls.foldl applyCall turns = (setsSinceClear calls).foldl ChatTurns.set
      (if .clear ∈ calls then .cleared else turns) := by
  induction calls using List.reverseRecOn with
  | nil => rfl
  | append_singleton calls value ih =>
    cases value with
    | set ledger => simp [List.foldl_append, ih, applyCall]
    | clear => simp [List.foldl_append, applyCall]

/-- The last write of a window stands for the whole of it: a clear before it has
nothing to remove, and of the ledgers after the last clear each terminal one is
the last or is superseded by the last. -/
structure Coalesces (history : Except Error (List (TurnLedger D))) (calls : List (PendingValue (TurnLedger D))) :
    Prop where
  cleared : .clear ∈ calls → setsSinceClear calls ≠ [] → history = .ok []
  superseded : ∀ ledger ∈ (setsSinceClear calls).dropLast, ledger.status.isTerminal = true →
    ∃ last, (setsSinceClear calls).getLast? = some last ∧ last.Supersedes ledger

theorem Coalesces.foldl_eq [DecidableEq D] {turns : ChatTurns D} {calls : List (PendingValue (TurnLedger D))}
    (h : Coalesces turns.history calls) (hturns : turns.Bounded) {value : PendingValue (TurnLedger D)}
    (hlast : calls.getLast? = some value) : calls.foldl applyCall turns = applyCall turns value := by
  obtain ⟨front, rfl⟩ := List.getLast?_eq_some_iff.mp hlast
  cases value with
  | clear => simp [foldl_applyCall, applyCall]
  | set ledger =>
    have hsup : ∀ earlier ∈ setsSinceClear front, earlier.status.isTerminal = true → ledger.Supersedes earlier := by
      intro earlier hmem hterminal
      obtain ⟨last, hlast, hsup⟩ := h.superseded earlier (by simpa using hmem) hterminal
      obtain rfl : ledger = last := by simpa using hlast
      exact hsup
    rw [foldl_applyCall, setsSinceClear_set]
    split
    · rename_i hclear
      have hempty := h.cleared hclear (by simp)
      rw [ChatTurns.foldl_set ChatTurns.bounded_cleared hsup]
      simp [applyCall, ChatTurns.set, ChatTurns.cleared, hempty]
    · exact ChatTurns.foldl_set hturns hsup

end Beetle.Runtime.WriteBack

/-! The history that reaches the disk through the buffer, and the one that the
same calls make of the store itself. -/
namespace Beetle.Runtime.WriteBack
open Beetle.Lib Beetle.Memory Beetle.Platform.Storage
variable {D : Type} [DecidableEq D]

/-- A buffered store next to an unbuffered one that gets the same calls; the calls
on each chat, and those since the last `take_all`. -/
structure MirroredLedgers (D : Type) where
  buffer : BufferedTurnLedgerStore D
  direct : LedgerFiles D
  calls : String → List (PendingValue (TurnLedger D))
  window : String → List (PendingValue (TurnLedger D))

def MirroredLedgers.init (files : LedgerFiles D) : MirroredLedgers D :=
  ⟨⟨files, ∅, none⟩, files, fun _ => [], fun _ => []⟩

def noteCall (calls : String → List (PendingValue (TurnLedger D))) (chatId : String)
    (value : PendingValue (TurnLedger D)) : String → List (PendingValue (TurnLedger D)) :=
  Function.update calls chatId (calls chatId ++ [value])

@[grind =] def MirroredLedgers.note (cfg : LedgerConfig) (w : MirroredLedgers D) : LedgerAction D → MirroredLedgers D
  | .write chatId value =>
    { w with
      direct := (BufferedTurnLedgerStore.applyPending cfg w.direct chatId value).1
      calls := noteCall w.calls chatId value
      window := noteCall w.window chatId value }
  | .takeAll => { w with window := fun _ => [] }
  | _ => w

def MirroredLedgers.step (cfg : LedgerConfig) (w : MirroredLedgers D) (a : LedgerAction D) :
    Option (MirroredLedgers D) :=
  (w.buffer.step cfg a).map fun buffer => { w.note cfg a with buffer }

/-- A flush finds of each chat a window for which the last write stands. -/
def WindowsCoalesce (cfg : LedgerConfig) (w : MirroredLedgers D) : LedgerAction D → Prop
  | .takeAll => ∀ chatId path, historyPath cfg chatId = .ok path →
      Coalesces (loadHistoryFromPath w.buffer.inner path) (w.window chatId)
  | _ => True

def LedgerAction.On (chats : List String) : LedgerAction D → Prop
  | .write chatId _ => chatId ∈ chats
  | _ => True

/-- Every terminal ledger of the list is in the history, unless a later terminal
one took its place; a full history may have dropped it. -/
def RecordsTurns (items sets : List (TurnLedger D)) : Prop :=
  items.length < turnLedgerHistoryMaxItems → ∀ front ledger back, sets = front ++ ledger :: back →
    ledger.status.isTerminal = true →
    (∀ later ∈ back, later.status.isTerminal = true → later.replaces ledger = false) → ledger ∈ items

/-- Where nothing is staged or under way for a chat, its history on disk is the
one of the unbuffered store, with the terminal ledgers set since the last clear. -/
structure HistoryKept (cfg : LedgerConfig) (chatId : String) (w : MirroredLedgers D) : Prop where
  same : ∀ limit, StorageTurnLedgerStore.listRecent cfg w.buffer.inner chatId limit =
    StorageTurnLedgerStore.listRecent cfg w.direct chatId limit
  recorded : ∀ turns, StorageTurnLedgerStore.listRecent cfg w.buffer.inner chatId turnLedgerHistoryMaxItems =
    .ok turns → RecordsTurns turns (setsSinceClear (w.calls chatId))

@[grind =]
def LedgerFlush.inHand (flush : Option (LedgerFlush D)) (chatId : String) : Option (PendingValue (TurnLedger D)) :=
  flush.bind fun flush => flush.remaining.lookup chatId

def applyOption (turns : ChatTurns D) (value : Option (PendingValue (TurnLedger D))) : ChatTurns D :=
  value.elim turns (applyCall turns)

/-- The histories in the files are within their bound. -/
def BoundedHistories (files : LedgerFiles D) : Prop :=
  ∀ path items, loadHistoryFromPath files path = .ok items → items.length ≤ turnLedgerHistoryMaxItems

/-- What a run keeps about one chat with these paths. -/
structure Mirrors (w : MirroredLedgers D) (chatId ledger history : String) : Prop where
  pending : w.buffer.pending.lookup chatId = (w.window chatId).getLast?
  direct : w.direct.turns ledger history = (w.window chatId).foldl applyCall
    (applyOption (w.buffer.inner.turns ledger history) (LedgerFlush.inHand w.buffer.flush chatId))
  bounded : (w.buffer.inner.turns ledger history).Bounded
  recorded : ∀ items, (w.direct.turns ledger history).history = .ok items →
    RecordsTurns items (setsSinceClear (w.calls chatId))

structure MirrorCoherent (cfg : LedgerConfig) (chats : List String) (w : MirroredLedgers D) : Prop where
  mirrors : ∀ c ∈ chats, ∀ ledger history evidence, ChatPaths cfg c ledger history evidence →
    Mirrors w c ledger history
  pending : ∀ c ∈ w.buffer.pending, c ∈ chats
  flush : ∀ flush, w.buffer.flush = some flush → flush.failed = ∅ ∧ ∀ c ∈ flush.remaining, c ∈ chats

/-- No two of the chats have files of one name. -/
def OwnLedgerFiles (chats : List String) : Prop :=
  ∀ c ∈ chats, ∀ d ∈ chats, ledgerFilename c = ledgerFilename d → c = d

section
omit [DecidableEq D]

variable {items sets : List (TurnLedger D)} {ledger : TurnLedger D} {files : LedgerFiles D}

theorem RecordsTurns.set (h : RecordsTurns items sets)
    (hledger : ledger.status.isTerminal = true) : RecordsTurns (recordTurn items ledger) (sets ++ [ledger]) := by
  intro hshort front earlier back hsets hterminal hkept
  rcases List.eq_nil_or_concat back with rfl | ⟨back, last, rfl⟩
  · obtain ⟨rfl, rfl⟩ : sets = front ∧ ledger = earlier := by simpa using hsets
    exact mem_recordTurn_self hshort
  · obtain ⟨rfl, rfl⟩ : sets = front ++ earlier :: back ∧ ledger = last := by
      have hsets' : sets ++ [ledger] = (front ++ earlier :: back) ++ [last] := by simpa using hsets
      exact ⟨List.append_inj_left' hsets' rfl, by simpa using List.append_inj_right' hsets' rfl⟩
    have hmem := h (recordTurn_eq_of_length_lt hshort).1 front earlier back rfl hterminal
      fun later hlater => hkept later (by simp [hlater])
    exact mem_recordTurn_of_mem hshort hmem (hkept ledger (by simp) hledger)

theorem RecordsTurns.skip (h : RecordsTurns items sets)
    (hledger : ledger.status.isTerminal = false) : RecordsTurns items (sets ++ [ledger]) := by
  intro hshort front earlier back hsets hterminal hkept
  rcases List.eq_nil_or_concat back with rfl | ⟨back, last, rfl⟩
  · obtain ⟨rfl, rfl⟩ : sets = front ∧ ledger = earlier := by simpa using hsets
    rw [hledger] at hterminal
    cases hterminal
  · obtain ⟨rfl, rfl⟩ : sets = front ++ earlier :: back ∧ ledger = last := by
      have hsets' : sets ++ [ledger] = (front ++ earlier :: back) ++ [last] := by simpa using hsets
      exact ⟨List.append_inj_left' hsets' rfl, by simpa using List.append_inj_right' hsets' rfl⟩
    exact h hshort front earlier back rfl hterminal fun later hlater => hkept later (by simp [hlater])

theorem recordsTurns_nil (items : List (TurnLedger D)) : RecordsTurns items [] := by
  intro _ front ledger back hsets
  simp at hsets

/-- A write to a chat takes the record along. -/
theorem recordsTurns_applyCall {turns : ChatTurns D} {calls : List (PendingValue (TurnLedger D))}
    (h : ∀ items, turns.history = .ok items → RecordsTurns items (setsSinceClear calls))
    (value : PendingValue (TurnLedger D)) (items : List (TurnLedger D))
    (hitems : (applyCall turns value).history = .ok items) :
    RecordsTurns items (setsSinceClear (calls ++ [value])) := by
  cases value with
  | clear =>
    rw [setsSinceClear_clear]
    exact recordsTurns_nil items
  | set ledger =>
    rw [setsSinceClear_set]
    simp only [applyCall, ChatTurns.set] at hitems
    cases hterminal : ledger.status.isTerminal with
    | true =>
      cases hhistory : turns.history with
      | error e => simp [hterminal, hhistory, Except.map] at hitems
      | ok old =>
        obtain rfl : recordTurn old ledger = items := by simpa [hterminal, hhistory, Except.map] using hitems
        exact (h old hhistory).set hterminal
    | false =>
      rw [hterminal] at hitems
      exact (h items hitems).skip hterminal

variable {cfg : LedgerConfig} {chatId other ledger history evidence : String} {value : PendingValue (TurnLedger D)}
  {flush : LedgerFlush D}

section
variable (h : ChatPaths cfg chatId ledger history evidence)
include h

theorem turns_applyPending (files : LedgerFiles D) (value : PendingValue (TurnLedger D)) :
    (BufferedTurnLedgerStore.applyPending cfg files chatId value).1.turns ledger history =
      applyCall (files.turns ledger history) value := by
  cases value with
  | set ledger => exact StorageTurnLedgerStore.turns_set h files ledger
  | clear => exact StorageTurnLedgerStore.turns_clear h files

theorem sameAt_applyPending (hother : ledgerFilename other ≠ ledgerFilename chatId) (files : LedgerFiles D)
    (value : PendingValue (TurnLedger D)) :
    files.SameAt (BufferedTurnLedgerStore.applyPending cfg files other value).1 ledger history evidence := by
  cases value with
  | set ledger => exact StorageTurnLedgerStore.sameAt_set h hother files ledger
  | clear => exact StorageTurnLedgerStore.sameAt_clear h hother files

end

/-- What a write fails with is never tried again. -/
theorem applyPending_error {e : Error}
    (h : (BufferedTurnLedgerStore.applyPending cfg files chatId value).2 = .error e) :
    shouldRetryWriteBackError e = false := by
  have hconfig : ∃ message stage, e = .config message stage := by
    cases value with
    | set ledger => exact StorageTurnLedgerStore.set_error h
    | clear => exact StorageTurnLedgerStore.clear_error h
  obtain ⟨message, stage, rfl⟩ := hconfig
  rfl

/-! What each action keeps. -/

variable {w : MirroredLedgers D} {chats : List String}

section
variable (hw : Mirrors w chatId ledger history)
include hw

theorem Mirrors.write_own (h : ChatPaths cfg chatId ledger history evidence) (value : PendingValue (TurnLedger D)) :
    Mirrors { w.note cfg (.write chatId value) with
      buffer := { w.buffer with pending := w.buffer.pending.insert chatId value } } chatId ledger history := by
  have hturns := turns_applyPending h w.direct value
  refine ⟨?_, ?_, hw.bounded, ?_⟩
  · simp [MirroredLedgers.note, noteCall]
  · simp only [MirroredLedgers.note, noteCall, Function.update_self, List.foldl_append, List.foldl_cons,
      List.foldl_nil, hturns, hw.direct]
  · intro items hitems
    simp only [MirroredLedgers.note, hturns] at hitems
    simp only [MirroredLedgers.note, noteCall, Function.update_self]
    exact recordsTurns_applyCall hw.recorded value items hitems

theorem Mirrors.write_other {other : String}
    (h : ChatPaths cfg chatId ledger history evidence) (hother : ledgerFilename other ≠ ledgerFilename chatId)
    (value : PendingValue (TurnLedger D)) :
    Mirrors { w.note cfg (.write other value) with
      buffer := { w.buffer with pending := w.buffer.pending.insert other value } } chatId ledger history := by
  have hne : chatId ≠ other := by
    rintro rfl
    exact hother rfl
  have hturns := (sameAt_applyPending h hother w.direct value).turns
  have hlookup : (w.buffer.pending.insert other value).lookup chatId = w.buffer.pending.lookup chatId :=
    Finmap.lookup_insert_of_ne _ hne
  refine ⟨?_, ?_, hw.bounded, ?_⟩
  · simp only [MirroredLedgers.note, noteCall, Function.update_of_ne hne, hlookup, hw.pending]
  · simp only [MirroredLedgers.note, noteCall, Function.update_of_ne hne, hturns, hw.direct]
  · intro items hitems
    simp only [MirroredLedgers.note, hturns] at hitems
    simp only [MirroredLedgers.note, noteCall, Function.update_of_ne hne]
    exact hw.recorded items hitems

theorem Mirrors.apply_own (h : ChatPaths cfg chatId ledger history evidence)
    (hflush : w.buffer.flush = some flush) (hvalue : flush.remaining.lookup chatId = some value)
    (failed : PendingMap (TurnLedger D)) : Mirrors { w with buffer := { w.buffer with
      inner := (BufferedTurnLedgerStore.applyPending cfg w.buffer.inner chatId value).1
      flush := some ⟨flush.remaining.erase chatId, failed⟩ } } chatId ledger history := by
  have hturns := turns_applyPending h w.buffer.inner value
  refine ⟨hw.pending, ?_, ?_, hw.recorded⟩
  · have hdirect := hw.direct
    simp only [hflush, LedgerFlush.inHand, Option.bind_some, hvalue, applyOption, Option.elim_some] at hdirect
    simp only [hdirect, hturns, LedgerFlush.inHand, Option.bind_some, Finmap.lookup_erase, applyOption,
      Option.elim_none]
  · simp only [hturns]
    exact bounded_applyCall hw.bounded value

theorem Mirrors.apply_other {other : String} (h : ChatPaths cfg chatId ledger history evidence)
    (hother : ledgerFilename other ≠ ledgerFilename chatId) (hflush : w.buffer.flush = some flush)
    (failed : PendingMap (TurnLedger D)) : Mirrors { w with buffer := { w.buffer with
      inner := (BufferedTurnLedgerStore.applyPending cfg w.buffer.inner other value).1
      flush := some ⟨flush.remaining.erase other, failed⟩ } } chatId ledger history := by
  have hne : chatId ≠ other := by
    rintro rfl
    exact hother rfl
  have hturns := (sameAt_applyPending h hother w.buffer.inner value).turns
  have hlookup : (flush.remaining.erase other).lookup chatId = flush.remaining.lookup chatId :=
    Finmap.lookup_erase_ne hne
  refine ⟨hw.pending, ?_, ?_, hw.recorded⟩
  · have hdirect := hw.direct
    simp only [hflush, LedgerFlush.inHand, Option.bind_some] at hdirect
    simp only [hdirect, hturns, LedgerFlush.inHand, Option.bind_some, hlookup]
  · simp only [hturns]
    exact hw.bounded

theorem Mirrors.restoreMissing
    (hflush : w.buffer.flush = some flush) (hremaining : flush.remaining = ∅) (hfailed : flush.failed = ∅) :
    Mirrors { w with buffer := { w.buffer with
      pending := w.buffer.pending ∪ flush.failed, flush := none } } chatId ledger history := by
  refine ⟨?_, ?_, hw.bounded, hw.recorded⟩
  · simp only [hfailed, Finmap.union_empty, hw.pending]
  · have hdirect := hw.direct
    simp only [hflush, LedgerFlush.inHand, Option.bind_some, hremaining, Finmap.lookup_empty] at hdirect
    exact hdirect

end

theorem mirrorCoherent_init (hfiles : BoundedHistories files) : MirrorCoherent cfg chats (.init files) := by
  refine ⟨fun c _ ledger history evidence _ => ⟨rfl, rfl, hfiles history, ?_⟩, fun c hmem => ?_, ?_⟩
  · exact fun items _ => recordsTurns_nil items
  · exact absurd hmem Finmap.notMem_empty
  · rintro _ ⟨⟩

theorem RecordsTurns.listRecent {turns : ChatTurns D} (hturns : turns.Bounded) {sets : List (TurnLedger D)}
    (h : ∀ items, turns.history = .ok items → RecordsTurns items sets) {recent : List (TurnLedger D)}
    (hrecent : turns.listRecent turnLedgerHistoryMaxItems = .ok recent) : RecordsTurns recent sets := by
  have hlimit : turnLedgerHistoryMaxItems ≠ 0 := by decide
  simp only [ChatTurns.listRecent, hlimit, if_false] at hrecent
  split at hrecent
  · cases hrecent
  · rename_i hhistory
    intro _ front ledger back hsets hterminal hkept
    cases h [] hhistory (Nat.zero_lt_succ 31) front ledger back hsets hterminal hkept
  · rename_i items _ hhistory
    have hlength : items.reverse.length ≤ turnLedgerHistoryMaxItems := by
      simpa using hturns items hhistory
    rw [List.take_of_length_le hlength] at hrecent
    cases hrecent
    intro hshort front ledger back hsets hterminal hkept
    have hmem := h items hhistory (by simpa using hshort) front ledger back hsets hterminal hkept
    exact List.mem_reverse.mpr hmem

theorem MirrorCoherent.historyKept (hw : MirrorCoherent cfg chats w) (hflush : w.buffer.flush = none)
    (hmem : chatId ∈ chats) (hpending : chatId ∉ w.buffer.pending) : HistoryKept cfg chatId w := by
  cases hpath : historyPath cfg chatId with
  | error e =>
    have herror (files : LedgerFiles D) (limit : Nat) : StorageTurnLedgerStore.listRecent cfg files chatId limit =
        if limit = 0 then .ok [] else .error e := by
      simp only [StorageTurnLedgerStore.listRecent, hpath]
    refine ⟨fun limit => by rw [herror, herror], fun turns hturns => ?_⟩
    rw [herror] at hturns
    cases hturns
  | ok history =>
    obtain ⟨ledger, evidence, hpaths⟩ := chatPaths_of_history hpath
    have hmirrors := hw.mirrors chatId hmem _ _ _ hpaths
    have hwindow : w.window chatId = [] := by
      rw [← List.getLast?_eq_none_iff, ← hmirrors.pending]
      exact Finmap.lookup_eq_none.mpr hpending
    have hturns : w.direct.turns ledger history = w.buffer.inner.turns ledger history := by
      rw [hmirrors.direct, hwindow, hflush]
      rfl
    have hrecorded := hmirrors.recorded
    rw [hturns] at hrecorded
    refine ⟨fun limit => ?_, fun turns hlist => ?_⟩
    · rw [StorageTurnLedgerStore.listRecent_eq hpaths, StorageTurnLedgerStore.listRecent_eq hpaths, hturns]
    · rw [StorageTurnLedgerStore.listRecent_eq hpaths] at hlist
      exact RecordsTurns.listRecent hmirrors.bounded hrecorded hlist

end

section
variable {cfg : LedgerConfig} {chats : List String} {w : MirroredLedgers D} {chatId ledger history evidence : String}

theorem Mirrors.takeAll (hw : Mirrors w chatId ledger history) (hflush : w.buffer.flush = none)
    (hcoalesce : Coalesces (loadHistoryFromPath w.buffer.inner history) (w.window chatId)) :
    Mirrors { w.note cfg .takeAll with
      buffer := { w.buffer with pending := ∅, flush := some ⟨w.buffer.pending, ∅⟩ } } chatId ledger history := by
  refine ⟨rfl, ?_, hw.bounded, hw.recorded⟩
  have hdirect := hw.direct
  simp only [hflush, LedgerFlush.inHand, Option.bind_none, applyOption, Option.elim_none] at hdirect
  simp only [MirroredLedgers.note, List.foldl_nil, LedgerFlush.inHand, Option.bind_some, hw.pending, hdirect]
  cases hlast : (w.window chatId).getLast? with
  | none =>
    rw [List.getLast?_eq_none_iff.mp hlast]
    rfl
  | some value => exact hcoalesce.foldl_eq hw.bounded hlast

/-- What a flush makes of its state by one write: whether the write succeeds or not, nothing is put back. -/
theorem step_applyPending {s t : BufferedTurnLedgerStore D} {chatId : String}
    (h : s.step cfg (.applyPending chatId) = some t) :
    ∃ flush value, s.flush = some flush ∧ flush.remaining.lookup chatId = some value ∧
      t = { s with
        inner := (BufferedTurnLedgerStore.applyPending cfg s.inner chatId value).1
        flush := some ⟨flush.remaining.erase chatId, flush.failed⟩ } := by
  simp only [BufferedTurnLedgerStore.step] at h
  split at h
  · cases h
  · rename_i flush hflush
    split at h
    · cases h
    · rename_i value hvalue
      refine ⟨flush, value, hflush, hvalue, ?_⟩
      split at h
      · rename_i inner happly
        cases h
        rw [happly]
      · rename_i inner e happly
        have hretry := applyPending_error (congrArg Prod.snd happly)
        simp only [hretry, Bool.false_eq_true, if_false, Option.some.injEq] at h
        rw [happly, ← h]

theorem MirrorCoherent.step {t : MirroredLedgers D} {a : LedgerAction D} (hfiles : OwnLedgerFiles chats)
    (hw : MirrorCoherent cfg chats w) (ha : a.On chats) (hc : WindowsCoalesce cfg w a)
    (h : w.step cfg a = some t) : MirrorCoherent cfg chats t := by
  obtain ⟨buffer, hbuffer, rfl⟩ := Option.map_eq_some_iff.mp h
  have hnames {c d : String} (hcd : c ≠ d) (hc : c ∈ chats) (hd : d ∈ chats) :
      ledgerFilename c ≠ ledgerFilename d := mt (hfiles c hc d hd) hcd
  cases a with
  | write chatId value =>
    cases hbuffer
    refine ⟨fun c hc' ledger history evidence hpaths => ?_, fun c hmem => ?_, hw.flush⟩
    · by_cases heq : c = chatId
      · subst heq
        exact (hw.mirrors c hc' _ _ _ hpaths).write_own hpaths value
      · exact (hw.mirrors c hc' _ _ _ hpaths).write_other hpaths (hnames (Ne.symm heq) ha hc') value
    · rcases Finmap.mem_insert.mp hmem with rfl | hmem
      · exact ha
      · exact hw.pending c hmem
  | takeAll =>
    simp only [BufferedTurnLedgerStore.step] at hbuffer
    split at hbuffer
    · rename_i hflush
      cases hbuffer
      refine ⟨fun c hc' ledger history evidence hpaths => ?_, fun c hmem => ?_, ?_⟩
      · exact (hw.mirrors c hc' _ _ _ hpaths).takeAll hflush (hc c history hpaths.history)
      · exact absurd hmem Finmap.notMem_empty
      · rintro _ ⟨⟩
        exact ⟨rfl, hw.pending⟩
    · cases hbuffer
  | applyPending chatId =>
    obtain ⟨flush, value, hflush, hvalue, rfl⟩ := step_applyPending hbuffer
    obtain ⟨hfailed, hremaining⟩ := hw.flush flush hflush
    have hmem : chatId ∈ chats := hremaining chatId (Finmap.mem_of_lookup_eq_some hvalue)
    refine ⟨fun c hc' ledger history evidence hpaths => ?_, hw.pending, ?_⟩
    · by_cases heq : c = chatId
      · subst heq
        exact (hw.mirrors c hc' _ _ _ hpaths).apply_own hpaths hflush hvalue _
      · exact (hw.mirrors c hc' _ _ _ hpaths).apply_other hpaths (hnames (Ne.symm heq) hmem hc') hflush _
    · rintro _ ⟨⟩
      exact ⟨hfailed, fun c hc' => hremaining c (Finmap.mem_erase.mp hc').2⟩
  | restoreMissing =>
    simp only [BufferedTurnLedgerStore.step] at hbuffer
    split at hbuffer
    · cases hbuffer
    · rename_i flush hflush
      obtain ⟨hfailed, -⟩ := hw.flush flush hflush
      split at hbuffer
      · rename_i hremaining
        cases hbuffer
        refine ⟨fun c hc' ledger history evidence hpaths => ?_, fun c hmem => ?_, ?_⟩
        · exact (hw.mirrors c hc' _ _ _ hpaths).restoreMissing hflush hremaining hfailed
        · simp only [hfailed, Finmap.union_empty] at hmem
          exact hw.pending c hmem
        · rintro _ ⟨⟩
      · cases hbuffer

end

/-- The buffered store keeps the history that the unbuffered one would, in every
run whose flushes take only windows that their last writes stand for. -/
theorem ledger_history_kept {cfg : LedgerConfig} {chats : List String} (hchats : OwnLedgerFiles chats)
    {files : LedgerFiles D} (hfiles : BoundedHistories files) {actions : List (LedgerAction D)}
    (hactions : ∀ a ∈ actions, a.On chats)
    (hmeets : Meets (MirroredLedgers.step cfg) (WindowsCoalesce cfg) actions (.init files)) :
    Always (MirroredLedgers.step cfg)
      (fun w => w.buffer.flush = none → ∀ c ∈ chats, c ∉ w.buffer.pending → HistoryKept cfg c w)
      actions (.init files) := by
  have hmeets' : Meets (MirroredLedgers.step cfg) (fun w a => a.On chats ∧ WindowsCoalesce cfg w a) actions
      (.init files) := hmeets.mono fun _ a ha hc => ⟨hactions a ha, hc⟩
  refine always_of_meets (I := MirrorCoherent cfg chats) ?_ ?_ actions _ (mirrorCoherent_init hfiles) hmeets'
  · intro w a t hw hc h
    exact hw.step hchats hc.1 hc.2 h
  · intro w hw hflush c hc hpending
    exact hw.historyKept hflush hc hpending

section
omit [DecidableEq D]

theorem boundedHistories_none : BoundedHistories (.none : LedgerFiles D) := by
  intro path items hitems
  simp only [loadHistoryFromPath, LedgerFiles.none, Finmap.lookup_empty, Except.ok.injEq] at hitems
  simp [← hitems]

theorem ownLedgerFiles_singleton (chatId : String) : OwnLedgerFiles [chatId] := by
  intro c hc d hd _
  rw [List.mem_singleton.mp hc, List.mem_singleton.mp hd]

end

def hostLedgerConfig : LedgerConfig := ⟨"/state", false⟩

/-- A user turn that says nothing of the persona. -/
def plainTurn (reqId : String) (status : TurnLedgerStatus) (startedAtMs : Nat) : TurnLedger Unit :=
  ⟨reqId, .user, status, "", startedAtMs, 0, 0, false, none, ()⟩

/-- The end of one turn and the start of the next, before one flush. -/
def endAndStart : List (LedgerAction Unit) :=
  [.write "a" (.set (plainTurn "r1" .answered 1)), .write "a" (.set (plainTurn "r2" .running 2)),
    .takeAll, .applyPending "a", .restoreMissing]

theorem ended_turn_missing_from_history :
    ¬ Always (MirroredLedgers.step hostLedgerConfig)
      (fun w => w.buffer.flush = none → ∀ c ∈ ["a"], c ∉ w.buffer.pending → HistoryKept hostLedgerConfig c w)
      endAndStart (.init .none) := by
  intro h
  have hlast := h.last rfl rfl "a" (List.mem_singleton_self "a") Finmap.notMem_empty
  exact absurd (congrArg Except.toOption (hlast.same 32)) (by decide)

theorem ledger_history_kept_of_one_turn :
    Always (MirroredLedgers.step hostLedgerConfig)
      (fun w => w.buffer.flush = none → ∀ c ∈ ["a"], c ∉ w.buffer.pending → HistoryKept hostLedgerConfig c w)
      [.write "a" (.set (plainTurn "r1" .running 1)), .write "a" (.set (plainTurn "r1" .answered 1)),
        .takeAll, .applyPending "a", .restoreMissing] (.init .none) := by
  have hwindow (history : Except Error (List (TurnLedger Unit))) :
      Coalesces history [.set (plainTurn "r1" .running 1), .set (plainTurn "r1" .answered 1)] :=
    ⟨by simp, by simp [setsSinceClear, plainTurn, TurnLedgerStatus.isTerminal]⟩
  have hidle (history : Except Error (List (TurnLedger Unit))) : Coalesces history [] := ⟨by simp, by simp⟩
  refine ledger_history_kept (ownLedgerFiles_singleton "a") boundedHistories_none (by simp [LedgerAction.On]) ?_
  refine fun t ht => ⟨trivial, fun u hu => ⟨trivial, fun v _ => ⟨?_, fun x _ => ⟨trivial, fun y _ => ⟨trivial, trivial⟩⟩⟩⟩⟩
  cases ht
  cases hu
  intro chatId path _
  by_cases hc : chatId = "a"
  · subst hc
    exact hwindow _
  · simp only [MirroredLedgers.note, MirroredLedgers.init, noteCall, Function.update_of_ne hc]
    exact hidle _

end Beetle.Runtime.WriteBack
