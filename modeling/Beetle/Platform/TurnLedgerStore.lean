import Beetle.Memory.RecentPersonaEvidence
import Beetle.Platform.SessionFile

/-! The turn ledgers on disk, three files a chat. -/
namespace Beetle.Platform.Storage
open Beetle.Lib Beetle.Memory

def ledgerFileExt : String := ".json"

/-- What is in a JSON file: no text, text that does not parse, or a value that was written. -/
inductive JsonFile (A : Type) where
  | empty
  | invalid (message : String)
  | holds (value : A)

/-- `flatStorage` tells the ESP targets, with their own directories and bounds. -/
structure LedgerConfig where
  stateMountPath : String
  flatStorage : Bool

/-- The files by their paths. The three kinds are in directories of their own. -/
structure LedgerFiles (D : Type) where
  ledgers : HashMap String (JsonFile (TurnLedger D))
  histories : HashMap String (JsonFile (List (TurnLedger D)))
  evidence : HashMap String (JsonFile RecentPersonaEvidence)

def LedgerFiles.none {D : Type} : LedgerFiles D := ⟨∅, ∅, ∅⟩

/-- The hash is the one of the session files. -/
def ledgerFilename (chatId : String) : String :=
  (if (utf8 chatId.toList).length ≤ maxChatIdFilenameLen then chatId
    else String.ofList (hex 8 (fnv1aHash chatId).toNat)) ++ ledgerFileExt

def relPath (stage dir flatDir : String) (flatStorage : Bool) (chatId : String) : Except Error String :=
  if chatId = "" then .error (.config "chat_id empty" stage)
  else if !chatId.toList.all isChatIdChar then .error (.config "chat_id contains invalid chars" stage)
  else
    let path := (if flatStorage then flatDir else dir) ++ "/" ++ ledgerFilename chatId
    let len := (utf8 path.toList).length
    if flatStorage ∧ 31 < len then
      .error (.config ("storage object name too long (" ++ toString len ++ ")") stage)
    else if ¬ flatStorage ∧ 64 < len then .error (.config ("path too long (" ++ toString len ++ ")") stage)
    else .ok path

def ledgerRelPath : Bool → String → Except Error String :=
  relPath "turn_ledger_path" "memory/turn_ledgers" "memory/tl"

def historyRelPath : Bool → String → Except Error String :=
  relPath "turn_ledger_history_path" "memory/turn_ledger_history" "memory/trh"

def recentPersonaEvidenceRelPath : Bool → String → Except Error String :=
  relPath "recent_persona_evidence_path" "memory/recent_persona_evidence" "memory/rpe"

section
variable (cfg : LedgerConfig)

def ledgerPath (chatId : String) : Except Error String :=
  (ledgerRelPath cfg.flatStorage chatId).map fun path => cfg.stateMountPath ++ "/" ++ path

def historyPath (chatId : String) : Except Error String :=
  (historyRelPath cfg.flatStorage chatId).map fun path => cfg.stateMountPath ++ "/" ++ path

def recentPersonaEvidencePath (chatId : String) : Except Error String :=
  (recentPersonaEvidenceRelPath cfg.flatStorage chatId).map fun path => cfg.stateMountPath ++ "/" ++ path

variable {D : Type}

def loadLedgerFromPath (files : LedgerFiles D) (path : String) : Except Error (Option (TurnLedger D)) :=
  match files.ledgers.lookup path with
  | none | some .empty => .ok none
  | some (.invalid message) => .error (.config message "turn_ledger_read")
  | some (.holds ledger) => .ok (some ledger)

@[grind =] def loadHistoryFromPath (files : LedgerFiles D) (path : String) : Except Error (List (TurnLedger D)) :=
  match files.histories.lookup path with
  | none | some .empty => .ok []
  | some (.invalid message) => .error (.config message "turn_ledger_history_read")
  | some (.holds items) => .ok items

@[grind =] def loadRecentPersonaEvidenceFromPath (files : LedgerFiles D) (path : String) :
    Except Error (Option (Option RecentPersonaEvidence)) :=
  match files.evidence.lookup path with
  | none => .ok none
  | some .empty => .ok (some none)
  | some (.invalid message) => .error (.config message "recent_persona_evidence_read")
  | some (.holds evidence) => .ok (some (if evidence.isMeaningful then some evidence else none))

namespace StorageTurnLedgerStore

def get (files : LedgerFiles D) (chatId : String) : Except Error (Option (TurnLedger D)) :=
  match ledgerPath cfg chatId with
  | .error e => .error e
  | .ok path => loadLedgerFromPath files path

@[grind =] def writeRecentPersonaEvidence (files : LedgerFiles D) (chatId : String)
    (evidence : Option RecentPersonaEvidence) : LedgerFiles D × Except Error Unit :=
  match recentPersonaEvidencePath cfg chatId with
  | .error e => (files, .error e)
  | .ok path =>
    ({ files with evidence := files.evidence.insert path (.holds (evidence.getD .default)) }, .ok ())

@[grind =] def appendHistory (files : LedgerFiles D) (chatId : String) (ledger : TurnLedger D) :
    LedgerFiles D × Except Error Unit :=
  match historyPath cfg chatId with
  | .error e => (files, .error e)
  | .ok path =>
    match loadHistoryFromPath files path with
    | .error e => (files, .error e)
    | .ok items =>
      let items := recordTurn items ledger
      writeRecentPersonaEvidence cfg { files with histories := files.histories.insert path (.holds items) }
        chatId (deriveRecentPersonaEvidence items recentPersonaEvidenceMeaningfulTurns)

@[grind =] def set (files : LedgerFiles D) (chatId : String) (ledger : TurnLedger D) :
    LedgerFiles D × Except Error Unit :=
  match ledgerPath cfg chatId with
  | .error e => (files, .error e)
  | .ok path =>
    let files := { files with ledgers := files.ledgers.insert path (.holds ledger) }
    if ledger.status.isTerminal then appendHistory cfg files chatId ledger else (files, .ok ())

@[grind =] def clear (files : LedgerFiles D) (chatId : String) : LedgerFiles D × Except Error Unit :=
  match ledgerPath cfg chatId with
  | .error e => (files, .error e)
  | .ok path =>
    let files := { files with ledgers := files.ledgers.erase path }
    match historyPath cfg chatId with
    | .error e => (files, .error e)
    | .ok path =>
      let files := { files with histories := files.histories.erase path }
      match recentPersonaEvidencePath cfg chatId with
      | .error e => (files, .error e)
      | .ok path => ({ files with evidence := files.evidence.erase path }, .ok ())

def listRecent (files : LedgerFiles D) (chatId : String) (limit : Nat) : Except Error (List (TurnLedger D)) :=
  if limit = 0 then .ok []
  else
    match historyPath cfg chatId with
    | .error e => .error e
    | .ok path =>
      match loadHistoryFromPath files path with
      | .error e => .error e
      | .ok [] =>
        match get cfg files chatId with
        | .error e => .error e
        | .ok (some latest) => .ok (if latest.status.isTerminal then [latest] else [])
        | .ok none => .ok []
      | .ok items => .ok (items.reverse.take limit)

def recentPersonaEvidence (files : LedgerFiles D) (chatId : String) :
    Except Error (Option RecentPersonaEvidence) :=
  match recentPersonaEvidencePath cfg chatId with
  | .error e => .error e
  | .ok path =>
    match loadRecentPersonaEvidenceFromPath files path with
    | .error e => .error e
    | .ok (some evidence) => .ok evidence
    | .ok none =>
      if cfg.flatStorage then .ok none
      else
        (listRecent cfg files chatId recentPersonaEvidenceHistoryLookback).map fun ledgers =>
          deriveRecentPersonaEvidence ledgers recentPersonaEvidenceMeaningfulTurns

end StorageTurnLedgerStore

end

/-! The paths. The three kinds are accepted for the same chats, as far as the
history is accepted for them. -/

theorem relPath_eq_ok {stage dir flatDir : String} {flatStorage : Bool} {chatId path : String} :
    relPath stage dir flatDir flatStorage chatId = .ok path ↔
      chatId ≠ "" ∧ chatId.toList.all isChatIdChar = true ∧
        path = (if flatStorage then flatDir else dir) ++ "/" ++ ledgerFilename chatId ∧
        (utf8 path.toList).length ≤ if flatStorage then 31 else 64 := by
  unfold relPath
  split
  · simp [*]
  · split
    · simp_all
    · rename_i hne hall
      have hall' : chatId.toList.all isChatIdChar = true := by simpa using hall
      cases flatStorage with
      | true =>
        simp only [if_true, true_and, not_true, false_and, if_false]
        split
        · constructor
          · intro h
            cases h
          · rintro ⟨-, -, rfl, h⟩
            omega
        · constructor
          · intro h
            cases h
            exact ⟨hne, hall', rfl, by omega⟩
          · rintro ⟨-, -, rfl, -⟩
            rfl
      | false =>
        simp only [Bool.false_eq_true, not_false_eq_true, true_and, false_and, if_false]
        split
        · constructor
          · intro h
            cases h
          · rintro ⟨-, -, rfl, h⟩
            omega
        · constructor
          · intro h
            cases h
            exact ⟨hne, hall', rfl, by omega⟩
          · rintro ⟨-, -, rfl, -⟩
            rfl

theorem length_ledgerFilename_le (chatId : String) : (utf8 (ledgerFilename chatId).toList).length ≤ 25 := by
  have hext : (utf8 ledgerFileExt.toList).length = 5 := by decide
  have hmax : maxChatIdFilenameLen = 20 := rfl
  unfold ledgerFilename
  split
  · rename_i hshort
    rw [String.toList_append, utf8_append, List.length_append]
    omega
  · rw [String.toList_append, utf8_append, List.length_append, String.toList_ofList, length_utf8_hex]
    omega

section
variable {cfg : LedgerConfig} {chatId : String} {stage dir flatDir : String}

/-- The three paths of a chat. -/
structure ChatPaths (cfg : LedgerConfig) (chatId ledger history evidence : String) : Prop where
  ledger : ledgerPath cfg chatId = .ok ledger
  history : historyPath cfg chatId = .ok history
  evidence : recentPersonaEvidencePath cfg chatId = .ok evidence

theorem chatPaths_of_history {history : String} (h : historyPath cfg chatId = .ok history) :
    ∃ ledger evidence, ChatPaths cfg chatId ledger history evidence := by
  have hfilename := length_ledgerFilename_le chatId
  obtain ⟨rel, hrel, rfl⟩ : ∃ rel, historyRelPath cfg.flatStorage chatId = .ok rel ∧
      cfg.stateMountPath ++ "/" ++ rel = history := by
    unfold historyPath at h
    cases hrel : historyRelPath cfg.flatStorage chatId with
    | error e => simp [hrel, Except.map] at h
    | ok rel => exact ⟨rel, rfl, by simpa [hrel, Except.map] using h⟩
  obtain ⟨hne, hchars, rfl, hlength⟩ := relPath_eq_ok.mp hrel
  have hlength' (dir : String) : (utf8 (dir ++ "/" ++ ledgerFilename chatId).toList).length =
      (utf8 dir.toList).length + 1 + (utf8 (ledgerFilename chatId).toList).length := by
    simp [Nat.add_assoc]
    rfl
  have htl : (utf8 "memory/tl".toList).length = 9 := by decide
  have htrh : (utf8 "memory/trh".toList).length = 10 := by decide
  have hrpe : (utf8 "memory/rpe".toList).length = 10 := by decide
  have hledgers : (utf8 "memory/turn_ledgers".toList).length = 19 := by decide
  have hevidences : (utf8 "memory/recent_persona_evidence".toList).length = 30 := by decide
  rw [hlength'] at hlength
  have hledger : ledgerRelPath cfg.flatStorage chatId =
      .ok ((if cfg.flatStorage then "memory/tl" else "memory/turn_ledgers") ++ "/" ++ ledgerFilename chatId) := by
    refine relPath_eq_ok.mpr ⟨hne, hchars, rfl, ?_⟩
    rw [hlength']
    cases hflat : cfg.flatStorage with
    | true =>
      simp only [hflat, if_true] at hlength ⊢
      omega
    | false =>
      simp only [Bool.false_eq_true, if_false]
      omega
  have hevidence : recentPersonaEvidenceRelPath cfg.flatStorage chatId =
      .ok ((if cfg.flatStorage then "memory/rpe" else "memory/recent_persona_evidence") ++ "/" ++
        ledgerFilename chatId) := by
    refine relPath_eq_ok.mpr ⟨hne, hchars, rfl, ?_⟩
    rw [hlength']
    cases hflat : cfg.flatStorage with
    | true =>
      simp only [hflat, if_true] at hlength ⊢
      omega
    | false =>
      simp only [Bool.false_eq_true, if_false]
      omega
  exact ⟨_, _, by rw [ledgerPath, hledger]; rfl, h, by rw [recentPersonaEvidencePath, hevidence]; rfl⟩

/-- The history has a path where the evidence has one. -/
theorem historyPath_of_evidence {evidence : String} (h : recentPersonaEvidencePath cfg chatId = .ok evidence) :
    ∃ history, historyPath cfg chatId = .ok history := by
  have hfilename := length_ledgerFilename_le chatId
  obtain ⟨rel, hrel⟩ : ∃ rel, recentPersonaEvidenceRelPath cfg.flatStorage chatId = .ok rel := by
    unfold recentPersonaEvidencePath at h
    cases hrel : recentPersonaEvidenceRelPath cfg.flatStorage chatId with
    | error e => simp [hrel, Except.map] at h
    | ok rel => exact ⟨rel, rfl⟩
  obtain ⟨hne, hchars, rfl, hlength⟩ := relPath_eq_ok.mp hrel
  have hlength' (dir : String) : (utf8 (dir ++ "/" ++ ledgerFilename chatId).toList).length =
      (utf8 dir.toList).length + 1 + (utf8 (ledgerFilename chatId).toList).length := by
    simp [Nat.add_assoc]
    rfl
  have htrh : (utf8 "memory/trh".toList).length = 10 := by decide
  have hrpe : (utf8 "memory/rpe".toList).length = 10 := by decide
  have hhistories : (utf8 "memory/turn_ledger_history".toList).length = 26 := by decide
  rw [hlength'] at hlength
  have hhistory : historyRelPath cfg.flatStorage chatId =
      .ok ((if cfg.flatStorage then "memory/trh" else "memory/turn_ledger_history") ++ "/" ++
        ledgerFilename chatId) := by
    refine relPath_eq_ok.mpr ⟨hne, hchars, rfl, ?_⟩
    rw [hlength']
    cases hflat : cfg.flatStorage with
    | true =>
      simp only [hflat, if_true] at hlength ⊢
      omega
    | false =>
      simp only [Bool.false_eq_true, if_false]
      omega
  exact ⟨_, by rw [historyPath, hhistory]; rfl⟩

theorem relPath_of_filename_eq {flatStorage : Bool} {other path : String}
    (hname : ledgerFilename other = ledgerFilename chatId) (hne : other ≠ "")
    (hchars : other.toList.all isChatIdChar = true) (h : relPath stage dir flatDir flatStorage chatId = .ok path) :
    relPath stage dir flatDir flatStorage other = .ok path := by
  obtain ⟨-, -, hpath, hlength⟩ := relPath_eq_ok.mp h
  exact relPath_eq_ok.mpr ⟨hne, hchars, by rw [hname, hpath], hlength⟩

/-- Chats with one file name have the same three files. -/
theorem ChatPaths.of_filename_eq {ledger history evidence other path : String}
    (h : ChatPaths cfg chatId ledger history evidence) (hname : ledgerFilename other = ledgerFilename chatId)
    (hother : ledgerPath cfg other = .ok path) : ChatPaths cfg other ledger history evidence := by
  obtain ⟨hne, hchars⟩ : other ≠ "" ∧ other.toList.all isChatIdChar = true := by
    unfold ledgerPath at hother
    cases hrel : ledgerRelPath cfg.flatStorage other with
    | error e => simp [hrel, Except.map] at hother
    | ok rel => exact ⟨(relPath_eq_ok.mp hrel).1, (relPath_eq_ok.mp hrel).2.1⟩
  have hmap {stage dir flatDir result : String} (hresult : (relPath stage dir flatDir cfg.flatStorage chatId).map
      (fun rel => cfg.stateMountPath ++ "/" ++ rel) = .ok result) :
      (relPath stage dir flatDir cfg.flatStorage other).map (fun rel => cfg.stateMountPath ++ "/" ++ rel) =
        .ok result := by
    cases hrel : relPath stage dir flatDir cfg.flatStorage chatId with
    | error e => simp [hrel, Except.map] at hresult
    | ok rel => rwa [relPath_of_filename_eq hname hne hchars hrel, ← hrel]
  exact ⟨hmap h.ledger, hmap h.history, hmap h.evidence⟩

/-- A path names the file of one chat only, as far as file names do. -/
theorem filename_eq_of_path_eq {other path : String}
    (h : (relPath stage dir flatDir cfg.flatStorage chatId).map (fun rel => cfg.stateMountPath ++ "/" ++ rel) =
      .ok path)
    (h' : (relPath stage dir flatDir cfg.flatStorage other).map (fun rel => cfg.stateMountPath ++ "/" ++ rel) =
      .ok path) : ledgerFilename chatId = ledgerFilename other := by
  have hpath {id : String} (hid : (relPath stage dir flatDir cfg.flatStorage id).map
      (fun rel => cfg.stateMountPath ++ "/" ++ rel) = .ok path) :
      cfg.stateMountPath ++ "/" ++ ((if cfg.flatStorage then flatDir else dir) ++ "/" ++ ledgerFilename id) =
        path := by
    cases hrel : relPath stage dir flatDir cfg.flatStorage id with
    | error e => simp [hrel, Except.map] at hid
    | ok rel =>
      obtain ⟨-, -, rfl, -⟩ := relPath_eq_ok.mp hrel
      simpa [hrel, Except.map] using hid
  simpa using (hpath h).trans (hpath h').symm

end

/-! What the three files of a chat hold, and what a call makes of it. -/

section
variable {D : Type} {cfg : LedgerConfig} {chatId ledger history evidence : String} {files files' : LedgerFiles D}

@[grind =] def LedgerFiles.turns (files : LedgerFiles D) (ledger history : String) : ChatTurns D :=
  ⟨loadLedgerFromPath files ledger, loadHistoryFromPath files history⟩

namespace StorageTurnLedgerStore

section
variable (h : ChatPaths cfg chatId ledger history evidence)
include h

theorem listRecent_eq (files : LedgerFiles D) (limit : Nat) :
    listRecent cfg files chatId limit = (files.turns ledger history).listRecent limit := by
  unfold listRecent ChatTurns.listRecent
  split
  · rfl
  · simp only [h.history, get, h.ledger, LedgerFiles.turns]
    cases loadHistoryFromPath files history with
    | error e => rfl
    | ok items =>
      cases items with
      | cons item items => rfl
      | nil =>
        cases loadLedgerFromPath files ledger with
        | error e => rfl
        | ok latest =>
          cases latest with
          | none => rfl
          | some latest =>
            cases hterminal : latest.status.isTerminal with
            | true => simp [Except.map, hterminal]
            | false => simp [Except.map, hterminal]

theorem turns_set (files : LedgerFiles D) (v : TurnLedger D) :
    (set cfg files chatId v).1.turns ledger history = (files.turns ledger history).set v := by
  simp only [set, h.ledger]
  split
  · rename_i hterminal
    simp only [appendHistory, h.history]
    have hload : loadHistoryFromPath { files with ledgers := files.ledgers.insert ledger (.holds v) } history =
        loadHistoryFromPath files history := rfl
    rw [hload]
    cases hitems : loadHistoryFromPath files history with
    | error e => simp [LedgerFiles.turns, ChatTurns.set, hterminal, loadLedgerFromPath, hitems, hload, Except.map]
    | ok items =>
      have hwritten : loadHistoryFromPath (D := D) ⟨files.ledgers.insert ledger (.holds v),
          files.histories.insert history (.holds (recordTurn items v)), files.evidence⟩ history =
          .ok (recordTurn items v) := by simp [loadHistoryFromPath]
      simp only [writeRecentPersonaEvidence, h.evidence, LedgerFiles.turns, ChatTurns.set, hterminal, if_true,
        hitems, Except.map, ChatTurns.mk.injEq]
      exact ⟨by simp [loadLedgerFromPath], hwritten⟩
  · rename_i hterminal
    simp [LedgerFiles.turns, ChatTurns.set, hterminal, loadLedgerFromPath, loadHistoryFromPath]

theorem turns_clear (files : LedgerFiles D) : (clear cfg files chatId).1.turns ledger history = .cleared := by
  simp [clear, h.ledger, h.history, h.evidence, LedgerFiles.turns, ChatTurns.cleared, loadLedgerFromPath,
    loadHistoryFromPath]

/-- What reading the evidence file gives after a write, told by what the history was. -/
theorem loadEvidence_set (files : LedgerFiles D)
    (v : TurnLedger D) (hterminal : v.status.isTerminal = true) {items : List (TurnLedger D)}
    (hitems : loadHistoryFromPath files history = .ok items) :
    loadRecentPersonaEvidenceFromPath (set cfg files chatId v).1 evidence =
      .ok (some (deriveRecentPersonaEvidence (recordTurn items v) recentPersonaEvidenceMeaningfulTurns)) := by
  have hload : loadHistoryFromPath { files with ledgers := files.ledgers.insert ledger (.holds v) } history =
      .ok items := hitems
  simp only [set, h.ledger, hterminal, if_true, appendHistory, h.history, hload, writeRecentPersonaEvidence,
    h.evidence, loadRecentPersonaEvidenceFromPath, Finmap.lookup_insert]
  cases hderive : deriveRecentPersonaEvidence (recordTurn items v) recentPersonaEvidenceMeaningfulTurns with
  | none => rfl
  | some drawn => simp [isMeaningful_derive hderive]

end

theorem loadEvidence_set_running (files : LedgerFiles D) (v : TurnLedger D)
    (hterminal : v.status.isTerminal = false) :
    loadRecentPersonaEvidenceFromPath (set cfg files chatId v).1 evidence =
      loadRecentPersonaEvidenceFromPath files evidence := by
  simp only [set, hterminal, Bool.false_eq_true, if_false]
  split
  · rfl
  · rfl

theorem loadEvidence_clear (h : ChatPaths cfg chatId ledger history evidence) (files : LedgerFiles D) :
    loadRecentPersonaEvidenceFromPath (clear cfg files chatId).1 evidence = .ok none := by
  simp [clear, h.ledger, h.history, h.evidence, loadRecentPersonaEvidenceFromPath]

variable {e : Error} {files : LedgerFiles D} {stage dir flatDir : String}

/-- Errors of the store itself, which no later try cures. -/
theorem relPath_error {flatStorage : Bool}
    (h : relPath stage dir flatDir flatStorage chatId = .error e) : ∃ message stage, e = .config message stage := by
  simp only [relPath] at h
  split at h
  · cases h
    exact ⟨_, _, rfl⟩
  · split at h
    · cases h
      exact ⟨_, _, rfl⟩
    · generalize (if flatStorage then flatDir else dir) ++ "/" ++ ledgerFilename chatId = path at h
      split at h
      · cases h
        exact ⟨_, _, rfl⟩
      · split at h
        · cases h
          exact ⟨_, _, rfl⟩
        · cases h

theorem map_relPath_error {flatStorage : Bool} {f : String → String}
    (h : (relPath stage dir flatDir flatStorage chatId).map f = .error e) :
    ∃ message stage, e = .config message stage := by
  cases hrel : relPath stage dir flatDir flatStorage chatId with
  | ok rel => simp [hrel, Except.map] at h
  | error e' =>
    obtain rfl : e' = e := by simpa [hrel, Except.map] using h
    exact relPath_error hrel

theorem loadHistory_error
    (h : loadHistoryFromPath files history = .error e) : ∃ message stage, e = .config message stage := by
  unfold loadHistoryFromPath at h
  split at h
  · cases h
  · cases h
  · cases h
    exact ⟨_, _, rfl⟩
  · cases h

theorem set_error {v : TurnLedger D}
    (h : (set cfg files chatId v).2 = .error e) : ∃ message stage, e = .config message stage := by
  simp only [set] at h
  split at h
  · rename_i hpath
    cases h
    exact map_relPath_error hpath
  · split at h
    · simp only [appendHistory] at h
      split at h
      · rename_i hpath
        cases h
        exact map_relPath_error hpath
      · split at h
        · rename_i hload
          cases h
          exact loadHistory_error hload
        · simp only [writeRecentPersonaEvidence] at h
          split at h
          · rename_i hpath
            cases h
            exact map_relPath_error hpath
          · cases h
    · cases h

theorem clear_error (h : (clear cfg files chatId).2 = .error e) : ∃ message stage, e = .config message stage := by
  simp only [clear] at h
  split at h
  · rename_i hpath
    cases h
    exact map_relPath_error hpath
  · split at h
    · rename_i hpath
      cases h
      exact map_relPath_error hpath
    · split at h
      · rename_i hpath
        cases h
        exact map_relPath_error hpath
      · cases h

end StorageTurnLedgerStore

/-- The files of one chat are untouched. -/
structure LedgerFiles.SameAt (files files' : LedgerFiles D) (ledger history evidence : String) : Prop where
  ledger : files'.ledgers.lookup ledger = files.ledgers.lookup ledger
  history : files'.histories.lookup history = files.histories.lookup history
  evidence : files'.evidence.lookup evidence = files.evidence.lookup evidence

section
variable (h : files.SameAt files' ledger history evidence)
include h

theorem LedgerFiles.SameAt.turns : files'.turns ledger history = files.turns ledger history := by
  simp only [LedgerFiles.turns, loadLedgerFromPath, loadHistoryFromPath, h.ledger, h.history]

theorem LedgerFiles.SameAt.loadEvidence :
    loadRecentPersonaEvidenceFromPath files' evidence = loadRecentPersonaEvidenceFromPath files evidence := by
  simp only [loadRecentPersonaEvidenceFromPath, h.evidence]

end

namespace StorageTurnLedgerStore
variable {other : String}

section
variable (h : ChatPaths cfg chatId ledger history evidence)
include h

/-- A write to a chat leaves the files of the chats with other file names as they are. -/
theorem sameAt_set (hother : ledgerFilename other ≠ ledgerFilename chatId) (files : LedgerFiles D) (v : TurnLedger D) :
    files.SameAt (set cfg files other v).1 ledger history evidence := by
  have hledger {path : String} (hpath : ledgerPath cfg other = .ok path) : ledger ≠ path := by
    rintro rfl
    exact hother (filename_eq_of_path_eq hpath h.ledger)
  have hhistory {path : String} (hpath : historyPath cfg other = .ok path) : history ≠ path := by
    rintro rfl
    exact hother (filename_eq_of_path_eq hpath h.history)
  have hevidence {path : String} (hpath : recentPersonaEvidencePath cfg other = .ok path) : evidence ≠ path := by
    rintro rfl
    exact hother (filename_eq_of_path_eq hpath h.evidence)
  simp only [set]
  split
  · exact ⟨rfl, rfl, rfl⟩
  · rename_i path hpath
    have hl : (files.ledgers.insert path (.holds v)).lookup ledger = files.ledgers.lookup ledger :=
      Finmap.lookup_insert_of_ne _ (hledger hpath)
    split
    · simp only [appendHistory]
      split
      · exact ⟨hl, rfl, rfl⟩
      · rename_i path' hpath'
        split
        · exact ⟨hl, rfl, rfl⟩
        · simp only [writeRecentPersonaEvidence]
          split
          · exact ⟨hl, Finmap.lookup_insert_of_ne _ (hhistory hpath'), rfl⟩
          · rename_i path'' hpath''
            exact ⟨hl, Finmap.lookup_insert_of_ne _ (hhistory hpath'),
              Finmap.lookup_insert_of_ne _ (hevidence hpath'')⟩
    · exact ⟨hl, rfl, rfl⟩

theorem sameAt_clear (hother : ledgerFilename other ≠ ledgerFilename chatId) (files : LedgerFiles D) :
    files.SameAt (clear cfg files other).1 ledger history evidence := by
  have hledger {path : String} (hpath : ledgerPath cfg other = .ok path) : ledger ≠ path := by
    rintro rfl
    exact hother (filename_eq_of_path_eq hpath h.ledger)
  have hhistory {path : String} (hpath : historyPath cfg other = .ok path) : history ≠ path := by
    rintro rfl
    exact hother (filename_eq_of_path_eq hpath h.history)
  have hevidence {path : String} (hpath : recentPersonaEvidencePath cfg other = .ok path) : evidence ≠ path := by
    rintro rfl
    exact hother (filename_eq_of_path_eq hpath h.evidence)
  simp only [clear]
  split
  · exact ⟨rfl, rfl, rfl⟩
  · rename_i path hpath
    have hl : (files.ledgers.erase path).lookup ledger = files.ledgers.lookup ledger :=
      Finmap.lookup_erase_ne (hledger hpath)
    split
    · exact ⟨hl, rfl, rfl⟩
    · rename_i path' hpath'
      have hh : (files.histories.erase path').lookup history = files.histories.lookup history :=
        Finmap.lookup_erase_ne (hhistory hpath')
      split
      · exact ⟨hl, hh, rfl⟩
      · rename_i path'' hpath''
        exact ⟨hl, hh, Finmap.lookup_erase_ne (hevidence hpath'')⟩

end

end StorageTurnLedgerStore
end
end Beetle.Platform.Storage
