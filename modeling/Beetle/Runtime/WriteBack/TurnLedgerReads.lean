import Beetle.Runtime.WriteBack.TurnLedgerBuffer

/-! What the buffered store answers before a flush and after it. -/
namespace Beetle.Runtime.WriteBack
open Beetle.Lib Beetle.Memory Beetle.Platform.Storage
variable {D : Type}

/-- The files of a chat are as calls leave them: all can be read, the evidence is
the one of the history, and where there is no history there is no ended turn. -/
structure KeptChat (files : LedgerFiles D) (ledger history evidence : String) (items : List (TurnLedger D)) :
    Prop where
  history : loadHistoryFromPath files history = .ok items
  bounded : items.length ≤ turnLedgerHistoryMaxItems
  latest : ∃ latest, loadLedgerFromPath files ledger = .ok latest ∧
    (items = [] → ∀ last ∈ latest, last.status.isTerminal = false)
  evidence : loadRecentPersonaEvidenceFromPath files evidence = .ok
    (if items = [] then none else some (deriveRecentPersonaEvidence items recentPersonaEvidenceMeaningfulTurns))

def WellKept (cfg : LedgerConfig) (files : LedgerFiles D) : Prop :=
  ∀ chatId ledger history evidence, ChatPaths cfg chatId ledger history evidence →
    ∃ items, KeptChat files ledger history evidence items

/-- What a write makes of the history. -/
def recordCall (items : List (TurnLedger D)) : PendingValue (TurnLedger D) → List (TurnLedger D)
  | .set ledger => if ledger.status.isTerminal then recordTurn items ledger else items
  | .clear => []

def persistedHistory (cfg : LedgerConfig) (files : LedgerFiles D) (chatId : String) :
    Except Error (List (TurnLedger D)) :=
  match historyPath cfg chatId with
  | .error e => .error e
  | .ok path => loadHistoryFromPath files path

section
variable {cfg : LedgerConfig} {files files' : LedgerFiles D} {chatId ledger history evidence : String}
  {items : List (TurnLedger D)}

section
variable (h : KeptChat files ledger history evidence items)
include h

theorem KeptChat.sameAt
    (hsame : files.SameAt files' ledger history evidence) : KeptChat files' ledger history evidence items := by
  have hturns := hsame.turns
  simp only [LedgerFiles.turns, ChatTurns.mk.injEq] at hturns
  refine ⟨hturns.2.trans h.history, h.bounded, ?_, hsame.loadEvidence.trans h.evidence⟩
  rw [hturns.1]
  exact h.latest

theorem KeptChat.applyPending
    (hpaths : ChatPaths cfg chatId ledger history evidence) (value : PendingValue (TurnLedger D)) :
    KeptChat (BufferedTurnLedgerStore.applyPending cfg files chatId value).1 ledger history evidence
      (recordCall items value) := by
  have hturns := turns_applyPending hpaths files value
  simp only [LedgerFiles.turns, ChatTurns.ext_iff] at hturns
  cases value with
  | clear =>
    refine ⟨hturns.2, Nat.zero_le _, ⟨none, hturns.1, by simp⟩, ?_⟩
    exact StorageTurnLedgerStore.loadEvidence_clear hpaths files
  | set last =>
    cases hterminal : last.status.isTerminal with
    | true =>
      simp only [applyCall, ChatTurns.set, hterminal, if_true, h.history, Except.map] at hturns
      have hne := recordTurn_ne_nil items last
      have hitems : recordCall items (.set last) = recordTurn items last := by simp [recordCall, hterminal]
      rw [hitems]
      refine ⟨hturns.2, length_recordTurn_le items last, ⟨some last, hturns.1, fun hnil => absurd hnil hne⟩, ?_⟩
      rw [if_neg hne]
      exact StorageTurnLedgerStore.loadEvidence_set hpaths files last hterminal h.history
    | false =>
      simp only [applyCall, ChatTurns.set, hterminal, Bool.false_eq_true, if_false] at hturns
      have hitems : recordCall items (.set last) = items := by simp [recordCall, hterminal]
      rw [hitems]
      refine ⟨hturns.2.trans h.history, h.bounded, ⟨some last, hturns.1, by simp [hterminal]⟩, ?_⟩
      exact (StorageTurnLedgerStore.loadEvidence_set_running files last hterminal).trans h.evidence

end

theorem applyPending_of_path_error {e : Error} (h : ledgerPath cfg chatId = .error e)
    (value : PendingValue (TurnLedger D)) :
    (BufferedTurnLedgerStore.applyPending cfg files chatId value).1 = files := by
  cases value with
  | set last => simp [BufferedTurnLedgerStore.applyPending, StorageTurnLedgerStore.set, h]
  | clear => simp [BufferedTurnLedgerStore.applyPending, StorageTurnLedgerStore.clear, h]

theorem WellKept.applyPending (h : WellKept cfg files) (other : String) (value : PendingValue (TurnLedger D)) :
    WellKept cfg (BufferedTurnLedgerStore.applyPending cfg files other value).1 := by
  intro chatId ledger history evidence hpaths
  obtain ⟨items, hitems⟩ := h chatId ledger history evidence hpaths
  cases hother : ledgerPath cfg other with
  | error e =>
    rw [applyPending_of_path_error hother]
    exact ⟨items, hitems⟩
  | ok path =>
    by_cases hname : ledgerFilename other = ledgerFilename chatId
    · exact ⟨_, hitems.applyPending (hpaths.of_filename_eq hname hother) value⟩
    · exact ⟨items, hitems.sameAt (sameAt_applyPending hpaths hname files value)⟩

/-! What the wrapped store answers from such files. -/

section
variable (h : KeptChat files ledger history evidence items)
include h

theorem KeptChat.listRecent (hpaths : ChatPaths cfg chatId ledger history evidence) (limit : Nat) :
    StorageTurnLedgerStore.listRecent cfg files chatId limit = .ok (items.reverse.take limit) := by
  rw [StorageTurnLedgerStore.listRecent_eq hpaths]
  simp only [ChatTurns.listRecent, LedgerFiles.turns, h.history]
  split
  · simp [*]
  · cases items with
    | cons item items => rfl
    | nil =>
      obtain ⟨latest, hlatest, hrunning⟩ := h.latest
      cases latest with
      | none => simp [hlatest, Except.map]
      | some last => simp [hlatest, Except.map, hrunning]

theorem KeptChat.recentPersonaEvidence (hpaths : ChatPaths cfg chatId ledger history evidence) :
    StorageTurnLedgerStore.recentPersonaEvidence cfg files chatId =
      .ok (deriveRecentPersonaEvidence items recentPersonaEvidenceMeaningfulTurns) := by
  have hlist := h.listRecent hpaths recentPersonaEvidenceHistoryLookback
  simp only [StorageTurnLedgerStore.recentPersonaEvidence, hpaths.evidence, h.evidence]
  cases items with
  | cons item items => rfl
  | nil =>
    have hnone : deriveRecentPersonaEvidence ([] : List (TurnLedger D)) recentPersonaEvidenceMeaningfulTurns =
        none := (derive_eq_none_iff []).mpr rfl
    simp only [if_true, hlist, List.reverse_nil, List.take_nil, Except.map, hnone]
    split
    · rfl
    · rfl

end

end

/-! What a flush does to the files of one chat. -/

def flushRun (order : List String) : List (LedgerAction D) :=
  .takeAll :: (order.map .applyPending ++ [.restoreMissing])

def WriteSucceeds (cfg : LedgerConfig) (s : BufferedTurnLedgerStore D) : LedgerAction D → Prop
  | .applyPending chatId => ∀ flush value, s.flush = some flush → flush.remaining.lookup chatId = some value →
      (BufferedTurnLedgerStore.applyPending cfg s.inner chatId value).2 = .ok ()
  | _ => True

variable [DecidableEq D]

/-- A whole `flush_map` run, from one state to the other. -/
structure SuccessfulFlush (cfg : LedgerConfig) (s : BufferedTurnLedgerStore D) (order : List String)
    (t : BufferedTurnLedgerStore D) : Prop where
  runs : exec (BufferedTurnLedgerStore.step cfg) (flushRun order) s = some t
  succeeds : Meets (BufferedTurnLedgerStore.step cfg) (WriteSucceeds cfg) (flushRun order) s

section
variable {cfg : LedgerConfig} {s t : BufferedTurnLedgerStore D} {chatId ledger history evidence : String}
  {items : List (TurnLedger D)} {order : List String} {remaining : PendingMap (TurnLedger D)}
  {value : PendingValue (TurnLedger D)}

theorem wellKept_step {a : LedgerAction D} (h : WellKept cfg s.inner) (hstep : s.step cfg a = some t) :
    WellKept cfg t.inner := by
  cases a with
  | write chatId value =>
    cases hstep
    exact h
  | takeAll =>
    simp only [BufferedTurnLedgerStore.step] at hstep
    split at hstep
    · cases hstep
      exact h
    · cases hstep
  | applyPending chatId =>
    obtain ⟨flush, value, -, -, rfl⟩ := step_applyPending hstep
    exact h.applyPending chatId value
  | restoreMissing =>
    simp only [BufferedTurnLedgerStore.step] at hstep
    split at hstep
    · cases hstep
    · split at hstep
      · cases hstep
        exact h
      · cases hstep

theorem step_restoreMissing {flush : LedgerFlush D} (hflush : s.flush = some flush)
    (h : s.step cfg .restoreMissing = some t) :
    flush.remaining = ∅ ∧ t = { s with pending := s.pending ∪ flush.failed, flush := none } := by
  simp only [BufferedTurnLedgerStore.step, hflush] at h
  split at h
  · rename_i hremaining
    exact ⟨hremaining, (Option.some.inj h).symm⟩
  · cases h

/-- The writes of a flush, of which only the chat's own reaches its files. -/
theorem keptChat_rounds (hpaths : ChatPaths cfg chatId ledger history evidence) (hflush : s.flush = some ⟨remaining, ∅⟩)
    (halone : ∀ d ∈ remaining, ledgerFilename d = ledgerFilename chatId → d = chatId)
    (hitems : KeptChat s.inner ledger history evidence items)
    (hruns : exec (BufferedTurnLedgerStore.step cfg) (order.map .applyPending ++ [.restoreMissing]) s = some t) :
    KeptChat t.inner ledger history evidence ((remaining.lookup chatId).elim items (recordCall items)) := by
  induction order generalizing s remaining items with
  | nil =>
    obtain ⟨u, hu, hend⟩ := Option.bind_eq_some_iff.mp hruns
    obtain ⟨rfl, rfl⟩ := step_restoreMissing hflush hu
    cases hend
    simpa using hitems
  | cons c order ih =>
    obtain ⟨u, hu, hrest⟩ := Option.bind_eq_some_iff.mp hruns
    obtain ⟨flush, value, hflush', hvalue, rfl⟩ := step_applyPending hu
    obtain rfl := Option.some.inj (hflush.symm.trans hflush')
    have halone' : ∀ d ∈ remaining.erase c, ledgerFilename d = ledgerFilename chatId → d = chatId :=
      fun d hd => halone d (Finmap.mem_erase.mp hd).2
    by_cases hc : c = chatId
    · subst hc
      have hkept := ih rfl halone' (hitems.applyPending hpaths value) hrest
      simpa [hvalue] using hkept
    · have hname : ledgerFilename c ≠ ledgerFilename chatId :=
        fun heq => hc (halone c (Finmap.mem_of_lookup_eq_some hvalue) heq)
      have hlookup : (remaining.erase c).lookup chatId = remaining.lookup chatId :=
        Finmap.lookup_erase_ne (Ne.symm hc)
      have hkept := ih rfl halone' (hitems.sameAt (sameAt_applyPending hpaths hname s.inner value)) hrest
      rwa [hlookup] at hkept

theorem rounds_pending (hflush : s.flush = some ⟨remaining, ∅⟩)
    (hruns : exec (BufferedTurnLedgerStore.step cfg) (order.map .applyPending ++ [.restoreMissing]) s = some t) :
    t.pending = s.pending := by
  induction order generalizing s remaining with
  | nil =>
    obtain ⟨u, hu, hend⟩ := Option.bind_eq_some_iff.mp hruns
    obtain ⟨-, rfl⟩ := step_restoreMissing hflush hu
    cases hend
    exact Finmap.union_empty
  | cons c order ih =>
    obtain ⟨u, hu, hrest⟩ := Option.bind_eq_some_iff.mp hruns
    obtain ⟨flush, value, hflush', -, rfl⟩ := step_applyPending hu
    obtain rfl := Option.some.inj (hflush.symm.trans hflush')
    have hpending := ih rfl hrest
    exact hpending

/-- Every staged value is written, over some files. -/
theorem rounds_succeed (hflush : s.flush = some ⟨remaining, ∅⟩) (hvalue : remaining.lookup chatId = some value)
    (hruns : exec (BufferedTurnLedgerStore.step cfg) (order.map .applyPending ++ [.restoreMissing]) s = some t)
    (hsucceeds : Meets (BufferedTurnLedgerStore.step cfg) (WriteSucceeds cfg)
      (order.map .applyPending ++ [.restoreMissing]) s) :
    ∃ files, (BufferedTurnLedgerStore.applyPending cfg files chatId value).2 = .ok () := by
  induction order generalizing s remaining with
  | nil =>
    obtain ⟨u, hu, -⟩ := Option.bind_eq_some_iff.mp hruns
    obtain ⟨rfl, -⟩ := step_restoreMissing hflush hu
    cases hvalue
  | cons c order ih =>
    obtain ⟨u, hu, hrest⟩ := Option.bind_eq_some_iff.mp hruns
    obtain ⟨hc, hsucceeds⟩ := hsucceeds u hu
    by_cases heq : c = chatId
    · subst heq
      exact ⟨s.inner, hc _ value hflush hvalue⟩
    · obtain ⟨flush, value', hflush', -, rfl⟩ := step_applyPending hu
      obtain rfl := Option.some.inj (hflush.symm.trans hflush')
      have hlookup : (remaining.erase c).lookup chatId = remaining.lookup chatId :=
        Finmap.lookup_erase_ne (Ne.symm heq)
      exact ih rfl (hlookup.trans hvalue) hrest hsucceeds

section
variable (h : SuccessfulFlush cfg s order t)
include h

/-- What a flush does as a whole: the chats are no more staged, and the history of
each is what its staged value makes of it. -/
theorem SuccessfulFlush.pending_eq (hflush : s.flush = none) : t.pending = ∅ := by
  obtain ⟨u, hu, hrest⟩ := Option.bind_eq_some_iff.mp h.runs
  simp only [BufferedTurnLedgerStore.step, hflush] at hu
  cases hu
  have hpending := rounds_pending rfl hrest
  exact hpending

theorem SuccessfulFlush.keptChat (hflush : s.flush = none) (hpaths : ChatPaths cfg chatId ledger history evidence)
    (halone : ∀ d ∈ s.pending, ledgerFilename d = ledgerFilename chatId → d = chatId)
    (hitems : KeptChat s.inner ledger history evidence items) :
    KeptChat t.inner ledger history evidence ((s.pending.lookup chatId).elim items (recordCall items)) := by
  obtain ⟨u, hu, hrest⟩ := Option.bind_eq_some_iff.mp h.runs
  simp only [BufferedTurnLedgerStore.step, hflush] at hu
  cases hu
  refine keptChat_rounds hpaths rfl halone ?_ hrest
  exact hitems

theorem SuccessfulFlush.written (hflush : s.flush = none) (hvalue : s.pending.lookup chatId = some value) :
    ∃ files, (BufferedTurnLedgerStore.applyPending cfg files chatId value).2 = .ok () := by
  obtain ⟨u, hu, hrest⟩ := Option.bind_eq_some_iff.mp h.runs
  obtain ⟨-, hsucceeds⟩ := h.succeeds u hu
  simp only [BufferedTurnLedgerStore.step, hflush] at hu
  cases hu
  exact rounds_succeed rfl hvalue hrest hsucceeds

end

end

/-! The reads of a chat before a flush and after it. -/

/-- The staged ledger comes to stand in the history where a read of the first
`limit` turns shows it while it is staged. -/
def InPlace (items : List (TurnLedger D)) (ledger : TurnLedger D) (limit : Nat) : Prop :=
  ((∀ existing ∈ items, ledger.replaces existing = false) ∧
      (items.length < turnLedgerHistoryMaxItems ∨ limit ≤ turnLedgerHistoryMaxItems)) ∨
    ∃ front newest, items = front ++ [newest] ∧ ledger.replaces newest = true ∧
      ∀ existing ∈ front, ledger.replaces existing = false

/-- The first turns of a history with a staged ledger. -/
def stagedRecent (items : List (TurnLedger D)) (ledger : TurnLedger D) (limit : Nat) : List (TurnLedger D) :=
  (ledger :: (items.reverse.take limit).filter fun existing => !ledger.replaces existing).take limit

section
omit [DecidableEq D]
variable {items : List (TurnLedger D)} {ledger : TurnLedger D} {limit : Nat}

theorem stagedRecent_of_none (h : ∀ existing ∈ items, ledger.replaces existing = false)
    (hlimit : items.length < turnLedgerHistoryMaxItems ∨ limit ≤ turnLedgerHistoryMaxItems) :
    stagedRecent items ledger limit = (recordTurn items ledger).reverse.take limit := by
  have hkept : (items.reverse.take limit).filter (fun existing => !ledger.replaces existing) =
      items.reverse.take limit := by
    refine List.filter_eq_self.mpr fun existing hmem => ?_
    rw [h existing (List.mem_reverse.mp (List.mem_of_mem_take hmem))]
    rfl
  rw [stagedRecent, hkept, recordTurn_of_none h]
  cases limit with
  | zero => rfl
  | succ limit =>
    rw [List.reverse_append, List.reverse_singleton, List.singleton_append, List.take_succ_cons,
      List.take_succ_cons, List.rtake_eq_reverse_take_reverse, List.reverse_reverse, List.take_take,
      List.take_take]
    congr 1
    rw [List.take_eq_take_iff, List.length_reverse]
    simp only [turnLedgerHistoryMaxItems] at hlimit ⊢
    omega

theorem stagedRecent_of_newest {front : List (TurnLedger D)} {newest : TurnLedger D}
    (hitems : (front ++ [newest]).length ≤ turnLedgerHistoryMaxItems) (hnewest : ledger.replaces newest = true)
    (hfront : ∀ existing ∈ front, ledger.replaces existing = false) :
    stagedRecent (front ++ [newest]) ledger limit =
      (recordTurn (front ++ [newest]) ledger).reverse.take limit := by
  have hkept (n : Nat) : (front.reverse.take n).filter (fun existing => !ledger.replaces existing) =
      front.reverse.take n := by
    refine List.filter_eq_self.mpr fun existing hmem => ?_
    rw [hfront existing (List.mem_reverse.mp (List.mem_of_mem_take hmem))]
    rfl
  have hany : (front ++ [newest]).any ledger.replaces = true := by simp [hnewest]
  rw [stagedRecent, recordTurn_of_any hitems hany, modifyFirst_concat hfront hnewest]
  cases limit with
  | zero => rfl
  | succ limit =>
    rw [List.reverse_append, List.reverse_append, List.reverse_singleton, List.reverse_singleton,
      List.singleton_append, List.singleton_append, List.take_succ_cons, List.take_succ_cons, List.take_succ_cons,
      List.filter_cons_of_neg (by simp [hnewest]), hkept, List.take_take, Nat.min_self]

section
variable (hitems : items.length ≤ turnLedgerHistoryMaxItems)
include hitems

theorem stagedRecent_of_inPlace
    (h : InPlace items ledger limit) : stagedRecent items ledger limit = (recordTurn items ledger).reverse.take limit := by
  rcases h with ⟨hnone, hlimit⟩ | ⟨front, newest, rfl, hnewest, hfront⟩
  · exact stagedRecent_of_none hnone hlimit
  · exact stagedRecent_of_newest hitems hnewest hfront

theorem mem_recordTurn : ledger ∈ recordTurn items ledger := by
  cases hany : items.any ledger.replaces with
  | true =>
    rw [recordTurn_of_any hitems hany]
    exact mem_modifyFirst_of_any hany ledger
  | false =>
    rw [recordTurn_of_none (by simpa using hany)]
    simp

end

end

/-- A ledger of an ended turn is staged for the chat. -/
def BufferedTurnLedgerStore.StagedEnd (s : BufferedTurnLedgerStore D) (chatId : String) (ledger : TurnLedger D) :
    Prop :=
  s.pending.lookup chatId = some (.set ledger) ∧ ledger.status.isTerminal = true

/-- The reads of a chat before a flush, in `s`, and after it, in `t`. -/
structure ReadsKept (cfg : LedgerConfig) (s t : BufferedTurnLedgerStore D) (chatId : String) : Prop where
  listRecent : ∀ limit,
    (∀ ledger items, s.StagedEnd chatId ledger → persistedHistory cfg s.inner chatId = .ok items →
      InPlace items ledger limit) →
    s.listRecent cfg chatId limit = t.listRecent cfg chatId limit
  evidence : (∀ ledger, ¬ s.StagedEnd chatId ledger) →
    s.recentPersonaEvidence cfg chatId = t.recentPersonaEvidence cfg chatId
  staged : ∀ ledger, s.StagedEnd chatId ledger →
    s.recentPersonaEvidence cfg chatId =
      .ok (deriveRecentPersonaEvidence [ledger] recentPersonaEvidenceMeaningfulTurns) ∧
    ∃ items, persistedHistory cfg t.inner chatId = .ok items ∧ ledger ∈ items ∧
      t.recentPersonaEvidence cfg chatId =
        .ok (deriveRecentPersonaEvidence items recentPersonaEvidenceMeaningfulTurns) ∧
      (s.recentPersonaEvidence cfg chatId = t.recentPersonaEvidence cfg chatId ↔
        items.countP (·.isRelevant) = [ledger].countP (·.isRelevant))

section
variable {cfg : LedgerConfig} {s t : BufferedTurnLedgerStore D} {chatId ledger history evidence : String}
  {items : List (TurnLedger D)} {order : List String}

omit [DecidableEq D] in
theorem persistedHistory_eq (hpaths : ChatPaths cfg chatId ledger history evidence)
    (h : KeptChat s.inner ledger history evidence items) : persistedHistory cfg s.inner chatId = .ok items := by
  rw [persistedHistory, hpaths.history]
  exact h.history

omit [DecidableEq D] in
/-- A read with nothing staged is a read of the wrapped store. -/
theorem listRecent_of_unstaged (hpaths : ChatPaths cfg chatId ledger history evidence)
    (h : KeptChat s.inner ledger history evidence items) (hpending : s.pending.lookup chatId = none) (limit : Nat) :
    s.listRecent cfg chatId limit = .ok (items.reverse.take limit) := by
  simp only [BufferedTurnLedgerStore.listRecent, h.listRecent hpaths, hpending, List.take_take, Nat.min_self]
  split
  · simp [*]
  · rfl

omit [DecidableEq D] in
theorem listRecent_of_staged (hpaths : ChatPaths cfg chatId ledger history evidence)
    (h : KeptChat s.inner ledger history evidence items) {value : PendingValue (TurnLedger D)}
    (hpending : s.pending.lookup chatId = some value) (limit : Nat)
    (hplace : ∀ last, value = .set last → last.status.isTerminal = true → InPlace items last limit) :
    s.listRecent cfg chatId limit = .ok ((recordCall items value).reverse.take limit) := by
  simp only [BufferedTurnLedgerStore.listRecent, h.listRecent hpaths, hpending]
  split
  · simp [*]
  · cases value with
    | clear => simp [recordCall]
    | set last =>
      cases hterminal : last.status.isTerminal with
      | false => simp [recordCall, hterminal, List.take_take]
      | true =>
        have hstaged := stagedRecent_of_inPlace h.bounded (hplace last rfl hterminal)
        simp only [recordCall, hterminal, if_true, ← hstaged]
        rfl

theorem readsKept_of_paths (hpaths : ChatPaths cfg chatId ledger history evidence)
    (h : SuccessfulFlush cfg s order t) (hflush : s.flush = none)
    (halone : ∀ d ∈ s.pending, ledgerFilename d = ledgerFilename chatId → d = chatId)
    (hitems : KeptChat s.inner ledger history evidence items) : ReadsKept cfg s t chatId := by
  have hafter := h.keptChat hflush hpaths halone hitems
  have hpending : t.pending.lookup chatId = none := by rw [h.pending_eq hflush, Finmap.lookup_empty]
  have hlist := listRecent_of_unstaged hpaths hafter hpending
  have hevidence : t.recentPersonaEvidence cfg chatId = .ok (deriveRecentPersonaEvidence
      ((s.pending.lookup chatId).elim items (recordCall items)) recentPersonaEvidenceMeaningfulTurns) := by
    simp only [BufferedTurnLedgerStore.recentPersonaEvidence, hpending]
    exact hafter.recentPersonaEvidence hpaths
  refine ⟨fun limit hplace => ?_, fun hrunning => ?_, fun last hstaged => ?_⟩
  · rw [hlist]
    cases hvalue : s.pending.lookup chatId with
    | none => exact listRecent_of_unstaged hpaths hitems hvalue limit
    | some value =>
      refine listRecent_of_staged hpaths hitems hvalue limit ?_
      rintro last rfl hterminal
      exact hplace last items ⟨hvalue, hterminal⟩ (persistedHistory_eq hpaths hitems)
  · rw [hevidence]
    have hinner := hitems.recentPersonaEvidence hpaths
    cases hvalue : s.pending.lookup chatId with
    | none =>
      simp only [BufferedTurnLedgerStore.recentPersonaEvidence, hvalue]
      exact hinner
    | some value =>
      cases value with
      | clear =>
        have hnone : deriveRecentPersonaEvidence ([] : List (TurnLedger D)) recentPersonaEvidenceMeaningfulTurns =
            none := (derive_eq_none_iff []).mpr rfl
        simp [BufferedTurnLedgerStore.recentPersonaEvidence, hvalue, recordCall, hnone]
      | set last =>
        have hterminal : last.status.isTerminal = false := by
          simpa [hvalue] using fun ht => hrunning last ⟨hvalue, ht⟩
        simp only [BufferedTurnLedgerStore.recentPersonaEvidence, hvalue, hterminal, Bool.false_eq_true, if_false,
          Option.elim_some, recordCall]
        exact hinner
  · obtain ⟨hvalue, hterminal⟩ := hstaged
    have hbefore : s.recentPersonaEvidence cfg chatId =
        .ok (deriveRecentPersonaEvidence [last] recentPersonaEvidenceMeaningfulTurns) := by
      simp [BufferedTurnLedgerStore.recentPersonaEvidence, hvalue, hterminal]
    have hitems' : (s.pending.lookup chatId).elim items (recordCall items) = recordTurn items last := by
      simp [hvalue, recordCall, hterminal]
    rw [hitems'] at hafter hevidence
    have hmem : last ∈ recordTurn items last := mem_recordTurn hitems.bounded
    refine ⟨hbefore, recordTurn items last, persistedHistory_eq hpaths hafter, hmem, hevidence, ?_⟩
    rw [hbefore, hevidence, Except.ok.injEq]
    exact derive_singleton_iff hmem

/-- A chat without a path for its history has nothing to read on either side. -/
theorem readsKept_of_error {e : Error} (hpath : historyPath cfg chatId = .error e)
    (h : SuccessfulFlush cfg s order t) (hflush : s.flush = none) : ReadsKept cfg s t chatId := by
  have hpending : t.pending.lookup chatId = none := by rw [h.pending_eq hflush, Finmap.lookup_empty]
  have hlist (u : BufferedTurnLedgerStore D) (limit : Nat) : u.listRecent cfg chatId limit =
      if limit = 0 then .ok [] else .error e := by
    simp only [BufferedTurnLedgerStore.listRecent, StorageTurnLedgerStore.listRecent, hpath]
    split
    · rfl
    · rfl
  have hend {last : TurnLedger D} (hvalue : s.pending.lookup chatId = some (.set last)) :
      last.status.isTerminal = false := by
    obtain ⟨files, hok⟩ := h.written hflush hvalue
    cases hterminal : last.status.isTerminal with
    | false => rfl
    | true =>
      simp only [BufferedTurnLedgerStore.applyPending, StorageTurnLedgerStore.set, hterminal, if_true,
        StorageTurnLedgerStore.appendHistory, hpath] at hok
      split at hok
      · cases hok
      · cases hok
  refine ⟨fun limit _ => by rw [hlist, hlist], fun _ => ?_, fun last hstaged => ?_⟩
  · cases hevidence : recentPersonaEvidencePath cfg chatId with
    | ok evidence =>
      obtain ⟨history, hhistory⟩ := historyPath_of_evidence hevidence
      cases hpath.symm.trans hhistory
    | error e' =>
      have herror (files : LedgerFiles D) :
          StorageTurnLedgerStore.recentPersonaEvidence cfg files chatId = .error e' := by
        simp only [StorageTurnLedgerStore.recentPersonaEvidence, hevidence]
      simp only [BufferedTurnLedgerStore.recentPersonaEvidence, hpending, herror]
      cases hvalue : s.pending.lookup chatId with
      | none => rfl
      | some value =>
        cases value with
        | set last => simp [hend hvalue]
        | clear =>
          obtain ⟨files, hok⟩ := h.written hflush hvalue
          simp only [BufferedTurnLedgerStore.applyPending, StorageTurnLedgerStore.clear, hpath] at hok
          split at hok
          · cases hok
          · cases hok
  · have hterminal := hend hstaged.1
    rw [hstaged.2] at hterminal
    cases hterminal

theorem readsKept (hfiles : WellKept cfg s.inner) (h : SuccessfulFlush cfg s order t) (hflush : s.flush = none)
    (halone : ∀ d ∈ s.pending, ledgerFilename d = ledgerFilename chatId → d = chatId) :
    ReadsKept cfg s t chatId := by
  cases hpath : historyPath cfg chatId with
  | error e => exact readsKept_of_error hpath h hflush
  | ok history =>
    obtain ⟨ledger, evidence, hpaths⟩ := chatPaths_of_history hpath
    obtain ⟨items, hitems⟩ := hfiles chatId ledger history evidence hpaths
    exact readsKept_of_paths hpaths h hflush halone hitems

end

theorem always_wellKept {cfg : LedgerConfig} {files : LedgerFiles D} (hfiles : WellKept cfg files)
    (actions : List (LedgerAction D)) :
    Always (BufferedTurnLedgerStore.step cfg) (fun s => WellKept cfg s.inner) actions ⟨files, ∅, none⟩ := by
  apply always_of_invariant (I := fun s : BufferedTurnLedgerStore D => WellKept cfg s.inner)
  · exact fun s a t hs hstep => wellKept_step hs hstep
  · exact hfiles

/-- In every state that calls and flushes reach from files as they leave them, the
reads of a chat whose files are its own are kept by a flush that succeeds. -/
theorem reads_kept_by_flush {cfg : LedgerConfig} {files : LedgerFiles D} (hfiles : WellKept cfg files)
    (actions : List (LedgerAction D)) :
    Always (BufferedTurnLedgerStore.step cfg)
      (fun s => s.flush = none → ∀ order t, SuccessfulFlush cfg s order t → ∀ chatId,
        (∀ d ∈ s.pending, ledgerFilename d = ledgerFilename chatId → d = chatId) → ReadsKept cfg s t chatId)
      actions ⟨files, ∅, none⟩ := by
  have hkept := always_wellKept hfiles actions
  refine hkept.mono fun s hs hflush order t h chatId halone => ?_
  exact readsKept hs h hflush halone

omit [DecidableEq D] in
theorem wellKept_none (cfg : LedgerConfig) : WellKept cfg (.none : LedgerFiles D) := by
  intro chatId ledger history evidence _
  exact ⟨[], rfl, Nat.zero_le _, ⟨none, rfl, by simp⟩, rfl⟩

theorem reads_kept_of_start :
    Always (BufferedTurnLedgerStore.step hostLedgerConfig)
      (fun s => s.flush = none → ∀ order t, SuccessfulFlush hostLedgerConfig s order t → ∀ chatId,
        (∀ d ∈ s.pending, ledgerFilename d = ledgerFilename chatId → d = chatId) →
          ReadsKept hostLedgerConfig s t chatId)
      [.write "a" (.set (plainTurn "r1" .running 1))] ⟨.none, ∅, none⟩ :=
  reads_kept_by_flush (wellKept_none hostLedgerConfig) _

/-- A user turn that declines to disclose. -/
def refusingTurn (reqId : String) (startedAtMs : Nat) : TurnLedger Unit :=
  { plainTurn reqId .answered startedAtMs with
    persona := some ⟨some .refuse, none, ⟨false, false⟩, [], .normal, 0, "", false⟩ }

/-- Two turns end, each before a flush, and the first one is ended again. -/
def endedAgain : List (LedgerAction Unit) :=
  .write "a" (.set (refusingTurn "r1" 1)) :: flushRun ["a"] ++ .write "a" (.set (refusingTurn "r2" 2)) ::
    flushRun ["a"] ++ [.write "a" (.set (refusingTurn "r1" 1))]

theorem reads_changed_by_flush :
    ¬ Always (BufferedTurnLedgerStore.step hostLedgerConfig)
        (fun s => s.flush = none → ∀ order t, SuccessfulFlush hostLedgerConfig s order t → ∀ limit,
          s.listRecent hostLedgerConfig "a" limit = t.listRecent hostLedgerConfig "a" limit)
        endedAgain ⟨.none, ∅, none⟩ ∧
      ¬ Always (BufferedTurnLedgerStore.step hostLedgerConfig)
        (fun s => s.flush = none → ∀ order t, SuccessfulFlush hostLedgerConfig s order t →
          s.recentPersonaEvidence hostLedgerConfig "a" = t.recentPersonaEvidence hostLedgerConfig "a")
        endedAgain ⟨.none, ∅, none⟩ := by
  obtain ⟨s, t, hs, hnone, hflush, hlist, hstaged, halone, hitems⟩ : ∃ s t,
      exec (BufferedTurnLedgerStore.step hostLedgerConfig) endedAgain ⟨.none, ∅, none⟩ = some s ∧ s.flush = none ∧
        SuccessfulFlush hostLedgerConfig s ["a"] t ∧
        (s.listRecent hostLedgerConfig "a" 2).toOption ≠ (t.listRecent hostLedgerConfig "a" 2).toOption ∧
        s.StagedEnd "a" (refusingTurn "r1" 1) ∧ (∀ d ∈ s.pending, d = "a") ∧
        (persistedHistory hostLedgerConfig t.inner "a").toOption =
          some [refusingTurn "r1" 1, refusingTurn "r2" 2] := by
    refine ⟨_, _, rfl, rfl, ⟨rfl, fun t ht => ⟨trivial, fun u _ => ⟨?_, fun v _ => ⟨trivial, trivial⟩⟩⟩⟩,
      by decide, ⟨rfl, rfl⟩, fun d hd => ?_, by decide⟩
    · cases ht
      rintro flush value ⟨⟩ ⟨⟩
      rfl
    · exact (Finmap.mem_insert.mp hd).resolve_right Finmap.notMem_empty
  have hkept := (always_wellKept (wellKept_none hostLedgerConfig) endedAgain).last hs
  refine ⟨fun h => ?_, fun h => ?_⟩
  · exact hlist (congrArg Except.toOption (h.last hs hnone ["a"] t hflush 2))
  · obtain ⟨-, items, hpersisted, -, -, hiff⟩ :=
      (readsKept hkept hflush hnone fun d hd _ => halone d hd).staged _ hstaged
    obtain rfl : items = [refusingTurn "r1" 1, refusingTurn "r2" 2] := by
      simpa [hpersisted, Except.toOption] using hitems
    exact absurd (hiff.mp (h.last hs hnone ["a"] t hflush)) (by decide)

end Beetle.Runtime.WriteBack
