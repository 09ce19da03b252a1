import Beetle.Util

/-! Turn ledgers, and what a chat keeps of its turns. -/
namespace Beetle.Memory
open Beetle.Lib

def turnLedgerHistoryMaxItems : Nat := 32

inductive IngressKind where
  | user
  | system
  deriving DecidableEq

inductive TurnLedgerStatus where
  | running
  | answered
  | interrupted
  | failed
  deriving DecidableEq

def TurnLedgerStatus.isTerminal (status : TurnLedgerStatus) : Bool := status ≠ .running

inductive TurnPersonaPressureLevel where
  | normal
  | cautious
  | critical
  deriving DecidableEq

inductive MentalPrivacyShareAction where
  | allowOriginal
  | allowRaw
  | allowSummary
  | allowRedactedExcerpt
  | explainWithoutQuote
  | refuse
  | defer
  deriving DecidableEq

structure TurnPersonaPriorityLedger where
  priorityOrder : List String
  responseMode : String
  taskScope : String
  initiativePosture : String
  relationshipPosture : String
  deriving DecidableEq

structure TurnPersonaReviewLedger where
  applied : Bool
  rewriteApplied : Bool
  deriving DecidableEq

structure TurnPersonaLedger where
  disclosure : Option MentalPrivacyShareAction
  priority : Option TurnPersonaPriorityLedger
  review : TurnPersonaReviewLedger
  touchedTargets : List String
  pressure : TurnPersonaPressureLevel
  toolCalls : Nat
  replyScope : String
  replyDelivered : Bool
  deriving DecidableEq

def TurnPersonaLedger.isMeaningful (persona : TurnPersonaLedger) : Bool :=
  persona.disclosure.isSome || persona.priority.isSome || persona.review.applied ||
    persona.review.rewriteApplied || !persona.touchedTargets.isEmpty || persona.pressure ≠ .normal ||
    0 < persona.toolCalls || trimStr persona.replyScope ≠ "" || persona.replyDelivered

/-- `details` stands for the fields that the stores only carry. -/
structure TurnLedger (D : Type) where
  reqId : String
  ingress : IngressKind
  status : TurnLedgerStatus
  canonicalReplySource : String
  startedAtMs : Nat
  updatedAtMs : Nat
  finishedAtMs : Nat
  finalReplyDelivered : Bool
  persona : Option TurnPersonaLedger
  details : D
  deriving DecidableEq

variable {D : Type} {items : List (TurnLedger D)} {ledger : TurnLedger D}

def turnLedgerObservedAtMs (ledger : TurnLedger D) : Nat :=
  if 0 < ledger.finishedAtMs then ledger.finishedAtMs
  else if 0 < ledger.updatedAtMs then ledger.updatedAtMs
  else ledger.startedAtMs

namespace TurnLedger

/-- A ledger names its turn by its request id or by the time it started at. -/
def NamesTurn (ledger : TurnLedger D) : Prop := trimStr ledger.reqId ≠ "" ∨ 0 < ledger.startedAtMs

/-- The entries of the history that are about the turn of the ledger. -/
@[grind =] def replaces (ledger existing : TurnLedger D) : Bool :=
  (trimStr ledger.reqId ≠ "" && existing.reqId == ledger.reqId) ||
    (0 < ledger.startedAtMs && existing.startedAtMs == ledger.startedAtMs)

/-- A later ledger of the same turn, which is to stand in its place. -/
structure Supersedes (last ledger : TurnLedger D) : Prop where
  terminal : last.status.isTerminal = true
  named : last.NamesTurn
  reqId : last.reqId = ledger.reqId
  startedAtMs : last.startedAtMs = ledger.startedAtMs

theorem replaces_self {ledger : TurnLedger D} (h : ledger.NamesTurn) : ledger.replaces ledger = true := by
  simpa [replaces, NamesTurn] using h

theorem Supersedes.replaces_eq {last ledger : TurnLedger D} (h : last.Supersedes ledger) :
    ledger.replaces = last.replaces := by
  funext existing
  simp only [replaces, h.reqId, h.startedAtMs]

theorem Supersedes.replaces {last ledger : TurnLedger D} (h : last.Supersedes ledger) :
    last.replaces ledger = true := by
  have hself := replaces_self h.named
  simpa only [TurnLedger.replaces, h.reqId, h.startedAtMs] using hself

end TurnLedger

/-- What `append_history` makes of the entries of a history. -/
@[grind =] def recordTurn (items : List (TurnLedger D)) (ledger : TurnLedger D) : List (TurnLedger D) :=
  let items :=
    if items.any ledger.replaces then modifyFirst ledger.replaces (fun _ => ledger) items
    else items ++ [ledger]
  items.rtake turnLedgerHistoryMaxItems

theorem length_recordTurn_le (items : List (TurnLedger D)) (ledger : TurnLedger D) :
    (recordTurn items ledger).length ≤ turnLedgerHistoryMaxItems :=
  (length_rtake _ _).trans_le (min_le_left _ _)

theorem recordTurn_of_any (hitems : items.length ≤ turnLedgerHistoryMaxItems) (h : items.any ledger.replaces = true) :
    recordTurn items ledger = modifyFirst ledger.replaces (fun _ => ledger) items := by
  simp only [recordTurn, h, if_true]
  exact rtake_of_length_le (by rwa [length_modifyFirst])

theorem recordTurn_of_none (h : ∀ existing ∈ items, ledger.replaces existing = false) :
    recordTurn items ledger = items.rtake (turnLedgerHistoryMaxItems - 1) ++ [ledger] := by
  have hany : items.any ledger.replaces = false := by simpa using h
  simp only [recordTurn, hany, Bool.false_eq_true, if_false, rtake_append]
  rfl

theorem recordTurn_ne_nil (items : List (TurnLedger D)) (ledger : TurnLedger D) :
    recordTurn items ledger ≠ [] := by
  intro h
  have hlength := congrArg List.length h
  simp only [recordTurn, length_rtake, turnLedgerHistoryMaxItems, List.length_nil] at hlength
  split at hlength
  · rename_i hany
    obtain ⟨existing, hmem, -⟩ := List.any_eq_true.mp hany
    have hpos := List.length_pos_of_mem hmem
    rw [length_modifyFirst] at hlength
    omega
  · rw [List.length_append, List.length_singleton] at hlength
    omega

section
variable (h : (recordTurn items ledger).length < turnLedgerHistoryMaxItems)
include h

/-- A history that is not full afterwards has lost nothing. -/
theorem recordTurn_eq_of_length_lt :
    items.length < turnLedgerHistoryMaxItems ∧ recordTurn items ledger =
      if items.any ledger.replaces then modifyFirst ledger.replaces (fun _ => ledger) items
      else items ++ [ledger] := by
  simp only [recordTurn, length_rtake] at h ⊢
  have hshort := Nat.lt_of_not_le fun hfull => Nat.lt_irrefl _ (Nat.min_eq_left hfull ▸ h)
  refine ⟨?_, rtake_of_length_le hshort.le⟩
  split at hshort
  · rwa [length_modifyFirst] at hshort
  · rw [List.length_append] at hshort
    omega

theorem mem_recordTurn_self : ledger ∈ recordTurn items ledger := by
  rw [(recordTurn_eq_of_length_lt h).2]
  split
  · rename_i hany
    exact mem_modifyFirst_of_any hany ledger
  · simp

end

theorem mem_recordTurn_of_mem {ledger earlier : TurnLedger D}
    (h : (recordTurn items ledger).length < turnLedgerHistoryMaxItems) (hmem : earlier ∈ items)
    (hkept : ledger.replaces earlier = false) : earlier ∈ recordTurn items ledger := by
  rw [(recordTurn_eq_of_length_lt h).2]
  split
  · exact mem_modifyFirst_of_mem hmem hkept
  · simp [hmem]

/-- Recording a ledger after one that it supersedes is recording it alone. -/
theorem recordTurn_of_supersedes {ledger last : TurnLedger D}
    (hitems : items.length ≤ turnLedgerHistoryMaxItems) (h : last.Supersedes ledger) :
    recordTurn (recordTurn items ledger) last = recordTurn items last := by
  have hledger : ∀ _ : TurnLedger D, last.replaces ledger = true := fun _ => h.replaces
  cases hany : items.any last.replaces with
  | true =>
    have hrecord : recordTurn items ledger = modifyFirst last.replaces (fun _ => ledger) items := by
      rw [recordTurn_of_any hitems (by rwa [h.replaces_eq]), h.replaces_eq]
    have hany' : (modifyFirst last.replaces (fun _ => ledger) items).any last.replaces = true := by
      rw [any_modifyFirst hledger, hany]
    rw [hrecord, recordTurn_of_any (by rwa [length_modifyFirst]) hany', modifyFirst_modifyFirst hledger,
      recordTurn_of_any hitems hany]
    rfl
  | false =>
    have hnone : ∀ existing ∈ items, last.replaces existing = false := by simpa using hany
    have hkept : ∀ existing ∈ items.rtake (turnLedgerHistoryMaxItems - 1), last.replaces existing = false :=
      fun existing hmem => hnone existing ((rtake_suffix _ _).subset hmem)
    have hrecord : recordTurn items ledger = items.rtake (turnLedgerHistoryMaxItems - 1) ++ [ledger] :=
      recordTurn_of_none (by rwa [h.replaces_eq])
    have hlength : (items.rtake (turnLedgerHistoryMaxItems - 1) ++ [ledger]).length ≤
        turnLedgerHistoryMaxItems := by
      rw [List.length_append, length_rtake, List.length_singleton]
      exact Nat.add_le_of_le_sub (by decide) (min_le_left _ _)
    rw [hrecord, recordTurn_of_any hlength (by simp [h.replaces]), modifyFirst_concat hkept h.replaces,
      recordTurn_of_none hnone]

/-- What a store holds of one chat, or the error that reading it gives. -/
@[ext]
structure ChatTurns (D : Type) where
  latest : Except Error (Option (TurnLedger D))
  history : Except Error (List (TurnLedger D))

namespace ChatTurns

def set (turns : ChatTurns D) (ledger : TurnLedger D) : ChatTurns D :=
  ⟨.ok (some ledger),
    if ledger.status.isTerminal then turns.history.map (recordTurn · ledger) else turns.history⟩

def cleared : ChatTurns D := ⟨.ok none, .ok []⟩

def listRecent (turns : ChatTurns D) (limit : Nat) : Except Error (List (TurnLedger D)) :=
  if limit = 0 then .ok []
  else
    match turns.history with
    | .error e => .error e
    | .ok [] => turns.latest.map fun latest => latest.toList.filter (·.status.isTerminal)
    | .ok items => .ok (items.reverse.take limit)

/-- The history is within its bound. -/
def Bounded (turns : ChatTurns D) : Prop :=
  ∀ items, turns.history = .ok items → items.length ≤ turnLedgerHistoryMaxItems

theorem bounded_cleared : (cleared : ChatTurns D).Bounded := by
  rintro _ ⟨⟩
  simp

variable {turns : ChatTurns D}

theorem Bounded.set (h : turns.Bounded) (ledger : TurnLedger D) : (turns.set ledger).Bounded := by
  intro items hitems
  unfold ChatTurns.set at hitems
  split at hitems
  · cases hhistory : turns.history with
    | error e => simp [hhistory, Except.map] at hitems
    | ok old =>
      obtain rfl : recordTurn old ledger = items := by simpa [hhistory, Except.map] using hitems
      exact length_recordTurn_le old ledger
  · exact h items hitems

theorem set_set (hturns : turns.Bounded) {ledger last : TurnLedger D}
    (h : ledger.status.isTerminal = true → last.Supersedes ledger) : (turns.set ledger).set last = turns.set last := by
  cases hterminal : ledger.status.isTerminal with
  | false => simp [ChatTurns.set, hterminal]
  | true =>
    have hsup := h hterminal
    have hlast := hsup.terminal
    cases hhistory : turns.history with
    | error e => simp [ChatTurns.set, hhistory, Except.map]
    | ok items =>
      have hrecord := recordTurn_of_supersedes (hturns items hhistory) hsup
      simp [ChatTurns.set, hhistory, Except.map, hterminal, hlast, hrecord]

/-- A ledger stands for those set before it when it supersedes the terminal ones among them. -/
theorem foldl_set (hturns : turns.Bounded) {front : List (TurnLedger D)}
    {last : TurnLedger D} (h : ∀ ledger ∈ front, ledger.status.isTerminal = true → last.Supersedes ledger) :
    (front ++ [last]).foldl ChatTurns.set turns = turns.set last := by
  induction front generalizing turns with
  | nil => rfl
  | cons ledger front ih =>
    rw [List.cons_append, List.foldl_cons, ih (hturns.set ledger) fun l hl => h l (by simp [hl]),
      set_set hturns (h ledger (by simp))]

end ChatTurns
end Beetle.Memory
