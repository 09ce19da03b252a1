import Beetle.Util
import Mathlib.Data.List.Sort

/-! Structured long-term memories: drafts, entries, and how a draft is merged into
the entry of its slot. -/
namespace Beetle.Memory
open Beetle.Lib

def maxLongTermMemoryItems : Nat := 96
def maxLongTermMemoryContentLen : Nat := 240
def maxLongTermMemoryKeywords : Nat := 8
def maxLongTermMemoryKeywordLen : Nat := 24
def maxLongTermMemoryTopicLen : Nat := 40
def maxLongTermMemorySupportingCitations : Nat := 6
def maxLongTermMemoryCitationLen : Nat := 96

inductive LongTermMemoryKind where
  | preference | profile | relationship | project | task | constraint | fact
  deriving DecidableEq

inductive LongTermMemoryConfidence where
  | low | medium | high
  deriving DecidableEq

inductive LongTermMemorySourceType where
  | conversation | manualTool | systemRuntime | externalObservation
  deriving DecidableEq

inductive LongTermMemorySourceScope where
  | chat | user | world
  deriving DecidableEq

inductive LongTermMemoryFreshness where
  | stable | dynamic | volatile
  deriving DecidableEq

inductive LongTermMemoryStaleHint where
  | none | reviewBeforeUse | verifyAgainstCurrentState
  deriving DecidableEq

structure LongTermMemoryEntry where
  id : String
  kind : LongTermMemoryKind
  topic : String
  content : String
  keywords : List String
  sourceChatId : Option String
  sourceType : LongTermMemorySourceType
  sourceScope : LongTermMemorySourceScope
  confidence : LongTermMemoryConfidence
  freshness : LongTermMemoryFreshness
  staleHint : LongTermMemoryStaleHint
  supportingCitations : List String
  evidenceCount : Nat
  createdAt : Nat
  updatedAt : Nat
  observedAt : Nat
  lastConfirmedAt : Nat
  sourceRevision : Nat
  lastUsedAt : Nat
  deriving DecidableEq

structure LongTermMemoryDraft where
  kind : LongTermMemoryKind
  topic : String
  content : String
  keywords : List String
  sourceChatId : Option String
  sourceType : Option LongTermMemorySourceType
  sourceScope : Option LongTermMemorySourceScope
  confidence : Option LongTermMemoryConfidence
  freshness : Option LongTermMemoryFreshness
  staleHint : Option LongTermMemoryStaleHint
  supportingCitations : List String
  evidenceCount : Option Nat
  observedAt : Option Nat
  lastConfirmedAt : Option Nat
  sourceRevision : Option Nat
  deriving DecidableEq

/-- A draft that names its confidence and its revision, and nothing else. -/
def plainDraft (topic content : String) (confidence : LongTermMemoryConfidence) (revision : Nat) :
    LongTermMemoryDraft where
  kind := .fact
  topic := topic
  content := content
  keywords := []
  sourceChatId := none
  sourceType := none
  sourceScope := none
  confidence := some confidence
  freshness := none
  staleHint := none
  supportingCitations := []
  evidenceCount := none
  observedAt := none
  lastConfirmedAt := none
  sourceRevision := some revision

structure LongTermMemorySlot where
  kind : LongTermMemoryKind
  topic : String

/-- The character tables of the standard library, with what Unicode says of them. -/
structure UnicodeTables where
  isAlphanumeric : Char → Bool
  toLowercase : Char → List Char
  strToLowercase : String → String
  toLowercase_toLowercase : ∀ c, ∀ lower ∈ toLowercase c, toLowercase lower = [lower]
  eq_underscore_of_toLowercase : ∀ c, '_' ∈ toLowercase c → c = '_'
  not_alphanumeric_underscore : isAlphanumeric '_' = false
  not_alphanumeric_whitespace : ∀ c, isWhitespace c = true → isAlphanumeric c = false

/-- The tables on texts of lower-case ASCII letters and the dotted capital I. -/
def lowerTables : UnicodeTables where
  isAlphanumeric c := c.isLower || c == 'İ'
  toLowercase c := if c = 'İ' then ['i', '\u0307'] else [c]
  strToLowercase s := s
  toLowercase_toLowercase c lower h := by
    have hne : lower ≠ 'İ' := by
      split at h
      · rintro rfl
        simp at h
      · rename_i hc
        rwa [List.mem_singleton.mp h]
    rw [if_neg hne]
  eq_underscore_of_toLowercase c h := by
    split at h
    · simp at h
    · exact (List.mem_singleton.mp h).symm
  not_alphanumeric_underscore := by decide
  not_alphanumeric_whitespace c h := by
    simp only [Bool.or_eq_false_iff, beq_eq_false_iff_ne]
    constructor
    · by_contra hlower
      have hbounds : 97 ≤ c.toNat ∧ c.toNat ≤ 122 := by
        change ¬ (decide (c.val ≥ 'a'.val) && decide (c.val ≤ 'z'.val)) = false at hlower
        simpa [UInt32.le_iff_toNat_le] using hlower
      simp only [isWhitespace, Bool.or_eq_true, Bool.and_eq_true, decide_eq_true_eq, beq_iff_eq] at h
      omega
    · rintro rfl
      exact absurd h (by decide)

/-- The longest prefix of at most `max` bytes that ends between two characters. -/
def takeBytes : Nat → List Char → List Char
  | _, [] => []
  | max, c :: cs => if c.utf8Size ≤ max then c :: takeBytes (max - c.utf8Size) cs else []

def truncateUtf8Bytes (input : String) (maxBytes : Nat) : String :=
  if input.utf8ByteSize ≤ maxBytes then input else trimStr (String.ofList (takeBytes maxBytes input.toList))

/-- The loop that collects normalized texts, each once, up to a bound. -/
def collectDistinct (bound minLen : Nat) (normalize : String → String) : List String → List String → List String
  | collected, [] => collected
  | collected, raw :: rest =>
    let normalized := normalize raw
    if normalized.utf8ByteSize < minLen ∨ normalized ∈ collected then
      collectDistinct bound minLen normalize collected rest
    else if bound ≤ (collected ++ [normalized]).length then collected ++ [normalized]
    else collectDistinct bound minLen normalize (collected ++ [normalized]) rest

def normalizeSupportingCitations (values : List String) : List String :=
  collectDistinct maxLongTermMemorySupportingCitations 1
    (fun raw => truncateUtf8Bytes (trimStr raw) maxLongTermMemoryCitationLen) [] values

def effectiveEvidenceCount (citationCount evidenceCount : Nat) : Nat := max evidenceCount citationCount

def saturatingAddU32 (a b : Nat) : Nat := min (a + b) (2 ^ 32 - 1)

def staleHintRank : LongTermMemoryStaleHint → Nat
  | .none => 0
  | .reviewBeforeUse => 1
  | .verifyAgainstCurrentState => 2

def strictestStaleHint (left right : LongTermMemoryStaleHint) : LongTermMemoryStaleHint :=
  if staleHintRank right ≤ staleHintRank left then left else right

def confidenceRank : LongTermMemoryConfidence → Nat
  | .low => 0
  | .medium => 1
  | .high => 2

structure LongTermMemoryResolvedMeta where
  sourceType : LongTermMemorySourceType
  sourceScope : LongTermMemorySourceScope
  confidence : LongTermMemoryConfidence
  freshness : LongTermMemoryFreshness
  staleHint : LongTermMemoryStaleHint

def inferLongTermMemorySourceScope (kind : LongTermMemoryKind) (sourceChatId : Option String) :
    Option LongTermMemorySourceScope → LongTermMemorySourceScope
  | some .chat =>
    if sourceChatId.isSome then .chat
    else
      match kind with
      | .fact => .world
      | _ => .user
  | some scope => scope
  | none =>
    match kind with
    | .project | .task => if sourceChatId.isSome then .chat else .user
    | .fact => .world
    | _ => .user

def inferLongTermMemoryConfidence (kind : LongTermMemoryKind) (sourceType : LongTermMemorySourceType)
    (requested : Option LongTermMemoryConfidence) : LongTermMemoryConfidence :=
  requested.getD <|
    match sourceType with
    | .manualTool => .high
    | .externalObservation | .systemRuntime => .medium
    | .conversation =>
      match kind with
      | .preference | .profile | .constraint => .high
      | .relationship | .project | .task | .fact => .medium

def inferLongTermMemoryFreshness (kind : LongTermMemoryKind) (requested : Option LongTermMemoryFreshness) :
    LongTermMemoryFreshness :=
  requested.getD <|
    match kind with
    | .task => .volatile
    | .project | .relationship | .fact => .dynamic
    | .preference | .profile | .constraint => .stable

def inferLongTermMemoryStaleHint (freshness : LongTermMemoryFreshness)
    (requested : Option LongTermMemoryStaleHint) : LongTermMemoryStaleHint :=
  requested.getD <|
    match freshness with
    | .stable => .none
    | .dynamic => .reviewBeforeUse
    | .volatile => .verifyAgainstCurrentState

def resolveLongTermMemoryMeta (draft : LongTermMemoryDraft) : LongTermMemoryResolvedMeta :=
  let sourceType := draft.sourceType.getD .conversation
  let freshness := inferLongTermMemoryFreshness draft.kind draft.freshness
  { sourceType
    sourceScope := inferLongTermMemorySourceScope draft.kind draft.sourceChatId draft.sourceScope
    confidence := inferLongTermMemoryConfidence draft.kind sourceType draft.confidence
    freshness
    staleHint := inferLongTermMemoryStaleHint freshness draft.staleHint }

/-- `str::trim_matches` of one character. -/
def trimMatches (ch : Char) (cs : List Char) : List Char := (cs.dropWhile (· = ch)).rdropWhile (· = ch)

namespace UnicodeTables
variable (tables : UnicodeTables)

/-- The characters that a topic keeps. -/
def isTopicChar (ch : Char) : Bool := tables.isAlphanumeric ch || isCjk ch

/-- The inner loop of `normalize_topic`: up to the first character that does not fit. -/
def pushLowercase (out : List Char) : List Char → List Char
  | [] => out
  | lower :: rest =>
    if maxLongTermMemoryTopicLen < (utf8 out).length + lower.utf8Size then out
    else pushLowercase (out ++ [lower]) rest

def normalizeTopicFrom (out : List Char) (prevSep : Bool) : List Char → List Char
  | [] => out
  | ch :: input =>
    let (out, prevSep) :=
      if tables.isTopicChar ch then (pushLowercase out (tables.toLowercase ch), false)
      else if prevSep = false ∧ out ≠ [] then (out ++ ['_'], true)
      else (out, prevSep)
    if maxLongTermMemoryTopicLen ≤ (utf8 out).length then out else normalizeTopicFrom out prevSep input

def normalizeTopic (input : String) : String :=
  String.ofList (trimMatches '_' (tables.normalizeTopicFrom [] false input.toList))

def normalizeKeywords (keywords : List String) : List String :=
  collectDistinct maxLongTermMemoryKeywords 2
    (fun raw => truncateUtf8Bytes (tables.strToLowercase (trimStr raw)) maxLongTermMemoryKeywordLen) [] keywords

/-- `LongTermMemoryDraft::normalized`. -/
def normalizedDraft (draft : LongTermMemoryDraft) : Option LongTermMemoryDraft :=
  let topic := tables.normalizeTopic (trimStr draft.topic)
  if topic = "" then none
  else
    let content := truncateUtf8Bytes (trimStr draft.content) maxLongTermMemoryContentLen
    if content = "" then none
    else
      some { draft with
        topic
        content
        keywords := tables.normalizeKeywords draft.keywords
        sourceChatId := (draft.sourceChatId.map trimStr).filter (· ≠ "")
        supportingCitations := normalizeSupportingCitations draft.supportingCitations
        evidenceCount := draft.evidenceCount.filter (0 < ·)
        observedAt := draft.observedAt.filter (0 < ·)
        lastConfirmedAt := draft.lastConfirmedAt.filter (0 < ·)
        sourceRevision := draft.sourceRevision.filter (0 < ·) }

/-- `LongTermMemorySlot::normalized`. -/
def normalizedSlot (slot : LongTermMemorySlot) : Option LongTermMemorySlot :=
  let topic := tables.normalizeTopic (trimStr slot.topic)
  if topic = "" then none else some { slot with topic }

end UnicodeTables

def draftIsOlderThanExisting (existing : LongTermMemoryEntry) (incomingObservedAt incomingSourceRevision : Nat) :
    Bool :=
  (0 < incomingSourceRevision ∧ 0 < existing.sourceRevision ∧ incomingSourceRevision < existing.sourceRevision) ∨
    (0 < incomingObservedAt ∧ 0 < existing.observedAt ∧ incomingObservedAt < existing.observedAt)

/-- The keywords of the draft that are new, after those of the entry. -/
def mergeKeywords (merged keywords : List String) : List String :=
  (keywords.foldl (fun merged keyword => if keyword ∈ merged then merged else merged ++ [keyword]) merged).take
    maxLongTermMemoryKeywords

/-- Also counts the new ones. -/
def mergeCitations (merged : List String) (newCount : Nat) : List String → List String × Nat
  | [] => (merged, newCount)
  | citation :: rest =>
    if citation ∈ merged then mergeCitations merged newCount rest
    else if maxLongTermMemorySupportingCitations ≤ (merged ++ [citation]).length then
      (merged ++ [citation], saturatingAddU32 newCount 1)
    else mergeCitations (merged ++ [citation]) (saturatingAddU32 newCount 1) rest

/-- The end of a merge. Every assignment of the source is guarded by a comparison, so
that `changed` says whether a field differs. -/
def finishMerge (existing merged : LongTermMemoryEntry) (nowSecs : Nat) : LongTermMemoryEntry × Bool :=
  if merged = existing then (existing, false) else ({ merged with updatedAt := nowSecs }, true)

theorem finishMerge_eq (entry merged : LongTermMemoryEntry) (nowSecs : Nat) :
    (finishMerge entry merged nowSecs).1 =
      { merged with updatedAt := (finishMerge entry merged nowSecs).1.updatedAt } := by
  rw [finishMerge]
  split
  · rename_i heq
    rw [heq]
  · rfl

/-- The evidence of an entry that keeps its content. -/
def mergeEvidence (existing : LongTermMemoryEntry) (incomingCitations : List String)
    (incomingEvidenceCount incomingLastConfirmedAt : Nat) : LongTermMemoryEntry :=
  let baseEvidenceCount := effectiveEvidenceCount existing.supportingCitations.length existing.evidenceCount
  let (citations, newCitationCount) := mergeCitations existing.supportingCitations 0 incomingCitations
  let confirmationBump :=
    if newCitationCount = 0 ∧ 0 < incomingEvidenceCount ∧ existing.lastConfirmedAt < incomingLastConfirmedAt then 1
    else 0
  { existing with
    supportingCitations := citations
    evidenceCount := saturatingAddU32
      (max (saturatingAddU32 baseEvidenceCount newCitationCount) incomingEvidenceCount) confirmationBump
    lastConfirmedAt := max existing.lastConfirmedAt incomingLastConfirmedAt }

@[grind =] def mergeLongTermMemoryEntry (tables : UnicodeTables) (existing : LongTermMemoryEntry)
    (draft : LongTermMemoryDraft) (nowSecs : Nat) : LongTermMemoryEntry × Bool :=
  match tables.normalizedDraft draft with
  | none => (existing, false)
  | some normalized =>
    let resolved := resolveLongTermMemoryMeta normalized
    let incomingObservedAt := normalized.observedAt.getD nowSecs
    let incomingLastConfirmedAt := max (normalized.lastConfirmedAt.getD incomingObservedAt) incomingObservedAt
    let incomingSourceRevision := normalized.sourceRevision.getD 0
    let incomingCitations := normalizeSupportingCitations normalized.supportingCitations
    let incomingEvidenceCount :=
      effectiveEvidenceCount incomingCitations.length (normalized.evidenceCount.getD 0)
    let incomingIsOlder := draftIsOlderThanExisting existing incomingObservedAt incomingSourceRevision
    let contentChanged : Bool := existing.content ≠ normalized.content
    let canReplaceContent : Bool :=
      !incomingIsOlder && decide (confidenceRank existing.confidence ≤ confidenceRank resolved.confidence)
    if contentChanged && incomingIsOlder then (existing, false)
    else if contentChanged && !canReplaceContent then
      let staleHint := strictestStaleHint existing.staleHint .verifyAgainstCurrentState
      finishMerge existing { existing with staleHint } nowSecs
    else
      let merged :=
        if contentChanged then
          { existing with
            content := normalized.content
            keywords := normalized.keywords
            supportingCitations := incomingCitations
            evidenceCount := incomingEvidenceCount
            lastConfirmedAt := incomingLastConfirmedAt }
        else
          { mergeEvidence existing incomingCitations incomingEvidenceCount incomingLastConfirmedAt with
            keywords := mergeKeywords existing.keywords normalized.keywords }
      if incomingIsOlder then finishMerge existing merged nowSecs
      else
        finishMerge existing
          { merged with
            sourceChatId := normalized.sourceChatId.or existing.sourceChatId
            sourceType := resolved.sourceType
            sourceScope := resolved.sourceScope
            confidence := resolved.confidence
            freshness := resolved.freshness
            staleHint := resolved.staleHint
            observedAt := incomingObservedAt
            sourceRevision := incomingSourceRevision } nowSecs

inductive LongTermMemoryMergeGuardDecision where
  | allow | rejectOlderObservation | rejectLowerConfidenceContent
  deriving DecidableEq

def inspectLongTermMemoryMergeGuard (tables : UnicodeTables) (existing : LongTermMemoryEntry)
    (draft : LongTermMemoryDraft) (nowSecs : Nat) : LongTermMemoryMergeGuardDecision :=
  match tables.normalizedDraft draft with
  | none => .allow
  | some normalized =>
    let resolved := resolveLongTermMemoryMeta normalized
    let incomingIsOlder := draftIsOlderThanExisting existing (normalized.observedAt.getD nowSecs)
      (normalized.sourceRevision.getD 0)
    if existing.content = normalized.content then .allow
    else if incomingIsOlder then .rejectOlderObservation
    else if confidenceRank resolved.confidence < confidenceRank existing.confidence then .rejectLowerConfidenceContent
    else .allow

/-- `canonicalize_long_term_memory_entry`: what becomes of an entry that is read from the file. -/
def canonicalizeLongTermMemoryEntry (tables : UnicodeTables) (entry : LongTermMemoryEntry) :
    Option LongTermMemoryEntry :=
  let topic :=
    if tables.normalizeTopic entry.topic ≠ "" then tables.normalizeTopic entry.topic
    else
      ((entry.keywords.head?.map tables.normalizeTopic).filter (· ≠ "")).getD (tables.normalizeTopic entry.content)
  if topic = "" then none
  else
    let content := truncateUtf8Bytes (trimStr entry.content) maxLongTermMemoryContentLen
    if content = "" then none
    else
      let supportingCitations := normalizeSupportingCitations entry.supportingCitations
      let updatedAt := if entry.updatedAt = 0 then entry.createdAt else entry.updatedAt
      let observedAt := if entry.observedAt = 0 then max updatedAt entry.createdAt else entry.observedAt
      let freshness := inferLongTermMemoryFreshness entry.kind (some entry.freshness)
      some { entry with
        topic
        content
        keywords := tables.normalizeKeywords entry.keywords
        supportingCitations
        evidenceCount := effectiveEvidenceCount supportingCitations.length entry.evidenceCount
        updatedAt
        observedAt
        lastConfirmedAt := if entry.lastConfirmedAt = 0 then observedAt else entry.lastConfirmedAt
        sourceScope := inferLongTermMemorySourceScope entry.kind entry.sourceChatId (some entry.sourceScope)
        confidence := inferLongTermMemoryConfidence entry.kind entry.sourceType (some entry.confidence)
        freshness
        staleHint := inferLongTermMemoryStaleHint freshness (some entry.staleHint) }

def longTermMemoryEntryFromDraft (tables : UnicodeTables) (draft : LongTermMemoryDraft) (id : String)
    (nowSecs : Nat) : Option LongTermMemoryEntry :=
  (tables.normalizedDraft draft).map fun normalized =>
    let resolved := resolveLongTermMemoryMeta normalized
    let observedAt := normalized.observedAt.getD nowSecs
    let supportingCitations := normalizeSupportingCitations normalized.supportingCitations
    { id
      kind := normalized.kind
      topic := normalized.topic
      content := normalized.content
      keywords := normalized.keywords
      sourceChatId := normalized.sourceChatId
      sourceType := resolved.sourceType
      sourceScope := resolved.sourceScope
      confidence := resolved.confidence
      freshness := resolved.freshness
      staleHint := resolved.staleHint
      supportingCitations
      evidenceCount := effectiveEvidenceCount supportingCitations.length (normalized.evidenceCount.getD 0)
      createdAt := nowSecs
      updatedAt := nowSecs
      observedAt
      lastConfirmedAt := max (normalized.lastConfirmedAt.getD observedAt) observedAt
      sourceRevision := draft.sourceRevision.getD 0
      lastUsedAt := 0 }

/-! Which entries are kept. -/

def longTermMemoryTaskTtlSecs : Nat := 45 * 86400
def longTermMemoryProjectTtlSecs : Nat := 180 * 86400

def entryObservedAt (entry : LongTermMemoryEntry) : Nat :=
  max (max (max entry.lastConfirmedAt entry.observedAt) entry.updatedAt) entry.createdAt

def kindBudget : LongTermMemoryKind → Nat
  | .preference => 18
  | .profile => 12
  | .relationship => 8
  | .project => 16
  | .task => 12
  | .constraint => 12
  | .fact => 18

def isStale (entry : LongTermMemoryEntry) (nowSecs : Nat) : Bool :=
  let observedAt := entryObservedAt entry
  if nowSecs = 0 ∨ observedAt = 0 ∨ nowSecs < observedAt then false
  else
    let ageSecs := nowSecs - observedAt
    (match entry.kind with
      | .task => decide (longTermMemoryTaskTtlSecs < ageSecs)
      | .project => decide (longTermMemoryProjectTtlSecs < ageSecs)
      | _ => false) ||
      (entry.freshness = .volatile && decide (longTermMemoryProjectTtlSecs < ageSecs))

/-- The order of governance: the newest first. -/
def newerFirst (a b : LongTermMemoryEntry) : Prop :=
  entryObservedAt b < entryObservedAt a ∨ entryObservedAt b = entryObservedAt a ∧
    (b.updatedAt < a.updatedAt ∨ b.updatedAt = a.updatedAt ∧ b.createdAt ≤ a.createdAt)

instance : DecidableRel newerFirst := fun a b => by
  unfold newerFirst
  exact inferInstance

/-- The loop over the sorted entries, with a budget for each kind. -/
def keepWithinBudget (kept : List LongTermMemoryEntry) : List LongTermMemoryEntry → List LongTermMemoryEntry
  | [] => kept
  | entry :: entries =>
    if kindBudget entry.kind ≤ kept.countP (fun other => other.kind = entry.kind) then keepWithinBudget kept entries
    else keepWithinBudget (kept ++ [entry]) entries

/-- Also says whether any entry was dropped. -/
def governLongTermMemoryEntries (entries : List LongTermMemoryEntry) (nowSecs : Nat) :
    List LongTermMemoryEntry × Bool :=
  let fresh := entries.filter fun entry => !isStale entry nowSecs
  let kept := (keepWithinBudget [] (fresh.insertionSort newerFirst)).take maxLongTermMemoryItems
  (kept, decide (kept.length ≠ entries.length))

end Beetle.Memory
