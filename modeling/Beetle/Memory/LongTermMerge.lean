import Beetle.Memory.LongTermRollback

/-! The merge of a draft statement by statement, as the source writes it: every field is
compared and assigned on its own, and a flag is set by hand at each assignment. -/
namespace Beetle.Memory
open Beetle.Lib

/-- The entry that is merged into, and the flag that says whether anything was assigned. -/
structure Merging where
  entry : LongTermMemoryEntry
  changed : Bool

/-- A field of an entry, as the merge reads and writes it. -/
structure EntryField (α : Type) where
  get : LongTermMemoryEntry → α
  set : LongTermMemoryEntry → α → LongTermMemoryEntry
  get_set : ∀ entry value, get (set entry value) = value
  set_get : ∀ entry, set entry (get entry) = entry

namespace EntryField

def keywords : EntryField (List String) where
  get entry := entry.keywords
  set entry value := { entry with keywords := value }
  get_set _ _ := rfl
  set_get _ := rfl

def supportingCitations : EntryField (List String) where
  get entry := entry.supportingCitations
  set entry value := { entry with supportingCitations := value }
  get_set _ _ := rfl
  set_get _ := rfl

def evidenceCount : EntryField Nat where
  get entry := entry.evidenceCount
  set entry value := { entry with evidenceCount := value }
  get_set _ _ := rfl
  set_get _ := rfl

def sourceChatId : EntryField (Option String) where
  get entry := entry.sourceChatId
  set entry value := { entry with sourceChatId := value }
  get_set _ _ := rfl
  set_get _ := rfl

def sourceType : EntryField LongTermMemorySourceType where
  get entry := entry.sourceType
  set entry value := { entry with sourceType := value }
  get_set _ _ := rfl
  set_get _ := rfl

def sourceScope : EntryField LongTermMemorySourceScope where
  get entry := entry.sourceScope
  set entry value := { entry with sourceScope := value }
  get_set _ _ := rfl
  set_get _ := rfl

def confidence : EntryField LongTermMemoryConfidence where
  get entry := entry.confidence
  set entry value := { entry with confidence := value }
  get_set _ _ := rfl
  set_get _ := rfl

def freshness : EntryField LongTermMemoryFreshness where
  get entry := entry.freshness
  set entry value := { entry with freshness := value }
  get_set _ _ := rfl
  set_get _ := rfl

def staleHint : EntryField LongTermMemoryStaleHint where
  get entry := entry.staleHint
  set entry value := { entry with staleHint := value }
  get_set _ _ := rfl
  set_get _ := rfl

def observedAt : EntryField Nat where
  get entry := entry.observedAt
  set entry value := { entry with observedAt := value }
  get_set _ _ := rfl
  set_get _ := rfl

def sourceRevision : EntryField Nat where
  get entry := entry.sourceRevision
  set entry value := { entry with sourceRevision := value }
  get_set _ _ := rfl
  set_get _ := rfl

end EntryField

namespace Merging

/-- The statement `if allowed && existing.field != value`, with its assignment. -/
def assignWhen {α : Type} [DecidableEq α] (allowed : Bool) (field : EntryField α) (value : α) (m : Merging) : Merging :=
  if allowed = true ∧ field.get m.entry ≠ value then ⟨field.set m.entry value, true⟩ else m

@[grind =] def assign {α : Type} [DecidableEq α] (field : EntryField α) (value : α) (m : Merging) : Merging :=
  m.assignWhen true field value

/-- The only assignments that nothing is compared for. -/
def replaceContent (content : String) (citations : List String) (evidenceCount lastConfirmedAt : Nat) (m : Merging) :
    Merging :=
  ⟨{ m.entry with content, supportingCitations := citations, evidenceCount, lastConfirmedAt }, true⟩

/-- This field is only ever raised. -/
def confirm (incomingLastConfirmedAt : Nat) (m : Merging) : Merging :=
  if m.entry.lastConfirmedAt < incomingLastConfirmedAt then
    ⟨{ m.entry with lastConfirmedAt := incomingLastConfirmedAt }, true⟩
  else m

/-- The block that an unchanged content runs through. -/
def addEvidence (incomingCitations : List String) (incomingEvidenceCount incomingLastConfirmedAt : Nat) (m : Merging) :
    Merging :=
  let baseEvidenceCount := effectiveEvidenceCount m.entry.supportingCitations.length m.entry.evidenceCount
  let (mergedCitations, newCitationCount) := mergeCitations m.entry.supportingCitations 0 incomingCitations
  let newerConfirmation := m.entry.lastConfirmedAt < incomingLastConfirmedAt
  let confirmationBump := if newCitationCount = 0 ∧ 0 < incomingEvidenceCount ∧ newerConfirmation then 1 else 0
  let mergedEvidenceCount := saturatingAddU32
    (max (saturatingAddU32 baseEvidenceCount newCitationCount) incomingEvidenceCount) confirmationBump
  ((m.assign .supportingCitations mergedCitations).assign .evidenceCount mergedEvidenceCount).confirm
    incomingLastConfirmedAt

def adoptChat (allowed : Bool) (sourceChatId : Option String) (m : Merging) : Merging :=
  match sourceChatId.filter fun _ => allowed with
  | none => m
  | some sourceChatId => m.assign .sourceChatId (some sourceChatId)

/-- The fields that a draft that is older leaves alone. -/
@[grind =] def adopt (allowed : Bool) (sourceChatId : Option String) (resolved : LongTermMemoryResolvedMeta)
    (incomingObservedAt incomingSourceRevision : Nat) (m : Merging) : Merging :=
  let m := m.adoptChat allowed sourceChatId
  let m := m.assignWhen allowed .sourceType resolved.sourceType
  let m := m.assignWhen allowed .sourceScope resolved.sourceScope
  let m := m.assignWhen allowed .confidence resolved.confidence
  let m := m.assignWhen allowed .freshness resolved.freshness
  let m := m.assignWhen allowed .staleHint resolved.staleHint
  let m := m.assignWhen allowed .observedAt incomingObservedAt
  m.assignWhen allowed .sourceRevision incomingSourceRevision

def finish (nowSecs : Nat) (m : Merging) : LongTermMemoryEntry × Bool :=
  if m.changed = true ∧ m.entry.updatedAt ≠ nowSecs then ({ m.entry with updatedAt := nowSecs }, true)
  else (m.entry, m.changed)

end Merging

/-- `merge_long_term_memory_entry`. -/
def mergeLongTermMemoryEntryInPlace (tables : UnicodeTables) (existing : LongTermMemoryEntry)
    (draft : LongTermMemoryDraft) (nowSecs : Nat) : LongTermMemoryEntry × Bool :=
  match tables.normalizedDraft draft with
  | none => (existing, false)
  | some normalized =>
    let resolved := resolveLongTermMemoryMeta normalized
    let incomingObservedAt := normalized.observedAt.getD nowSecs
    let incomingLastConfirmedAt := max (normalized.lastConfirmedAt.getD incomingObservedAt) incomingObservedAt
    let incomingSourceRevision := normalized.sourceRevision.getD 0
    let incomingCitations := normalizeSupportingCitations normalized.supportingCitations
    let incomingEvidenceCount :=
      effectiveEvidenceCount incomingCitations.length (normalized.evidenceCount.getD 0)
    let incomingIsOlder := draftIsOlderThanExisting existing incomingObservedAt incomingSourceRevision
    let contentChanged : Bool := existing.content ≠ normalized.content
    let canReplaceContent : Bool :=
      !incomingIsOlder && decide (confidenceRank existing.confidence ≤ confidenceRank resolved.confidence)
    let m : Merging := ⟨existing, false⟩
    if contentChanged && incomingIsOlder then (m.entry, false)
    else if contentChanged && !canReplaceContent then
      let nextHint := strictestStaleHint m.entry.staleHint .verifyAgainstCurrentState
      (m.assign .staleHint nextHint).finish nowSecs
    else
      let m :=
        if contentChanged && canReplaceContent then
          m.replaceContent normalized.content incomingCitations incomingEvidenceCount incomingLastConfirmedAt
        else m
      let mergedKeywords :=
        if contentChanged && canReplaceContent then normalized.keywords
        else mergeKeywords m.entry.keywords normalized.keywords
      let m := m.assign .keywords mergedKeywords
      let m :=
        if contentChanged then m
        else m.addEvidence incomingCitations incomingEvidenceCount incomingLastConfirmedAt
      (m.adopt (!incomingIsOlder) normalized.sourceChatId resolved incomingObservedAt incomingSourceRevision).finish
        nowSecs

section
variable {existing : LongTermMemoryEntry} {m : Merging} {nowSecs : Nat} {α : Type}

/-- An assignment that is skipped would have written what is there. -/
theorem Merging.entry_assignWhen [DecidableEq α] (allowed : Bool) (field : EntryField α) (value : α) (m : Merging) :
    (m.assignWhen allowed field value).entry = if allowed then field.set m.entry value else m.entry := by
  rw [assignWhen]
  by_cases heq : field.get m.entry = value
  · rw [if_neg (by simp [heq]), ← heq, field.set_get, ite_self]
  · cases allowed with
    | false => simp
    | true => simp [heq]

@[simp] theorem Merging.assignWhen_false [DecidableEq α] (field : EntryField α) (value : α) (m : Merging) :
    m.assignWhen false field value = m := by
  simp [assignWhen]

theorem Merging.entry_confirm (incomingLastConfirmedAt : Nat) (m : Merging) :
    (m.confirm incomingLastConfirmedAt).entry =
      { m.entry with lastConfirmedAt := max m.entry.lastConfirmedAt incomingLastConfirmedAt } := by
  rw [confirm]
  split
  · rename_i hlt
    rw [max_eq_right hlt.le]
  · rename_i hle
    rw [max_eq_left (Nat.not_lt.mp hle)]

/-- The flag says whether the entry differs from the one there was. -/
def Tracks (existing : LongTermMemoryEntry) (m : Merging) : Prop := m.changed = true ↔ m.entry ≠ existing

theorem tracks_start (existing : LongTermMemoryEntry) : Tracks existing ⟨existing, false⟩ := by
  simp [Tracks]

/-- A field that was not written yet may be: the entry is the one there was just when all
that was written is. -/
theorem Tracks.assignWhen [DecidableEq α] {field : EntryField α} (h : Tracks existing m)
    (hsame : field.get m.entry = field.get existing) (allowed : Bool) (value : α) :
    Tracks existing (m.assignWhen allowed field value) := by
  rw [Merging.assignWhen]
  split
  · rename_i hwrite
    refine iff_of_true rfl ?_
    intro heq
    apply hwrite.2
    calc
      field.get m.entry = field.get existing := hsame
      _ = field.get (field.set m.entry value) := congrArg field.get heq.symm
      _ = value := field.get_set m.entry value
  · exact h

theorem Tracks.confirm (h : Tracks existing m) (hsame : m.entry.lastConfirmedAt = existing.lastConfirmedAt)
    (incomingLastConfirmedAt : Nat) : Tracks existing (m.confirm incomingLastConfirmedAt) := by
  rw [Merging.confirm]
  split
  · rename_i hlt
    refine iff_of_true rfl ?_
    intro heq
    have hconfirmed : incomingLastConfirmedAt = existing.lastConfirmedAt :=
      congrArg LongTermMemoryEntry.lastConfirmedAt heq
    omega
  · exact h

theorem Merging.entry_addEvidence (citations : List String) (evidenceCount lastConfirmedAt : Nat) (m : Merging) :
    (m.addEvidence citations evidenceCount lastConfirmedAt).entry =
      mergeEvidence m.entry citations evidenceCount lastConfirmedAt := by
  rw [addEvidence, mergeEvidence, entry_confirm, assign, entry_assignWhen, assign, entry_assignWhen]
  rfl

theorem Tracks.addEvidence (h : Tracks existing m) (keywords : List String)
    (hentry : m.entry = { existing with keywords }) (citations : List String) (evidenceCount lastConfirmedAt : Nat) :
    Tracks existing (m.addEvidence citations evidenceCount lastConfirmedAt) := by
  apply Tracks.confirm
  · apply Tracks.assignWhen
    · apply Tracks.assignWhen h
      rw [hentry]
      rfl
    · rw [Merging.assign, Merging.entry_assignWhen, hentry]
      rfl
  · rw [Merging.assign, Merging.entry_assignWhen, Merging.assign, Merging.entry_assignWhen, hentry]
    rfl

variable (sourceChatId : Option String)

theorem Merging.entry_adoptChat (m : Merging) :
    (m.adoptChat true sourceChatId).entry = { m.entry with sourceChatId := sourceChatId.or m.entry.sourceChatId } := by
  cases sourceChatId with
  | none => rfl
  | some id =>
    simp only [adoptChat, Option.filter_some, if_true, assign, entry_assignWhen]
    rfl

theorem Tracks.adoptChat (h : Tracks existing m) (hsame : m.entry.sourceChatId = existing.sourceChatId)
    (allowed : Bool) (sourceChatId : Option String) : Tracks existing (m.adoptChat allowed sourceChatId) := by
  rw [Merging.adoptChat]
  split
  · exact h
  · exact h.assignWhen hsame true _

@[simp] theorem Merging.adopt_false (resolved : LongTermMemoryResolvedMeta)
    (observedAt sourceRevision : Nat) (m : Merging) :
    m.adopt false sourceChatId resolved observedAt sourceRevision = m := by
  cases sourceChatId <;> simp [adopt, adoptChat]

theorem Merging.entry_adopt (resolved : LongTermMemoryResolvedMeta) (observedAt sourceRevision : Nat) (m : Merging) :
    (m.adopt true sourceChatId resolved observedAt sourceRevision).entry =
      { m.entry with
        sourceChatId := sourceChatId.or m.entry.sourceChatId
        sourceType := resolved.sourceType
        sourceScope := resolved.sourceScope
        confidence := resolved.confidence
        freshness := resolved.freshness
        staleHint := resolved.staleHint
        observedAt
        sourceRevision } := by
  simp only [adopt, entry_assignWhen, entry_adoptChat, if_true]
  rfl

theorem Tracks.replaceContent (hsame : m.entry = existing) {content : String} (hcontent : content ≠ existing.content)
    (citations : List String) (evidenceCount lastConfirmedAt : Nat) (keywords : List String) :
    Tracks existing ((m.replaceContent content citations evidenceCount lastConfirmedAt).assign .keywords keywords) := by
  apply Tracks.assignWhen
  · exact iff_of_true rfl fun heq => hcontent (congrArg LongTermMemoryEntry.content heq)
  · rw [← hsame]
    rfl

/-- Only fields that come before these were written so far. -/
theorem Tracks.adopt (h : Tracks existing m) {content : String} {keywords citations : List String}
    {evidenceCount lastConfirmedAt : Nat}
    (hentry : m.entry = { existing with
      content, keywords, supportingCitations := citations, evidenceCount, lastConfirmedAt })
    (sourceChatId : Option String) (resolved : LongTermMemoryResolvedMeta) (observedAt sourceRevision : Nat) :
    Tracks existing (m.adopt true sourceChatId resolved observedAt sourceRevision) := by
  have hchat := h.adoptChat (by rw [hentry]) true sourceChatId
  have hchatEntry := Merging.entry_adoptChat sourceChatId m
  rw [hentry] at hchatEntry
  rw [Merging.adopt]
  generalize m.adoptChat true sourceChatId = start at hchat hchatEntry
  -- each field is written once, so that it is still that of the entry there was
  refine Tracks.assignWhen (Tracks.assignWhen (Tracks.assignWhen (Tracks.assignWhen (Tracks.assignWhen
    (Tracks.assignWhen (Tracks.assignWhen hchat ?_ _ _) ?_ _ _) ?_ _ _) ?_ _ _) ?_ _ _) ?_ _ _) ?_ _ _
  all_goals
    simp only [Merging.entry_assignWhen, hchatEntry, if_true]
    rfl

theorem Tracks.finish (h : Tracks existing m) : m.finish nowSecs = finishMerge existing m.entry nowSecs := by
  rw [Merging.finish, finishMerge]
  by_cases heq : m.entry = existing
  · have hfalse : m.changed = false := Bool.eq_false_iff.mpr fun hchanged => h.mp hchanged heq
    simp [heq, hfalse]
  · have htrue : m.changed = true := h.mpr heq
    rw [if_neg heq, htrue]
    split
    · rfl
    · rename_i hsame
      obtain rfl : m.entry.updatedAt = nowSecs := by simpa using hsame
      rfl

theorem merge_in_place_eq (tables : UnicodeTables) (existing : LongTermMemoryEntry) (draft : LongTermMemoryDraft)
    (nowSecs : Nat) :
    mergeLongTermMemoryEntryInPlace tables existing draft nowSecs =
      mergeLongTermMemoryEntry tables existing draft nowSecs := by
  rw [mergeLongTermMemoryEntryInPlace, mergeLongTermMemoryEntry]
  cases tables.normalizedDraft draft with
  | none => rfl
  | some normalized =>
    dsimp only
    generalize normalized.observedAt.getD nowSecs = observedAt
    generalize normalized.sourceRevision.getD 0 = sourceRevision
    generalize resolveLongTermMemoryMeta normalized = resolved
    generalize normalizeSupportingCitations normalized.supportingCitations = citations
    generalize draftIsOlderThanExisting existing observedAt sourceRevision = older
    generalize max (normalized.lastConfirmedAt.getD observedAt) observedAt = lastConfirmedAt
    generalize effectiveEvidenceCount citations.length (normalized.evidenceCount.getD 0) = evidenceCount
    have hstart := tracks_start existing
    generalize hentry : Merging.mk existing false = m at hstart
    have hm : m.entry = existing := by rw [← hentry]
    by_cases hcontent : existing.content = normalized.content
    · -- the content is there already
      simp only [hcontent, ne_eq, not_true_eq_false, decide_false, Bool.false_and, Bool.false_eq_true, if_false]
      have hkeywords : Tracks existing (m.assign .keywords (mergeKeywords m.entry.keywords normalized.keywords)) :=
        hstart.assignWhen (by rw [hm]) true _
      have hkeywordsEntry : (m.assign .keywords (mergeKeywords m.entry.keywords normalized.keywords)).entry =
          { existing with keywords := mergeKeywords existing.keywords normalized.keywords } := by
        rw [Merging.assign, Merging.entry_assignWhen, hm]
        rfl
      have hevidence := hkeywords.addEvidence _ hkeywordsEntry citations evidenceCount lastConfirmedAt
      have hevidenceEntry := Merging.entry_addEvidence citations evidenceCount lastConfirmedAt
        (m.assign .keywords (mergeKeywords m.entry.keywords normalized.keywords))
      rw [hkeywordsEntry] at hevidenceEntry
      cases older with
      | true =>
        rw [Bool.not_true, Merging.adopt_false, hevidence.finish, hevidenceEntry]
        rfl
      | false =>
        rw [Bool.not_false, (hevidence.adopt hevidenceEntry _ _ _ _).finish, Merging.entry_adopt, hevidenceEntry]
        rfl
    · simp only [hcontent, ne_eq, not_false_eq_true, decide_true, Bool.true_and]
      cases older with
      | true => simp
      | false =>
        by_cases hconfidence : confidenceRank existing.confidence ≤ confidenceRank resolved.confidence
        · simp only [hconfidence, decide_true, Bool.not_false, Bool.and_true, Bool.not_true, Bool.false_eq_true, if_false,
            if_true]
          have hreplaced := Tracks.replaceContent hm (Ne.symm hcontent) citations evidenceCount lastConfirmedAt
            normalized.keywords
          have hreplacedEntry : ((m.replaceContent normalized.content citations evidenceCount lastConfirmedAt).assign
              .keywords normalized.keywords).entry =
              { existing with
                content := normalized.content
                keywords := normalized.keywords
                supportingCitations := citations
                evidenceCount
                lastConfirmedAt } := by
            rw [Merging.assign, Merging.entry_assignWhen, ← hm]
            rfl
          rw [(hreplaced.adopt hreplacedEntry _ _ _ _).finish, Merging.entry_adopt, hreplacedEntry]
        · simp only [hconfidence, decide_false, Bool.and_false, Bool.not_false, Bool.false_eq_true, if_false,
            if_true]
          have hhint : Tracks existing
              (m.assign .staleHint (strictestStaleHint existing.staleHint .verifyAgainstCurrentState)) :=
            hstart.assignWhen (by rw [hm]) true _
          rw [hhint.finish, Merging.assign, Merging.entry_assignWhen, hm]
          rfl

end

/-! The merge as a function of the guard. -/

namespace LongTermMemoryDraft
variable (normalized : LongTermMemoryDraft) (nowSecs : Nat)

def incomingObservedAt : Nat := normalized.observedAt.getD nowSecs

def incomingLastConfirmedAt : Nat :=
  max (normalized.lastConfirmedAt.getD (normalized.incomingObservedAt nowSecs)) (normalized.incomingObservedAt nowSecs)

def incomingCitations : List String := normalizeSupportingCitations normalized.supportingCitations

def incomingEvidenceCount : Nat :=
  effectiveEvidenceCount normalized.incomingCitations.length (normalized.evidenceCount.getD 0)

/-- An entry that has the content of the draft. -/
def reinforce (existing : LongTermMemoryEntry) : LongTermMemoryEntry :=
  { mergeEvidence existing normalized.incomingCitations normalized.incomingEvidenceCount
      (normalized.incomingLastConfirmedAt nowSecs) with
    keywords := mergeKeywords existing.keywords normalized.keywords }

/-- An entry whose content the draft takes the place of. -/
def replace (existing : LongTermMemoryEntry) : LongTermMemoryEntry :=
  { existing with
    content := normalized.content
    keywords := normalized.keywords
    supportingCitations := normalized.incomingCitations
    evidenceCount := normalized.incomingEvidenceCount
    lastConfirmedAt := normalized.incomingLastConfirmedAt nowSecs }

@[grind =] def source (existing : LongTermMemoryEntry) : LongTermMemoryEntry :=
  let resolved := resolveLongTermMemoryMeta normalized
  { existing with
    sourceChatId := normalized.sourceChatId.or existing.sourceChatId
    sourceType := resolved.sourceType
    sourceScope := resolved.sourceScope
    confidence := resolved.confidence
    freshness := resolved.freshness
    staleHint := resolved.staleHint
    observedAt := normalized.incomingObservedAt nowSecs
    sourceRevision := normalized.sourceRevision.getD 0 }

end LongTermMemoryDraft

def doubt (existing : LongTermMemoryEntry) : LongTermMemoryEntry :=
  { existing with staleHint := strictestStaleHint existing.staleHint .verifyAgainstCurrentState }

/-- What the draft makes of the entry, its time of update apart. -/
@[grind =] def mergeTarget (tables : UnicodeTables) (existing : LongTermMemoryEntry) (draft : LongTermMemoryDraft)
    (nowSecs : Nat) : LongTermMemoryEntry :=
  match tables.normalizedDraft draft with
  | none => existing
  | some normalized =>
    match inspectLongTermMemoryMergeGuard tables existing draft nowSecs with
    | .rejectOlderObservation => existing
    | .rejectLowerConfidenceContent => doubt existing
    | .allow =>
      if existing.content = normalized.content then
        if isOlder existing normalized nowSecs then normalized.reinforce nowSecs existing
        else normalized.source nowSecs (normalized.reinforce nowSecs existing)
      else normalized.source nowSecs (normalized.replace nowSecs existing)

section
variable {tables : UnicodeTables} {existing : LongTermMemoryEntry} {draft normalized : LongTermMemoryDraft}
  {nowSecs : Nat}

@[simp] theorem finishMerge_self (existing : LongTermMemoryEntry) (nowSecs : Nat) :
    finishMerge existing existing nowSecs = (existing, false) := by
  simp [finishMerge]

theorem merge_eq_finish (tables : UnicodeTables) (existing : LongTermMemoryEntry) (draft : LongTermMemoryDraft)
    (nowSecs : Nat) :
    mergeLongTermMemoryEntry tables existing draft nowSecs =
      finishMerge existing (mergeTarget tables existing draft nowSecs) nowSecs := by
  rw [mergeLongTermMemoryEntry, mergeTarget, inspectLongTermMemoryMergeGuard]
  cases tables.normalizedDraft draft with
  | none => exact (finishMerge_self existing nowSecs).symm
  | some normalized =>
    dsimp only
    rw [isOlder]
    by_cases hcontent : existing.content = normalized.content
    · simp only [hcontent, ne_eq, not_true_eq_false, decide_false, Bool.false_and, Bool.false_eq_true, if_false, if_true]
      cases draftIsOlderThanExisting existing (normalized.observedAt.getD nowSecs)
        (normalized.sourceRevision.getD 0) with
      | true => rfl
      | false => rfl
    · cases holder : draftIsOlderThanExisting existing (normalized.observedAt.getD nowSecs)
        (normalized.sourceRevision.getD 0) with
      | true => simp [hcontent]
      | false =>
        by_cases hconfidence :
            confidenceRank existing.confidence ≤ confidenceRank (resolveLongTermMemoryMeta normalized).confidence
        · simp only [hcontent, hconfidence, Nat.not_lt.mpr hconfidence, ne_eq, not_false_eq_true, decide_true,
            Bool.not_false, Bool.and_true, Bool.and_false, Bool.not_true, Bool.false_eq_true, if_false, if_true]
          rfl
        · simp only [hcontent, hconfidence, Nat.not_le.mp hconfidence, ne_eq, not_false_eq_true, decide_true, decide_false,
            Bool.and_true, Bool.and_false, Bool.not_false, Bool.false_eq_true, if_false, if_true]
          rfl

/-! What the guard says of the merge. -/

theorem mergeTarget_updatedAt : (mergeTarget tables existing draft nowSecs).updatedAt = existing.updatedAt := by
  rw [mergeTarget]
  split
  · rfl
  · split
    · rfl
    · rfl
    · split
      · split
        · rfl
        · rfl
      · rfl

theorem finishMerge_changed {merged : LongTermMemoryEntry} (h : merged.updatedAt = existing.updatedAt) :
    (finishMerge existing merged nowSecs).2 = true ↔ (finishMerge existing merged nowSecs).1 ≠ existing := by
  rw [finishMerge]
  split
  · simp
  · rename_i hne
    refine iff_of_true rfl ?_
    intro heq
    apply hne
    have hnow : nowSecs = existing.updatedAt := congrArg LongTermMemoryEntry.updatedAt heq
    rw [← heq, hnow, ← h]

section
variable (h : tables.normalizedDraft draft = some normalized)
include h

theorem guard_of_content (hguard : inspectLongTermMemoryMergeGuard tables existing draft nowSecs ≠ .allow) :
    existing.content ≠ normalized.content := by
  intro hcontent
  apply hguard
  simp [inspectLongTermMemoryMergeGuard, h, hcontent]

theorem mergeTarget_content_iff :
    (mergeTarget tables existing draft nowSecs).content = normalized.content ↔
      inspectLongTermMemoryMergeGuard tables existing draft nowSecs = .allow := by
  have hguard : inspectLongTermMemoryMergeGuard tables existing draft nowSecs ≠ .allow → _ := guard_of_content h
  cases hdecision : inspectLongTermMemoryMergeGuard tables existing draft nowSecs with
  | allow =>
    refine iff_of_true ?_ rfl
    simp only [mergeTarget, h, hdecision]
    split
    · rename_i hcontent
      split
      · exact hcontent
      · exact hcontent
    · rfl
  | rejectOlderObservation =>
    simp only [mergeTarget, h, hdecision]
    exact iff_of_false (hguard (by simp [hdecision])) (by simp)
  | rejectLowerConfidenceContent =>
    simp only [mergeTarget, h, hdecision]
    exact iff_of_false (hguard (by simp [hdecision])) (by simp)

end

/-- The guard predicts the merge of a draft that normalizes: it allows just the drafts
whose content the entry has afterwards, what it calls older changes nothing, what it
calls less certain at most the stale hint and the time of update, and the flag says
whether the entry is another one. -/
theorem merge_guard_predicts_merge (tables : UnicodeTables) (existing : LongTermMemoryEntry)
    (draft : LongTermMemoryDraft) (nowSecs : Nat) (normalized : LongTermMemoryDraft)
    (h : tables.normalizedDraft draft = some normalized) :
    let guard := inspectLongTermMemoryMergeGuard tables existing draft nowSecs
    let after := (mergeLongTermMemoryEntryInPlace tables existing draft nowSecs).1
    (guard = .allow ↔ after.content = normalized.content) ∧
      (guard = .rejectOlderObservation → after = existing) ∧
      (guard = .rejectLowerConfidenceContent →
        after = { existing with staleHint := after.staleHint, updatedAt := after.updatedAt }) ∧
      ((mergeLongTermMemoryEntryInPlace tables existing draft nowSecs).2 = true ↔ after ≠ existing) := by
  intro guard after
  have hafter : after = (finishMerge existing (mergeTarget tables existing draft nowSecs) nowSecs).1 := by
    simp only [after, merge_in_place_eq, merge_eq_finish]
  refine ⟨?_, ?_, ?_, ?_⟩
  · rw [hafter, finishMerge_content]
    exact (mergeTarget_content_iff h).symm
  · intro hguard
    have htarget : mergeTarget tables existing draft nowSecs = existing := by
      simp only [mergeTarget, h]
      rw [show inspectLongTermMemoryMergeGuard tables existing draft nowSecs = _ from hguard]
    rw [hafter, htarget, finishMerge_self]
  · intro hguard
    have htarget : mergeTarget tables existing draft nowSecs = doubt existing := by
      simp only [mergeTarget, h]
      rw [show inspectLongTermMemoryMergeGuard tables existing draft nowSecs = _ from hguard]
    rw [hafter, htarget, finishMerge]
    split
    · rfl
    · rfl
  · rw [merge_in_place_eq, merge_eq_finish, hafter]
    exact finishMerge_changed mergeTarget_updatedAt

/-- A draft that is not certain enough to take the place of what the entry says. -/
theorem merge_guard_predicts_merge_of_guess :
    let draft := plainDraft "timezone" "cet" .low 3
    lowerTables.normalizedDraft draft = some draft ∧
      (inspectLongTermMemoryMergeGuard lowerTables (zoneEntry 0 1) draft 10 = .allow ↔
        (mergeLongTermMemoryEntryInPlace lowerTables (zoneEntry 0 1) draft 10).1.content = draft.content) := by
  intro draft
  have hnormal : lowerTables.normalizedDraft draft = some draft := by
    decide
  exact ⟨hnormal, (merge_guard_predicts_merge lowerTables (zoneEntry 0 1) draft 10 draft hnormal).1⟩

end
end Beetle.Memory
