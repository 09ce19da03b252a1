import Beetle.Lib.Run
import Beetle.Memory.LongTerm

/-! What an entry of the long-term memory remembers of the drafts merged into it, and
when an older or a less certain one can take its place. -/
namespace Beetle.Memory
open Beetle.Lib

/-- An entry, with the highest revision merged into it since it was created and with
the contents and confidences that it and the drafts merged into it had. -/
structure MergedEntry where
  entry : LongTermMemoryEntry
  revision : Nat
  held : List (String × LongTermMemoryConfidence)
  deriving DecidableEq

def MergedEntry.init (entry : LongTermMemoryEntry) : MergedEntry :=
  ⟨entry, entry.sourceRevision, [(entry.content, entry.confidence)]⟩

section
variable (tables : UnicodeTables)

/-- One call of `merge_long_term_memory_entry`; a draft that the guard rejects is not merged. -/
def mergeStep (m : MergedEntry) (call : LongTermMemoryDraft × Nat) : Option MergedEntry :=
  let entry := (mergeLongTermMemoryEntry tables m.entry call.1 call.2).1
  match tables.normalizedDraft call.1 with
  | none => some { m with entry }
  | some normalized =>
    if inspectLongTermMemoryMergeGuard tables m.entry call.1 call.2 = .allow then
      some ⟨entry, max m.revision (normalized.sourceRevision.getD 0),
        (normalized.content, (resolveLongTermMemoryMeta normalized).confidence) :: m.held⟩
    else some { m with entry }

/-- A merge that changes the content is of a revision (if it has one) that is not below
any merged before, and not less certain than the replaced content ever was. -/
def NoRollback (m : MergedEntry) (call : LongTermMemoryDraft × Nat) : Prop :=
  ∀ normalized, tables.normalizedDraft call.1 = some normalized →
    (mergeLongTermMemoryEntry tables m.entry call.1 call.2).1.content ≠ m.entry.content →
      (0 < normalized.sourceRevision.getD 0 → m.revision ≤ normalized.sourceRevision.getD 0) ∧
        ∀ confidence, (m.entry.content, confidence) ∈ m.held →
          confidenceRank confidence ≤ confidenceRank (resolveLongTermMemoryMeta normalized).confidence

def isOlder (entry : LongTermMemoryEntry) (normalized : LongTermMemoryDraft) (nowSecs : Nat) : Bool :=
  draftIsOlderThanExisting entry (normalized.observedAt.getD nowSecs) (normalized.sourceRevision.getD 0)

/-- What is merged does not lower the revision or the confidence of the entry, and what
is merged without being recorded is not above them. Revision 1 need not be kept, as
none that a draft can name is below it. -/
def KeepsRecord (m : MergedEntry) (call : LongTermMemoryDraft × Nat) : Prop :=
  ∀ normalized, tables.normalizedDraft call.1 = some normalized →
    inspectLongTermMemoryMergeGuard tables m.entry call.1 call.2 = .allow →
      if isOlder m.entry normalized call.2 then
        normalized.sourceRevision.getD 0 ≤ max m.entry.sourceRevision 1 ∧
          confidenceRank (resolveLongTermMemoryMeta normalized).confidence ≤ confidenceRank m.entry.confidence
      else
        m.entry.sourceRevision ≤ max (normalized.sourceRevision.getD 0) 1 ∧
          confidenceRank m.entry.confidence ≤ confidenceRank (resolveLongTermMemoryMeta normalized).confidence

end

section
variable {tables : UnicodeTables} {entry merged : LongTermMemoryEntry} {draft normalized : LongTermMemoryDraft}
  {nowSecs : Nat}

@[simp] theorem finishMerge_content : (finishMerge entry merged nowSecs).1.content = merged.content := by
  rw [finishMerge_eq]

@[simp] theorem finishMerge_confidence : (finishMerge entry merged nowSecs).1.confidence = merged.confidence := by
  rw [finishMerge_eq]

@[simp] theorem finishMerge_sourceRevision :
    (finishMerge entry merged nowSecs).1.sourceRevision = merged.sourceRevision := by
  rw [finishMerge_eq]

@[simp] theorem finishMerge_observedAt : (finishMerge entry merged nowSecs).1.observedAt = merged.observedAt := by
  rw [finishMerge_eq]

/-- The fields that the guards of a merge look at. -/
structure SameRecord (entry merged : LongTermMemoryEntry) : Prop where
  content : merged.content = entry.content
  confidence : merged.confidence = entry.confidence
  sourceRevision : merged.sourceRevision = entry.sourceRevision
  observedAt : merged.observedAt = entry.observedAt

/-- What a merge makes of these fields. -/
theorem merge_cases (entry : LongTermMemoryEntry) (nowSecs : Nat)
    (h : tables.normalizedDraft draft = some normalized) :
    let merged := (mergeLongTermMemoryEntry tables entry draft nowSecs).1
    (inspectLongTermMemoryMergeGuard tables entry draft nowSecs ≠ .allow ∧ SameRecord entry merged) ∨
      (inspectLongTermMemoryMergeGuard tables entry draft nowSecs = .allow ∧
        isOlder entry normalized nowSecs = true ∧ normalized.content = entry.content ∧ SameRecord entry merged) ∨
      (inspectLongTermMemoryMergeGuard tables entry draft nowSecs = .allow ∧
        isOlder entry normalized nowSecs = false ∧
        (normalized.content ≠ entry.content →
          confidenceRank entry.confidence ≤ confidenceRank (resolveLongTermMemoryMeta normalized).confidence) ∧
        merged.content = normalized.content ∧
        merged.confidence = (resolveLongTermMemoryMeta normalized).confidence ∧
        merged.sourceRevision = normalized.sourceRevision.getD 0 ∧
        merged.observedAt = normalized.observedAt.getD nowSecs) := by
  intro merged
  simp only [merged, mergeLongTermMemoryEntry, inspectLongTermMemoryMergeGuard, h, isOlder]
  by_cases hcontent : entry.content = normalized.content
  · cases hold : draftIsOlderThanExisting entry (normalized.observedAt.getD nowSecs)
        (normalized.sourceRevision.getD 0) with
    | true =>
      right; left
      simp only [hcontent, if_true, ne_eq, not_true_eq_false, decide_false, Bool.false_and, Bool.false_eq_true, if_false,
        true_and]
      refine ⟨?_, ?_, ?_, ?_⟩ <;> simp [mergeEvidence, hcontent]
    | false =>
      right; right
      simp [hcontent, mergeEvidence]
  · cases hold : draftIsOlderThanExisting entry (normalized.observedAt.getD nowSecs)
        (normalized.sourceRevision.getD 0) with
    | true =>
      left
      simp only [hcontent, if_false, if_true, ne_eq, not_false_eq_true, decide_true, Bool.and_self]
      exact ⟨by decide, rfl, rfl, rfl, rfl⟩
    | false =>
      by_cases hlower : confidenceRank (resolveLongTermMemoryMeta normalized).confidence < confidenceRank entry.confidence
      · left
        simp only [hcontent, hlower, if_false, if_true, ne_eq, not_false_eq_true, decide_true, Bool.false_eq_true,
          Bool.and_false, Bool.not_false, Bool.true_and, decide_eq_false (Nat.not_le.mpr hlower)]
        exact ⟨by decide, finishMerge_content, finishMerge_confidence, finishMerge_sourceRevision,
          finishMerge_observedAt⟩
      · right; right
        simp [hcontent, hlower, Nat.le_of_not_lt hlower]

/-- What a draft that is not older says of the revision. -/
theorem le_of_not_older (entry : LongTermMemoryEntry) (h : isOlder entry normalized nowSecs = false)
    (hpos : 0 < normalized.sourceRevision.getD 0) (hentry : 0 < entry.sourceRevision) :
    entry.sourceRevision ≤ normalized.sourceRevision.getD 0 := by
  simp only [isOlder, draftIsOlderThanExisting, decide_eq_false_iff_not, not_or, not_and, Nat.not_lt] at h
  exact h.1 hpos hentry

/-! What a run keeps. -/

variable {m t : MergedEntry} {call : LongTermMemoryDraft × Nat}

/-- The entry has the highest revision there was (or only the first was lost), and
the highest confidence. -/
structure Recorded (m : MergedEntry) : Prop where
  revision : m.revision ≤ max m.entry.sourceRevision 1
  held : ∀ content confidence, (content, confidence) ∈ m.held →
    confidenceRank confidence ≤ confidenceRank m.entry.confidence

/-- What is in the entry has been merged into it. -/
structure Traced (m : MergedEntry) : Prop where
  revision : m.entry.sourceRevision ≤ m.revision
  held : (m.entry.content, m.entry.confidence) ∈ m.held

theorem recorded_init (entry : LongTermMemoryEntry) : Recorded (.init entry) := by
  refine ⟨Nat.le_max_left _ _, ?_⟩
  intro content confidence hheld
  obtain ⟨rfl, rfl⟩ := Prod.mk.inj (List.mem_singleton.mp hheld)
  exact Nat.le_refl _

theorem traced_init (entry : LongTermMemoryEntry) : Traced (.init entry) :=
  ⟨Nat.le_refl _, List.mem_singleton.mpr rfl⟩

/-- What a step can do. -/
inductive StepCases (tables : UnicodeTables) (m t : MergedEntry) (call : LongTermMemoryDraft × Nat) : Prop where
  | refused
      (rejected : ∀ normalized, tables.normalizedDraft call.1 = some normalized →
        inspectLongTermMemoryMergeGuard tables m.entry call.1 call.2 ≠ .allow)
      (same : SameRecord m.entry t.entry) (revision : t.revision = m.revision) (held : t.held = m.held)
  | merged (normalized : LongTermMemoryDraft)
      (normal : tables.normalizedDraft call.1 = some normalized)
      (allowed : inspectLongTermMemoryMergeGuard tables m.entry call.1 call.2 = .allow)
      (revision : t.revision = max m.revision (normalized.sourceRevision.getD 0))
      (held : t.held = (normalized.content, (resolveLongTermMemoryMeta normalized).confidence) :: m.held)
      (entry : (isOlder m.entry normalized call.2 = true ∧ normalized.content = m.entry.content ∧
          SameRecord m.entry t.entry) ∨
        (isOlder m.entry normalized call.2 = false ∧
          (normalized.content ≠ m.entry.content →
            confidenceRank m.entry.confidence ≤ confidenceRank (resolveLongTermMemoryMeta normalized).confidence) ∧
          t.entry.content = normalized.content ∧
          t.entry.confidence = (resolveLongTermMemoryMeta normalized).confidence ∧
          t.entry.sourceRevision = normalized.sourceRevision.getD 0 ∧
          t.entry.observedAt = normalized.observedAt.getD call.2))

theorem mergeStep_cases (ht : mergeStep tables m call = some t) : StepCases tables m t call := by
  cases hnorm : tables.normalizedDraft call.1 with
  | none =>
    simp only [mergeStep, mergeLongTermMemoryEntry, hnorm, Option.some.injEq] at ht
    rw [← ht]
    exact .refused (fun normalized h => absurd (hnorm.symm.trans h) (by simp)) ⟨rfl, rfl, rfl, rfl⟩ rfl rfl
  | some normalized =>
    have hmerge := merge_cases m.entry call.2 hnorm
    simp only [mergeStep, hnorm] at ht
    generalize (mergeLongTermMemoryEntry tables m.entry call.1 call.2).1 = entry at hmerge ht
    rcases hmerge with ⟨hguard, hsame⟩ | ⟨hguard, hold, hcontent, hsame⟩ | ⟨hguard, hold, hfields⟩
    · rw [if_neg hguard, Option.some.injEq] at ht
      rw [← ht]
      exact .refused (fun _ _ => hguard) hsame rfl rfl
    · rw [if_pos hguard, Option.some.injEq] at ht
      rw [← ht]
      exact .merged normalized hnorm hguard rfl rfl (.inl ⟨hold, hcontent, hsame⟩)
    · rw [if_pos hguard, Option.some.injEq] at ht
      rw [← ht]
      exact .merged normalized hnorm hguard rfl rfl (.inr ⟨hold, hfields⟩)

theorem Recorded.step (h : Recorded m) (hcall : KeepsRecord tables m call) (ht : mergeStep tables m call = some t) :
    Recorded t := by
  cases mergeStep_cases ht with
  | refused _ hsame hrevision hheld =>
    exact ⟨by rw [hrevision, hsame.sourceRevision]; exact h.revision,
      by rw [hheld, hsame.confidence]; exact h.held⟩
  | merged normalized hnorm hguard hrevision hheld hentry =>
    have hbound := hcall normalized hnorm hguard
    have hprevious := h.revision
    -- the confidences held before are not above the one that the entry has now
    have hconfidence : confidenceRank m.entry.confidence ≤ confidenceRank t.entry.confidence ∧
        confidenceRank (resolveLongTermMemoryMeta normalized).confidence ≤ confidenceRank t.entry.confidence ∧
        t.revision ≤ max t.entry.sourceRevision 1 := by
      rw [hrevision]
      rcases hentry with ⟨hold, -, hsame⟩ | ⟨hold, -, -, hconf, hrev, -⟩
      · rw [if_pos hold] at hbound
        rw [hsame.confidence, hsame.sourceRevision]
        exact ⟨Nat.le_refl _, hbound.2, Nat.max_le.mpr ⟨hprevious, hbound.1⟩⟩
      · rw [if_neg (by simp [hold])] at hbound
        rw [hconf, hrev]
        exact ⟨hbound.2, Nat.le_refl _, by omega⟩
    refine ⟨hconfidence.2.2, ?_⟩
    intro content confidence hmem
    rw [hheld] at hmem
    rcases List.mem_cons.mp hmem with heq | hmem
    · obtain ⟨-, rfl⟩ := Prod.mk.inj heq
      exact hconfidence.2.1
    · exact (h.held content confidence hmem).trans hconfidence.1

theorem Traced.step (h : Traced m) (ht : mergeStep tables m call = some t) : Traced t := by
  cases mergeStep_cases ht with
  | refused _ hsame hrevision hheld =>
    exact ⟨by rw [hrevision, hsame.sourceRevision]; exact h.revision,
      by rw [hheld, hsame.content, hsame.confidence]; exact h.held⟩
  | merged normalized hnorm hguard hrevision hheld hentry =>
    rcases hentry with ⟨-, -, hsame⟩ | ⟨-, -, hcontent, hconf, hrev, -⟩
    · refine ⟨?_, ?_⟩
      · rw [hrevision, hsame.sourceRevision]
        exact h.revision.trans (Nat.le_max_left _ _)
      · rw [hheld, hsame.content, hsame.confidence]
        exact List.mem_cons_of_mem _ h.held
    · refine ⟨?_, ?_⟩
      · rw [hrevision, hrev]
        exact Nat.le_max_right _ _
      · rw [hheld, hcontent, hconf]
        exact List.mem_cons_self

theorem Recorded.noRollback (h : Recorded m) : NoRollback tables m call := by
  intro normalized hnorm hchanged
  have hmerge := merge_cases m.entry call.2 hnorm
  generalize (mergeLongTermMemoryEntry tables m.entry call.1 call.2).1 = entry at hmerge hchanged
  rcases hmerge with ⟨-, hsame⟩ | ⟨-, -, -, hsame⟩ | ⟨-, hold, hconfidence, hcontent, -⟩
  · exact absurd hsame.content hchanged
  · exact absurd hsame.content hchanged
  · rw [hcontent] at hchanged
    refine ⟨?_, fun confidence hheld => (h.held _ _ hheld).trans (hconfidence hchanged)⟩
    intro hpos
    have hbound := h.revision
    have hrevision := le_of_not_older m.entry hold hpos
    omega

/-! What can follow a step that loses a revision or a confidence. -/

def otherContent (content : String) : String := if content = "a" then "b" else "a"

theorem otherContent_ne (content : String) : otherContent content ≠ content := by
  rw [otherContent]
  split
  · rename_i h
    rw [h]
    decide
  · rename_i h
    exact fun heq => h heq.symm

theorem normalizedDraft_topic (h : tables.normalizedDraft draft = some normalized) :
    tables.normalizeTopic (trimStr draft.topic) ≠ "" := by
  intro htopic
  simp [UnicodeTables.normalizedDraft, htopic] at h

theorem normalizedDraft_plainDraft {topic : String} (htopic : tables.normalizeTopic (trimStr topic) ≠ "")
    (content : String) (confidence : LongTermMemoryConfidence) (revision : Nat) :
    ∃ normalized, tables.normalizedDraft (plainDraft topic (otherContent content) confidence revision) =
        some normalized ∧
      normalized.content = otherContent content ∧ normalized.observedAt = none ∧
      normalized.sourceRevision.getD 0 = revision ∧
      (resolveLongTermMemoryMeta normalized).confidence = confidence := by
  have hcontent : truncateUtf8Bytes (trimStr (otherContent content)) maxLongTermMemoryContentLen =
      otherContent content := by
    rw [otherContent]
    split <;> decide
  have hne : otherContent content ≠ "" := by
    rw [otherContent]
    split <;> decide
  have hnormal : tables.normalizedDraft (plainDraft topic (otherContent content) confidence revision) =
      some { plainDraft (tables.normalizeTopic (trimStr topic)) (otherContent content) confidence revision with
        sourceRevision := (some revision).filter (0 < ·) } := by
    simp only [UnicodeTables.normalizedDraft, plainDraft, hcontent, if_neg htopic, if_neg hne]
    rfl
  refine ⟨_, hnormal, rfl, rfl, ?_, rfl⟩
  cases revision <;> rfl

theorem exists_later (calls : List (LongTermMemoryDraft × Nat)) (start : Nat) :
    ∃ nowSecs, start ≤ nowSecs ∧ ∀ call ∈ calls, call.2 ≤ nowSecs := by
  induction calls with
  | nil => exact ⟨start, Nat.le_refl start, by simp⟩
  | cons call calls ih =>
    obtain ⟨nowSecs, hstart, hcalls⟩ := ih
    refine ⟨max call.2 nowSecs, hstart.trans (Nat.le_max_right _ _), ?_⟩
    intro other hother
    rcases List.mem_cons.mp hother with rfl | hother
    · exact Nat.le_max_left _ _
    · exact (hcalls other hother).trans (Nat.le_max_right _ _)

theorem mergeStep_some (tables : UnicodeTables) (m : MergedEntry) (call : LongTermMemoryDraft × Nat) :
    ∃ t, mergeStep tables m call = some t := by
  rw [mergeStep]
  split
  · exact ⟨_, rfl⟩
  · split <;> exact ⟨_, rfl⟩

/-- A revision or a confidence that the entry has lost can be undercut. -/
theorem rollback_next {topic : String} (htopic : tables.normalizeTopic (trimStr topic) ≠ "")
    (confidence : LongTermMemoryConfidence) (revision : Nat)
    (hrevision : revision = 0 ∨ t.entry.sourceRevision ≤ revision)
    (hconfidence : confidenceRank t.entry.confidence ≤ confidenceRank confidence)
    (hlost : (0 < revision ∧ revision < t.revision) ∨
      ∃ lost, (t.entry.content, lost) ∈ t.held ∧ confidenceRank confidence < confidenceRank lost)
    (before : List (LongTermMemoryDraft × Nat)) :
    ∃ next u, (∀ call ∈ before, call.2 ≤ next.2) ∧ mergeStep tables t next = some u ∧ ¬ NoRollback tables t next := by
  obtain ⟨nowSecs, hobserved, hbefore⟩ := exists_later before t.entry.observedAt
  obtain ⟨normalized, hnorm, hcontent, hobs, hrev, hconf⟩ :=
    normalizedDraft_plainDraft htopic t.entry.content confidence revision
  obtain ⟨u, hu⟩ := mergeStep_some tables t
    (plainDraft topic (otherContent t.entry.content) confidence revision, nowSecs)
  refine ⟨_, u, hbefore, hu, ?_⟩
  intro hno
  have hnew := otherContent_ne t.entry.content
  have hyoung : isOlder t.entry normalized nowSecs = false := by
    simp only [isOlder, draftIsOlderThanExisting, hobs, hrev, Option.getD_none, decide_eq_false_iff_not]
    omega
  have hmerge := merge_cases t.entry nowSecs hnorm
  have hno := hno normalized hnorm
  simp only at hno
  generalize (mergeLongTermMemoryEntry tables t.entry _ nowSecs).1 = entry at hmerge hno
  rcases hmerge with ⟨hguard, -⟩ | ⟨-, -, hsame, -⟩ | ⟨-, -, -, hreplaced, -⟩
  · refine hguard ?_
    simp only [isOlder] at hyoung
    simp only [inspectLongTermMemoryMergeGuard, hnorm, hcontent, hyoung, hconf, if_neg hnew.symm,
      if_neg (Nat.not_lt.mpr hconfidence), Bool.false_eq_true, if_false]
  · exact hnew (hcontent.symm.trans hsame)
  · have hsafe := hno (by rw [hreplaced, hcontent]; exact hnew)
    rw [hrev, hconf] at hsafe
    rcases hlost with ⟨hpos, hlt⟩ | ⟨lost, hheld, hlt⟩
    · have hle := hsafe.1 hpos
      omega
    · have hle := hsafe.2 lost hheld
      omega

theorem rollback_of_not_keepsRecord (h : Traced m) (ht : mergeStep tables m call = some t)
    (hcall : ¬ KeepsRecord tables m call) (before : List (LongTermMemoryDraft × Nat)) :
    ∃ next u, (∀ call ∈ before, call.2 ≤ next.2) ∧ mergeStep tables t next = some u ∧ ¬ NoRollback tables t next := by
  simp only [KeepsRecord, not_forall] at hcall
  obtain ⟨normalized, hnorm, hguard, hlost⟩ := hcall
  have htopic := normalizedDraft_topic hnorm
  have hhigh (confidence : LongTermMemoryConfidence) : confidenceRank confidence ≤ confidenceRank .high := by
    cases confidence <;> decide
  cases mergeStep_cases ht with
  | refused hrejected => exact absurd hguard (hrejected normalized hnorm)
  | merged normalized' hnorm' _ hrevision hheld hentry =>
    obtain rfl : normalized = normalized' := Option.some.inj (hnorm.symm.trans hnorm')
    have htraced := h.revision
    rcases hentry with ⟨hold, hcontent, hsame⟩ | ⟨hold, hreplace, hcontent, hconf, hrev, -⟩
    · rw [if_pos hold, not_and_or, Nat.not_le, Nat.not_le] at hlost
      rcases hlost with hlost | hlost
      · -- a revision above the entry's was merged and not recorded
        apply rollback_next htopic .high (max m.entry.sourceRevision 1) _ (hhigh _)
        · left
          rw [hrevision]
          omega
        · right
          rw [hsame.sourceRevision]
          exact Nat.le_max_left _ _
      · apply rollback_next htopic m.entry.confidence 0 (.inl rfl) (by rw [hsame.confidence])
        right
        refine ⟨(resolveLongTermMemoryMeta normalized).confidence, ?_, hlost⟩
        rw [hheld, hsame.content, ← hcontent]
        exact List.mem_cons_self
    · rw [if_neg (by simp [hold]), not_and_or, Nat.not_le, Nat.not_le] at hlost
      rcases hlost with hlost | hlost
      · -- the revision of the entry was lowered
        apply rollback_next htopic .high (max (normalized.sourceRevision.getD 0) 1) _ (hhigh _)
        · left
          rw [hrevision]
          omega
        · right
          rw [hrev]
          exact Nat.le_max_left _ _
      · -- only a draft of the same content can lower the confidence
        have hsame : normalized.content = m.entry.content := by
          by_contra hne
          have hle := hreplace hne
          omega
        apply rollback_next htopic (resolveLongTermMemoryMeta normalized).confidence 0 (.inl rfl) (by rw [hconf])
        right
        refine ⟨m.entry.confidence, ?_, hlost⟩
        rw [hheld, hcontent, hsame]
        exact List.mem_cons_of_mem _ h.held

/-- No merge can roll the entry back, after any part of a run, just when every merge of
the run keeps the record of the entry. -/
theorem no_rollback_iff (tables : UnicodeTables) (entry : LongTermMemoryEntry)
    (calls : List (LongTermMemoryDraft × Nat)) :
    (∀ done next, done <+: calls → (∀ call ∈ done, call.2 ≤ next.2) →
        Meets (mergeStep tables) (NoRollback tables) (done ++ [next]) (.init entry)) ↔
      Meets (mergeStep tables) (KeepsRecord tables) calls (.init entry) := by
  constructor
  · intro h
    apply meets_of_next (J := Traced) (D := NoRollback tables) (R := fun call next => call.2 ≤ next.2) _ _ calls []
    · exact traced_init entry
    · exact fun done next hdone hbefore => h done next hdone (by simpa using hbefore)
    · exact fun m call t hm ht => hm.step ht
    · exact fun m call t hm ht hcall before => rollback_of_not_keepsRecord hm ht hcall before
  · intro h done next hdone _
    apply meets_concat_of_meets (I := Recorded) (C := KeepsRecord tables)
    · exact fun m call t hm hcall ht => hm.step hcall ht
    · exact fun m call t hm _ => hm.noRollback
    · exact recorded_init entry
    · exact h.of_prefix hdone

end

/-! A revision that a draft without one makes the entry forget. -/

def zoneEntry (sourceRevision updatedAt : Nat) : LongTermMemoryEntry where
  id := "ltm-1"
  kind := .fact
  topic := "timezone"
  content := "utc"
  keywords := []
  sourceChatId := none
  sourceType := .conversation
  sourceScope := .world
  confidence := .high
  freshness := .dynamic
  staleHint := .reviewBeforeUse
  supportingCitations := []
  evidenceCount := 0
  createdAt := 1
  updatedAt := updatedAt
  observedAt := updatedAt
  lastConfirmedAt := updatedAt
  sourceRevision := sourceRevision
  lastUsedAt := 0

theorem revision_forgotten :
    ¬ Meets (mergeStep lowerTables) (NoRollback lowerTables)
      [(plainDraft "timezone" "utc" .high 0, 10), (plainDraft "timezone" "cet" .high 3, 10)]
      (.init (zoneEntry 8 1)) := by
  intro h
  have hfirst : mergeStep lowerTables (.init (zoneEntry 8 1)) (plainDraft "timezone" "utc" .high 0, 10) =
      some ⟨zoneEntry 0 10, 8, [("utc", .high), ("utc", .high)]⟩ := by
    decide
  have hnormal : lowerTables.normalizedDraft (plainDraft "timezone" "cet" .high 3) =
      some (plainDraft "timezone" "cet" .high 3) := by
    decide
  obtain ⟨t, ht⟩ := mergeStep_some lowerTables ⟨zoneEntry 0 10, 8, [("utc", .high), ("utc", .high)]⟩
    (plainDraft "timezone" "cet" .high 3, 10)
  have hno := ((h _ hfirst).2 t ht).1
  have hbound := (hno _ hnormal (by decide)).1 (by decide)
  exact absurd hbound (by decide)

end Beetle.Memory
