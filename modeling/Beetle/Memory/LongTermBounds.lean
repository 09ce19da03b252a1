import Beetle.Memory.LongTermMerge

/-! How large an entry grows over the drafts merged into it, and what a draft does that is
merged a second time. -/
namespace Beetle.Memory
open Beetle.Lib

/-- A draft and the time at which it is merged; its evidence is a `u32`. -/
structure MergeCall where
  draft : LongTermMemoryDraft
  nowSecs : Nat
  evidence_lt : draft.evidenceCount.getD 0 < 2 ^ 32

/-- The lists of an entry are distinct and within their limits. -/
structure Bounded (entry : LongTermMemoryEntry) : Prop where
  keywords_nodup : entry.keywords.Nodup
  keywords_le : entry.keywords.length ≤ maxLongTermMemoryKeywords
  citations_nodup : entry.supportingCitations.Nodup
  citations_le : entry.supportingCitations.length ≤ maxLongTermMemorySupportingCitations

section
variable (tables : UnicodeTables)

/-- The draft that is merged into the entry, and whether it changes the entry. -/
def mergeCall (entry : LongTermMemoryEntry) (call : MergeCall) : LongTermMemoryEntry × Bool :=
  mergeLongTermMemoryEntryInPlace tables entry call.draft call.nowSecs

def boundsStep (entry : LongTermMemoryEntry) (call : MergeCall) : Option LongTermMemoryEntry :=
  some (mergeCall tables entry call).1

/-- The merge keeps the lists distinct and within their limits and the evidence of a content
that stays, and once more it does nothing. -/
def MergesWell (entry : LongTermMemoryEntry) (call : MergeCall) : Prop :=
  let after := (mergeCall tables entry call).1
  Bounded after ∧ (after.content = entry.content → entry.evidenceCount ≤ after.evidenceCount) ∧
    mergeCall tables after call = (after, false)

/-- The citations of a draft that are new to the entry. -/
def newCitations (entry : LongTermMemoryEntry) (normalized : LongTermMemoryDraft) : List String :=
  normalized.incomingCitations.filter (· ∉ entry.supportingCitations)

/-- There is room for all new citations of a draft that does not take the place of the content. -/
def RoomFor (entry : LongTermMemoryEntry) (call : MergeCall) : Prop :=
  ∀ normalized, tables.normalizedDraft call.draft = some normalized → normalized.content = entry.content →
    entry.supportingCitations.length + (newCitations entry normalized).length ≤ maxLongTermMemorySupportingCitations

end

/-! The loops over keywords and citations. -/

section
variable {bound minLen : Nat} {normalize : String → String} {collected values : List String}

theorem nodup_collectDistinct (h : collected.Nodup) : (collectDistinct bound minLen normalize collected values).Nodup := by
  induction values generalizing collected with
  | nil => exact h
  | cons raw rest ih =>
    rw [collectDistinct]
    split
    · exact ih h
    · rename_i hskip
      have hnew : (collected ++ [normalize raw]).Nodup := by
        rw [List.nodup_append_comm, List.singleton_append, List.nodup_cons]
        exact ⟨fun hmem => hskip (.inr hmem), h⟩
      split
      · exact hnew
      · exact ih hnew

theorem length_collectDistinct_le (h : collected.length < bound) :
    (collectDistinct bound minLen normalize collected values).length ≤ bound := by
  induction values generalizing collected with
  | nil => exact h.le
  | cons raw rest ih =>
    rw [collectDistinct]
    split
    · exact ih h
    · split
      · rw [List.length_append, List.length_singleton]
        exact h
      · rename_i hroom
        exact ih (Nat.not_le.mp hroom)

end

section
variable {merged keywords citations : List String} {count : Nat}

/-- The loop that appends what is not there yet. -/
def pushNew (merged keywords : List String) : List String :=
  keywords.foldl (fun merged keyword => if keyword ∈ merged then merged else merged ++ [keyword]) merged

theorem mergeKeywords_eq : mergeKeywords merged keywords = (pushNew merged keywords).take maxLongTermMemoryKeywords := rfl

theorem pushNew_cons (merged keywords : List String) (keyword : String) :
    pushNew merged (keyword :: keywords) = pushNew (if keyword ∈ merged then merged else merged ++ [keyword]) keywords :=
  rfl

theorem nodup_pushNew (h : merged.Nodup) : (pushNew merged keywords).Nodup := by
  induction keywords generalizing merged with
  | nil => exact h
  | cons keyword keywords ih =>
    rw [pushNew_cons]
    split
    · exact ih h
    · rename_i hnew
      apply ih
      rw [List.nodup_append_comm, List.singleton_append, List.nodup_cons]
      exact ⟨hnew, h⟩

theorem prefix_pushNew (merged keywords : List String) : merged <+: pushNew merged keywords := by
  induction keywords generalizing merged with
  | nil => exact List.prefix_rfl
  | cons keyword keywords ih =>
    rw [pushNew_cons]
    split
    · exact ih merged
    · exact (List.prefix_append merged [keyword]).trans (ih _)

theorem mem_pushNew {keyword : String} (h : keyword ∈ keywords) : keyword ∈ pushNew merged keywords := by
  induction keywords generalizing merged with
  | nil => cases h
  | cons first keywords ih =>
    rw [pushNew_cons]
    rcases List.mem_cons.mp h with rfl | h
    · apply (prefix_pushNew _ _).subset
      split
      · assumption
      · exact List.mem_append_right _ List.mem_cons_self
    · exact ih h

theorem pushNew_eq_self (h : ∀ keyword ∈ keywords, keyword ∈ merged) : pushNew merged keywords = merged := by
  induction keywords with
  | nil => rfl
  | cons keyword keywords ih =>
    rw [pushNew_cons, if_pos (h keyword List.mem_cons_self)]
    exact ih fun other hother => h other (List.mem_cons_of_mem _ hother)

/-- What did not fit the first time does not fit the second time. -/
theorem mergeKeywords_mergeKeywords (merged keywords : List String) :
    mergeKeywords (mergeKeywords merged keywords) keywords = mergeKeywords merged keywords := by
  rw [mergeKeywords_eq, mergeKeywords_eq]
  generalize hpushed : pushNew merged keywords = pushed
  rcases Nat.le_total pushed.length maxLongTermMemoryKeywords with hfits | hfull
  · have hall : pushNew pushed keywords = pushed := by
      apply pushNew_eq_self
      intro keyword hkeyword
      rw [← hpushed]
      exact mem_pushNew hkeyword
    rw [List.take_of_length_le hfits, hall, List.take_of_length_le hfits]
  · obtain ⟨rest, hrest⟩ := prefix_pushNew (pushed.take maxLongTermMemoryKeywords) keywords
    have hlength : (pushed.take maxLongTermMemoryKeywords).length = maxLongTermMemoryKeywords :=
      List.length_take_of_le hfull
    rw [← hrest, List.take_append_of_le_length hlength.ge, List.take_of_length_le hlength.le]

theorem mergeKeywords_self (h : merged.length ≤ maxLongTermMemoryKeywords) : mergeKeywords merged merged = merged := by
  rw [mergeKeywords_eq, pushNew_eq_self fun _ hkeyword => hkeyword, List.take_of_length_le h]

theorem saturatingAddU32_assoc (a b c : Nat) :
    saturatingAddU32 (saturatingAddU32 a b) c = saturatingAddU32 a (b + c) := by
  simp only [saturatingAddU32]
  omega

/-- The limit is tested after a citation was pushed, so that one is always taken. -/
theorem mergeCitations_eq (h : citations.Nodup) (hcount : count < 2 ^ 32) :
    mergeCitations merged count citations =
      let taken := (citations.filter (· ∉ merged)).take (max 1 (maxLongTermMemorySupportingCitations - merged.length))
      (merged ++ taken, saturatingAddU32 count taken.length) := by
  induction citations generalizing merged count with
  | nil =>
    have hle : count ≤ 2 ^ 32 - 1 := Nat.le_sub_one_of_lt hcount
    have hsame : saturatingAddU32 count 0 = count := by
      rw [saturatingAddU32]
      omega
    simp [mergeCitations, hsame]
  | cons citation rest ih =>
    obtain ⟨hnotin, hrest⟩ := List.nodup_cons.mp h
    have hnext : saturatingAddU32 count 1 < 2 ^ 32 := by
      rw [saturatingAddU32]
      omega
    rw [mergeCitations]
    by_cases hmem : citation ∈ merged
    · rw [if_pos hmem, ih hrest hcount, List.filter_cons_of_neg (by simp [hmem])]
    · rw [if_neg hmem, List.filter_cons_of_pos (by simp [hmem])]
      have hlength : (merged ++ [citation]).length = merged.length + 1 := by
        rw [List.length_append, List.length_singleton]
      split
      · rename_i hfull
        have hone : max 1 (maxLongTermMemorySupportingCitations - merged.length) = 1 := by omega
        simp [hone]
      · rename_i hroom
        have hfilter : rest.filter (· ∉ merged ++ [citation]) = rest.filter (· ∉ merged) := by
          apply List.filter_congr
          intro other hother
          have hne : other ≠ citation := fun heq => hnotin (heq ▸ hother)
          simp [hne]
        have hmore : max 1 (maxLongTermMemorySupportingCitations - merged.length) =
            max 1 (maxLongTermMemorySupportingCitations - (merged ++ [citation]).length) + 1 := by omega
        rw [ih hrest hnext, hfilter, hmore]
        simp only [List.take_succ_cons, List.length_cons, List.append_assoc, List.singleton_append,
          saturatingAddU32_assoc, Nat.add_comm 1]

end

/-! What a draft brings. -/

section
variable {tables : UnicodeTables} {entry : LongTermMemoryEntry} {draft normalized : LongTermMemoryDraft}
  {nowSecs : Nat} {merged : LongTermMemoryEntry}

theorem nodup_incomingCitations (normalized : LongTermMemoryDraft) : normalized.incomingCitations.Nodup :=
  nodup_collectDistinct List.nodup_nil

theorem length_incomingCitations_le (normalized : LongTermMemoryDraft) :
    normalized.incomingCitations.length ≤ maxLongTermMemorySupportingCitations :=
  length_collectDistinct_le (by decide)

theorem normalizedDraft_spec (h : tables.normalizedDraft draft = some normalized) :
    normalized.keywords = tables.normalizeKeywords draft.keywords ∧
      normalized.evidenceCount = draft.evidenceCount.filter (0 < ·) := by
  simp only [UnicodeTables.normalizedDraft, Option.ite_none_left_eq_some, Option.some.injEq] at h
  obtain ⟨-, -, rfl⟩ := h
  exact ⟨rfl, rfl⟩

theorem normalized_keywords (h : tables.normalizedDraft draft = some normalized) :
    normalized.keywords.Nodup ∧ normalized.keywords.length ≤ maxLongTermMemoryKeywords := by
  rw [(normalizedDraft_spec h).1]
  exact ⟨nodup_collectDistinct List.nodup_nil, length_collectDistinct_le (by decide)⟩

theorem incomingEvidenceCount_lt (h : tables.normalizedDraft draft = some normalized)
    (hevidence : draft.evidenceCount.getD 0 < 2 ^ 32) : normalized.incomingEvidenceCount < 2 ^ 32 := by
  have hcount : normalized.evidenceCount.getD 0 ≤ draft.evidenceCount.getD 0 := by
    rw [(normalizedDraft_spec h).2]
    cases draft.evidenceCount with
    | none => exact Nat.le_refl 0
    | some count =>
      rw [Option.filter_some]
      split
      · exact Nat.le_refl count
      · exact Nat.zero_le count
  have hcitations := length_incomingCitations_le normalized
  simp only [LongTermMemoryDraft.incomingEvidenceCount, effectiveEvidenceCount, maxLongTermMemorySupportingCitations] at *
  omega

/-- Those of the new citations that the loop takes. -/
def takenCitations (entry : LongTermMemoryEntry) (normalized : LongTermMemoryDraft) : List String :=
  (newCitations entry normalized).take (max 1 (maxLongTermMemorySupportingCitations - entry.supportingCitations.length))

theorem length_newCitations_le (entry : LongTermMemoryEntry) (normalized : LongTermMemoryDraft) :
    (newCitations entry normalized).length ≤ maxLongTermMemorySupportingCitations :=
  (List.length_filter_le _ _).trans (length_incomingCitations_le normalized)

theorem length_takenCitations_le (entry : LongTermMemoryEntry) (normalized : LongTermMemoryDraft) :
    (takenCitations entry normalized).length ≤ maxLongTermMemorySupportingCitations :=
  (List.length_take_le' _ _).trans (length_newCitations_le entry normalized)

theorem mergeCitations_incoming (entry : LongTermMemoryEntry) (normalized : LongTermMemoryDraft) :
    mergeCitations entry.supportingCitations 0 normalized.incomingCitations =
      (entry.supportingCitations ++ takenCitations entry normalized, (takenCitations entry normalized).length) := by
  have hle := length_takenCitations_le entry normalized
  have hcount : saturatingAddU32 0 (takenCitations entry normalized).length = (takenCitations entry normalized).length := by
    simp only [saturatingAddU32, maxLongTermMemorySupportingCitations] at *
    omega
  rw [mergeCitations_eq (nodup_incomingCitations normalized) (Nat.two_pow_pos 32)]
  exact congrArg (Prod.mk _) hcount

theorem reinforce_citations (entry : LongTermMemoryEntry) (normalized : LongTermMemoryDraft) (nowSecs : Nat) :
    (normalized.reinforce nowSecs entry).supportingCitations =
      entry.supportingCitations ++ takenCitations entry normalized := by
  simp only [LongTermMemoryDraft.reinforce, mergeEvidence, mergeCitations_incoming]

theorem reinforce_evidence (entry : LongTermMemoryEntry) (normalized : LongTermMemoryDraft) (nowSecs : Nat) :
    ∃ bump, (entry.lastConfirmedAt < normalized.incomingLastConfirmedAt nowSecs ∨ bump = 0) ∧
      (normalized.reinforce nowSecs entry).evidenceCount =
        min (max (min (max entry.evidenceCount entry.supportingCitations.length +
          (takenCitations entry normalized).length) (2 ^ 32 - 1)) normalized.incomingEvidenceCount + bump)
          (2 ^ 32 - 1) := by
  simp only [LongTermMemoryDraft.reinforce, mergeEvidence, mergeCitations_incoming]
  refine ⟨_, ?_, rfl⟩
  split
  · rename_i hbump
    exact .inl hbump.2.2
  · exact .inr rfl

/-- An entry that the draft can add nothing to. -/
structure Settled (normalized : LongTermMemoryDraft) (nowSecs : Nat) (entry : LongTermMemoryEntry) : Prop where
  keywords : mergeKeywords entry.keywords normalized.keywords = entry.keywords
  citations : newCitations entry normalized = []
  incoming_le : normalized.incomingEvidenceCount ≤ entry.evidenceCount
  length_le : entry.supportingCitations.length ≤ entry.evidenceCount
  evidence_lt : entry.evidenceCount < 2 ^ 32
  confirmed : normalized.incomingLastConfirmedAt nowSecs ≤ entry.lastConfirmedAt

theorem Settled.reinforce (h : Settled normalized nowSecs entry) : normalized.reinforce nowSecs entry = entry := by
  have htaken : takenCitations entry normalized = [] := by rw [takenCitations, h.citations, List.take_nil]
  obtain ⟨bump, hbump, hevidence⟩ := reinforce_evidence entry normalized nowSecs
  have hcount : (normalized.reinforce nowSecs entry).evidenceCount = entry.evidenceCount := by
    have hincoming := h.incoming_le
    have hlength := h.length_le
    have hlt := h.evidence_lt
    have hconfirmed := h.confirmed
    rw [hevidence, htaken, List.length_nil]
    omega
  calc
    normalized.reinforce nowSecs entry =
        { entry with
          keywords := mergeKeywords entry.keywords normalized.keywords
          supportingCitations := (normalized.reinforce nowSecs entry).supportingCitations
          evidenceCount := (normalized.reinforce nowSecs entry).evidenceCount
          lastConfirmedAt := max entry.lastConfirmedAt (normalized.incomingLastConfirmedAt nowSecs) } := rfl
    _ = entry := by
      rw [reinforce_citations, hcount, htaken, List.append_nil, h.keywords, max_eq_left h.confirmed]

/-- After a draft was merged, and all its new citations with it, it adds nothing more. -/
theorem settled_reinforce (hnormal : tables.normalizedDraft draft = some normalized)
    (hdraft : draft.evidenceCount.getD 0 < 2 ^ 32)
    (hroom : entry.supportingCitations.length + (newCitations entry normalized).length ≤
      maxLongTermMemorySupportingCitations) :
    Settled normalized nowSecs (normalized.reinforce nowSecs entry) := by
  have htaken : takenCitations entry normalized = newCitations entry normalized := by
    apply List.take_of_length_le
    omega
  have hcitations := reinforce_citations entry normalized nowSecs
  have hincoming := incomingEvidenceCount_lt hnormal hdraft
  obtain ⟨bump, -, hevidence⟩ := reinforce_evidence entry normalized nowSecs
  rw [htaken] at hcitations hevidence
  have hlength := congrArg List.length hcitations
  rw [List.length_append] at hlength
  simp only [maxLongTermMemorySupportingCitations] at hroom
  constructor
  · exact mergeKeywords_mergeKeywords entry.keywords normalized.keywords
  · rw [newCitations, hcitations, List.filter_eq_nil_iff]
    intro citation hcitation
    by_cases hmem : citation ∈ entry.supportingCitations
    · simp [hmem]
    · have hnew : citation ∈ newCitations entry normalized := List.mem_filter.mpr ⟨hcitation, by simp [hmem]⟩
      simp [hnew]
  · omega
  · omega
  · omega
  · exact Nat.le_max_right _ _

theorem settled_replace (hnormal : tables.normalizedDraft draft = some normalized)
    (hdraft : draft.evidenceCount.getD 0 < 2 ^ 32) :
    Settled normalized nowSecs (normalized.replace nowSecs entry) where
  keywords := mergeKeywords_self (normalized_keywords hnormal).2
  citations := by
    rw [newCitations, List.filter_eq_nil_iff]
    intro citation hcitation
    simp [LongTermMemoryDraft.replace, hcitation]
  incoming_le := Nat.le_refl _
  length_le := Nat.le_max_right _ _
  evidence_lt := incomingEvidenceCount_lt hnormal hdraft
  confirmed := Nat.le_refl _

/-! One merge. -/

theorem SameRecord.isOlder (h : SameRecord entry merged) :
    isOlder merged normalized nowSecs = isOlder entry normalized nowSecs := by
  simp only [Memory.isOlder, draftIsOlderThanExisting, h.sourceRevision, h.observedAt]

theorem SameRecord.guard (h : SameRecord entry merged) :
    inspectLongTermMemoryMergeGuard tables merged draft nowSecs =
      inspectLongTermMemoryMergeGuard tables entry draft nowSecs := by
  rw [inspectLongTermMemoryMergeGuard, inspectLongTermMemoryMergeGuard]
  cases tables.normalizedDraft draft with
  | none => rfl
  | some normalized =>
    have holder : draftIsOlderThanExisting merged (normalized.observedAt.getD nowSecs)
        (normalized.sourceRevision.getD 0) = draftIsOlderThanExisting entry (normalized.observedAt.getD nowSecs)
        (normalized.sourceRevision.getD 0) := h.isOlder
    simp only [h.content, h.confidence, holder]

theorem mergeTarget_updated (tables : UnicodeTables) (entry : LongTermMemoryEntry) (draft : LongTermMemoryDraft)
    (nowSecs updatedAt : Nat) :
    mergeTarget tables { entry with updatedAt } draft nowSecs =
      { mergeTarget tables entry draft nowSecs with updatedAt } := by
  have hsame : SameRecord entry { entry with updatedAt } := ⟨rfl, rfl, rfl, rfl⟩
  rw [mergeTarget, mergeTarget, hsame.guard]
  cases tables.normalizedDraft draft with
  | none => rfl
  | some normalized =>
    cases inspectLongTermMemoryMergeGuard tables entry draft nowSecs with
    | rejectOlderObservation => rfl
    | rejectLowerConfidenceContent => rfl
    | allow =>
      simp only [hsame.isOlder]
      split
      · split
        · rfl
        · rfl
      · rfl

/-- What a merge makes of an entry, its time of update apart. -/
inductive TargetCases (tables : UnicodeTables) (entry : LongTermMemoryEntry) (draft : LongTermMemoryDraft)
    (nowSecs : Nat) (target : LongTermMemoryEntry) : Prop where
  | unchanged (eq : target = entry)
      (other : ∀ normalized, tables.normalizedDraft draft = some normalized → normalized.content ≠ entry.content)
  | doubted (normalized : LongTermMemoryDraft) (normal : tables.normalizedDraft draft = some normalized)
      (other : normalized.content ≠ entry.content)
      (guard : inspectLongTermMemoryMergeGuard tables entry draft nowSecs = .rejectLowerConfidenceContent)
      (eq : target = doubt entry)
  | reinforced (normalized : LongTermMemoryDraft) (normal : tables.normalizedDraft draft = some normalized)
      (same : normalized.content = entry.content)
      (eq : target = if isOlder entry normalized nowSecs then normalized.reinforce nowSecs entry
        else normalized.source nowSecs (normalized.reinforce nowSecs entry))
  | replaced (normalized : LongTermMemoryDraft) (normal : tables.normalizedDraft draft = some normalized)
      (other : normalized.content ≠ entry.content)
      (eq : target = normalized.source nowSecs (normalized.replace nowSecs entry))

theorem mergeTarget_cases (tables : UnicodeTables) (entry : LongTermMemoryEntry) (draft : LongTermMemoryDraft)
    (nowSecs : Nat) : TargetCases tables entry draft nowSecs (mergeTarget tables entry draft nowSecs) := by
  cases hnormal : tables.normalizedDraft draft with
  | none =>
    refine .unchanged (by simp [mergeTarget, hnormal]) ?_
    intro normalized hsome
    rw [hnormal] at hsome
    cases hsome
  | some normalized =>
    have hrejected : inspectLongTermMemoryMergeGuard tables entry draft nowSecs ≠ .allow → _ := guard_of_content hnormal
    cases hguard : inspectLongTermMemoryMergeGuard tables entry draft nowSecs with
    | rejectOlderObservation =>
      refine .unchanged (by simp [mergeTarget, hnormal, hguard]) ?_
      intro other hother
      obtain rfl := Option.some.inj (hnormal.symm.trans hother)
      exact (hrejected (by simp [hguard])).symm
    | rejectLowerConfidenceContent =>
      exact .doubted normalized hnormal (hrejected (by simp [hguard])).symm hguard
        (by simp [mergeTarget, hnormal, hguard])
    | allow =>
      by_cases hcontent : entry.content = normalized.content
      · exact .reinforced normalized hnormal hcontent.symm (by simp only [mergeTarget, hnormal, hguard, hcontent, if_true])
      · exact .replaced normalized hnormal (Ne.symm hcontent)
          (by simp only [mergeTarget, hnormal, hguard, hcontent, if_false])

/-- A draft that was merged is not older than the entry any more. -/
theorem isOlder_source (normalized : LongTermMemoryDraft) (nowSecs : Nat) (entry : LongTermMemoryEntry) :
    isOlder (normalized.source nowSecs entry) normalized nowSecs = false := by
  simp [isOlder, draftIsOlderThanExisting, LongTermMemoryDraft.source, LongTermMemoryDraft.incomingObservedAt]

theorem source_source (normalized : LongTermMemoryDraft) (nowSecs : Nat) (entry : LongTermMemoryEntry) :
    normalized.source nowSecs (normalized.source nowSecs entry) = normalized.source nowSecs entry := by
  have hchat : normalized.sourceChatId.or (normalized.sourceChatId.or entry.sourceChatId) =
      normalized.sourceChatId.or entry.sourceChatId := by
    cases normalized.sourceChatId <;> rfl
  simp only [LongTermMemoryDraft.source, hchat]

theorem reinforce_source (normalized : LongTermMemoryDraft) (nowSecs : Nat) (entry : LongTermMemoryEntry) :
    normalized.reinforce nowSecs (normalized.source nowSecs entry) =
      normalized.source nowSecs (normalized.reinforce nowSecs entry) := rfl

/-- The target of a draft that has the content of the entry. -/
theorem mergeTarget_of_same (hnormal : tables.normalizedDraft draft = some normalized)
    (hsame : normalized.content = entry.content) :
    mergeTarget tables entry draft nowSecs =
      if isOlder entry normalized nowSecs then normalized.reinforce nowSecs entry
      else normalized.source nowSecs (normalized.reinforce nowSecs entry) := by
  simp [mergeTarget, inspectLongTermMemoryMergeGuard, hnormal, hsame]

theorem mergeTarget_of_settled (hnormal : tables.normalizedDraft draft = some normalized)
    (hsame : normalized.content = entry.content) (hsettled : Settled normalized nowSecs entry) :
    mergeTarget tables (normalized.source nowSecs entry) draft nowSecs = normalized.source nowSecs entry := by
  rw [mergeTarget_of_same hnormal (by simpa [LongTermMemoryDraft.source] using hsame), isOlder_source,
    reinforce_source, hsettled.reinforce, source_source]
  simp

/-- Where all new citations fit, a second merge of the draft does nothing. -/
theorem mergeTarget_mergeTarget (hdraft : draft.evidenceCount.getD 0 < 2 ^ 32)
    (hroom : ∀ normalized, tables.normalizedDraft draft = some normalized → normalized.content = entry.content →
      entry.supportingCitations.length + (newCitations entry normalized).length ≤
        maxLongTermMemorySupportingCitations) :
    mergeTarget tables (mergeTarget tables entry draft nowSecs) draft nowSecs =
      mergeTarget tables entry draft nowSecs := by
  cases mergeTarget_cases tables entry draft nowSecs with
  | unchanged heq => rw [heq, heq]
  | doubted normalized hnormal _ hguard heq =>
    have hsame : SameRecord entry (doubt entry) := ⟨rfl, rfl, rfl, rfl⟩
    have hagain : mergeTarget tables (doubt entry) draft nowSecs = doubt (doubt entry) := by
      simp only [mergeTarget, hnormal, hsame.guard, hguard]
    have hhint : strictestStaleHint (strictestStaleHint entry.staleHint .verifyAgainstCurrentState)
        .verifyAgainstCurrentState = strictestStaleHint entry.staleHint .verifyAgainstCurrentState := by
      cases entry.staleHint <;> rfl
    rw [heq, hagain]
    simp only [doubt, hhint]
  | reinforced normalized hnormal hcontent heq =>
    have hsettled : Settled normalized nowSecs (normalized.reinforce nowSecs entry) :=
      settled_reinforce hnormal hdraft (hroom normalized hnormal hcontent)
    rw [heq]
    split
    · rename_i holder
      have hsame : SameRecord entry (normalized.reinforce nowSecs entry) := ⟨rfl, rfl, rfl, rfl⟩
      rw [mergeTarget_of_same hnormal (hcontent.trans hsame.content.symm), hsame.isOlder, if_pos holder,
        hsettled.reinforce]
    · exact mergeTarget_of_settled hnormal hcontent hsettled
  | replaced normalized hnormal _ heq =>
    rw [heq]
    exact mergeTarget_of_settled hnormal rfl (settled_replace hnormal hdraft)

/-! The sizes after a merge. -/

/-- What is kept of an entry: its lists are bounded, and its evidence is a `u32`. -/
structure Kept (entry : LongTermMemoryEntry) : Prop where
  bounded : Bounded entry
  evidence_lt : entry.evidenceCount < 2 ^ 32

/-- The fields that the bounds are about. -/
structure SameLists (entry merged : LongTermMemoryEntry) : Prop where
  content : merged.content = entry.content
  keywords : merged.keywords = entry.keywords
  citations : merged.supportingCitations = entry.supportingCitations
  evidence : merged.evidenceCount = entry.evidenceCount

theorem SameLists.kept (h : SameLists entry merged) (hkept : Kept entry) : Kept merged where
  bounded :=
    { keywords_nodup := h.keywords ▸ hkept.bounded.keywords_nodup
      keywords_le := h.keywords ▸ hkept.bounded.keywords_le
      citations_nodup := h.citations ▸ hkept.bounded.citations_nodup
      citations_le := h.citations ▸ hkept.bounded.citations_le }
  evidence_lt := h.evidence ▸ hkept.evidence_lt

theorem Kept.source (h : Kept entry) (normalized : LongTermMemoryDraft) (nowSecs : Nat) :
    Kept (normalized.source nowSecs entry) := by
  have hlists : SameLists entry (normalized.source nowSecs entry) := ⟨rfl, rfl, rfl, rfl⟩
  exact hlists.kept h

theorem Kept.doubt (h : Kept entry) : Kept (doubt entry) := by
  have hlists : SameLists entry (Memory.doubt entry) := ⟨rfl, rfl, rfl, rfl⟩
  exact hlists.kept h

theorem nodup_citations (h : entry.supportingCitations.Nodup) (normalized : LongTermMemoryDraft) :
    (entry.supportingCitations ++ takenCitations entry normalized).Nodup := by
  have hnew : (newCitations entry normalized).Nodup := (nodup_incomingCitations normalized).filter _
  apply List.Nodup.append h ((List.take_sublist _ _).nodup hnew)
  intro citation hold htaken
  have hfresh := (List.mem_filter.mp ((List.take_sublist _ _).subset htaken)).2
  simp [hold] at hfresh

theorem Kept.reinforce (h : Kept entry) (normalized : LongTermMemoryDraft)
    (hroom : entry.supportingCitations.length + (newCitations entry normalized).length ≤
      maxLongTermMemorySupportingCitations) (nowSecs : Nat) : Kept (normalized.reinforce nowSecs entry) := by
  obtain ⟨bump, -, hevidence⟩ := reinforce_evidence entry normalized nowSecs
  constructor
  · constructor
    · exact (List.take_sublist _ _).nodup (nodup_pushNew h.bounded.keywords_nodup)
    · exact List.length_take_le _ _
    · rw [reinforce_citations]
      exact nodup_citations h.bounded.citations_nodup normalized
    · have htaken : (takenCitations entry normalized).length ≤ (newCitations entry normalized).length :=
        List.length_take_le' _ _
      rw [reinforce_citations, List.length_append]
      omega
  · rw [hevidence]
    omega

theorem kept_replace (hnormal : tables.normalizedDraft draft = some normalized)
    (hdraft : draft.evidenceCount.getD 0 < 2 ^ 32) : Kept (normalized.replace nowSecs entry) where
  bounded := ⟨(normalized_keywords hnormal).1, (normalized_keywords hnormal).2, nodup_incomingCitations normalized,
    length_incomingCitations_le normalized⟩
  evidence_lt := incomingEvidenceCount_lt hnormal hdraft

theorem reinforce_evidence_le (h : Kept entry) (normalized : LongTermMemoryDraft) (nowSecs : Nat) :
    entry.evidenceCount ≤ (normalized.reinforce nowSecs entry).evidenceCount := by
  obtain ⟨bump, -, hevidence⟩ := reinforce_evidence entry normalized nowSecs
  have hlt := h.evidence_lt
  rw [hevidence]
  omega

theorem kept_mergeTarget (h : Kept entry) (hdraft : draft.evidenceCount.getD 0 < 2 ^ 32)
    (hroom : ∀ normalized, tables.normalizedDraft draft = some normalized → normalized.content = entry.content →
      entry.supportingCitations.length + (newCitations entry normalized).length ≤
        maxLongTermMemorySupportingCitations) :
    Kept (mergeTarget tables entry draft nowSecs) := by
  cases mergeTarget_cases tables entry draft nowSecs with
  | unchanged heq => rwa [heq]
  | doubted _ _ _ _ heq =>
    rw [heq]
    exact h.doubt
  | reinforced normalized hnormal hcontent heq =>
    have hreinforced := h.reinforce normalized (hroom normalized hnormal hcontent) nowSecs
    rw [heq]
    split
    · exact hreinforced
    · exact hreinforced.source normalized nowSecs
  | replaced normalized hnormal _ heq =>
    rw [heq]
    exact (kept_replace hnormal hdraft).source normalized nowSecs

theorem mergeTarget_evidence_le (h : Kept entry)
    (hsame : (mergeTarget tables entry draft nowSecs).content = entry.content) :
    entry.evidenceCount ≤ (mergeTarget tables entry draft nowSecs).evidenceCount := by
  cases mergeTarget_cases tables entry draft nowSecs with
  | unchanged heq => rw [heq]
  | doubted _ _ _ _ heq =>
    rw [heq]
    exact Nat.le_refl _
  | reinforced normalized _ _ heq =>
    rw [heq]
    split
    · exact reinforce_evidence_le h normalized nowSecs
    · exact reinforce_evidence_le h normalized nowSecs
  | replaced normalized _ hother heq =>
    rw [heq] at hsame
    exact absurd hsame hother

/-! A run of merges. -/

variable {call : MergeCall}

theorem mergeCall_eq (tables : UnicodeTables) (entry : LongTermMemoryEntry) (call : MergeCall) :
    mergeCall tables entry call =
      finishMerge entry (mergeTarget tables entry call.draft call.nowSecs) call.nowSecs := by
  rw [mergeCall, merge_in_place_eq, merge_eq_finish]

/-- The entry after a merge, its time of update apart. -/
theorem mergeCall_fst (tables : UnicodeTables) (entry : LongTermMemoryEntry) (call : MergeCall) :
    ∃ updatedAt, (mergeCall tables entry call).1 =
      { mergeTarget tables entry call.draft call.nowSecs with updatedAt } :=
  ⟨_, by rw [mergeCall_eq]; exact finishMerge_eq _ _ _⟩

theorem mergeCall_lists (tables : UnicodeTables) (entry : LongTermMemoryEntry) (call : MergeCall) :
    SameLists (mergeTarget tables entry call.draft call.nowSecs) (mergeCall tables entry call).1 := by
  obtain ⟨updatedAt, hafter⟩ := mergeCall_fst tables entry call
  generalize mergeTarget tables entry call.draft call.nowSecs = target at hafter
  rw [hafter]
  exact ⟨rfl, rfl, rfl, rfl⟩

theorem mergeCall_again (h : mergeTarget tables (mergeTarget tables entry call.draft call.nowSecs) call.draft
      call.nowSecs = mergeTarget tables entry call.draft call.nowSecs) :
    mergeCall tables (mergeCall tables entry call).1 call = ((mergeCall tables entry call).1, false) := by
  obtain ⟨updatedAt, hafter⟩ := mergeCall_fst tables entry call
  have hfixed := mergeTarget_updated tables (mergeTarget tables entry call.draft call.nowSecs) call.draft call.nowSecs
    updatedAt
  rw [h] at hfixed
  rw [hafter, mergeCall_eq, hfixed, finishMerge_self]

theorem mergeTarget_of_again (h : mergeCall tables entry call = (entry, false)) :
    mergeTarget tables entry call.draft call.nowSecs = entry := by
  rw [mergeCall_eq] at h
  generalize mergeTarget tables entry call.draft call.nowSecs = target at h
  rw [finishMerge] at h
  split at h
  · assumption
  · simp at h

theorem kept_of_room (h : Kept entry) (hroom : RoomFor tables entry call) : Kept (mergeCall tables entry call).1 :=
  (mergeCall_lists tables entry call).kept (kept_mergeTarget h call.evidence_lt hroom)

theorem mergesWell_of_room (h : Kept entry) (hroom : RoomFor tables entry call) : MergesWell tables entry call := by
  have hlists := mergeCall_lists tables entry call
  refine ⟨(kept_of_room h hroom).bounded, ?_, mergeCall_again (mergeTarget_mergeTarget call.evidence_lt hroom)⟩
  intro hsame
  rw [hlists.evidence]
  exact mergeTarget_evidence_le h (hlists.content.symm.trans hsame)

theorem mergeTarget_citations (hnormal : tables.normalizedDraft draft = some normalized)
    (hsame : normalized.content = entry.content) :
    (mergeTarget tables entry draft nowSecs).supportingCitations =
      entry.supportingCitations ++ takenCitations entry normalized := by
  rw [mergeTarget_of_same hnormal hsame]
  split
  · exact reinforce_citations entry normalized nowSecs
  · exact reinforce_citations entry normalized nowSecs

/-- A draft with more new citations than there is room for goes over the limit, or leaves
some for the second merge. -/
theorem room_of_mergesWell (hwell : MergesWell tables entry call) : RoomFor tables entry call := by
  intro normalized hnormal hsame
  obtain ⟨hbounded, -, hagain⟩ := hwell
  have hlists := mergeCall_lists tables entry call
  generalize (mergeCall tables entry call).1 = after at hbounded hagain hlists
  have hcitations : after.supportingCitations = entry.supportingCitations ++ takenCitations entry normalized :=
    hlists.citations.trans (mergeTarget_citations hnormal hsame)
  have hcontent : normalized.content = after.content := by
    have htarget : (mergeTarget tables entry call.draft call.nowSecs).content = normalized.content ↔ _ :=
      mergeTarget_content_iff hnormal
    have hguard : inspectLongTermMemoryMergeGuard tables entry call.draft call.nowSecs = .allow := by
      simp [inspectLongTermMemoryMergeGuard, hnormal, hsame]
    exact (hlists.content.trans (htarget.mpr hguard)).symm
  have hnone : takenCitations after normalized = [] := by
    have hfixed : (mergeTarget tables after call.draft call.nowSecs).supportingCitations = _ :=
      mergeTarget_citations hnormal hcontent
    rw [mergeTarget_of_again hagain] at hfixed
    exact List.self_eq_append_right.mp hfixed
  have hnew : newCitations after normalized = [] := by
    rcases List.take_eq_nil_iff.mp hnone with hzero | hempty
    · omega
    · exact hempty
  -- so that all new citations are among those taken
  have htaken : ∀ citation ∈ newCitations entry normalized, citation ∈ takenCitations entry normalized := by
    intro citation hmem
    obtain ⟨hincoming, hfresh⟩ := List.mem_filter.mp hmem
    have hafterwards : citation ∈ after.supportingCitations := by
      by_contra hnot
      have hleft : citation ∈ newCitations after normalized := List.mem_filter.mpr ⟨hincoming, by simp [hnot]⟩
      rw [hnew] at hleft
      cases hleft
    rw [hcitations] at hafterwards
    exact (List.mem_append.mp hafterwards).resolve_left (by simpa using hfresh)
  have hnodup : (newCitations entry normalized).Nodup := (nodup_incomingCitations normalized).filter _
  have hle := List.Nodup.length_le_of_subset hnodup htaken
  have hlimit := hbounded.citations_le
  rw [hcitations, List.length_append] at hlimit
  omega

/-- The lists of an entry stay distinct and within their limits, its evidence does not go
down while its content stays, and no draft does anything when it is merged again, just when
every draft of the run with the content of the entry finds room for its new citations. -/
theorem merges_well_iff (tables : UnicodeTables) (entry : LongTermMemoryEntry) (calls : List MergeCall)
    (h : Kept entry) :
    Meets (boundsStep tables) (MergesWell tables) calls entry ↔
      Meets (boundsStep tables) (RoomFor tables) calls entry := by
  constructor
  · apply meets_of_meets (I := Kept)
    · intro entry call after hkept hwell hstep
      rw [← Option.some.inj hstep]
      exact kept_of_room hkept (room_of_mergesWell hwell)
    · exact fun entry call _ _ hwell _ => room_of_mergesWell hwell
    · exact h
  · apply meets_of_meets (I := Kept)
    · intro entry call after hkept hroom hstep
      rw [← Option.some.inj hstep]
      exact kept_of_room hkept hroom
    · exact fun entry call _ hkept hroom _ => mergesWell_of_room hkept hroom
    · exact h

end

/-! An entry with as many citations as it may have. -/

def citedEntry (supportingCitations : List String) : LongTermMemoryEntry :=
  { zoneEntry 0 1 with supportingCitations, evidenceCount := supportingCitations.length }

def citingCall (citation : String) : MergeCall where
  draft := { plainDraft "timezone" "utc" .high 1 with supportingCitations := [citation] }
  nowSecs := 10
  evidence_lt := Nat.two_pow_pos 32

theorem citing_merges_well :
    Kept (citedEntry ["a"]) ∧
      Meets (boundsStep lowerTables) (MergesWell lowerTables) [citingCall "b", citingCall "b"] (citedEntry ["a"]) := by
  have hkept : Kept (citedEntry ["a"]) := ⟨⟨by decide, by decide, by decide, by decide⟩, by decide⟩
  have hnormal : lowerTables.normalizedDraft (citingCall "b").draft = some (citingCall "b").draft := by
    decide
  have hincoming : (citingCall "b").draft.incomingCitations = ["b"] := by
    decide
  have hroom (entry : LongTermMemoryEntry) (h : entry.supportingCitations.length ≤ 5) :
      RoomFor lowerTables entry (citingCall "b") := by
    intro normalized hsome _
    obtain rfl := Option.some.inj (hnormal.symm.trans hsome)
    have hone : (newCitations entry (citingCall "b").draft).length ≤ 1 := by
      rw [newCitations, hincoming]
      exact List.length_filter_le _ _
    simp only [maxLongTermMemorySupportingCitations]
    omega
  refine ⟨hkept, (merges_well_iff lowerTables (citedEntry ["a"]) [citingCall "b", citingCall "b"] hkept).mpr ?_⟩
  intro after hafter
  refine ⟨hroom _ (by decide), fun _ _ => ⟨hroom _ ?_, trivial⟩⟩
  rw [← Option.some.inj hafter]
  decide

theorem seventh_citation :
    Kept (citedEntry ["a", "b", "c", "d", "e", "f"]) ∧
      ¬ Meets (boundsStep lowerTables) (MergesWell lowerTables) [citingCall "g"]
        (citedEntry ["a", "b", "c", "d", "e", "f"]) := by
  refine ⟨⟨⟨by decide, by decide, by decide, by decide⟩, by decide⟩, ?_⟩
  intro h
  have hwell := (h _ rfl).1
  have hseven : (mergeCall lowerTables (citedEntry ["a", "b", "c", "d", "e", "f"])
      (citingCall "g")).1.supportingCitations.length = 7 := by
    decide
  have hlimit := hwell.1.citations_le
  rw [hseven] at hlimit
  exact absurd hlimit (by decide)

end Beetle.Memory
