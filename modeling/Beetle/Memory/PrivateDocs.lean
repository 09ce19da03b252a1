import Beetle.Normalized

/-! The private documents of a subject, and what a refresh makes of them and of the update that the model asked for. -/
namespace Beetle.Memory.PrivateDocs

structure PrivateDocEntry where
  content : String
  updatedAt : UInt64
  revision : UInt32
  deriving DecidableEq

structure PrivateDocWorkspace where
  innerJournal : Option PrivateDocEntry
  relationshipNotes : Option PrivateDocEntry
  selfReflection : Option PrivateDocEntry
  privatePlan : Option PrivateDocEntry
  updatedAt : UInt64
  deriving DecidableEq

/-- The documents that the model mentioned. -/
structure RawPrivateDocWorkspaceUpdate where
  innerJournal : Option String
  relationshipNotes : Option String
  selfReflection : Option String
  privatePlan : Option String
  deriving DecidableEq

inductive PrivateDocWorkspaceRefreshOutcome where
  | skipped
  | updated
  deriving DecidableEq

def privateDocFieldMaxChars : Nat := 240

namespace PrivateDocWorkspace

def default : PrivateDocWorkspace := ⟨none, none, none, none, 0⟩

def isMeaningful (workspace : PrivateDocWorkspace) : Bool :=
  workspace.innerJournal.any (trimStr ·.content ≠ "") || workspace.relationshipNotes.any (trimStr ·.content ≠ "") ||
    workspace.selfReflection.any (trimStr ·.content ≠ "") || workspace.privatePlan.any (trimStr ·.content ≠ "")

end PrivateDocWorkspace

def normalizePrivateDocEntry : Option PrivateDocEntry → Option PrivateDocEntry
  | none => none
  | some value =>
    if trimStr value.content = "" then none
    else some { value with content := truncateContentToMax (trimStr value.content) privateDocFieldMaxChars }

def normalizePrivateDocWorkspace (workspace : PrivateDocWorkspace) (nowSecs : UInt64) : Option PrivateDocWorkspace :=
  let workspace : PrivateDocWorkspace := ⟨normalizePrivateDocEntry workspace.innerJournal,
    normalizePrivateDocEntry workspace.relationshipNotes, normalizePrivateDocEntry workspace.selfReflection,
    normalizePrivateDocEntry workspace.privatePlan, workspace.updatedAt⟩
  if workspace.isMeaningful then some { workspace with updatedAt := nowSecs } else none

/-- `saturating_add(1)`. -/
def nextRevision (revision : UInt32) : UInt32 := if revision.toNat + 1 < 2 ^ 32 then revision + 1 else revision

/-- What is in the slot afterwards. -/
def applyPrivateDocUpdate (slot baseline latest : Option PrivateDocEntry) (update : Option String) (nowSecs : UInt64) :
    Option PrivateDocEntry :=
  match update with
  | none => slot
  | some update =>
    if baseline ≠ latest then slot
    else if trimStr update = "" then none
    else some ⟨truncateContentToMax (trimStr update) privateDocFieldMaxChars, nowSecs,
      (slot.map fun entry => nextRevision entry.revision).getD 1⟩

def mergePrivateDocWorkspaceWithLease (baselineWorkspace latestWorkspace : Option PrivateDocWorkspace)
    (update : RawPrivateDocWorkspaceUpdate) (nowSecs : UInt64) : Option PrivateDocWorkspace :=
  let workspace := (latestWorkspace.or baselineWorkspace).getD .default
  normalizePrivateDocWorkspace
    { workspace with
      innerJournal := applyPrivateDocUpdate workspace.innerJournal (baselineWorkspace.bind (·.innerJournal))
        (latestWorkspace.bind (·.innerJournal)) update.innerJournal nowSecs
      relationshipNotes := applyPrivateDocUpdate workspace.relationshipNotes (baselineWorkspace.bind (·.relationshipNotes))
        (latestWorkspace.bind (·.relationshipNotes)) update.relationshipNotes nowSecs
      selfReflection := applyPrivateDocUpdate workspace.selfReflection (baselineWorkspace.bind (·.selfReflection))
        (latestWorkspace.bind (·.selfReflection)) update.selfReflection nowSecs
      privatePlan := applyPrivateDocUpdate workspace.privatePlan (baselineWorkspace.bind (·.privatePlan))
        (latestWorkspace.bind (·.privatePlan)) update.privatePlan nowSecs }
    nowSecs

/-- The workspace that is stored afterwards, with the outcome. The model's answer is what is parsed of it, if the call
succeeds; the latest workspace is read after the call. -/
def runPrivateDocWorkspaceRefreshWithState (refresh : Bool) (existingWorkspace : Option PrivateDocWorkspace)
    (answer : Except Error (Option RawPrivateDocWorkspaceUpdate)) (latestWorkspace : Option PrivateDocWorkspace)
    (nowSecs : UInt64) : Option PrivateDocWorkspace × PrivateDocWorkspaceRefreshOutcome :=
  if !refresh then (latestWorkspace, .skipped)
  else
    match answer with
    | .error _ => (latestWorkspace, .skipped)
    | .ok none => (latestWorkspace, .skipped)
    | .ok (some update) =>
      match mergePrivateDocWorkspaceWithLease existingWorkspace latestWorkspace update nowSecs with
      | none => (latestWorkspace, .skipped)
      | some merged => if latestWorkspace = some merged then (latestWorkspace, .skipped) else (some merged, .updated)

/-! What a refresh is for. -/

inductive PrivateDoc where
  | innerJournal
  | relationshipNotes
  | selfReflection
  | privatePlan

def PrivateDocWorkspace.entry (workspace : PrivateDocWorkspace) : PrivateDoc → Option PrivateDocEntry
  | .innerJournal => workspace.innerJournal
  | .relationshipNotes => workspace.relationshipNotes
  | .selfReflection => workspace.selfReflection
  | .privatePlan => workspace.privatePlan

def RawPrivateDocWorkspaceUpdate.text (update : RawPrivateDocWorkspaceUpdate) : PrivateDoc → Option String
  | .innerJournal => update.innerJournal
  | .relationshipNotes => update.relationshipNotes
  | .selfReflection => update.selfReflection
  | .privatePlan => update.privatePlan

def entryIn (workspace : Option PrivateDocWorkspace) (doc : PrivateDoc) : Option PrivateDocEntry := workspace.bind (·.entry doc)

/-- A text as far as it is kept, without white space around it. -/
def docText (text : String) : String := Calendar.normalizeField text privateDocFieldMaxChars

/-- What a document says; nothing where it was cleared. -/
def docValue (entry : Option PrivateDocEntry) : String := (entry.map (docText ·.content)).getD ""

variable (baseline latest : Option PrivateDocWorkspace) (update : RawPrivateDocWorkspaceUpdate) (nowSecs : UInt64)

/-- A document that was changed since the baseline stays as it is, and so does one that is not mentioned. -/
def wanted (doc : PrivateDoc) : String :=
  match update.text doc with
  | none => docValue (entryIn latest doc)
  | some text => if entryIn baseline doc = entryIn latest doc then docText text else docValue (entryIn latest doc)

def stored : Option PrivateDocWorkspace :=
  (runPrivateDocWorkspaceRefreshWithState true baseline (.ok (some update)) latest nowSecs).1

/-- The document that the merge is made of, from the slot of the later workspace that is there. -/
def mergedEntry (doc : PrivateDoc) : Option PrivateDocEntry :=
  applyPrivateDocUpdate (((latest.or baseline).getD .default).entry doc) (entryIn baseline doc) (entryIn latest doc)
    (update.text doc) nowSecs

theorem docText_truncate (text : String) :
    docText (truncateContentToMax (trimStr text) privateDocFieldMaxChars) = docText text := by
  have hlength : (truncateContentToMax (trimStr text) privateDocFieldMaxChars).toList.length ≤ privateDocFieldMaxChars := by
    rw [truncateContentToMax, String.toList_ofList, List.length_take]
    exact Nat.min_le_left _ _
  have htrimmed := trimmed_trimStr (truncateContentToMax (trimStr text) privateDocFieldMaxChars)
  rw [docText, docText, Calendar.normalizeField, truncateContentToMax_eq_self ((length_trimStr_le _).trans hlength), htrimmed]
  rfl

theorem docText_ne_empty_iff (text : String) : docText text ≠ "" ↔ trimStr text ≠ "" :=
  not_congr (normalizeField_eq_empty (by decide))

theorem docValue_normalizePrivateDocEntry (entry : Option PrivateDocEntry) :
    docValue (normalizePrivateDocEntry entry) = docValue entry := by
  cases entry with
  | none => rfl
  | some entry =>
    rw [normalizePrivateDocEntry]
    split
    · rename_i hblank
      exact (not_not.mp ((docText_ne_empty_iff entry.content).not.mpr (not_not.mpr hblank))).symm
    · exact docText_truncate entry.content

theorem docValue_applyPrivateDocUpdate (slot before after : Option PrivateDocEntry) (text : Option String) :
    docValue (applyPrivateDocUpdate slot before after text nowSecs) =
      match text with
      | none => docValue slot
      | some text => if before = after then docText text else docValue slot := by
  cases text with
  | none => rfl
  | some text =>
    dsimp only [applyPrivateDocUpdate]
    by_cases hsame : before = after
    · rw [if_neg (not_not.mpr hsame), if_pos hsame]
      split
      · rename_i hblank
        exact (not_not.mp ((docText_ne_empty_iff text).not.mpr (not_not.mpr hblank))).symm
      · exact docText_truncate text
    · rw [if_pos hsame, if_neg hsame]

theorem isMeaningful_iff (workspace : PrivateDocWorkspace) :
    workspace.isMeaningful = true ↔ ∃ doc, docValue (workspace.entry doc) ≠ "" := by
  have hvalue (entry : Option PrivateDocEntry) : entry.any (trimStr ·.content ≠ "") = true ↔ docValue entry ≠ "" := by
    cases entry with
    | none => simp [docValue]
    | some entry =>
      rw [Option.any_some, decide_eq_true_iff]
      exact (docText_ne_empty_iff entry.content).symm
  simp only [PrivateDocWorkspace.isMeaningful, Bool.or_eq_true, hvalue]
  constructor
  · rintro (((h | h) | h) | h)
    · exact ⟨.innerJournal, h⟩
    · exact ⟨.relationshipNotes, h⟩
    · exact ⟨.selfReflection, h⟩
    · exact ⟨.privatePlan, h⟩
  · rintro ⟨doc, h⟩
    cases doc with
    | innerJournal => exact .inl (.inl (.inl h))
    | relationshipNotes => exact .inl (.inl (.inr h))
    | selfReflection => exact .inl (.inr h)
    | privatePlan => exact .inr h

/-- The merge is a workspace of these documents, where one of them says something. -/
theorem merge_cases : (∃ merged, mergePrivateDocWorkspaceWithLease baseline latest update nowSecs = some merged ∧
      (∃ doc, docValue (mergedEntry baseline latest update nowSecs doc) ≠ "") ∧
      ∀ doc, docValue (merged.entry doc) = docValue (mergedEntry baseline latest update nowSecs doc)) ∨
    (mergePrivateDocWorkspaceWithLease baseline latest update nowSecs = none ∧
      ∀ doc, docValue (mergedEntry baseline latest update nowSecs doc) = "") := by
  unfold mergePrivateDocWorkspaceWithLease normalizePrivateDocWorkspace
  dsimp only
  split
  · rename_i hmeaningful
    have hdocs (doc : PrivateDoc) := docValue_normalizePrivateDocEntry (mergedEntry baseline latest update nowSecs doc)
    obtain ⟨doc, hdoc⟩ := (isMeaningful_iff _).mp hmeaningful
    refine .inl ⟨_, rfl, ⟨doc, ?_⟩, fun doc => ?_⟩
    · rw [← hdocs doc]
      cases doc <;> exact hdoc
    · rw [← hdocs doc]
      cases doc <;> rfl
  · rename_i hempty
    rw [isMeaningful_iff] at hempty
    push Not at hempty
    refine .inr ⟨rfl, fun doc => ?_⟩
    rw [← docValue_normalizePrivateDocEntry, ← hempty doc]
    cases doc <;> rfl

/-- A merge in which no document says anything is not stored. -/
theorem docValue_stored (doc : PrivateDoc) [Decidable (∃ doc, docValue (mergedEntry baseline latest update nowSecs doc) ≠ "")] :
    docValue (entryIn (stored baseline latest update nowSecs) doc) =
      if ∃ doc, docValue (mergedEntry baseline latest update nowSecs doc) ≠ "" then
        docValue (mergedEntry baseline latest update nowSecs doc)
      else docValue (entryIn latest doc) := by
  unfold stored runPrivateDocWorkspaceRefreshWithState
  rw [if_neg (by decide)]
  dsimp only
  rcases merge_cases baseline latest update nowSecs with ⟨merged, hmerge, hsome, hdocs⟩ | ⟨hmerge, hnone⟩
  · rw [hmerge, if_pos hsome, ← hdocs doc]
    dsimp only
    split
    · rename_i hlatest
      rw [hlatest]
      rfl
    · rfl
  · rw [hmerge, if_neg (not_exists.mpr fun doc => not_not.mpr (hnone doc))]

/-- With a later workspace the merge holds what is wanted. -/
theorem docValue_mergedEntry_some (workspace : PrivateDocWorkspace) (doc : PrivateDoc) :
    docValue (mergedEntry baseline (some workspace) update nowSecs doc) = wanted baseline (some workspace) update doc := by
  rw [mergedEntry, docValue_applyPrivateDocUpdate]
  rfl

/-- Without one it is made from the baseline. -/
theorem docValue_mergedEntry_none (doc : PrivateDoc) : docValue (mergedEntry baseline none update nowSecs doc) =
    if entryIn baseline doc = none then wanted baseline none update doc else docValue (entryIn baseline doc) := by
  have hslot : (((none : Option PrivateDocWorkspace).or baseline).getD .default).entry doc = entryIn baseline doc := by
    cases baseline with
    | none => cases doc <;> rfl
    | some workspace => rfl
  rw [mergedEntry, hslot, docValue_applyPrivateDocUpdate, wanted]
  change (match update.text doc with | none => _ | some text => if _ = none then _ else _) = _
  cases hupdate : update.text doc with
  | none =>
    dsimp only
    split
    · rename_i hnone
      rw [hnone]
      rfl
    · rfl
  | some text =>
    dsimp only
    split
    · rename_i hnone
      rw [hnone]
      rfl
    · rfl

/-- The documents are as they should be after a refresh exactly where no text of the baseline is there to come back when
the workspace was cleared in between, and a refresh that leaves no text finds none. -/
theorem refresh_right_iff :
    (∀ doc, docValue (entryIn (stored baseline latest update nowSecs) doc) = wanted baseline latest update doc) ↔
      (latest = none → ∀ doc, docValue (entryIn baseline doc) = "") ∧
        ((∀ doc, wanted baseline latest update doc = "") → ∀ doc, docValue (entryIn latest doc) = "") := by
  classical
  simp only [docValue_stored]
  cases latest with
  | some workspace =>
    simp only [docValue_mergedEntry_some, reduceCtorEq, false_imp_iff, true_and]
    by_cases hsome : ∃ doc, wanted baseline (some workspace) update doc ≠ ""
    · simp only [if_pos hsome, implies_true, true_iff]
      intro hnone
      obtain ⟨doc, hdoc⟩ := hsome
      exact absurd (hnone doc) hdoc
    · simp only [if_neg hsome]
      push Not at hsome
      simp only [hsome, implies_true, true_imp_iff]
  | none =>
    have hwanted (doc : PrivateDoc) (h : entryIn baseline doc ≠ none) : wanted baseline none update doc = "" := by
      unfold wanted
      split
      · rfl
      · exact if_neg h
    have hlatest (doc : PrivateDoc) : docValue (entryIn none doc) = "" := rfl
    simp only [docValue_mergedEntry_none, hlatest, implies_true, and_true, true_imp_iff]
    constructor
    · intro hright doc
      by_cases hentry : entryIn baseline doc = none
      · rw [hentry]
        rfl
      · by_contra hdoc
        have hsome : ∃ doc, (if entryIn baseline doc = none then wanted baseline none update doc
            else docValue (entryIn baseline doc)) ≠ "" := ⟨doc, by rwa [if_neg hentry]⟩
        have hback := hright doc
        rw [if_pos hsome, if_neg hentry, hwanted doc hentry] at hback
        exact hdoc hback
    · intro hbaseline doc
      have hsame (doc : PrivateDoc) : (if entryIn baseline doc = none then wanted baseline none update doc
          else docValue (entryIn baseline doc)) = wanted baseline none update doc := by
        split
        · rfl
        · rename_i hentry
          rw [hbaseline doc, hwanted doc hentry]
      simp only [hsame]
      split
      · rfl
      · rename_i hnone
        push Not at hnone
        rw [hnone doc]

/-- The only document cannot be cleared, and a workspace that was cleared during the call comes back. -/
theorem refresh_wrong :
    (docValue (entryIn (stored (some ⟨some ⟨"calm", 1, 1⟩, none, none, none, 1⟩) (some ⟨some ⟨"calm", 1, 1⟩, none, none, none, 1⟩)
        ⟨some "", none, none, none⟩ 2) .innerJournal) = "calm" ∧
      wanted (some ⟨some ⟨"calm", 1, 1⟩, none, none, none, 1⟩) (some ⟨some ⟨"calm", 1, 1⟩, none, none, none, 1⟩)
        ⟨some "", none, none, none⟩ .innerJournal = "") ∧
    (docValue (entryIn (stored (some ⟨some ⟨"calm", 1, 1⟩, none, none, none, 1⟩) none ⟨none, some "close", none, none⟩ 2)
        .innerJournal) = "calm" ∧
      wanted (some ⟨some ⟨"calm", 1, 1⟩, none, none, none, 1⟩) none ⟨none, some "close", none, none⟩ .innerJournal = "") := by
  decide

end Beetle.Memory.PrivateDocs
