import Beetle.Lib.Passes
import Beetle.Lib.Trim
import Beetle.Memory.LongTerm

/-! Which of the recalled entries are selected: three passes over the candidates, the first
for new kinds, the second for new topics, the last for whatever is left. -/
namespace Beetle.Memory
open Beetle.Lib

def LongTermMemoryKind.label : LongTermMemoryKind → String
  | .preference => "preference"
  | .profile => "profile"
  | .relationship => "relationship"
  | .project => "project"
  | .task => "task"
  | .constraint => "constraint"
  | .fact => "fact"

def topicKey (entry : LongTermMemoryEntry) : String := entry.kind.label ++ ":" ++ entry.topic

/-- What the passes share. -/
structure Selection where
  selected : List LongTermMemoryEntry
  seenIds : Finset String
  seenTopics : Finset String
  seenKinds : Finset String

namespace Selection

def allow (s : Selection) (pass : Nat) (entry : LongTermMemoryEntry) : Bool :=
  match pass with
  | 0 => decide (topicKey entry ∉ s.seenTopics) && decide (entry.kind.label ∉ s.seenKinds)
  | 1 => decide (topicKey entry ∉ s.seenTopics)
  | _ => true

/-- The inner loop. The id is inserted first, and removed again if the entry is not allowed. -/
def runPass (pass desired : Nat) (s : Selection) : List LongTermMemoryEntry → Selection
  | [] => s
  | entry :: candidates =>
    if desired ≤ s.selected.length ∨ entry.id ∈ s.seenIds then runPass pass desired s candidates
    else
      let s := { s with seenIds := insert entry.id s.seenIds }
      if s.allow pass entry = false then
        runPass pass desired { s with seenIds := s.seenIds.erase entry.id } candidates
      else
        let s : Selection :=
          { selected := s.selected ++ [entry]
            seenIds := s.seenIds
            seenTopics := insert (topicKey entry) s.seenTopics
            seenKinds := insert entry.kind.label s.seenKinds }
        if desired ≤ s.selected.length then s else runPass pass desired s candidates

end Selection

def selectEntries (candidates : List LongTermMemoryEntry) (desired : Nat) : List LongTermMemoryEntry :=
  ((List.range 3).foldl (fun s pass => Selection.runPass pass desired s candidates)
    ({ selected := [], seenIds := ∅, seenTopics := ∅, seenKinds := ∅ } : Selection)).selected

def LongTermMemoryEntry.slot (entry : LongTermMemoryEntry) : LongTermMemoryKind × String := (entry.kind, entry.topic)

/-- 0 for a new kind, 1 for a new topic of a kind that is selected, 2 for the rest. -/
@[grind =] def noveltyRank (selected : List LongTermMemoryEntry) (entry : LongTermMemoryEntry) : Nat :=
  if entry.slot ∈ selected.map (·.slot) then 2
  else if entry.kind ∈ selected.map (·.kind) then 1
  else 0

section
variable {selected candidates : List LongTermMemoryEntry} {entry other : LongTermMemoryEntry} {pass desired : Nat}

theorem label_inj {kind other : LongTermMemoryKind} (h : kind.label = other.label) : kind = other := by
  cases kind <;> cases other <;> first | rfl | simp [LongTermMemoryKind.label] at h

theorem colon_notMem_label (kind : LongTermMemoryKind) : ':' ∉ kind.label.toList := by
  cases kind <;> decide

/-- No label has a colon, so that the key of a topic says both the kind and the topic. -/
theorem topicKey_eq_iff : topicKey entry = topicKey other ↔ entry.slot = other.slot := by
  constructor
  · intro h
    have hlists := congrArg String.toList h
    simp only [topicKey, String.toList_append, List.append_assoc] at hlists
    have hsplit := splitOnce_append (colon_notMem_label entry.kind) entry.topic.toList
    have hsplit' := splitOnce_append (colon_notMem_label other.kind) other.topic.toList
    rw [show ':' :: entry.topic.toList = ":".toList ++ entry.topic.toList from rfl, hlists] at hsplit
    obtain ⟨hlabel, htopic⟩ := Prod.mk.inj (Option.some.inj (hsplit.symm.trans hsplit'))
    rw [LongTermMemoryEntry.slot, LongTermMemoryEntry.slot, label_inj (String.toList_inj.mp hlabel),
      String.toList_inj.mp htopic]
  · intro h
    obtain ⟨hkind, htopic⟩ := Prod.mk.inj h
    rw [topicKey, topicKey, hkind, htopic]

/-- The sets that go with the entries selected so far. -/
def Selection.of (selected : List LongTermMemoryEntry) : Selection where
  selected := selected
  seenIds := (selected.map (·.id)).toFinset
  seenTopics := (selected.map topicKey).toFinset
  seenKinds := (selected.map (·.kind.label)).toFinset

theorem mem_seenKinds : entry.kind.label ∈ (Selection.of selected).seenKinds ↔ entry.kind ∈ selected.map (·.kind) := by
  simp only [Selection.of, List.mem_toFinset, List.mem_map]
  constructor
  · rintro ⟨other, hother, hlabel⟩
    exact ⟨other, hother, label_inj hlabel⟩
  · rintro ⟨other, hother, hkind⟩
    exact ⟨other, hother, congrArg LongTermMemoryKind.label hkind⟩

theorem mem_seenTopics : topicKey entry ∈ (Selection.of selected).seenTopics ↔ entry.slot ∈ selected.map (·.slot) := by
  simp only [Selection.of, List.mem_toFinset, List.mem_map, topicKey_eq_iff]

theorem kind_mem_of_slot_mem (h : entry.slot ∈ selected.map (·.slot)) : entry.kind ∈ selected.map (·.kind) := by
  obtain ⟨other, hother, hslot⟩ := List.mem_map.mp h
  exact List.mem_map.mpr ⟨other, hother, congrArg Prod.fst hslot⟩

/-- A pass lets through what is novel enough. -/
theorem allow_iff (pass : Nat) (ids : Finset String) :
    Selection.allow { Selection.of selected with seenIds := ids } pass entry = true ↔ noveltyRank selected entry ≤ pass := by
  have htopic : topicKey entry ∈ (Selection.of selected).seenTopics ↔ _ := mem_seenTopics
  have hkind : entry.kind.label ∈ (Selection.of selected).seenKinds ↔ _ := mem_seenKinds
  rw [noveltyRank]
  match pass with
  | 0 =>
    simp only [Selection.allow, Bool.and_eq_true, decide_eq_true_eq, htopic, hkind]
    split
    · rename_i hold
      simp only [hold, not_true_eq_false, false_and, false_iff]
      decide
    · rename_i hnew
      split
      · rename_i hold
        simp only [hold, not_true_eq_false, and_false, false_iff]
        decide
      · rename_i hfresh
        exact iff_of_true ⟨hnew, hfresh⟩ (Nat.le_refl 0)
  | 1 =>
    simp only [Selection.allow, decide_eq_true_eq, htopic]
    split
    · rename_i hold
      exact iff_of_false (not_not_intro hold) (by decide)
    · rename_i hnew
      refine iff_of_true hnew ?_
      split
      · exact Nat.le_refl 1
      · exact Nat.zero_le 1
  | pass + 2 =>
    refine iff_of_true rfl ?_
    split
    · omega
    · split
      · omega
      · omega

theorem noveltyRank_grows (selected : List LongTermMemoryEntry) (entry other : LongTermMemoryEntry) :
    noveltyRank selected other ≤ noveltyRank (selected ++ [entry]) other := by
  simp only [noveltyRank, List.map_append, List.mem_append]
  by_cases hslot : other.slot ∈ selected.map (·.slot)
  · rw [if_pos hslot, if_pos (.inl hslot)]
  · rw [if_neg hslot]
    by_cases hkind : other.kind ∈ selected.map (·.kind)
    · rw [if_pos hkind]
      split
      · decide
      · rw [if_pos (.inl hkind)]
    · rw [if_neg hkind]
      exact Nat.zero_le _

theorem Selection.of_concat (selected : List LongTermMemoryEntry) (entry : LongTermMemoryEntry) :
    Selection.of (selected ++ [entry]) =
      { selected := selected ++ [entry]
        seenIds := insert entry.id (Selection.of selected).seenIds
        seenTopics := insert (topicKey entry) (Selection.of selected).seenTopics
        seenKinds := insert entry.kind.label (Selection.of selected).seenKinds } := by
  have hconcat (values : List String) (value : String) : (values ++ [value]).toFinset = insert value values.toFinset := by
    ext other
    simp
  simp only [Selection.of, List.map_append, List.map_singleton, hconcat]

/-- The id of an entry that is not allowed is not left behind. -/
theorem runPass_eq (pass desired : Nat) (selected candidates : List LongTermMemoryEntry) :
    (Selection.of selected).runPass pass desired candidates =
      .of (pickPass (·.id) noveltyRank desired pass selected candidates) := by
  induction candidates generalizing selected with
  | nil => rfl
  | cons entry candidates ih =>
    have hids : entry.id ∈ (Selection.of selected).seenIds ↔ entry.id ∈ selected.map (·.id) := List.mem_toFinset
    have hallow := @allow_iff selected entry pass (insert entry.id (Selection.of selected).seenIds)
    rw [Selection.runPass]
    by_cases hskip : desired ≤ (Selection.of selected).selected.length ∨ entry.id ∈ (Selection.of selected).seenIds
    · rw [if_pos hskip, ih, pickPass, if_neg]
      rintro ⟨hroom, hfresh, -⟩
      rcases hskip with hfull | hmem
      · exact absurd hroom (Nat.not_lt.mpr hfull)
      · exact hfresh (hids.mp hmem)
    · obtain ⟨hroom, hfresh⟩ := not_or.mp hskip
      rw [if_neg hskip]
      dsimp only
      by_cases hrank : noveltyRank selected entry ≤ pass
      · have hpick : pickPass (·.id) noveltyRank desired pass selected (entry :: candidates) =
            pickPass (·.id) noveltyRank desired pass (selected ++ [entry]) candidates := by
          rw [pickPass, if_pos ⟨Nat.not_le.mp hroom, fun hmem => hfresh (hids.mpr hmem), hrank⟩]
        rw [if_neg (by rw [hallow.mpr hrank]; decide), hpick]
        split
        · rename_i hfull
          have hfull : desired ≤ (selected ++ [entry]).length := hfull
          rw [pickPass_of_full hfull]
          exact (Selection.of_concat selected entry).symm
        · rw [← ih, Selection.of_concat]
          rfl
      · rw [if_pos (Bool.eq_false_iff.mpr (mt hallow.mp hrank)), Finset.erase_insert hfresh, pickPass,
          if_neg fun htake => hrank htake.2.2]
        exact ih selected

theorem selectEntries_eq (candidates : List LongTermMemoryEntry) (desired : Nat) :
    selectEntries candidates desired = pickPasses (·.id) noveltyRank desired candidates 3 := by
  have hstart : ({ selected := [], seenIds := ∅, seenTopics := ∅, seenKinds := ∅ } : Selection) = .of [] := rfl
  have hpasses : List.range 3 = [0, 1, 2] := rfl
  rw [selectEntries, hstart, hpasses]
  simp only [List.foldl_cons, List.foldl_nil, runPass_eq]
  rfl

/-- The entries that can still be selected. -/
def remaining (candidates selected : List LongTermMemoryEntry) : List LongTermMemoryEntry :=
  candidates.filter fun entry => entry.id ∉ selected.map (·.id)

theorem mem_remaining : entry ∈ remaining candidates selected ↔ entry ∈ candidates ∧ entry.id ∉ selected.map (·.id) := by
  simp only [remaining, List.mem_filter, decide_eq_true_eq]

/-- The selection has distinct ids, as many as are wanted and there are. An entry of a slot
that is selected comes only when the slots of all entries that can still be selected are,
and one of a kind that is selected only when all their kinds are; of those equally novel
the earliest comes first. -/
theorem selection_is_diverse_and_complete (candidates : List LongTermMemoryEntry) (desired : Nat) :
    let result := selectEntries candidates desired
    (result.map (·.id)).Nodup ∧
      result.length = min desired (candidates.map (·.id)).toFinset.card ∧
      ∀ before entry after, result = before ++ entry :: after →
        (entry.slot ∈ before.map (·.slot) → ∀ other ∈ remaining candidates before, other.slot ∈ before.map (·.slot)) ∧
        (entry.kind ∈ before.map (·.kind) → ∀ other ∈ remaining candidates before, other.kind ∈ before.map (·.kind)) ∧
        ∃ earlier later, candidates = earlier ++ entry :: later ∧
          ∀ other ∈ remaining earlier before, noveltyRank before other ≠ noveltyRank before entry := by
  intro result
  have hrank (selected : List LongTermMemoryEntry) (entry : LongTermMemoryEntry) : noveltyRank selected entry < 3 := by
    rw [noveltyRank]
    split
    · decide
    · split <;> decide
  have hgreedy : Greedy (·.id) noveltyRank candidates result := by
    simp only [result, selectEntries_eq]
    exact (pickPasses_spec noveltyRank_grows candidates desired 3).1
  have hlength : result.length = min desired (candidates.map (·.id)).toFinset.card := by
    simp only [result, selectEntries_eq]
    exact length_pickPasses noveltyRank_grows hrank candidates desired
  refine ⟨hgreedy.nodup, hlength, ?_⟩
  intro before entry after hresult
  obtain ⟨-, hbest, earlier, later, hcandidates, hfirst⟩ := hgreedy before entry after hresult
  refine ⟨?_, ?_, earlier, later, hcandidates, ?_⟩
  · intro hslot other hother
    obtain ⟨hmem, hfresh⟩ := mem_remaining.mp hother
    have hle := hbest other hmem hfresh
    by_contra hnew
    have htwo : noveltyRank before entry = 2 := if_pos hslot
    rw [htwo, noveltyRank, if_neg hnew] at hle
    split at hle
    · omega
    · omega
  · intro hkind other hother
    obtain ⟨hmem, hfresh⟩ := mem_remaining.mp hother
    have hle := hbest other hmem hfresh
    by_contra hnew
    have hzero : noveltyRank before other = 0 := by
      rw [noveltyRank, if_neg (mt kind_mem_of_slot_mem hnew), if_neg hnew]
    have hone : 1 ≤ noveltyRank before entry := by
      rw [noveltyRank, if_pos hkind]
      split
      · decide
      · exact Nat.le_refl 1
    omega
  · intro other hother
    obtain ⟨hmem, hfresh⟩ := mem_remaining.mp hother
    exact (hfirst other hmem hfresh).ne'

end

/-! Candidates that share an id. -/

def recalled (id : String) (kind : LongTermMemoryKind) (topic : String) : LongTermMemoryEntry where
  id := id
  kind := kind
  topic := topic
  content := topic
  keywords := []
  sourceChatId := none
  sourceType := .conversation
  sourceScope := .world
  confidence := .high
  freshness := .stable
  staleHint := .none
  supportingCitations := []
  evidenceCount := 0
  createdAt := 1
  updatedAt := 1
  observedAt := 1
  lastConfirmedAt := 1
  sourceRevision := 0
  lastUsedAt := 0

/-- The task is hidden behind the id of the fact, and the fact's own slot is taken twice. -/
theorem shared_id_hides_slot :
    let candidates := [recalled "a" .fact "tea", recalled "a" .task "shop", recalled "b" .fact "tea"]
    ∃ before entry after, selectEntries candidates 3 = before ++ entry :: after ∧
      entry.slot ∈ before.map (·.slot) ∧
      ¬ ∀ other ∈ candidates, other.slot ∈ (selectEntries candidates 3).map (·.slot) := by
  intro candidates
  have hresult : selectEntries candidates 3 = [recalled "a" .fact "tea", recalled "b" .fact "tea"] := by
    decide
  refine ⟨[recalled "a" .fact "tea"], recalled "b" .fact "tea", [], hresult, by decide, ?_⟩
  rw [hresult]
  intro h
  have htask := h (recalled "a" .task "shop") (by simp [candidates])
  exact absurd htask (by decide)

end Beetle.Memory
