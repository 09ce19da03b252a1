import Beetle.Platform.LongTermMemoryStore

/-! The long-term memories over calls whose writes fail. -/
namespace Beetle.Platform.Storage
open Beetle.Lib Beetle.Memory

/-- The total and the semantic score of an entry, for a query of a chat at a time. -/
abbrev RecallScore := String → Option String → Nat → LongTermMemoryEntry → Nat × Nat

namespace StorageLongTermMemoryStore

def clampLimit (limit : Nat) : Nat := min (max limit 1) maxLongTermMemoryItems

def listed (entries : List LongTermMemoryEntry) (limit : Nat) : List LongTermMemoryEntry :=
  (entries.insertionSort fun a b => b.updatedAt ≤ a.updatedAt).take (clampLimit limit)

/-- A scored entry: the total score, the semantic score and the id. -/
abbrev Scored := Nat × Nat × String

def updatedAtOf (entries : List LongTermMemoryEntry) (id : String) : Nat :=
  ((entries.find? (·.id = id)).map (·.updatedAt)).getD 0

def scoredFirst (entries : List LongTermMemoryEntry) (a b : Scored) : Prop :=
  b.1 < a.1 ∨ b.1 = a.1 ∧ (b.2.1 < a.2.1 ∨ b.2.1 = a.2.1 ∧ updatedAtOf entries b.2.2 ≤ updatedAtOf entries a.2.2)

instance (entries : List LongTermMemoryEntry) : DecidableRel (scoredFirst entries) := fun a b => by
  unfold scoredFirst
  exact inferInstance

def recalled (score : LongTermMemoryEntry → Nat × Nat) (entries : List LongTermMemoryEntry) (limit : Nat) :
    List LongTermMemoryEntry :=
  let scored := entries.filterMap fun entry =>
    if 0 < (score entry).1 then some ((score entry).1, (score entry).2, entry.id) else none
  ((scored.insertionSort (scoredFirst entries)).take (clampLimit limit)).filterMap fun (_, _, id) =>
    entries.find? (·.id = id)

section
variable (cfg : LongTermMemoryConfig) (score : RecallScore)

/-- `with_entries`, for what only reads. -/
def withEntries {R : Type} (s : StoreState (List LongTermMemoryEntry)) (faults : MemoryFaults)
    (f : List LongTermMemoryEntry → R) : StoreState (List LongTermMemoryEntry) × Except Error R :=
  match loaded cfg s faults with
  | .error e => (s, .error e)
  | .ok entries => (⟨some entries, s.disk⟩, .ok (f entries))

def list (s : StoreState (List LongTermMemoryEntry)) (faults : MemoryFaults) (limit : Nat) :
    StoreState (List LongTermMemoryEntry) × Except Error (List LongTermMemoryEntry) :=
  withEntries cfg s faults fun entries => listed entries limit

def «recall» (s : StoreState (List LongTermMemoryEntry)) (faults : MemoryFaults) (query : String)
    (sourceChatId : Option String) (limit : Nat) :
    StoreState (List LongTermMemoryEntry) × Except Error (List LongTermMemoryEntry) :=
  withEntries cfg s faults fun entries => recalled (score query sourceChatId faults.current) entries limit

inductive Mutation where
  | upsertMany (drafts : List LongTermMemoryDraft) (nowSecs : Nat)
  | delete (id : String)

inductive MemoryCall where
  | mutate (mutation : Mutation)
  | get (id : String)
  | list (limit : Nat)
  | «recall» (query : String) (sourceChatId : Option String) (limit : Nat)

def Mutation.run (s : StoreState (List LongTermMemoryEntry)) (faults : MemoryFaults) :
    Mutation → StoreState (List LongTermMemoryEntry) × Except Error Unit
  | upsertMany drafts nowSecs =>
    let (s, result) := StorageLongTermMemoryStore.upsertMany cfg s faults drafts nowSecs
    (s, result.map fun _ => ())
  | delete id =>
    let (s, result) := StorageLongTermMemoryStore.delete cfg s faults id
    (s, result.map fun _ => ())

/-- What the call makes of the entries, and whether this is to be written. -/
@[grind =] def Mutation.edit (entries : List LongTermMemoryEntry) : Mutation → List LongTermMemoryEntry × Bool
  | upsertMany drafts nowSecs =>
    let (entries, changedCount) := upsertDrafts cfg nowSecs entries 0 drafts
    let (entries, governed) := governLongTermMemoryEntries entries nowSecs
    if 0 < changedCount ∨ governed then (entries.insertionSort fun a b => b.updatedAt ≤ a.updatedAt, true)
    else (entries, false)
  | delete id =>
    let kept := entries.filter (·.id ≠ id)
    (kept, decide (entries.length ≠ kept.length))

/-- The entries can be serialized, are not too large for the file, and the write goes through. -/
def accepted (entries : List LongTermMemoryEntry) (outcome : WriteOutcome) : Bool :=
  match cfg.toVec entries, outcome with
  | .ok json, .done => decide (json.length ≤ cfg.maxWriteSize)
  | _, _ => false

/-- Whether the governance before the call writes, and whether that is accepted. -/
def governWrite (faults : MemoryFaults) (entries : List LongTermMemoryEntry) : Option Bool :=
  let (governed, dropped) := governLongTermMemoryEntries entries faults.current
  if dropped then some (accepted cfg governed faults.govern) else none

/-- The same for the call itself. -/
def Mutation.editWrite (mutation : Mutation) (faults : MemoryFaults) (entries : List LongTermMemoryEntry) : Option Bool :=
  let (edited, dirty) := mutation.edit cfg (governLongTermMemoryEntries entries faults.current).1
  if dirty then some (accepted cfg edited faults.write) else none

/-- The store, whether a write has failed since the last one that was accepted, and of the
last call, if it was a mutation, the state before it, its faults and its result. -/
structure MemoryWorld where
  store : StoreState (List LongTermMemoryEntry)
  unsaved : Bool
  last : Option (StoreState (List LongTermMemoryEntry) × MemoryFaults × Except Error Unit)

/-- A process that has not read its file yet. -/
def MemoryWorld.start (disk : Option Bytes) : MemoryWorld := ⟨⟨none, disk⟩, false, none⟩

def unsavedAfter (unsaved : Bool) (s : StoreState (List LongTermMemoryEntry)) (faults : MemoryFaults)
    (mutation : Mutation) : Bool :=
  match loaded cfg s faults with
  | .error _ => unsaved
  | .ok entries =>
    if governWrite cfg faults entries = some false then true
    else
      match mutation.editWrite cfg faults entries, governWrite cfg faults entries with
      | some written, _ => !written
      | none, some _ => false
      | none, none => unsaved

def step (w : MemoryWorld) : MemoryCall × MemoryFaults → Option MemoryWorld
  | (.mutate mutation, faults) =>
    let (store, result) := mutation.run cfg w.store faults
    some ⟨store, unsavedAfter cfg w.unsaved w.store faults mutation, some (w.store, faults, result)⟩
  | (.get id, faults) => some { w with store := (get cfg w.store faults id).1, last := none }
  | (.list limit, faults) => some { w with store := (list cfg w.store faults limit).1, last := none }
  | (.«recall» query sourceChatId limit, faults) =>
    some { w with store := («recall» cfg score w.store faults query sourceChatId limit).1, last := none }

/-- Up to its order the file holds the entries: they were written to it, or loading it gives them. -/
def FileHolds (disk : Option Bytes) (entries : List LongTermMemoryEntry) : Prop :=
  ∃ written, written.Perm entries ∧
    ((∃ json, cfg.toVec written = .ok json ∧ disk = some json) ∨ loadEntriesFromDisk cfg disk none = .ok written)

/-- The reads answer from these entries. -/
structure Answers (s : StoreState (List LongTermMemoryEntry)) (entries : List LongTermMemoryEntry) : Prop where
  get : ∀ faults id, (get cfg s faults id).2 = .ok (entries.find? (·.id = id))
  list : ∀ faults limit, (list cfg s faults limit).2 = .ok (listed entries limit)

structure SameAnswers (s s' : StoreState (List LongTermMemoryEntry)) : Prop where
  get : ∀ faults id, (get cfg s' faults id).2 = (get cfg s faults id).2
  list : ∀ faults limit, (list cfg s' faults limit).2 = (list cfg s faults limit).2

/-- After a mutation that returned Ok the file holds the entries in memory; after one that
returned an error the reads answer as before, or from the entries as they were governed. -/
def Survives (w : MemoryWorld) : Prop :=
  match w.last with
  | none => True
  | some (_, _, .ok ()) => ∃ entries, w.store.cache = some entries ∧ FileHolds cfg w.store.disk entries
  | some (before, faults, .error _) => SameAnswers cfg before w.store ∨
    ∃ entries, loaded cfg before faults = .ok entries ∧
      Answers cfg w.store (governLongTermMemoryEntries entries faults.current).1

/-- The write of what a mutation changed is accepted. Where a write of the governance was not,
the next mutation writes. -/
def WritesAccepted (w : MemoryWorld) : MemoryCall × MemoryFaults → Prop
  | (.mutate mutation, faults) =>
    match loaded cfg w.store faults with
    | .error _ => True
    | .ok entries => governWrite cfg faults entries = some false ∨
      (mutation.editWrite cfg faults entries ≠ some false ∧
        (w.unsaved → governWrite cfg faults entries = some true ∨ mutation.editWrite cfg faults entries = some true))
  | _ => True

instance (w : MemoryWorld) (call : MemoryCall × MemoryFaults) : Decidable (WritesAccepted cfg w call) := by
  unfold WritesAccepted
  split
  · split <;> infer_instance
  · infer_instance

end

section
variable {cfg : LongTermMemoryConfig} {score : RecallScore} {s : StoreState (List LongTermMemoryEntry)}
  {faults : MemoryFaults} {entries : List LongTermMemoryEntry} {mutation : Mutation} {w t : MemoryWorld}
  {disk : Option Bytes} {nowSecs : Nat} {outcome : WriteOutcome}

theorem persist_of_accepted (disk : Option Bytes) (h : accepted cfg entries outcome = true) :
    ∃ json, cfg.toVec entries = .ok json ∧ persist cfg disk entries outcome = (some json, .ok ()) := by
  unfold accepted at h
  split at h
  · rename_i json hjson
    refine ⟨json, hjson, ?_⟩
    have hle := of_decide_eq_true h
    rw [persist, hjson]
    exact if_neg (Nat.not_lt.mpr hle)
  · cases h

theorem persist_of_not_accepted (disk : Option Bytes)
    (h : accepted cfg entries outcome = false) : ∃ left e, persist cfg disk entries outcome = (left, .error e) := by
  unfold persist
  cases hjson : cfg.toVec entries with
  | error message => exact ⟨disk, _, rfl⟩
  | ok json =>
    simp only [writeFileUnlocked]
    split
    · exact ⟨disk, _, rfl⟩
    · rename_i hle
      cases outcome with
      | done =>
        simp only [accepted, hjson] at h
        exact absurd (Nat.not_lt.mp hle) (of_decide_eq_false h)
      | failed e left => exact ⟨left, e, rfl⟩

/-- Loading goes through only where the read has no fault. -/
theorem loadEntriesFromDisk_eq_ok {fault : Option { e : Error // e.isNotFound = false }}
    (h : loadEntriesFromDisk cfg disk fault = .ok entries) : loadEntriesFromDisk cfg disk none = .ok entries := by
  cases fault with
  | none => exact h
  | some e =>
    simp only [loadEntriesFromDisk, readFile, e.2] at h
    cases h

theorem keepWithinBudget_sublist (kept entries : List LongTermMemoryEntry) :
    ∃ more, keepWithinBudget kept entries = kept ++ more ∧ more.Sublist entries := by
  induction entries generalizing kept with
  | nil => exact ⟨[], (List.append_nil kept).symm, .slnil⟩
  | cons entry entries ih =>
    unfold keepWithinBudget
    split
    · obtain ⟨more, heq, hsub⟩ := ih kept
      exact ⟨more, heq, hsub.cons entry⟩
    · obtain ⟨more, heq, hsub⟩ := ih (kept ++ [entry])
      exact ⟨entry :: more, by rw [heq, List.append_assoc]; rfl, hsub.cons_cons entry⟩

/-- Where governance drops nothing it only sorts. -/
theorem govern_perm (h : (governLongTermMemoryEntries entries nowSecs).2 = false) :
    (governLongTermMemoryEntries entries nowSecs).1.Perm entries := by
  have hlength : (governLongTermMemoryEntries entries nowSecs).1.length = entries.length :=
    not_not.mp (of_decide_eq_false h)
  set fresh := entries.filter fun entry => !isStale entry nowSecs with hfresh
  have hsub : (governLongTermMemoryEntries entries nowSecs).1.Sublist (fresh.insertionSort newerFirst) := by
    obtain ⟨more, heq, hmore⟩ := keepWithinBudget_sublist [] (fresh.insertionSort newerFirst)
    have htake := List.take_sublist maxLongTermMemoryItems (keepWithinBudget [] (fresh.insertionSort newerFirst))
    rw [heq] at htake
    rw [governLongTermMemoryEntries, heq]
    exact htake.trans hmore
  have hsorted := List.length_insertionSort newerFirst fresh
  have hfilter : fresh.Sublist entries := List.filter_sublist
  have hle := hsub.length_le
  have hle' := hfilter.length_le
  rw [hsub.eq_of_length (by omega), ← hfilter.eq_of_length (by omega)]
  exact List.perm_insertionSort newerFirst fresh

theorem modifyFirst_eq_self {α : Type} {p : α → Bool} {l : List α} {a : α} (h : l.find? p = some a) :
    modifyFirst p (fun _ => a) l = l := by
  induction l with
  | nil => cases h
  | cons b l ih =>
    unfold modifyFirst
    rw [List.find?_cons] at h
    split at h
    · rename_i hb
      rw [if_pos hb, Option.some.inj h]
    · rename_i hb
      rw [if_neg (by rw [hb]; decide), ih h]

theorem finishMerge_unchanged {existing merged : LongTermMemoryEntry}
    (h : (finishMerge existing merged nowSecs).2 = false) : (finishMerge existing merged nowSecs).1 = existing := by
  unfold finishMerge at h ⊢
  split at h
  · rename_i heq
    rw [if_pos heq]
  · cases h

theorem merge_unchanged {tables : UnicodeTables} {existing : LongTermMemoryEntry} {draft : LongTermMemoryDraft}
    (h : (mergeLongTermMemoryEntry tables existing draft nowSecs).2 = false) :
    (mergeLongTermMemoryEntry tables existing draft nowSecs).1 = existing := by
  unfold mergeLongTermMemoryEntry at h ⊢
  cases hdraft : tables.normalizedDraft draft with
  | none => rfl
  | some normalized =>
    simp only [hdraft] at h ⊢
    split
    · rfl
    · rename_i hreject
      rw [if_neg hreject] at h
      split
      · rename_i hkeep
        rw [if_pos hkeep] at h
        exact finishMerge_unchanged h
      · rename_i hmerge
        rw [if_neg hmerge] at h
        split
        · rename_i hold
          rw [if_pos hold] at h
          exact finishMerge_unchanged h
        · rename_i hnew
          rw [if_neg hnew] at h
          exact finishMerge_unchanged h

/-- One draft: the count says whether an entry is other than it was. -/
theorem upsertDrafts_cons (entries : List LongTermMemoryEntry) (nowSecs changedCount : Nat) (draft : LongTermMemoryDraft)
    (drafts : List LongTermMemoryDraft) : ∃ entries' changedCount',
      upsertDrafts cfg nowSecs entries changedCount (draft :: drafts) =
        upsertDrafts cfg nowSecs entries' changedCount' drafts ∧
      changedCount ≤ changedCount' ∧ (changedCount' = changedCount → entries' = entries) := by
  rw [upsertDrafts]
  cases cfg.tables.normalizedDraft draft with
  | none => exact ⟨entries, changedCount, rfl, Nat.le_refl _, fun _ => rfl⟩
  | some normalized =>
    cases hid : draftStableId cfg normalized with
    | none => exact ⟨entries, changedCount, by simp only [hid], Nat.le_refl _, fun _ => rfl⟩
    | some id =>
      simp only [hid]
      cases hfind : entries.find? (·.id = id) with
      | some existing =>
        refine ⟨_, _, rfl, ?_, fun hsame => ?_⟩
        · split <;> omega
        · cases hchanged : (mergeLongTermMemoryEntry cfg.tables existing normalized nowSecs).2 with
          | true =>
            rw [hchanged, if_pos rfl] at hsame
            omega
          | false => rw [merge_unchanged hchanged, modifyFirst_eq_self hfind]
      | none =>
        cases longTermMemoryEntryFromDraft cfg.tables normalized id nowSecs with
        | none => exact ⟨entries, changedCount, rfl, Nat.le_refl _, fun _ => rfl⟩
        | some entry => exact ⟨_, changedCount + 1, rfl, Nat.le_succ _, fun hsame => by omega⟩

theorem upsertDrafts_unchanged (nowSecs changedCount : Nat) (drafts : List LongTermMemoryDraft) :
    changedCount ≤ (upsertDrafts cfg nowSecs entries changedCount drafts).2 ∧
      ((upsertDrafts cfg nowSecs entries changedCount drafts).2 = changedCount →
        (upsertDrafts cfg nowSecs entries changedCount drafts).1 = entries) := by
  induction drafts generalizing entries changedCount with
  | nil => exact ⟨Nat.le_refl _, fun _ => rfl⟩
  | cons draft drafts ih =>
    obtain ⟨entries', changedCount', heq, hle, hsame⟩ := @upsertDrafts_cons cfg entries nowSecs changedCount
      draft drafts
    obtain ⟨hle', hsame'⟩ := @ih entries' changedCount'
    rw [heq]
    refine ⟨hle.trans hle', fun h => ?_⟩
    rw [hsame' (by omega), hsame (by omega)]

/-- A mutation that has nothing to write leaves the entries as they are. -/
theorem edit_perm (h : (mutation.edit cfg entries).2 = false) : (mutation.edit cfg entries).1.Perm entries := by
  cases mutation with
  | upsertMany drafts nowSecs =>
    simp only [Mutation.edit] at h ⊢
    split at h
    · cases h
    · rename_i hnothing
      rw [if_neg hnothing]
      rw [not_or, Bool.not_eq_true] at hnothing
      have hsame : (upsertDrafts cfg nowSecs entries 0 drafts).1 = entries :=
        (upsertDrafts_unchanged nowSecs 0 drafts).2 (by omega)
      have hperm := govern_perm hnothing.2
      rw [hsame] at hperm
      simp only [hsame]
      exact hperm
  | delete id =>
    simp only [Mutation.edit, decide_eq_false_iff_not, not_not] at h ⊢
    rw [List.filter_sublist.eq_of_length h.symm]

/-- The end of a mutation that has got to its own edit. -/
def Mutation.finish (cfg : LongTermMemoryConfig) (mutation : Mutation) (outcome : WriteOutcome)
    (entries : List LongTermMemoryEntry) (disk : Option Bytes) :
    List LongTermMemoryEntry × Option Bytes × Except Error Unit :=
  let (edited, dirty) := mutation.edit cfg entries
  if dirty then
    let (disk, written) := persist cfg disk edited outcome
    (edited, disk, written)
  else (edited, disk, .ok ())

theorem Mutation.run_eq (mutation : Mutation) (s : StoreState (List LongTermMemoryEntry)) (faults : MemoryFaults) :
    mutation.run cfg s faults = withEntriesMut cfg s faults (mutation.finish cfg faults.write) := by
  cases mutation with
  | upsertMany drafts nowSecs =>
    simp only [Mutation.run, StorageLongTermMemoryStore.upsertMany, withEntriesMut]
    cases loaded cfg s faults with
    | error e => rfl
    | ok entries =>
      simp only
      split
      · rfl
      · simp only [Mutation.finish, Mutation.edit]
        split
        · simp only [if_true]
          split
          · rename_i hpersist
            rw [hpersist]
            rfl
          · rename_i hpersist
            rw [hpersist]
            rfl
        · rfl
  | delete id =>
    simp only [Mutation.run, StorageLongTermMemoryStore.delete, withEntriesMut]
    cases loaded cfg s faults with
    | error e => rfl
    | ok entries =>
      simp only
      split
      · rfl
      · simp only [Mutation.finish, Mutation.edit, decide_eq_true_eq]
        split
        · split
          · rename_i hpersist
            rw [hpersist]
            rfl
          · rename_i hpersist
            rw [hpersist]
            rfl
        · rfl

/-- All that a mutation can do. -/
inductive MutationCase (cfg : LongTermMemoryConfig) (s : StoreState (List LongTermMemoryEntry)) (faults : MemoryFaults)
    (mutation : Mutation) : StoreState (List LongTermMemoryEntry) × Except Error Unit → Prop where
  | unread (e : Error) (hload : loaded cfg s faults = .error e) : MutationCase cfg s faults mutation (s, .error e)
  | ungoverned (entries : List LongTermMemoryEntry) (left : Option Bytes) (e : Error)
      (hload : loaded cfg s faults = .ok entries) (hgovern : governWrite cfg faults entries = some false) :
      MutationCase cfg s faults mutation
        (⟨some (governLongTermMemoryEntries entries faults.current).1, left⟩, .error e)
  | unchanged (entries edited : List LongTermMemoryEntry) (hload : loaded cfg s faults = .ok entries)
      (hgovern : governWrite cfg faults entries = none) (hedit : mutation.editWrite cfg faults entries = none)
      (hperm : edited.Perm entries) : MutationCase cfg s faults mutation (⟨some edited, s.disk⟩, .ok ())
  | governed (entries edited written : List LongTermMemoryEntry) (json : Bytes)
      (hload : loaded cfg s faults = .ok entries) (hgovern : governWrite cfg faults entries = some true)
      (hedit : mutation.editWrite cfg faults entries = none) (hjson : cfg.toVec written = .ok json)
      (hperm : written.Perm edited) : MutationCase cfg s faults mutation (⟨some edited, some json⟩, .ok ())
  | lost (entries edited : List LongTermMemoryEntry) (left : Option Bytes) (e : Error)
      (hload : loaded cfg s faults = .ok entries) (hgovern : governWrite cfg faults entries ≠ some false)
      (hedit : mutation.editWrite cfg faults entries = some false) :
      MutationCase cfg s faults mutation (⟨some edited, left⟩, .error e)
  | written (entries edited : List LongTermMemoryEntry) (json : Bytes) (hload : loaded cfg s faults = .ok entries)
      (hgovern : governWrite cfg faults entries ≠ some false)
      (hedit : mutation.editWrite cfg faults entries = some true) (hjson : cfg.toVec edited = .ok json) :
      MutationCase cfg s faults mutation (⟨some edited, some json⟩, .ok ())

theorem mutationCase_of_edit (hload : loaded cfg s faults = .ok entries)
    (hgovern : governWrite cfg faults entries ≠ some false)
    (hsaved : governWrite cfg faults entries = none ∧ disk = s.disk ∨ governWrite cfg faults entries = some true ∧
      ∃ json, cfg.toVec (governLongTermMemoryEntries entries faults.current).1 = .ok json ∧ disk = some json) :
    MutationCase cfg s faults mutation
      (let (edited, disk, result) := mutation.finish cfg faults.write
        (governLongTermMemoryEntries entries faults.current).1 disk
      (⟨some edited, disk⟩, result)) := by
  simp only [Mutation.finish]
  cases hdirty : (mutation.edit cfg (governLongTermMemoryEntries entries faults.current).1).2 with
  | true =>
    rw [if_pos rfl]
    have hedit (accept : Bool) (h : accepted cfg (mutation.edit cfg
        (governLongTermMemoryEntries entries faults.current).1).1 faults.write = accept) :
        mutation.editWrite cfg faults entries = some accept := by
      simp only [Mutation.editWrite, hdirty, if_true, h]
    cases haccepted : accepted cfg (mutation.edit cfg (governLongTermMemoryEntries entries faults.current).1).1
        faults.write with
    | true =>
      obtain ⟨json, hjson, hpersist⟩ := persist_of_accepted disk haccepted
      rw [hpersist]
      exact .written entries _ json hload hgovern (hedit true haccepted) hjson
    | false =>
      obtain ⟨left, e, hpersist⟩ := persist_of_not_accepted disk haccepted
      rw [hpersist]
      exact .lost entries _ left e hload hgovern (hedit false haccepted)
  | false =>
    rw [if_neg (by decide)]
    have hperm := edit_perm hdirty
    have hedit : mutation.editWrite cfg faults entries = none := by
      simp only [Mutation.editWrite, hdirty, Bool.false_eq_true, if_false]
    rcases hsaved with ⟨hnone, rfl⟩ | ⟨hsome, json, hjson, rfl⟩
    · refine .unchanged entries _ hload hnone hedit (hperm.trans (govern_perm ?_))
      cases hdropped : (governLongTermMemoryEntries entries faults.current).2 with
      | false => rfl
      | true =>
        simp only [governWrite, hdropped, if_true] at hnone
        cases hnone
    · exact .governed entries _ _ json hload hsome hedit hjson hperm.symm

theorem mutation_cases (mutation : Mutation) (s : StoreState (List LongTermMemoryEntry)) (faults : MemoryFaults) :
    MutationCase cfg s faults mutation (mutation.run cfg s faults) := by
  rw [mutation.run_eq, withEntriesMut]
  cases hload : loaded cfg s faults with
  | error e => exact .unread e hload
  | ok entries =>
    simp only
    cases hdropped : (governLongTermMemoryEntries entries faults.current).2 with
    | false =>
      have hgovern : governWrite cfg faults entries = none := by
        simp only [governWrite, hdropped, Bool.false_eq_true, if_false]
      simp only [Bool.false_eq_true, if_false]
      exact mutationCase_of_edit hload (by rw [hgovern]; decide) (.inl ⟨hgovern, rfl⟩)
    | true =>
      simp only [if_true]
      cases haccepted : accepted cfg (governLongTermMemoryEntries entries faults.current).1 faults.govern with
      | true =>
        have hgovern : governWrite cfg faults entries = some true := by
          simp only [governWrite, hdropped, if_true, haccepted]
        obtain ⟨json, hjson, hpersist⟩ := persist_of_accepted s.disk haccepted
        rw [hpersist]
        exact mutationCase_of_edit hload (by rw [hgovern]; decide) (.inr ⟨hgovern, json, hjson, rfl⟩)
      | false =>
        have hgovern : governWrite cfg faults entries = some false := by
          simp only [governWrite, hdropped, if_true, haccepted]
        obtain ⟨left, e, hpersist⟩ := persist_of_not_accepted s.disk haccepted
        rw [hpersist]
        exact .ungoverned entries left e hload hgovern

/-- Where no write is missing, the file holds what is in memory. -/
structure Saved (cfg : LongTermMemoryConfig) (w : MemoryWorld) : Prop where
  holds : w.unsaved = false → ∀ entries, w.store.cache = some entries → FileHolds cfg w.store.disk entries
  survives : Survives cfg w

theorem fileHolds_of_loaded (h : loaded cfg s faults = .ok entries)
    (hs : ∀ entries, s.cache = some entries → FileHolds cfg s.disk entries) : FileHolds cfg s.disk entries := by
  cases hcache : s.cache with
  | some cached =>
    simp only [loaded, hcache, Except.ok.injEq] at h
    exact h ▸ hs cached hcache
  | none =>
    simp only [loaded, hcache] at h
    exact ⟨entries, .refl entries, .inr (loadEntriesFromDisk_eq_ok h)⟩

theorem FileHolds.perm {edited : List LongTermMemoryEntry} (h : FileHolds cfg disk entries)
    (hperm : edited.Perm entries) : FileHolds cfg disk edited := by
  obtain ⟨written, hwritten, hdisk⟩ := h
  exact ⟨written, hwritten.trans hperm.symm, hdisk⟩

theorem answers_cached : Answers cfg ⟨some entries, disk⟩ entries :=
  ⟨fun _ _ => rfl, fun _ _ => rfl⟩

theorem Saved.mutated (h : Saved cfg w) (hc : WritesAccepted cfg w (.mutate mutation, faults)) :
    Saved cfg ⟨(mutation.run cfg w.store faults).1, unsavedAfter cfg w.unsaved w.store faults mutation,
      some (w.store, faults, (mutation.run cfg w.store faults).2)⟩ := by
  cases hrun : mutation.run cfg w.store faults with
  | mk store result =>
    have hcase := @mutation_cases cfg mutation w.store faults
    rw [hrun] at hcase
    cases hcase with
    | unread e hload =>
      refine ⟨fun hsaved => h.holds ?_, .inl ⟨fun _ _ => rfl, fun _ _ => rfl⟩⟩
      simpa only [unsavedAfter, hload] using hsaved
    | ungoverned entries left e hload hgovern =>
      refine ⟨fun hsaved => ?_, .inr ⟨entries, hload, answers_cached⟩⟩
      simp only [unsavedAfter, hload, hgovern, if_true] at hsaved
      cases hsaved
    | unchanged entries edited hload hgovern hedit hperm =>
      -- nothing is written, so by the condition no write was missing before
      have hsaved : w.unsaved = false := by
        simp only [WritesAccepted, hload, hgovern, hedit] at hc
        simpa using hc
      have hholds := (fileHolds_of_loaded hload (h.holds hsaved)).perm hperm
      refine ⟨fun _ entries' hcache => ?_, edited, rfl, hholds⟩
      exact Option.some.inj hcache ▸ hholds
    | governed entries edited written json hload hgovern hedit hjson hperm =>
      have hholds : FileHolds cfg (some json) edited := ⟨written, hperm, .inl ⟨json, hjson, rfl⟩⟩
      exact ⟨fun _ entries' hcache => Option.some.inj hcache ▸ hholds, edited, rfl, hholds⟩
    | lost entries edited left e hload hgovern hedit =>
      simp only [WritesAccepted, hload] at hc
      exact absurd hedit (hc.resolve_left hgovern).1
    | written entries edited json hload hgovern hedit hjson =>
      have hholds : FileHolds cfg (some json) edited := ⟨edited, .refl edited, .inl ⟨json, hjson, rfl⟩⟩
      exact ⟨fun _ entries' hcache => Option.some.inj hcache ▸ hholds, edited, rfl, hholds⟩

theorem Saved.read (h : Saved cfg w) {R : Type} (f : List LongTermMemoryEntry → R) :
    Saved cfg ⟨(withEntries cfg w.store faults f).1, w.unsaved, none⟩ := by
  refine ⟨fun hsaved entries' hcache => ?_, trivial⟩
  simp only [withEntries] at hcache ⊢
  cases hload : loaded cfg w.store faults with
  | error e =>
    simp only [hload] at hcache ⊢
    exact h.holds hsaved entries' hcache
  | ok entries =>
    simp only [hload, Option.some.injEq] at hcache ⊢
    exact hcache ▸ fileHolds_of_loaded hload (h.holds hsaved)

theorem Saved.step {call : MemoryCall × MemoryFaults} (h : Saved cfg w) (hc : WritesAccepted cfg w call)
    (ht : step cfg score w call = some t) : Saved cfg t := by
  obtain ⟨call, faults⟩ := call
  cases call with
  | mutate mutation =>
    cases ht
    exact h.mutated hc
  | get id =>
    cases ht
    exact h.read (fun entries => entries.find? (·.id = id))
  | list limit =>
    cases ht
    exact h.read (fun entries => listed entries limit)
  | «recall» query sourceChatId limit =>
    cases ht
    exact h.read (fun entries => recalled (score query sourceChatId faults.current) entries limit)

end

/-- In every run in which the writes of the mutations are accepted, and each write that governance
lost is made up for by the next mutation, the memories survive. -/
theorem memories_survive (cfg : LongTermMemoryConfig) (score : RecallScore) (disk : Option Bytes)
    (calls : List (MemoryCall × MemoryFaults)) (h : Meets (step cfg score) (WritesAccepted cfg) calls (.start disk)) :
    Always (step cfg score) (Survives cfg) calls (.start disk) :=
  always_of_meets (I := Saved cfg) (fun _ _ _ hw hc ht => hw.step hc ht) (fun _ hw => hw.survives) calls _
    ⟨fun _ _ hcache => (by cases hcache), trivial⟩ h

/-! What the calls of the runs below do, from what they make of the entries. -/

section
variable {cfg : LongTermMemoryConfig} {s : StoreState (List LongTermMemoryEntry)} {faults : MemoryFaults}
  {entries edited : List LongTermMemoryEntry} {mutation : Mutation} {dirty : Bool}

theorem edit_of_upsertDrafts {drafts : List LongTermMemoryDraft} {nowSecs changedCount : Nat}
    (hdrafts : upsertDrafts cfg nowSecs entries 0 drafts = (edited, changedCount))
    (hgovern : governLongTermMemoryEntries edited nowSecs = (edited, false)) :
    (Mutation.upsertMany drafts nowSecs).edit cfg entries =
      if 0 < changedCount then (edited.insertionSort fun a b => b.updatedAt ≤ a.updatedAt, true) else (edited, false) := by
  simp only [Mutation.edit, hdrafts, hgovern, Bool.false_eq_true, or_false]

theorem run_of_edit (hload : loaded cfg s faults = .ok entries)
    (hgovern : governLongTermMemoryEntries entries faults.current = (entries, false))
    (hedit : mutation.edit cfg entries = (edited, dirty)) :
    mutation.run cfg s faults =
      if dirty then
        (⟨some edited, (persist cfg s.disk edited faults.write).1⟩, (persist cfg s.disk edited faults.write).2)
      else (⟨some edited, s.disk⟩, .ok ()) := by
  simp only [Mutation.run_eq, withEntriesMut, hload, hgovern, Mutation.finish, hedit, Bool.false_eq_true, if_false]
  split <;> rfl

theorem writesAccepted_of_edit {w : MemoryWorld} (hload : loaded cfg w.store faults = .ok entries)
    (hgovern : governLongTermMemoryEntries entries faults.current = (entries, false))
    (hedit : mutation.edit cfg entries = (edited, dirty)) (hdirty : dirty = true → accepted cfg edited faults.write = true)
    (hsaved : w.unsaved = false) : WritesAccepted cfg w (.mutate mutation, faults) ∧
      unsavedAfter cfg w.unsaved w.store faults mutation = false := by
  simp only [WritesAccepted, unsavedAfter, hload, governWrite, Mutation.editWrite, hgovern, hedit, hsaved]
  cases dirty with
  | true => simp [hdirty rfl]
  | false => simp

theorem step_mutate {score : RecallScore} {w : MemoryWorld} {store : StoreState (List LongTermMemoryEntry)}
    {result : Except Error Unit} (hrun : mutation.run cfg w.store faults = (store, result)) :
    step cfg score w (.mutate mutation, faults) =
      some ⟨store, unsavedAfter cfg w.unsaved w.store faults mutation, some (w.store, faults, result)⟩ := by
  simp only [step, hrun]

/-- A write that fails and leaves the file as it was. -/
theorem persist_failed (cfg : LongTermMemoryConfig) (disk : Option Bytes) (entries : List LongTermMemoryEntry)
    (e : Error) : ∃ e', persist cfg disk entries (.failed e disk) = (disk, .error e') := by
  rw [persist]
  cases cfg.toVec entries with
  | error message => exact ⟨_, rfl⟩
  | ok json =>
    simp only [writeFileUnlocked]
    split
    · exact ⟨_, rfl⟩
    · exact ⟨_, rfl⟩

end

/-- The draft of the entry in `upsert_tz`. -/
def upsertTz : Mutation := .upsertMany [plainDraft "tz" "utc" .high 0] 10

def tzEntry : LongTermMemoryEntry := topicEntry "ltm-9646d717e87b9b4b" "tz"

def noScore : RecallScore := fun _ _ _ _ => (0, 0)

theorem govern_tzEntry : governLongTermMemoryEntries [tzEntry] 10 = ([tzEntry], false) := by decide

theorem edit_upsertTz : upsertTz.edit topicConfig [] = ([tzEntry], true) := by
  have hdrafts : upsertDrafts topicConfig 10 [] 0 [plainDraft "tz" "utc" .high 0] = ([tzEntry], 1) := by decide
  exact edit_of_upsertDrafts hdrafts govern_tzEntry

theorem edit_upsertTz_again : upsertTz.edit topicConfig [tzEntry] = ([tzEntry], false) := by
  have hdrafts : upsertDrafts topicConfig 10 [tzEntry] 0 [plainDraft "tz" "utc" .high 0] = ([tzEntry], 0) := by
    decide
  exact edit_of_upsertDrafts hdrafts govern_tzEntry

theorem accepted_tzEntry : accepted topicConfig [tzEntry] .done = true := by
  have hsize : (topicJson "ltm-9646d717e87b9b4b" "tz").utf8ByteSize ≤ maxWriteSizeHost := by
    simp only [topicJson, String.utf8ByteSize_append]
    decide
  rw [← length_utf8_toList] at hsize
  have hjson : topicConfig.toVec [tzEntry] = .ok (utf8 (topicJson "ltm-9646d717e87b9b4b" "tz").toList) := rfl
  simp only [accepted, hjson]
  exact decide_eq_true hsize

/-- The first call for the draft, with what the write makes of it. -/
theorem run_upsertTz (outcome : WriteOutcome) : upsertTz.run topicConfig ⟨none, none⟩ ⟨none, 10, .done, outcome⟩ =
    (⟨some [tzEntry], (persist topicConfig none [tzEntry] outcome).1⟩, (persist topicConfig none [tzEntry] outcome).2) :=
  run_of_edit rfl rfl edit_upsertTz

theorem run_upsertTz_again (disk : Option Bytes) :
    upsertTz.run topicConfig ⟨some [tzEntry], disk⟩ calm = (⟨some [tzEntry], disk⟩, .ok ()) :=
  run_of_edit rfl govern_tzEntry edit_upsertTz_again

/-- The draft is stored, and the same one changes nothing. -/
theorem draft_stored_twice :
    Always (step topicConfig noScore) (Survives topicConfig) [(.mutate upsertTz, calm), (.mutate upsertTz, calm)]
      (.start none) := by
  refine memories_survive topicConfig noScore none _ fun t ht => ?_
  obtain ⟨json, -, hpersist⟩ := persist_of_accepted none accepted_tzEntry
  have hrun := run_upsertTz .done
  rw [hpersist] at hrun
  obtain ⟨hfirst, hsaved⟩ := @writesAccepted_of_edit topicConfig calm [] [tzEntry] upsertTz true (.start none) rfl rfl
    edit_upsertTz (fun _ => accepted_tzEntry) rfl
  have hstep := @step_mutate topicConfig calm upsertTz noScore (.start none) _ _ hrun
  rw [hsaved] at hstep
  obtain rfl := Option.some.inj (hstep.symm.trans ht)
  exact ⟨hfirst, fun u hu => ⟨(writesAccepted_of_edit rfl govern_tzEntry edit_upsertTz_again
    (fun h => by cases h) rfl).1, trivial⟩⟩

/-- The write of the draft fails. The same call again finds the entry in memory, writes nothing and returns Ok. -/
theorem retried_draft_missing_on_disk :
    ¬ Always (step topicConfig noScore) (Survives topicConfig)
      [(.mutate upsertTz, ⟨none, 10, .done, .failed (.esp 1 "write") none⟩), (.mutate upsertTz, calm)]
      (.start none) := by
  intro h
  have hrun := run_upsertTz (.failed (.esp 1 "write") none)
  obtain ⟨e, hpersist⟩ := persist_failed topicConfig none [tzEntry] (.esp 1 "write")
  rw [hpersist] at hrun
  have hfirst := h.2 _ (step_mutate (w := .start none) hrun)
  obtain ⟨entries, hcache, written, hperm, hdisk⟩ := hfirst.2 _ (step_mutate (run_upsertTz_again none))
  obtain rfl := Option.some.inj hcache
  rcases hdisk with ⟨json, -, hjson⟩ | hload
  · cases hjson
  · obtain rfl := Except.ok.inj hload
    have hlength := hperm.length_eq
    cases hlength

end StorageLongTermMemoryStore
end Beetle.Platform.Storage
