import Beetle.Memory.LongTermTopic
import Beetle.Platform.CachedJson

/-! The file of structured long-term memories, and how a slot finds its entry. -/
namespace Beetle.Platform.Storage
open Beetle.Lib Beetle.Memory

/-- The hasher, the JSON library and the limits of the target. -/
structure LongTermMemoryConfig where
  tables : UnicodeTables
  hash : LongTermMemoryKind → String → UInt64
  toVec : List LongTermMemoryEntry → Except String Bytes
  fromSlice : Bytes → Except String (List LongTermMemoryEntry)
  maxWriteSize : Nat

/-- What happens to the reads and writes of one call, and the clock of the governance
that comes before it. -/
structure MemoryFaults where
  read : Option { e : Error // e.isNotFound = false }
  current : Nat
  govern : WriteOutcome
  write : WriteOutcome

namespace StorageLongTermMemoryStore
variable (cfg : LongTermMemoryConfig)

def stableIdForKindTopic (kind : LongTermMemoryKind) (topic : String) : Option String :=
  if topic = "" then none else some ("ltm-" ++ String.ofList (hex 16 (cfg.hash kind topic).toNat))

/-- `LongTermMemoryDraft::stable_id`. -/
def draftStableId (draft : LongTermMemoryDraft) : Option String :=
  (cfg.tables.normalizedDraft draft).bind fun normalized => stableIdForKindTopic cfg normalized.kind normalized.topic

/-- `LongTermMemorySlot::stable_id`. -/
def slotStableId (slot : LongTermMemorySlot) : Option String :=
  (cfg.tables.normalizedSlot slot).bind fun normalized => stableIdForKindTopic cfg normalized.kind normalized.topic

def loadEntriesFromDisk (disk : Option Bytes) (fault : Option { e : Error // e.isNotFound = false }) :
    Except Error (List LongTermMemoryEntry) :=
  match readFile cfg.maxWriteSize disk fault with
  | .ok buf =>
    if buf.length ≤ 2 then .ok []
    else
      match cfg.fromSlice buf with
      | .error message => .error (.config message "long_term_memory_load")
      | .ok entries => .ok (entries.filterMap (canonicalizeLongTermMemoryEntry cfg.tables))
  | .error e => if e.isNotFound then .ok [] else .error (e.withStage "long_term_memory_load")

def loaded (s : StoreState (List LongTermMemoryEntry)) (faults : MemoryFaults) :
    Except Error (List LongTermMemoryEntry) :=
  match s.cache with
  | some entries => .ok entries
  | none => loadEntriesFromDisk cfg s.disk faults.read

def persist (disk : Option Bytes) (entries : List LongTermMemoryEntry) (outcome : WriteOutcome) :
    Option Bytes × Except Error Unit :=
  match cfg.toVec entries with
  | .error message => (disk, .error (.config message "long_term_memory_persist"))
  | .ok json => writeFileUnlocked cfg.maxWriteSize disk json "storage_write_json" outcome

def withEntriesMut {R : Type} (s : StoreState (List LongTermMemoryEntry)) (faults : MemoryFaults)
    (f : List LongTermMemoryEntry → Option Bytes → List LongTermMemoryEntry × Option Bytes × Except Error R) :
    StoreState (List LongTermMemoryEntry) × Except Error R :=
  match loaded cfg s faults with
  | .error e => (s, .error e)
  | .ok entries =>
    let (entries, governed) := governLongTermMemoryEntries entries faults.current
    match if governed then persist cfg s.disk entries faults.govern else (s.disk, .ok ()) with
    | (disk, .error e) => (⟨some entries, disk⟩, .error e)
    | (disk, .ok ()) =>
      let (entries, disk, result) := f entries disk
      (⟨some entries, disk⟩, result)

/-- The loop over the drafts, with the number of entries it changed. -/
def upsertDrafts (nowSecs : Nat) (entries : List LongTermMemoryEntry) (changedCount : Nat) :
    List LongTermMemoryDraft → List LongTermMemoryEntry × Nat
  | [] => (entries, changedCount)
  | draft :: drafts =>
    match cfg.tables.normalizedDraft draft with
    | none => upsertDrafts nowSecs entries changedCount drafts
    | some normalized =>
      match draftStableId cfg normalized with
      | none => upsertDrafts nowSecs entries changedCount drafts
      | some id =>
        match entries.find? (·.id = id) with
        | some existing =>
          let (merged, changed) := mergeLongTermMemoryEntry cfg.tables existing normalized nowSecs
          upsertDrafts nowSecs (modifyFirst (·.id = id) (fun _ => merged) entries)
            (if changed then changedCount + 1 else changedCount) drafts
        | none =>
          match longTermMemoryEntryFromDraft cfg.tables normalized id nowSecs with
          | none => upsertDrafts nowSecs entries changedCount drafts
          | some entry => upsertDrafts nowSecs (entries ++ [entry]) (changedCount + 1) drafts

def upsertMany (s : StoreState (List LongTermMemoryEntry)) (faults : MemoryFaults)
    (drafts : List LongTermMemoryDraft) (nowSecs : Nat) :
    StoreState (List LongTermMemoryEntry) × Except Error Nat :=
  withEntriesMut cfg s faults fun entries disk =>
    let (entries, changedCount) := upsertDrafts cfg nowSecs entries 0 drafts
    let (entries, governed) := governLongTermMemoryEntries entries nowSecs
    if 0 < changedCount ∨ governed then
      let entries := entries.insertionSort fun a b => b.updatedAt ≤ a.updatedAt
      match persist cfg disk entries faults.write with
      | (disk, .error e) => (entries, disk, .error e)
      | (disk, .ok ()) => (entries, disk, .ok changedCount)
    else (entries, disk, .ok changedCount)

def get (s : StoreState (List LongTermMemoryEntry)) (faults : MemoryFaults) (id : String) :
    StoreState (List LongTermMemoryEntry) × Except Error (Option LongTermMemoryEntry) :=
  match loaded cfg s faults with
  | .error e => (s, .error e)
  | .ok entries => (⟨some entries, s.disk⟩, .ok (entries.find? (·.id = id)))

def getSlot (s : StoreState (List LongTermMemoryEntry)) (faults : MemoryFaults) (slot : LongTermMemorySlot) :
    StoreState (List LongTermMemoryEntry) × Except Error (Option LongTermMemoryEntry) :=
  match slotStableId cfg slot with
  | none => (s, .ok none)
  | some id => get cfg s faults id

def delete (s : StoreState (List LongTermMemoryEntry)) (faults : MemoryFaults) (id : String) :
    StoreState (List LongTermMemoryEntry) × Except Error Bool :=
  withEntriesMut cfg s faults fun entries disk =>
    let kept := entries.filter (·.id ≠ id)
    if entries.length ≠ kept.length then
      match persist cfg disk kept faults.write with
      | (disk, .error e) => (kept, disk, .error e)
      | (disk, .ok ()) => (kept, disk, .ok true)
    else (kept, disk, .ok false)

def deleteSlot (s : StoreState (List LongTermMemoryEntry)) (faults : MemoryFaults) (slot : LongTermMemorySlot) :
    StoreState (List LongTermMemoryEntry) × Except Error Bool :=
  match slotStableId cfg slot with
  | none => (s, .ok false)
  | some id => delete cfg s faults id

/-- The id that `upsert_many` stores a draft under. -/
def storedId (draft : LongTermMemoryDraft) : Option String :=
  (cfg.tables.normalizedDraft draft).bind (draftStableId cfg)

/-- The reads and deletes of the slot go to the entry of that id. -/
structure SlotAddresses (s : StoreState (List LongTermMemoryEntry)) (slot : LongTermMemorySlot) (id : String) :
    Prop where
  get : ∀ faults, ∃ entry, (getSlot cfg s faults slot).2 = .ok (some entry) ∧ entry.id = id
  delete : ∀ faults removed, (deleteSlot cfg s faults slot).2 = .ok removed →
    ∀ entries, (deleteSlot cfg s faults slot).1.cache = some entries → ∀ entry ∈ entries, entry.id ≠ id

section
variable {cfg : LongTermMemoryConfig} {draft normalized : LongTermMemoryDraft} {id : String}
  {s : StoreState (List LongTermMemoryEntry)} {entries : List LongTermMemoryEntry}

theorem normalizedDraft_eq_some (h : cfg.tables.normalizedDraft draft = some normalized) :
    normalized.kind = draft.kind ∧ normalized.topic = cfg.tables.normalizeTopic (trimStr draft.topic) ∧
      normalized.topic ≠ "" := by
  simp only [UnicodeTables.normalizedDraft] at h
  split at h
  · cases h
  · rename_i htopic
    split at h
    · cases h
    · cases h
      exact ⟨rfl, rfl, htopic⟩

/-- The id of the slot, and the id of the draft: of the topic normalized twice. -/
theorem storedId_eq_some (h : storedId cfg draft = some id) :
    slotStableId cfg ⟨draft.kind, draft.topic⟩ =
        stableIdForKindTopic cfg draft.kind (cfg.tables.normalizeTopic (trimStr draft.topic)) ∧
      stableIdForKindTopic cfg draft.kind
        (cfg.tables.normalizeTopic (trimStr (cfg.tables.normalizeTopic (trimStr draft.topic)))) = some id := by
  obtain ⟨normalized, hnormal, hid⟩ := Option.bind_eq_some_iff.mp h
  obtain ⟨hkind, htopic, hne⟩ := normalizedDraft_eq_some hnormal
  obtain ⟨twice, htwice, hid⟩ := Option.bind_eq_some_iff.mp hid
  obtain ⟨hkind', htopic', -⟩ := normalizedDraft_eq_some htwice
  rw [hkind', htopic', hkind, htopic] at hid
  refine ⟨?_, hid⟩
  rw [htopic] at hne
  simp only [slotStableId, UnicodeTables.normalizedSlot, if_neg hne, Option.bind_some]

theorem find?_id (hmem : ∃ entry ∈ entries, entry.id = id) :
    ∃ entry, entries.find? (·.id = id) = some entry ∧ entry.id = id := by
  obtain ⟨entry, hentry, hid⟩ := hmem
  obtain ⟨found, hfound⟩ := Option.isSome_iff_exists.mp
    (List.find?_isSome.mpr ⟨entry, hentry, by simpa using hid⟩ : (entries.find? (·.id = id)).isSome = true)
  exact ⟨found, hfound, by simpa using List.find?_some hfound⟩

theorem delete_cached (hcache : s.cache = some entries) (faults : MemoryFaults) (removed : Bool)
    (hok : (delete cfg s faults id).2 = .ok removed) (left : List LongTermMemoryEntry)
    (hleft : (delete cfg s faults id).1.cache = some left) : ∀ entry ∈ left, entry.id ≠ id := by
  have hkept (entries : List LongTermMemoryEntry) : ∀ entry ∈ entries.filter (·.id ≠ id), entry.id ≠ id :=
    fun entry hentry => by simpa using (List.mem_filter.mp hentry).2
  simp only [delete, withEntriesMut, loaded, hcache] at hok hleft
  split at hok
  · cases hok
  · rename_i hpersist
    rw [hpersist] at hleft
    simp only at hleft
    split at hleft
    · split at hleft
      · cases hleft
        exact hkept _
      · cases hleft
        exact hkept _
    · cases hleft
      exact hkept _

/-- The slot goes to the entry just when its id is that of the entry. -/
theorem slotAddresses_iff {slot : LongTermMemorySlot} (hcache : s.cache = some entries)
    (hmem : ∃ entry ∈ entries, entry.id = id) : SlotAddresses cfg s slot id ↔ slotStableId cfg slot = some id := by
  constructor
  · intro h
    obtain ⟨entry, hget, hid⟩ := h.get ⟨none, 0, .done, .done⟩
    rw [getSlot] at hget
    split at hget
    · cases hget
    · rename_i slotId hslot
      simp only [StorageLongTermMemoryStore.get, loaded, hcache, Except.ok.injEq] at hget
      have hfound : entry.id = slotId := by simpa using List.find?_some hget
      rw [hslot, ← hfound, hid]
  · intro hslot
    constructor
    · intro faults
      obtain ⟨entry, hfind, hid⟩ := find?_id hmem
      refine ⟨entry, ?_, hid⟩
      simp only [getSlot, hslot, StorageLongTermMemoryStore.get, loaded, hcache, hfind]
    · intro faults removed hok left hleft
      simp only [deleteSlot, hslot] at hok hleft
      exact delete_cached hcache faults removed hok left hleft

end

/-- The slot of a draft finds the entry that was stored for it just when the topic is
left as it is by a second normalization, or the ids of the two topics coincide. -/
theorem slot_finds_entry_iff (cfg : LongTermMemoryConfig) (s : StoreState (List LongTermMemoryEntry))
    (faults : MemoryFaults) (drafts : List LongTermMemoryDraft) (nowSecs : Nat) (draft : LongTermMemoryDraft)
    (id : String) (hid : storedId cfg draft = some id)
    (hretained : ∃ entries, (upsertMany cfg s faults drafts nowSecs).1.cache = some entries ∧
      ∃ entry ∈ entries, entry.id = id) :
    let once := cfg.tables.normalizeTopic (trimStr draft.topic)
    let twice := cfg.tables.normalizeTopic (trimStr once)
    (twice = once ↔ cfg.tables.StableTopic 0 0 false (trim draft.topic.toList)) ∧
      (SlotAddresses cfg (upsertMany cfg s faults drafts nowSecs).1 ⟨draft.kind, draft.topic⟩ id ↔
        cfg.tables.StableTopic 0 0 false (trim draft.topic.toList) ∨
          (twice ≠ once ∧ stableIdForKindTopic cfg draft.kind twice = stableIdForKindTopic cfg draft.kind once)) := by
  intro once twice
  obtain ⟨entries, hcache, hmem⟩ := hretained
  obtain ⟨hslot, htwice⟩ := storedId_eq_some hid
  have hstable : twice = once ↔ cfg.tables.StableTopic 0 0 false (trim draft.topic.toList) :=
    cfg.tables.normalizeTopic_twice_iff draft.topic
  refine ⟨hstable, ?_⟩
  rw [slotAddresses_iff hcache hmem, hslot, ← htwice, ← hstable]
  constructor
  · intro hsame
    by_cases heq : twice = once
    · exact .inl heq
    · exact .inr ⟨heq, hsame.symm⟩
  · rintro (heq | ⟨-, hsame⟩)
    · exact congrArg (stableIdForKindTopic cfg draft.kind) heq.symm
    · exact hsame.symm

/-! One topic that is stable, and one that is not. -/

/-- The file of one entry. -/
def topicJson (id topic : String) : String :=
  "[\x7b\"id\":\"" ++ id ++ "\",\"kind\":\"fact\",\"topic\":\"" ++ topic ++
    "\",\"content\":\"utc\",\"keywords\":[],\"source_chat_id\":null,\"source_type\":\"conversation\"," ++
    "\"source_scope\":\"world\",\"confidence\":\"high\",\"freshness\":\"dynamic\"," ++
    "\"stale_hint\":\"review_before_use\",\"supporting_citations\":[],\"evidence_count\":0,\"created_at\":10," ++
    "\"updated_at\":10,\"observed_at\":10,\"last_confirmed_at\":10,\"source_revision\":0,\"last_used_at\":0\x7d]"

def topicHash (topic : String) : UInt64 :=
  if topic = "tz" then 0x9646d717e87b9b4b else if topic = "i" then 0x1b5a132ab90644c7 else 0xe1056c474d17cb96

def topicConfig : LongTermMemoryConfig where
  tables := lowerTables
  hash _ topic := topicHash topic
  toVec
    | [entry] => .ok (utf8 (topicJson entry.id entry.topic).toList)
    | _ => .error "not written here"
  fromSlice _ := .error "not read here"
  maxWriteSize := maxWriteSizeHost

def calm : MemoryFaults := ⟨none, 10, .done, .done⟩

theorem upsertTopic_cache {topic : String} {entry : LongTermMemoryEntry}
    (hdrafts : upsertDrafts topicConfig 10 [] 0 [plainDraft topic "utc" .high 0] = ([entry], 1))
    (hgovern : governLongTermMemoryEntries [entry] 10 = ([entry], false)) :
    (upsertMany topicConfig ⟨none, none⟩ calm [plainDraft topic "utc" .high 0] 10).1.cache = some [entry] := by
  have hempty : governLongTermMemoryEntries [] 10 = ([], false) := rfl
  simp only [upsertMany, withEntriesMut, loaded, loadEntriesFromDisk, readFile, Error.isNotFound,
    decide_true, if_true, calm, hempty, hdrafts, hgovern, Bool.false_eq_true, if_false, or_false, Nat.lt_one_iff,
    List.insertionSort_cons, List.insertionSort_nil, List.orderedInsert_nil]
  split
  · rfl
  · rfl

def topicEntry (id topic : String) : LongTermMemoryEntry where
  id := id
  kind := .fact
  topic := topic
  content := "utc"
  keywords := []
  sourceChatId := none
  sourceType := .conversation
  sourceScope := .world
  confidence := .high
  freshness := .dynamic
  staleHint := .reviewBeforeUse
  supportingCitations := []
  evidenceCount := 0
  createdAt := 10
  updatedAt := 10
  observedAt := 10
  lastConfirmedAt := 10
  sourceRevision := 0
  lastUsedAt := 0

theorem upsert_tz : (upsertMany topicConfig ⟨none, none⟩ calm [plainDraft "tz" "utc" .high 0] 10).1.cache =
    some [topicEntry "ltm-9646d717e87b9b4b" "tz"] :=
  upsertTopic_cache (by decide) (by decide)

theorem upsert_dotted : (upsertMany topicConfig ⟨none, none⟩ calm [plainDraft "İ" "utc" .high 0] 10).1.cache =
    some [topicEntry "ltm-1b5a132ab90644c7" "i"] :=
  upsertTopic_cache (by decide) (by decide)

theorem tz_slot_finds_entry :
    SlotAddresses topicConfig (upsertMany topicConfig ⟨none, none⟩ calm [plainDraft "tz" "utc" .high 0] 10).1
      ⟨.fact, "tz"⟩ "ltm-9646d717e87b9b4b" := by
  obtain ⟨hstable, haddresses⟩ := slot_finds_entry_iff topicConfig ⟨none, none⟩ calm
    [plainDraft "tz" "utc" .high 0] 10 (plainDraft "tz" "utc" .high 0) "ltm-9646d717e87b9b4b" (by decide)
    ⟨_, upsert_tz, topicEntry "ltm-9646d717e87b9b4b" "tz", List.mem_cons_self, rfl⟩
  exact haddresses.mpr (.inl (hstable.mp (by decide)))

/-- The entry of the dotted capital I is stored under the id of the plain i, where its
slot does not look. -/
theorem dotted_slot_misses_entry :
    (upsertMany topicConfig ⟨none, none⟩ calm [plainDraft "İ" "utc" .high 0] 10).1.cache =
        some [topicEntry "ltm-1b5a132ab90644c7" "i"] ∧
      storedId topicConfig (plainDraft "İ" "utc" .high 0) = some "ltm-1b5a132ab90644c7" ∧
      ¬ SlotAddresses topicConfig (upsertMany topicConfig ⟨none, none⟩ calm [plainDraft "İ" "utc" .high 0] 10).1
        ⟨.fact, "İ"⟩ "ltm-1b5a132ab90644c7" := by
  have hmem : ∃ entry ∈ [topicEntry "ltm-1b5a132ab90644c7" "i"], entry.id = "ltm-1b5a132ab90644c7" :=
    ⟨_, List.mem_cons_self, rfl⟩
  refine ⟨upsert_dotted, by decide, ?_⟩
  rw [slotAddresses_iff upsert_dotted hmem]
  decide

end StorageLongTermMemoryStore
end Beetle.Platform.Storage
