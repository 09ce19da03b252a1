import Beetle.Platform.CachedJson
import Beetle.Task

/-! The task store: one map for the tasks of all chats, keyed by the task id. -/
namespace Beetle.Platform.Storage
open Beetle.Lib Beetle.Task

def maxTaskItems : Nat := 256

abbrev TaskMap := HashMap String TaskItem

namespace StorageTaskStore

/-- `entries` is the order that iteration over the map comes to its entries in. -/
def listClosure (channel chatId : String) (query : TaskQuery) (entries : List (Σ _ : String, TaskItem))
    (map : TaskMap) : TaskMap × Except Error (StoreOp (List TaskItem)) :=
  let tasks := (entries.map (·.2)).filter fun task => task.channel = channel ∧ task.chatId = chatId
  (map, .ok (.clean (filterTasks tasks query)))

def getClosure (channel chatId id : String) (map : TaskMap) :
    TaskMap × Except Error (StoreOp (Option TaskItem)) :=
  (map, .ok (.clean ((map.lookup id).filter fun task => task.channel = channel ∧ task.chatId = chatId)))

def upsertClosure (task : TaskItem) (map : TaskMap) : TaskMap × Except Error (StoreOp Bool) :=
  match normalizeTaskItem task with
  | .error e => (map, .error e)
  | .ok nextItem =>
    if map.lookup nextItem.id = some nextItem then (map, .ok (.clean false))
    else if nextItem.id ∉ map ∧ maxTaskItems ≤ map.keys.card then
      (map, .error (.config ("task store full (max " ++ toString maxTaskItems ++ ")") "task_store_capacity"))
    else (map.insert nextItem.id nextItem, .ok (.changed true))

def deleteClosure (channel chatId id : String) (map : TaskMap) : TaskMap × Except Error (StoreOp Bool) :=
  let matched := (map.lookup id).any fun task => task.channel = channel ∧ task.chatId = chatId
  if !matched then (map, .ok (.clean false)) else (map.erase id, .ok (.changed true))

section
variable (store : CachedJsonFileStore TaskMap)

def get (s : StoreState TaskMap) (faults : Faults) (channel chatId id : String) :
    StoreState TaskMap × Except Error (Option TaskItem) :=
  store.withCachedMut s faults (getClosure channel chatId id)

def list (s : StoreState TaskMap) (faults : Faults) (channel chatId : String) (query : TaskQuery)
    (entries : List (Σ _ : String, TaskItem)) : StoreState TaskMap × Except Error (List TaskItem) :=
  store.withCachedMut s faults (listClosure channel chatId query entries)

def upsert (s : StoreState TaskMap) (faults : Faults) (task : TaskItem) :
    StoreState TaskMap × Except Error Unit :=
  let (s, changed) := store.withCachedMut s faults (upsertClosure task)
  (s, changed.map fun _ => ())

def delete (s : StoreState TaskMap) (faults : Faults) (channel chatId id : String) :
    StoreState TaskMap × Except Error Bool :=
  store.withCachedMut s faults (deleteClosure channel chatId id)

/-- A call for which nothing goes wrong in reading. -/
def healthy : Faults := ⟨none, .done⟩

/-- What `list` can answer, whatever the order of the map. -/
def Lists (s : StoreState TaskMap) (channel chatId : String) (query : TaskQuery)
    (result : Except Error (List TaskItem)) : Prop :=
  ∃ entries : List (Σ _ : String, TaskItem),
    (∀ map, store.seen s healthy = .ok map → (entries : Multiset _) = map.entries) ∧
    (list store s healthy channel chatId query entries).2 = result

/-- The reads of all chats but one are the same in both states. -/
structure OthersKept (s s' : StoreState TaskMap) (owner : String × String) : Prop where
  get : ∀ channel chatId id, (channel, chatId) ≠ owner →
    (get store s' healthy channel chatId id).2 = (get store s healthy channel chatId id).2
  list : ∀ channel chatId query result, (channel, chatId) ≠ owner →
    (Lists store s' channel chatId query result ↔ Lists store s channel chatId query result)

end

/-- The upsert has nothing to do, or the task is stored under the chat that it
was given with, where no task of another chat is. -/
def StaysHome (map : TaskMap) (task : TaskItem) : Prop :=
  ∀ next, normalizeTaskItem task = .ok next →
    map.lookup next.id = some next ∨ (next.id ∉ map ∧ maxTaskItems ≤ map.keys.card) ∨
      (next.owner = task.owner ∧ ∀ old, map.lookup next.id = some old → old.owner = task.owner)

/-! What the calls do to the map. -/

/-- The entries of all chats but one are the same in both maps. -/
def EntriesKept (map map' : TaskMap) (owner : String × String) : Prop :=
  ∀ id task, task.owner ≠ owner → (map'.lookup id = some task ↔ map.lookup id = some task)

theorem entriesKept_refl (map : TaskMap) (owner : String × String) : EntriesKept map map owner :=
  fun _ _ _ => Iff.rfl

theorem entriesKept_upsert_iff (map : TaskMap) (task : TaskItem) :
    EntriesKept map (upsertClosure task map).1 task.owner ↔ StaysHome map task := by
  unfold upsertClosure StaysHome
  cases hnext : normalizeTaskItem task with
  | error e => simpa using entriesKept_refl map task.owner
  | ok next =>
    simp only [Except.ok.injEq, forall_eq']
    split
    · rename_i hsame
      simpa [hsame] using entriesKept_refl map task.owner
    · rename_i hnew
      split
      · rename_i hfull
        simpa [hfull] using entriesKept_refl map task.owner
      · rename_i hroom
        simp only [hnew, hroom, false_or]
        constructor
        · intro hkept
          have hnext' : (map.insert next.id next).lookup next.id = some next := Finmap.lookup_insert map
          have howner : next.owner = task.owner := by
            by_contra hne
            exact hnew ((hkept next.id next hne).mp hnext')
          refine ⟨howner, fun old hold => ?_⟩
          by_contra hne
          have hold' := (hkept next.id old hne).mpr hold
          obtain rfl : next = old := Option.some.inj (hnext'.symm.trans hold')
          exact hne howner
        · rintro ⟨howner, hold⟩ id other hne
          by_cases hid : id = next.id
          · subst hid
            rw [Finmap.lookup_insert, Option.some.injEq]
            constructor
            · rintro rfl
              exact absurd howner hne
            · intro hother
              exact absurd (hold other hother) hne
          · have hlookup : (map.insert next.id next).lookup id = map.lookup id :=
              Finmap.lookup_insert_of_ne map hid
            rw [hlookup]

theorem entriesKept_delete (map : TaskMap) (channel chatId id : String) :
    EntriesKept map (deleteClosure channel chatId id map).1 (channel, chatId) := by
  simp only [deleteClosure]
  split
  · exact entriesKept_refl map _
  · rename_i hmatched
    intro id' task hne
    by_cases hid : id' = id
    · subst hid
      have hown : map.lookup id' = some task → task.owner = (channel, chatId) := by
        intro htask
        simpa [htask, TaskItem.owner] using hmatched
      rw [Finmap.lookup_erase]
      constructor
      · rintro ⟨⟩
      · intro htask
        exact absurd (hown htask) hne
    · have hlookup : (map.erase id).lookup id' = map.lookup id' := Finmap.lookup_erase_ne hid
      rw [hlookup]

/-! What the reads of the other chats show of that. -/

section
variable {store : CachedJsonFileStore TaskMap} {s s' : StoreState TaskMap} {map map' : TaskMap}
  {owner : String × String} {channel chatId : String}

theorem get_answer (id : String) : (get store s healthy channel chatId id).2 =
    (store.cachedValue s).map fun map =>
      (map.lookup id).filter fun task => task.channel = channel ∧ task.chatId = chatId :=
  store.withCachedMut_of_clean _

theorem list_answer (query : TaskQuery) (entries : List (Σ _ : String, TaskItem)) :
    (list store s healthy channel chatId query entries).2 =
      (store.cachedValue s).map fun _ =>
        filterTasks ((entries.map (·.2)).filter fun task => task.channel = channel ∧ task.chatId = chatId) query :=
  store.withCachedMut_of_clean _

theorem EntriesKept.filter_eq (h : EntriesKept map map' owner) (hne : (channel, chatId) ≠ owner) :
    map'.entries.filter (fun entry => entry.2.channel = channel ∧ entry.2.chatId = chatId) =
      map.entries.filter fun entry => entry.2.channel = channel ∧ entry.2.chatId = chatId := by
  have hnodup (m : TaskMap) : m.entries.Nodup := m.nodupKeys.nodup_keys.of_map _
  rw [Multiset.Nodup.ext ((hnodup map').filter _) ((hnodup map).filter _)]
  rintro ⟨id, task⟩
  simp only [Multiset.mem_filter, ← Finmap.mem_lookup_iff, Option.mem_def]
  constructor
  · rintro ⟨hmem, rfl, rfl⟩
    exact ⟨(h id task hne).mp hmem, rfl, rfl⟩
  · rintro ⟨hmem, rfl, rfl⟩
    exact ⟨(h id task hne).mpr hmem, rfl, rfl⟩

theorem EntriesKept.symm (h : EntriesKept map map' owner) : EntriesKept map' map owner :=
  fun id task hne => (h id task hne).symm

/-- A list of the entries of one map is, as far as the chat sees, one of the other. -/
theorem Lists.of_entriesKept {query : TaskQuery} {result : Except Error (List TaskItem)}
    (hs : store.cachedValue s = .ok map) (hs' : store.cachedValue s' = .ok map') (h : EntriesKept map map' owner)
    (hne : (channel, chatId) ≠ owner) (hlists : Lists store s' channel chatId query result) :
    Lists store s channel chatId query result := by
  obtain ⟨entries, hentries, hresult⟩ := hlists
  have hentries' : (entries : Multiset _) = map'.entries := hentries map' hs'
  let own (entry : Σ _ : String, TaskItem) : Prop := entry.2.channel = channel ∧ entry.2.chatId = chatId
  refine ⟨entries.filter (fun entry => own entry) ++ (map.entries.filter fun entry => ¬ own entry).toList, ?_, ?_⟩
  · intro m hm
    obtain rfl : map = m := Except.ok.inj (hs.symm.trans hm)
    rw [← Multiset.coe_add, Multiset.coe_toList, ← Multiset.filter_coe, hentries', h.filter_eq hne,
      Multiset.filter_add_not]
  · rw [← hresult, list_answer, list_answer, hs, hs']
    have hrest : ((map.entries.filter fun entry => ¬ own entry).toList.map (·.2)).filter
        (fun task => task.channel = channel ∧ task.chatId = chatId) = [] := by
      refine List.filter_eq_nil_iff.mpr fun task htask => ?_
      obtain ⟨entry, hentry, rfl⟩ := List.mem_map.mp htask
      simpa [own] using (Multiset.mem_filter.mp (Multiset.mem_toList.mp hentry)).2
    simp only [Except.map, List.map_append, List.filter_append, hrest, List.append_nil, List.filter_map]
    congr 3
    simp [List.filter_filter, own, Function.comp_def]

theorem othersKept_of_entriesKept (hs : store.cachedValue s = .ok map) (hs' : store.cachedValue s' = .ok map')
    (h : EntriesKept map map' owner) : OthersKept store s s' owner := by
  refine ⟨fun channel chatId id hne => ?_, fun channel chatId query result hne => ⟨?_, ?_⟩⟩
  · rw [get_answer, get_answer, hs, hs']
    simp only [Except.map, Except.ok.injEq]
    ext task
    simp only [Option.filter_eq_some_iff, decide_eq_true_eq]
    constructor
    · rintro ⟨hmem, rfl, rfl⟩
      exact ⟨(h id task hne).mp hmem, rfl, rfl⟩
    · rintro ⟨hmem, rfl, rfl⟩
      exact ⟨(h id task hne).mpr hmem, rfl, rfl⟩
  · exact Lists.of_entriesKept hs hs' h hne
  · exact Lists.of_entriesKept hs' hs h.symm hne

theorem OthersKept.entriesKept (h : OthersKept store s s' owner) (hs : store.cachedValue s = .ok map)
    (hs' : store.cachedValue s' = .ok map') : EntriesKept map map' owner := by
  intro id task hne
  have hget := h.get task.channel task.chatId id hne
  rw [get_answer, get_answer, hs, hs'] at hget
  simp only [Except.map, Except.ok.injEq] at hget
  have hown (m : TaskMap) : m.lookup id = some task ↔
      (m.lookup id).filter (fun other => other.channel = task.channel ∧ other.chatId = task.chatId) = some task := by
    simp [Option.filter_eq_some_iff]
  rw [hown, hown, hget]

variable (faults : Faults)

theorem upsert_state (task : TaskItem) :
    (upsert store s faults task).1 = (store.withCachedMut s faults (upsertClosure task)).1 := rfl

theorem othersKept_upsert_iff (task : TaskItem) :
    OthersKept store s (upsert store s faults task).1 task.owner ↔
      ∀ map, store.seen s faults = .ok map → StaysHome map task := by
  cases hseen : store.seen s faults with
  | error e =>
    have hsame : (upsert store s faults task).1 = s := by
      rw [upsert_state, CachedJsonFileStore.withCachedMut, hseen]
    rw [hsame]
    simp only [reduceCtorEq, false_imp_iff, implies_true, iff_true]
    exact ⟨fun _ _ _ _ => rfl, fun _ _ _ _ _ => Iff.rfl⟩
  | ok map =>
    have hs := store.seen_eq_ok hseen
    have hs' := store.cachedValue_withCachedMut (upsertClosure task) hseen
    rw [← upsert_state] at hs'
    simp only [Except.ok.injEq, forall_eq', ← entriesKept_upsert_iff]
    exact ⟨fun h => h.entriesKept hs hs', othersKept_of_entriesKept hs hs'⟩

theorem othersKept_delete (channel chatId id : String) :
    OthersKept store s (delete store s faults channel chatId id).1 (channel, chatId) := by
  cases hseen : store.seen s faults with
  | error e =>
    have hsame : (delete store s faults channel chatId id).1 = s := by
      simp [delete, CachedJsonFileStore.withCachedMut, hseen]
    rw [hsame]
    exact ⟨fun _ _ _ _ => rfl, fun _ _ _ _ _ => Iff.rfl⟩
  | ok map =>
    exact othersKept_of_entriesKept (store.seen_eq_ok hseen) (store.cachedValue_withCachedMut _ hseen)
      (entriesKept_delete map channel chatId id)

end

/-- An upsert and the deletes keep the reads of all other chats just when the
upsert stays with its own. -/
theorem task_isolation_iff (store : CachedJsonFileStore TaskMap) (s : StoreState TaskMap) (faults : Faults)
    (task : TaskItem) :
    (OthersKept store s (upsert store s faults task).1 task.owner ∧
      ∀ faults channel chatId id, OthersKept store s (delete store s faults channel chatId id).1 (channel, chatId)) ↔
      ∀ map, store.seen s faults = .ok map → StaysHome map task := by
  rw [← othersKept_upsert_iff]
  exact and_iff_left fun faults channel chatId id => othersKept_delete faults channel chatId id

/-- A task with this id, of a chat of the channel. -/
def chatTask (chatId : String) : TaskItem :=
  { TaskItem.default with id := "t1", channel := "qq", chatId, title := "x" }

def chatTaskMap (chatId : String) : TaskMap := Finmap.singleton "t1" (chatTask chatId)

def chatTaskJsonHead : String := "\x7b\"t1\":"

def chatTaskJsonOwner : String := "\x7b\"id\":\"t1\",\"channel\":\"qq\",\"chat_id\":\""

def chatTaskJsonRest : String :=
  "\",\"title\":\"x\",\"detail\":\"\",\"project\":\"\",\"status\":\"open\",\"priority\":\"normal\"," ++
    "\"due_at_unix_secs\":0,\"due_notified_at_unix_secs\":0,\"calendar_event_id\":\"\"," ++
    "\"calendar_start_at_unix_secs\":0,\"calendar_end_at_unix_secs\":0,\"calendar_timezone\":\"\"," ++
    "\"calendar_location\":\"\",\"calendar_notes\":\"\",\"completed_at_unix_secs\":0,\"updated_at\":0\x7d\x7d"

def chatTaskJson (chatId : String) : Bytes :=
  utf8 chatTaskJsonHead.toList ++ utf8 chatTaskJsonOwner.toList ++ utf8 chatId.toList ++ utf8 chatTaskJsonRest.toList

theorem length_chatTaskJson (chatId : String) : 2 < (chatTaskJson chatId).length := by
  have hhead : chatTaskJsonHead.utf8ByteSize = 6 := by decide
  simp only [chatTaskJson, List.length_append, length_utf8_toList]
  omega

theorem chatTaskJson_ne : chatTaskJson "b" ≠ chatTaskJson "a" := by
  intro h
  have hid := List.append_cancel_left (List.append_cancel_right h)
  exact absurd hid (by decide)

def chatTaskCodec : JsonCodec TaskMap :=
  JsonCodec.ofTwoMaps (chatTaskMap "a") (chatTaskMap "b") (chatTaskJson "a") (chatTaskJson "b") (length_chatTaskJson "a")
    (length_chatTaskJson "b") chatTaskJson_ne

def chatTaskStore : CachedJsonFileStore TaskMap where
  maxWriteSize := maxWriteSizeHost
  toVec := chatTaskCodec.toVec
  loadFn := loadJsonOrDefault chatTaskCodec
  stageCache := "task_store_cache"
  stagePersist := "task_store_persist"
  load_toVec := loadJsonOrDefault_toVec chatTaskCodec
  load_error := loadJsonOrDefault_error chatTaskCodec

/-- Chat `a` has stored its task. -/
def taskOfOne : StoreState TaskMap := ⟨some (chatTaskMap "a"), some (chatTaskJson "a")⟩

theorem upsert_takes_task :
    ¬ OthersKept chatTaskStore taskOfOne (upsert chatTaskStore taskOfOne healthy (chatTask "b")).1
      (chatTask "b").owner := by
  intro h
  have hseen : chatTaskStore.seen taskOfOne healthy = .ok (chatTaskMap "a") := rfl
  have hnormal : normalizeTaskItem (chatTask "b") = .ok (chatTask "b") := by rfl
  have hstays := (othersKept_upsert_iff healthy (chatTask "b")).mp h _ hseen _ hnormal
  exact absurd hstays (by decide)

end StorageTaskStore
end Beetle.Platform.Storage
