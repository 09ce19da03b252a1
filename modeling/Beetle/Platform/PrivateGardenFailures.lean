import Beetle.Platform.PrivateGarden

/-! Calls on the private garden that fail, and what a read gives after them. -/
namespace Beetle.Platform.Storage
open Beetle.Lib Beetle.Tools

/-- The calls that a chat makes. -/
inductive GardenCall where
  | list (chatId : String) (limit : Nat)
  | read (chatId : String) (docPath : List Char)
  | write (chatId : String) (docPath content : List Char) (nowSecs : UInt64)
  | moveDoc (chatId : String) (fromPath toPath : List Char) (nowSecs : UInt64)
  | delete (chatId : String) (docPath : List Char)

def GardenCall.chatId : GardenCall → String
  | .list chatId _ => chatId
  | .read chatId _ => chatId
  | .write chatId _ _ _ => chatId
  | .moveDoc chatId _ _ _ => chatId
  | .delete chatId _ => chatId

def GardenCall.writes : GardenCall → Bool
  | .list _ _ => false
  | .read _ _ => false
  | .write _ _ _ _ => true
  | .moveDoc _ _ _ _ => true
  | .delete _ _ => true

namespace StoragePrivateGardenStore
variable (store : StoragePrivateGardenStore)

def perform (s : GardenState) (faults : GardenFaults) : GardenCall → GardenState × Except Error Unit
  | .list chatId limit => ((store.list s faults chatId limit).1, (store.list s faults chatId limit).2.map fun _ => ())
  | .read chatId docPath => ((store.read s faults chatId docPath).1, (store.read s faults chatId docPath).2.map fun _ => ())
  | .write chatId docPath content nowSecs =>
    ((store.write s faults chatId docPath content nowSecs).1,
      (store.write s faults chatId docPath content nowSecs).2.map fun _ => ())
  | .moveDoc chatId fromPath toPath nowSecs =>
    ((store.moveDoc s faults chatId fromPath toPath nowSecs).1,
      (store.moveDoc s faults chatId fromPath toPath nowSecs).2.map fun _ => ())
  | .delete chatId docPath =>
    ((store.delete s faults chatId docPath).1, (store.delete s faults chatId docPath).2.map fun _ => ())

def step (s : GardenState) (a : GardenCall × GardenFaults) : Option GardenState := some (store.perform s a.2 a.1).1

/-- What a read gives when nothing goes wrong with the files. -/
def answer (s : GardenState) (chatId : String) (docPath : List Char) : Except Error (Option PrivateGardenDoc) :=
  (store.read s .none chatId docPath).2

/-- A read, from the index and the desk as they are. -/
def found (index : StoredGardenIndex) (desk : GardenDesk) (chatId : String) (docPath : List Char) :
    Except Error (Option PrivateGardenDoc) :=
  match index.lookup chatId with
  | none => .ok none
  | some docs =>
    match docs.find? fun doc => doc.path = docPath with
    | none => .ok none
    | some record =>
      match (desk.cache.get chatId record).1 with
      | some doc => .ok (some doc)
      | none => (store.readDoc desk.files (store.file chatId docPath) none "private_garden_read").map fun content =>
          some ⟨docPath, content, record.updatedAt, record.revision⟩

variable {store} {faults : GardenFaults} {s : GardenState} {e : Error} {R : Type}
  {f : StoredGardenIndex → GardenDesk → (StoredGardenIndex × GardenDesk) × Except Error (StoreOp R)}
  {index : StoredGardenIndex} {docPath : List Char} {desk : GardenDesk}

theorem withIndex_of_seen {R : Type} {s : GardenState} {faults : GardenFaults} {index : StoredGardenIndex}
    (f : StoredGardenIndex → GardenDesk → (StoredGardenIndex × GardenDesk) × Except Error (StoreOp R))
    (h : store.index.seen s.index faults.index = .ok index) :
    store.index.cachedValue (store.withIndex s faults f).1.index = .ok (f index s.desk).1.1 ∧
      (store.withIndex s faults f).1.desk = (f index s.desk).1.2 := by
  refine ⟨?_, ?_⟩
  · exact store.index.cachedValue_withCachedMut (fun value => ((f value s.desk).1.1, (f value s.desk).2)) h
  · unfold withIndex
    dsimp only
    rw [h]

theorem withIndex_of_unseen
    (f : StoredGardenIndex → GardenDesk → (StoredGardenIndex × GardenDesk) × Except Error (StoreOp R))
    (h : store.index.seen s.index faults.index = .error e) : store.withIndex s faults f = (s, .error e) := by
  unfold withIndex CachedJsonFileStore.withCachedMut
  simp only [h]

/-- The answer of a call that writes nothing. -/
theorem withIndex_clean {R : Type} {s : GardenState} {faults : GardenFaults} {index : StoredGardenIndex}
    {f : StoredGardenIndex → GardenDesk → (StoredGardenIndex × GardenDesk) × Except Error (StoreOp R)}
    (h : store.index.seen s.index faults.index = .ok index)
    (hclean : ∀ op, (f index s.desk).2 = .ok op → op.dirty = false) :
    (store.withIndex s faults f).2 = (f index s.desk).2.map StoreOp.result := by
  unfold withIndex CachedJsonFileStore.withCachedMut
  simp only [h]
  cases hf : (f index s.desk).2 with
  | error e => rfl
  | ok op =>
    have hdirty := hclean op hf
    simp only [hdirty]
    rfl

theorem readClosure_answer (faults : GardenFaults) (chatId : String) (docPath : List Char) (index : StoredGardenIndex)
    (desk : GardenDesk) :
    (∀ op, (store.readClosure faults chatId docPath index desk).2 = .ok op → op.dirty = false) ∧
    (store.readClosure faults chatId docPath index desk).1.1 = index ∧
    (store.readClosure faults chatId docPath index desk).1.2.files = desk.files ∧
    (faults.docRead = none → (store.readClosure faults chatId docPath index desk).2.map StoreOp.result =
      store.found index desk chatId docPath) := by
  unfold readClosure found
  cases index.lookup chatId with
  | none => exact ⟨fun op h => by rw [← Except.ok.inj h]; rfl, rfl, rfl, fun _ => rfl⟩
  | some docs =>
    dsimp only
    cases docs.find? fun doc => doc.path = docPath with
    | none => exact ⟨fun op h => by rw [← Except.ok.inj h]; rfl, rfl, rfl, fun _ => rfl⟩
    | some record =>
      dsimp only
      rcases desk.cache.get chatId record with ⟨_ | doc, cache⟩
      · dsimp only
        cases hread : store.readDoc desk.files (store.file chatId docPath) faults.docRead "private_garden_read" with
        | error e =>
          refine ⟨fun op h => (nomatch h), rfl, rfl, fun hfault => ?_⟩
          rw [hfault] at hread
          rw [hread]
          rfl
        | ok content =>
          refine ⟨fun op h => by rw [← Except.ok.inj h]; rfl, rfl, rfl, fun hfault => ?_⟩
          rw [hfault] at hread
          rw [hread]
          rfl
      · exact ⟨fun op h => by rw [← Except.ok.inj h]; rfl, rfl, rfl, fun _ => rfl⟩

theorem answer_eq (s : GardenState) (chatId : String) (docPath : List Char) : store.answer s chatId docPath =
    match normalizePrivateGardenDocPath docPath with
    | .error e => .error e
    | .ok docPath =>
      match store.index.cachedValue s.index with
      | .error e => .error e
      | .ok index => store.found index s.desk chatId docPath := by
  unfold answer read
  cases normalizePrivateGardenDocPath docPath with
  | error e => rfl
  | ok docPath =>
    have hseen : store.index.seen s.index GardenFaults.none.index = store.index.cachedValue s.index := by
      unfold CachedJsonFileStore.seen CachedJsonFileStore.cachedValue
      rfl
    dsimp only
    cases hindex : store.index.cachedValue s.index with
    | error e => rw [withIndex_of_unseen _ (hseen.trans hindex)]
    | ok index =>
      obtain ⟨hclean, -, -, hfound⟩ := @readClosure_answer store .none chatId docPath index s.desk
      rw [withIndex_clean (hseen.trans hindex) hclean]
      exact hfound rfl

/-- The index that the closure leaves can be written, and is. -/
def Persists {R : Type} (store : StoragePrivateGardenStore) (s : GardenState) (faults : GardenFaults)
    (f : StoredGardenIndex → GardenDesk → (StoredGardenIndex × GardenDesk) × Except Error (StoreOp R)) : Prop :=
  ∀ index op, store.index.seen s.index faults.index = .ok index → (f index s.desk).2 = .ok op → op.dirty = true →
    (store.index.persist s.index.disk (f index s.desk).1.1 faults.index.write).2 = .ok ()

/-- A write that fails, if it does, leaves the document and the file beside it as they were. -/
def Untouched (store : StoragePrivateGardenStore) (files : DocFiles) (path : StatePath) (outcome : DocWrite) : Prop :=
  ∀ e left scratchLeft, outcome = .failed e left scratchLeft →
    left = files path ∧ ∀ beside, store.fs.scratch path = some beside → scratchLeft = files beside

/-- Nothing has to go for this document. -/
def HasRoom (index : StoredGardenIndex) (chatId : String) (docPath : List Char) : Prop :=
  (chatId ∈ index ∨ index.keys.card < maxPrivateGardenChats) ∧
    ((∃ doc ∈ (index.lookup chatId).getD [], doc.path = docPath) ∨
      ((index.lookup chatId).getD []).length < privateGardenMaxDocsPerChat)

/-- No other document has this key in the cache. -/
def LoneKey (index : StoredGardenIndex) (chatId : String) (docPath : List Char) : Prop :=
  ∀ chatId' docs, index.lookup chatId' = some docs → ∀ doc ∈ docs,
    docCacheKey chatId' doc.path = docCacheKey chatId docPath → chatId' = chatId ∧ doc.path = docPath

/-- What keeps a call that fails from losing anything. -/
def Lossless (store : StoragePrivateGardenStore) (s : GardenState) : GardenCall × GardenFaults → Prop
  | (.list _ _, _) => True
  | (.read _ _, _) => True
  | (.write chatId docPath content nowSecs, faults) => ∀ path, normalizePrivateGardenDocPath docPath = .ok path →
      store.Persists s faults (store.writeClosure faults chatId path content nowSecs) ∧
        store.Untouched s.desk.files (store.file chatId path) faults.docWrite ∧
        (faults.docWrite ≠ .done → ∀ index, store.index.seen s.index faults.index = .ok index → HasRoom index chatId path)
  | (.moveDoc chatId fromPath toPath nowSecs, faults) => ∀ source target,
      normalizePrivateGardenDocPath fromPath = .ok source → normalizePrivateGardenDocPath toPath = .ok target →
      (source = target → ∀ path, normalizePrivateGardenDocPath source = .ok path →
        ∀ index, store.index.seen s.index faults.index = .ok index → LoneKey index chatId path) ∧
        store.Persists s faults (store.moveClosure faults chatId source target nowSecs) ∧
        store.Untouched s.desk.files (store.file chatId target) faults.docWrite
  | (.delete chatId docPath, faults) => ∀ path, normalizePrivateGardenDocPath docPath = .ok path →
      store.Persists s faults (store.deleteClosure faults chatId path)

/-- After a call that failed every read gives what it gave before. -/
def Spared (store : StoragePrivateGardenStore) (s : GardenState) (a : GardenCall × GardenFaults) : Prop :=
  a.1.writes = true → ∀ e, (store.perform s a.2 a.1).2 = .error e → ∀ chatId docPath,
    store.answer (store.perform s a.2 a.1).1 chatId docPath = store.answer s chatId docPath

theorem withIndex_eq_ok {op : StoreOp R}
    (hpersists : store.Persists s faults f) (hseen : store.index.seen s.index faults.index = .ok index)
    (hf : (f index s.desk).2 = .ok op) : (store.withIndex s faults f).2 = .ok op.result := by
  unfold withIndex CachedJsonFileStore.withCachedMut
  simp only [hseen, hf]
  cases hdirty : op.dirty with
  | false => rfl
  | true =>
    have hdone := hpersists index op hseen hf hdirty
    rw [if_pos rfl]
    dsimp only
    rw [hdone]
    rfl

/-- Where the closure itself spares the documents when it fails, so does the call. -/
theorem withIndex_spared (hpersists : store.Persists s faults f)
    (hf : ∀ index e, store.index.seen s.index faults.index = .ok index → (f index s.desk).2 = .error e →
      ∀ chatId docPath, store.found (f index s.desk).1.1 (f index s.desk).1.2 chatId docPath =
        store.found index s.desk chatId docPath)
    (e : Error) (h : (store.withIndex s faults f).2 = .error e) (chatId : String) (docPath : List Char) :
    store.answer (store.withIndex s faults f).1 chatId docPath = store.answer s chatId docPath := by
  cases hseen : store.index.seen s.index faults.index with
  | error e => rw [withIndex_of_unseen f hseen]
  | ok index =>
    obtain ⟨hindex, hdesk⟩ := withIndex_of_seen f hseen
    cases hresult : (f index s.desk).2 with
    | ok op =>
      rw [withIndex_eq_ok hpersists hseen hresult] at h
      cases h
    | error e =>
      rw [answer_eq, answer_eq, hindex, hdesk, store.index.seen_eq_ok hseen]
      cases normalizePrivateGardenDocPath docPath with
      | error e => rfl
      | ok path => exact hf index e hseen hresult chatId path

theorem replaced_of_untouched {files : DocFiles} {path : StatePath} {left scratchLeft : Option Bytes}
    (h : store.Untouched files path (.failed e left scratchLeft)) : store.replaced files path scratchLeft left = files := by
  obtain ⟨hleft, hbeside⟩ := h e left scratchLeft rfl
  unfold replaced
  cases hscratch : store.fs.scratch path with
  | none =>
    dsimp only
    rw [hleft, Function.update_eq_self]
  | some beside =>
    dsimp only
    rw [hbeside beside hscratch, Function.update_eq_self, hleft, Function.update_eq_self]

theorem writeDoc_error {files : DocFiles} {path : StatePath} {data : Bytes} {outcome : DocWrite} {files' : DocFiles}
    (huntouched : store.Untouched files path outcome)
    (h : store.writeDoc files path data outcome = (files', .error e)) : files' = files := by
  unfold writeDoc at h
  split at h
  · exact (Prod.mk.inj h).1.symm
  · cases outcome with
    | done => exact absurd (Prod.mk.inj h).2 (fun hok => (nomatch hok))
    | failed e left scratchLeft =>
      rw [← (Prod.mk.inj h).1]
      exact replaced_of_untouched huntouched

/-- A document that is small enough is written, where nothing goes wrong. -/
theorem writeDoc_done (files : DocFiles) (path : StatePath) {data : Bytes} (hdata : data.length ≤ privateGardenMaxDocBytes) :
    store.writeDoc files path data .done = (store.replaced files path none (some data), .ok ()) := by
  have hfit := store.docs_fit
  unfold writeDoc
  rw [if_neg (by omega)]

theorem findIdx?_eq_none_iff_lacks {docs : List PrivateGardenDocRecord} :
    (docs.findIdx? fun doc => doc.path = docPath) = none ↔ ¬ ∃ doc ∈ docs, doc.path = docPath := by
  rw [List.findIdx?_eq_none_iff]
  refine ⟨fun h => ?_, fun h doc hdoc => ?_⟩
  · rintro ⟨doc, hdoc, hpath⟩
    exact absurd (h doc hdoc) (by simp [hpath])
  · exact decide_eq_false fun hpath => h ⟨doc, hdoc, hpath⟩

/-- A chat that is entered with the documents it has, or with none, gives the same reads. -/
theorem found_insert_getD (index : StoredGardenIndex) (desk : GardenDesk) (chatId chatId' : String) (docPath : List Char) :
    store.found (index.insert chatId ((index.lookup chatId).getD [])) desk chatId' docPath =
      store.found index desk chatId' docPath := by
  unfold found
  by_cases hsame : chatId' = chatId
  · subst hsame
    rw [Finmap.lookup_insert]
    cases index.lookup chatId' with
    | none => rfl
    | some docs => rfl
  · rw [Finmap.lookup_insert_of_ne index hsame]

theorem writeClosure_spared {chatId : String} {docPath content : List Char} {nowSecs : UInt64}
    (hfits : (utf8 content).length ≤ privateGardenMaxDocBytes)
    (huntouched : store.Untouched desk.files (store.file chatId docPath) faults.docWrite)
    (hroom : faults.docWrite ≠ .done → HasRoom index chatId docPath)
    (h : (store.writeClosure faults chatId docPath content nowSecs index desk).2 = .error e) :
    (store.writeClosure faults chatId docPath content nowSecs index desk).1 =
      (index.insert chatId ((index.lookup chatId).getD []), desk) := by
  by_cases hdone : faults.docWrite = .done
  · unfold writeClosure at h
    dsimp only at h
    rw [hdone, writeDoc_done _ _ hfits] at h
    cases h
  obtain ⟨hchat, hdoc⟩ := hroom hdone
  have hkeep : store.makeRoomForChat faults chatId index desk = (index, desk) := by
    unfold makeRoomForChat
    refine if_neg fun hfull => ?_
    rcases hchat with hmem | hcard
    · exact hfull.1 hmem
    · omega
  have hkeepDoc : (if ((index.lookup chatId).getD []).findIdx? (fun doc => doc.path = docPath) = none then
      store.makeRoomForDoc faults chatId ((index.lookup chatId).getD []) desk
      else ((index.lookup chatId).getD [], desk)) = ((index.lookup chatId).getD [], desk) := by
    split
    · rename_i hlacks
      unfold makeRoomForDoc
      refine if_neg fun hfull => ?_
      rcases hdoc with hhas | hlength
      · exact findIdx?_eq_none_iff_lacks.mp hlacks hhas
      · omega
    · rfl
  unfold writeClosure at h ⊢
  simp only [hkeep] at h ⊢
  rw [hkeepDoc] at h ⊢
  dsimp only at h ⊢
  rcases hwrite : store.writeDoc desk.files (store.file chatId docPath) (utf8 content) faults.docWrite with ⟨files, _ | _⟩
  · obtain rfl : files = desk.files := writeDoc_error huntouched hwrite
    rfl
  · rw [hwrite] at h
    cases h

theorem moveClosure_spared {chatId : String} {fromPath toPath : List Char} {nowSecs : UInt64}
    (huntouched : store.Untouched desk.files (store.file chatId toPath) faults.docWrite)
    (h : (store.moveClosure faults chatId fromPath toPath nowSecs index desk).2 = .error e) :
    (store.moveClosure faults chatId fromPath toPath nowSecs index desk).1 = (index, desk) := by
  unfold moveClosure at h ⊢
  cases hdocs : index.lookup chatId with
  | none => rfl
  | some docs =>
    simp only [hdocs] at h ⊢
    cases hidx : docs.findIdx? fun doc => doc.path = fromPath with
    | none => rfl
    | some fromIdx =>
      simp only [hidx] at h ⊢
      cases hread : store.readDoc desk.files (store.file chatId fromPath) faults.docRead "private_garden_move" with
      | error e => rfl
      | ok content =>
        simp only [hread] at h ⊢
        rcases hwrite : store.writeDoc desk.files (store.file chatId toPath) (utf8 content) faults.docWrite with ⟨files, _ | _⟩
        · obtain rfl : files = desk.files := writeDoc_error huntouched hwrite
          rfl
        · simp only [hwrite] at h
          cases h

theorem deleteClosure_ok (faults : GardenFaults) (chatId : String) (docPath : List Char) (index : StoredGardenIndex)
    (desk : GardenDesk) : ∃ op, (store.deleteClosure faults chatId docPath index desk).2 = .ok op := by
  unfold deleteClosure
  cases index.lookup chatId with
  | none => exact ⟨_, rfl⟩
  | some docs =>
    dsimp only
    cases docs.findIdx? fun doc => doc.path = docPath with
    | none => exact ⟨_, rfl⟩
    | some idx => exact ⟨_, rfl⟩

theorem removeKey_lookup_of_ne (cache : PrivateGardenDocCache) {key key' : List Char} (h : key' ≠ key) :
    (cache.removeKey key).docs.lookup key' = cache.docs.lookup key' := Finmap.lookup_erase_ne h

theorem get_fst_of_lookup {cache cache' : PrivateGardenDocCache} {chatId : String} {record : PrivateGardenDocRecord}
    (h : cache'.docs.lookup (docCacheKey chatId record.path) = cache.docs.lookup (docCacheKey chatId record.path)) :
    (cache'.get chatId record).1 = (cache.get chatId record).1 := by
  unfold PrivateGardenDocCache.get
  dsimp only
  rw [h]
  cases cache.docs.lookup (docCacheKey chatId record.path) with
  | none => rfl
  | some doc =>
    dsimp only
    split
    · rfl
    · rfl

/-- A look that finds nothing leaves nothing to find under that key, and the other keys alone. -/
theorem get_of_none {cache : PrivateGardenDocCache} {chatId : String} {record : PrivateGardenDocRecord}
    (h : (cache.get chatId record).1 = none) :
    ((cache.get chatId record).2.get chatId record).1 = none ∧
      ∀ key, key ≠ docCacheKey chatId record.path → (cache.get chatId record).2.docs.lookup key = cache.docs.lookup key := by
  cases hdoc : cache.docs.lookup (docCacheKey chatId record.path) with
  | none =>
    have hget : cache.get chatId record = (none, cache) := by simp only [PrivateGardenDocCache.get, hdoc]
    rw [hget]
    exact ⟨by rw [hget], fun _ _ => rfl⟩
  | some doc =>
    by_cases hstamp : doc.updatedAt = record.updatedAt ∧ doc.revision = record.revision
    · simp only [PrivateGardenDocCache.get, hdoc, if_pos hstamp] at h
      cases h
    · have hget : cache.get chatId record = (none, cache.removeKey (docCacheKey chatId record.path)) := by
        simp only [PrivateGardenDocCache.get, hdoc, if_neg hstamp]
      rw [hget]
      refine ⟨?_, fun key hkey => removeKey_lookup_of_ne cache hkey⟩
      have hgone : (cache.removeKey (docCacheKey chatId record.path)).docs.lookup (docCacheKey chatId record.path) = none :=
        Finmap.lookup_erase _ _
      simp only [PrivateGardenDocCache.get, hgone]

/-- A read that fails may have dropped a cached document that was no longer the current one. -/
theorem readClosure_spared {chatId : String} (hlone : LoneKey index chatId docPath)
    (h : (store.readClosure faults chatId docPath index desk).2 = .error e) (chatId' : String) (docPath' : List Char) :
    store.found (store.readClosure faults chatId docPath index desk).1.1
      (store.readClosure faults chatId docPath index desk).1.2 chatId' docPath' = store.found index desk chatId' docPath' := by
  unfold readClosure at h ⊢
  cases hdocs : index.lookup chatId with
  | none => rfl
  | some docs =>
    simp only [hdocs] at h ⊢
    cases hrecord : docs.find? fun doc => doc.path = docPath with
    | none => rfl
    | some record =>
      have hpath : record.path = docPath := by simpa using List.find?_some hrecord
      simp only [hrecord] at h ⊢
      rcases hget : desk.cache.get chatId record with ⟨_ | doc, cache⟩
      · have hnone := @get_of_none desk.cache chatId record (congrArg Prod.fst hget)
        rw [hget] at hnone
        obtain ⟨hself, hothers⟩ := hnone
        simp only [hget] at h ⊢
        cases hread : store.readDoc desk.files (store.file chatId docPath) faults.docRead "private_garden_read" with
        | ok content =>
          rw [hread] at h
          cases h
        | error e =>
          simp only [found]
          cases hdocs' : index.lookup chatId' with
          | none => rfl
          | some docs' =>
            dsimp only
            cases hrecord' : docs'.find? fun doc => doc.path = docPath' with
            | none => rfl
            | some record' =>
              dsimp only
              have hsame : (cache.get chatId' record').1 = (desk.cache.get chatId' record').1 := by
                by_cases hkey : docCacheKey chatId' record'.path = docCacheKey chatId record.path
                · obtain ⟨rfl, hpath'⟩ := hlone chatId' docs' hdocs' record' (List.mem_of_find?_eq_some hrecord')
                    (hkey.trans (congrArg (docCacheKey chatId) hpath))
                  have htarget : record'.path = docPath' := by simpa using List.find?_some hrecord'
                  obtain rfl : docs' = docs := Option.some.inj (hdocs'.symm.trans hdocs)
                  rw [← htarget, hpath'] at hrecord'
                  obtain rfl : record' = record := Option.some.inj (hrecord'.symm.trans hrecord)
                  rw [hself, hget]
                · exact get_fst_of_lookup (hothers _ hkey)
              rw [hsame]
      · simp only [hget] at h
        cases h

theorem persists_of_clean
    (h : ∀ index op, (f index s.desk).2 = .ok op → op.dirty = false) : store.Persists s faults f := by
  intro index op _ hop hdirty
  rw [h index op hop] at hdirty
  cases hdirty

theorem read_spared {chatId : String} (hlone : ∀ path, normalizePrivateGardenDocPath docPath = .ok path →
      ∀ index, store.index.seen s.index faults.index = .ok index → LoneKey index chatId path)
    (h : (store.read s faults chatId docPath).2 = .error e) (chatId' : String) (docPath' : List Char) :
    store.answer (store.read s faults chatId docPath).1 chatId' docPath' = store.answer s chatId' docPath' := by
  unfold read at h ⊢
  cases hpath : normalizePrivateGardenDocPath docPath with
  | error e => rfl
  | ok path =>
    simp only [hpath] at h ⊢
    refine withIndex_spared (persists_of_clean fun index => (readClosure_answer faults chatId path index s.desk).1)
      (fun index e hseen hclosure chat path' => ?_) e h chatId' docPath'
    exact readClosure_spared (hlone path hpath index hseen) hclosure chat path'

/-- Everything but the case of a document that is moved to where it is works on the index once. -/
theorem step_spared {a : GardenCall × GardenFaults} (h : store.Lossless s a) : store.Spared s a := by
  obtain ⟨call, faults⟩ := a
  intro hwrites e he chatId' docPath'
  cases call with
  | list chatId limit => cases hwrites
  | read chatId docPath => cases hwrites
  | write chatId docPath content nowSecs =>
    simp only [perform, write] at he ⊢
    cases hpath : normalizePrivateGardenDocPath docPath with
    | error e => rfl
    | ok path =>
      obtain ⟨hpersists, huntouched, hroom⟩ := h path hpath
      simp only [hpath] at he ⊢
      by_cases hlarge : privateGardenMaxDocBytes < (utf8 content).length
      · rw [if_pos hlarge]
      · rw [if_neg hlarge] at he ⊢
        cases hresult : (store.withIndex s faults (store.writeClosure faults chatId path content nowSecs)).2 with
        | ok record =>
          rw [hresult] at he
          cases he
        | error e' =>
          refine withIndex_spared hpersists (fun index e hseen hclosure chatId' path' => ?_) e' hresult chatId' docPath'
          rw [writeClosure_spared (by omega) huntouched (fun hfails => hroom hfails index hseen) hclosure]
          exact found_insert_getD index s.desk chatId chatId' path'
  | moveDoc chatId fromPath toPath nowSecs =>
    simp only [perform, moveDoc] at he ⊢
    cases hsource : normalizePrivateGardenDocPath fromPath with
    | error e => rfl
    | ok source =>
      simp only [hsource] at he ⊢
      cases htarget : normalizePrivateGardenDocPath toPath with
      | error e => rfl
      | ok target =>
        obtain ⟨hlone, hpersists, huntouched⟩ := h source target hsource htarget
        simp only [htarget] at he ⊢
        by_cases hsame : source = target
        · rw [if_pos hsame] at he ⊢
          cases hresult : (store.read s faults chatId source).2 with
          | ok doc =>
            rw [hresult] at he
            cases he
          | error e' => exact read_spared (hlone hsame) hresult chatId' docPath'
        · rw [if_neg hsame] at he ⊢
          cases hresult : (store.withIndex s faults (store.moveClosure faults chatId source target nowSecs)).2 with
          | ok record =>
            rw [hresult] at he
            cases he
          | error e' =>
            refine withIndex_spared hpersists (fun index e hseen hclosure chatId' path' => ?_) e' hresult chatId' docPath'
            rw [moveClosure_spared huntouched hclosure]
  | delete chatId docPath =>
    simp only [perform, delete] at he ⊢
    cases hpath : normalizePrivateGardenDocPath docPath with
    | error e => rfl
    | ok path =>
      have hpersists := h path hpath
      simp only [hpath] at he ⊢
      cases hresult : (store.withIndex s faults (store.deleteClosure faults chatId path)).2 with
      | ok found =>
        rw [hresult] at he
        cases he
      | error e' =>
        refine withIndex_spared hpersists (fun index e hseen hclosure chatId' path' => ?_) e' hresult chatId' docPath'
        obtain ⟨op, hok⟩ := @deleteClosure_ok store faults chatId path index s.desk
        rw [hok] at hclosure
        cases hclosure

/-- A call that fails loses nothing where no eviction comes before a write that fails, and where the
index is written whenever it has changed. -/
theorem failed_calls_change_nothing (store : StoragePrivateGardenStore) (calls : List (GardenCall × GardenFaults))
    (s : GardenState) (h : Meets store.step store.Lossless calls s) : Meets store.step store.Spared calls s :=
  h.mono fun _ _ _ => step_spared

end StoragePrivateGardenStore

/-- The JSON library on a few values. -/
def JsonCodec.ofTable {T : Type} [DecidableEq T] (default : T) (table : List (T × Bytes))
    (hdistinct : (table.map Prod.snd).Nodup) (hlong : ∀ entry ∈ table, 2 < entry.2.length) : JsonCodec T where
  toVec value :=
    match table.find? fun entry => entry.1 = value with
    | some entry => .ok entry.2
    | none => .error "not written here"
  fromSlice json :=
    match table.find? fun entry => entry.2 = json with
    | some entry => .ok entry.1
    | none => .error "not read here"
  default := default
  fromSlice_toVec value json h := by
    cases hwritten : table.find? fun entry => entry.1 = value with
    | none =>
      rw [hwritten] at h
      cases h
    | some entry =>
      rw [hwritten] at h
      obtain rfl : entry.2 = json := Except.ok.inj h
      obtain rfl : entry.1 = value := by simpa using List.find?_some hwritten
      have hmem := List.mem_of_find?_eq_some hwritten
      cases hread : table.find? fun other => other.2 = entry.2 with
      | none => exact absurd (List.find?_eq_none.mp hread entry hmem) (by simp)
      | some other =>
        have hsame : other.2 = entry.2 := by simpa using List.find?_some hread
        obtain rfl := List.inj_on_of_nodup_map hdistinct (List.mem_of_find?_eq_some hread) hmem hsame
        rfl
  short value json h hshort := by
    cases hwritten : table.find? fun entry => entry.1 = value with
    | none =>
      rw [hwritten] at h
      cases h
    | some entry =>
      rw [hwritten] at h
      obtain rfl : entry.2 = json := Except.ok.inj h
      have hlarge := hlong entry (List.mem_of_find?_eq_some hwritten)
      omega

namespace StoragePrivateGardenStore

/-- A store over such a library. -/
def ofTable (table : List (StoredGardenIndex × Bytes)) (hdistinct : (table.map Prod.snd).Nodup)
    (hlong : ∀ entry ∈ table, 2 < entry.2.length) (fs : GardenFs) (first : StoredGardenIndex → Option String) :
    StoragePrivateGardenStore where
  index :=
    { maxWriteSize := maxWriteSizeHost
      toVec := (JsonCodec.ofTable ∅ table hdistinct hlong).toVec
      loadFn := loadJsonOrDefault (JsonCodec.ofTable ∅ table hdistinct hlong)
      stageCache := "private_garden_cache"
      stagePersist := "private_garden_persist"
      load_toVec := loadJsonOrDefault_toVec _
      load_error := loadJsonOrDefault_error _ }
  fs := fs
  first := first
  load_missing e stage he := by
    unfold loadJsonOrDefault
    dsimp only
    rw [if_pos he]
    rfl
  docs_fit := show privateGardenMaxDocBytes ≤ maxWriteSizeHost by decide

def oneDocIndex : StoredGardenIndex :=
  Finmap.singleton "chat-1" [⟨"a.md".toList, 1, 1, 1, "x".toList⟩]

def oneDocTable : List (StoredGardenIndex × Bytes) :=
  [(∅, utf8 "\x7b\"chats\":\x7b\x7d\x7d".toList),
    (oneDocIndex, utf8 ("\x7b\"chats\":\x7b\"chat-1\":\x7b\"docs\":[\x7b\"path\":\"a.md\",\"updated_at\":1," ++
      "\"revision\":1,\"bytes\":1,\"preview\":\"x\"\x7d]\x7d\x7d\x7d").toList)]

def oneDocStore : StoragePrivateGardenStore :=
  ofTable oneDocTable (by decide) (by decide) (.host 7) fun _ => none

def freshGarden : GardenState := ⟨⟨none, none⟩, ⟨fun _ => none, .default⟩⟩

def unwritten : GardenFaults := { GardenFaults.none with index := ⟨none, .failed (.io ⟨.other, some 5⟩ "atomic_write") none⟩ }

theorem exists_error_of_toOption {α : Type} {result : Except Error α} (h : result.toOption = none) :
    ∃ e, result = .error e := by
  cases result with
  | error e => exact ⟨e, rfl⟩
  | ok value => cases h

def oneDocGarden : GardenState := (oneDocStore.perform freshGarden .none (.write "chat-1" "a.md".toList "x".toList 1)).1

/-- A document is written, and the index does not get written when it is deleted: the call fails, and
the document is gone. -/
theorem failed_delete_removes_document : ¬ Meets oneDocStore.step oneDocStore.Spared
    [(.write "chat-1" "a.md".toList "x".toList 1, .none), (.delete "chat-1" "a.md".toList, unwritten)] freshGarden := by
  intro h
  have hspared : oneDocStore.Spared oneDocGarden (.delete "chat-1" "a.md".toList, unwritten) := ((h _ rfl).2 _ rfl).1
  obtain ⟨e, he⟩ : ∃ e, (oneDocStore.perform oneDocGarden unwritten (.delete "chat-1" "a.md".toList)).2 = .error e :=
    exists_error_of_toOption (by decide)
  have hsame := congrArg Except.toOption (hspared rfl e he "chat-1" "a.md".toList)
  revert hsame
  decide

/-- The file of a document does not get written, and the garden stays empty. -/
theorem failed_write_leaves_empty : Meets oneDocStore.step oneDocStore.Spared
    [(.write "chat-1" "a.md".toList "x".toList 1,
      { GardenFaults.none with docWrite := .failed (.io ⟨.other, some 5⟩ "atomic_write") none none })] freshGarden := by
  refine failed_calls_change_nothing oneDocStore _ freshGarden fun t _ => ⟨fun path hpath => ⟨?_, ?_, fun _ index hseen => ?_⟩, trivial⟩
  · intro index op hseen hop
    obtain rfl : ∅ = index := Except.ok.inj hseen
    obtain rfl : "a.md".toList = path := Except.ok.inj hpath
    cases hop
  · rintro e left scratchLeft ⟨⟩
    exact ⟨rfl, fun _ _ => rfl⟩
  · obtain rfl : ∅ = index := Except.ok.inj hseen
    exact ⟨.inr (by decide), .inr (by decide)⟩

end StoragePrivateGardenStore

end Beetle.Platform.Storage
