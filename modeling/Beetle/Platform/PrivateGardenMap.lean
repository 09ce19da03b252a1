import Beetle.Platform.Garden

/-! The private garden as a map of documents: when the index, the files and the cache stay in step. -/
namespace Beetle.Platform.Storage
open Beetle.Lib Beetle.Tools

def PrivateGardenDoc.record (doc : PrivateGardenDoc) : PrivateGardenDocRecord :=
  ⟨doc.path, doc.updatedAt, doc.revision, (utf8 doc.content).length, buildPrivateGardenPreview doc.content⟩

namespace PrivateGardenDocCache

variable {cache : PrivateGardenDocCache} {doc : PrivateGardenDoc} {key : List Char}

theorem lookup_of_removeKey {key key' : List Char}
    (h : (cache.removeKey key).docs.lookup key' = some doc) : key' ≠ key ∧ cache.docs.lookup key' = some doc := by
  have hne : key' ≠ key := by
    rintro rfl
    rw [removeKey, Finmap.lookup_erase] at h
    cases h
  exact ⟨hne, (Finmap.lookup_erase_ne hne).symm.trans h⟩

theorem lookup_of_shrink {docs : HashMap (List Char) PrivateGardenDoc} {order : List (List Char)}
    (h : (shrink docs order).docs.lookup key = some doc) : docs.lookup key = some doc := by
  induction order generalizing docs with
  | nil => exact h
  | cons oldest order ih =>
    rw [shrink] at h
    split at h
    · have hkept := ih h
      by_cases hsame : key = oldest
      · rw [hsame, Finmap.lookup_erase] at hkept
        cases hkept
      · exact (Finmap.lookup_erase_ne hsame).symm.trans hkept
    · exact h

theorem lookup_of_insert {chatId : String} {doc doc' : PrivateGardenDoc}
    (h : (cache.insert chatId doc).docs.lookup key = some doc') :
    key = docCacheKey chatId doc.path ∧ doc' = doc ∨
      key ≠ docCacheKey chatId doc.path ∧ cache.docs.lookup key = some doc' := by
  have hinserted := lookup_of_shrink h
  by_cases hsame : key = docCacheKey chatId doc.path
  · rw [hsame, Finmap.lookup_insert] at hinserted
    exact .inl ⟨hsame, (Option.some.inj hinserted).symm⟩
  · rw [Finmap.lookup_insert_of_ne _ hsame] at hinserted
    exact .inr ⟨hsame, (lookup_of_removeKey hinserted).2⟩

theorem lookup_of_get {chatId : String} {record : PrivateGardenDocRecord}
    (h : (cache.get chatId record).2.docs.lookup key = some doc) : cache.docs.lookup key = some doc := by
  unfold get at h
  dsimp only at h
  cases hdoc : cache.docs.lookup (docCacheKey chatId record.path) with
  | none =>
    rw [hdoc] at h
    exact h
  | some cached =>
    simp only [hdoc] at h
    split at h
    · exact h
    · exact (lookup_of_removeKey h).2

end PrivateGardenDocCache

namespace StoragePrivateGardenStore
variable (store : StoragePrivateGardenStore)

/-- The two documents share neither a file nor a place in the cache. -/
def Apart (chatId : String) (docPath : List Char) (chatId' : String) (docPath' : List Char) : Prop :=
  store.file chatId docPath ≠ store.file chatId' docPath' ∧ docCacheKey chatId docPath ≠ docCacheKey chatId' docPath'

/-- Writing the one document touches no file of the others. -/
def ApartFrom (garden : Garden) (chatId : String) (docPath : List Char) : Prop :=
  ∀ chatId', ∀ doc ∈ garden chatId', (chatId', doc.path) ≠ (chatId, docPath) →
    store.Apart chatId' doc.path chatId docPath ∧
      store.fs.scratch (store.file chatId docPath) ≠ some (store.file chatId' doc.path)

def FilesKept (files : DocFiles) (garden : Garden) : Prop :=
  ∀ chatId, ∀ doc ∈ garden chatId, files (store.file chatId doc.path) = some (utf8 doc.content)

def CacheKept (cache : PrivateGardenDocCache) (garden : Garden) : Prop :=
  ∀ chatId, ∀ doc ∈ garden chatId, ∀ cached, cache.docs.lookup (docCacheKey chatId doc.path) = some cached → cached = doc

def AllApart (garden : Garden) : Prop :=
  ∀ chatId, ∀ doc ∈ garden chatId, ∀ chatId', ∀ doc' ∈ garden chatId', (chatId, doc.path) ≠ (chatId', doc'.path) →
    store.Apart chatId doc.path chatId' doc'.path

/-- The index lists the documents of the chats that have any. -/
def Indexed (index : StoredGardenIndex) (garden : Garden) : Prop :=
  ∀ chatId, index.lookup chatId = if garden chatId = [] then none else some ((garden chatId).map PrivateGardenDoc.record)

variable {store} {garden garden' : Garden} {chatId : String} {doc : PrivateGardenDoc} {files : DocFiles}
  {index : StoredGardenIndex} {desk : GardenDesk} {docs : List PrivateGardenDoc} {ids : Finset String} {s : GardenState}

/-- What remains of a garden, with a document that is new in it. -/
def Grown (garden garden' : Garden) (chatId : String) (doc : PrivateGardenDoc) : Prop :=
  ∀ chatId', ∀ other ∈ garden' chatId',
    other ∈ garden chatId' ∧ (chatId', other.path) ≠ (chatId, doc.path) ∨ chatId' = chatId ∧ other = doc

theorem grown_self (hsound : ∀ chatId, Garden.Sound (garden chatId)) (hdoc : doc ∈ garden chatId) :
    Grown garden garden chatId doc := by
  intro chatId' other hother
  by_cases hsame : (chatId', other.path) = (chatId, doc.path)
  · obtain ⟨rfl, hpath⟩ := Prod.mk.inj hsame
    exact .inr ⟨rfl, List.inj_on_of_nodup_map (hsound chatId').nodup hother hdoc hpath⟩
  · exact .inl ⟨hother, hsame⟩

theorem FilesKept.remove {path : StatePath} (h : store.FilesKept files garden)
    (hothers : ∀ chatId, ∀ doc ∈ garden chatId, store.file chatId doc.path ≠ path) :
    store.FilesKept (removeDoc files path .none) garden := by
  intro chatId doc hdoc
  exact (Function.update_of_ne (hothers chatId doc hdoc) _ _).trans (h chatId doc hdoc)

theorem FilesKept.write (h : store.FilesKept files garden)
    (hapart : store.ApartFrom garden chatId doc.path) (hgrown : Grown garden garden' chatId doc) :
    store.FilesKept (store.replaced files (store.file chatId doc.path) none (some (utf8 doc.content))) garden' := by
  intro chatId' other hother
  unfold replaced
  rcases hgrown chatId' other hother with ⟨hold, hne⟩ | ⟨rfl, rfl⟩
  · obtain ⟨⟨hfile, -⟩, hscratch⟩ := hapart chatId' other hold hne
    rw [Function.update_of_ne hfile]
    cases hbeside : store.fs.scratch (store.file chatId doc.path) with
    | none => exact h chatId' other hold
    | some beside =>
      refine (Function.update_of_ne (fun hsame => hscratch ?_) _ _).trans (h chatId' other hold)
      rw [hbeside, hsame]
  · exact Function.update_self _ _ _

theorem CacheKept.sub {cache cache' : PrivateGardenDocCache} (h : CacheKept cache garden)
    (hcache : ∀ key doc, cache'.docs.lookup key = some doc → cache.docs.lookup key = some doc)
    (hgarden : ∀ chatId, ∀ doc ∈ garden' chatId, doc ∈ garden chatId) : CacheKept cache' garden' :=
  fun chatId doc hdoc cached hcached => h chatId doc (hgarden chatId doc hdoc) cached (hcache _ cached hcached)

theorem CacheKept.insert {cache : PrivateGardenDocCache} (h : CacheKept cache garden)
    (hapart : ∀ chatId', ∀ other ∈ garden chatId', (chatId', other.path) ≠ (chatId, doc.path) →
      docCacheKey chatId' other.path ≠ docCacheKey chatId doc.path) (hgrown : Grown garden garden' chatId doc) :
    CacheKept (cache.insert chatId doc) garden' := by
  intro chatId' other hother cached hcached
  rcases hgrown chatId' other hother with ⟨hold, hne⟩ | ⟨rfl, rfl⟩
  · rcases PrivateGardenDocCache.lookup_of_insert hcached with ⟨hsame, -⟩ | ⟨-, hcached⟩
    · exact absurd hsame (hapart chatId' other hold hne)
    · exact h chatId' other hold cached hcached
  · rcases PrivateGardenDocCache.lookup_of_insert hcached with ⟨-, hsame⟩ | ⟨hne, -⟩
    · exact hsame
    · exact absurd rfl hne

theorem AllApart.sub (h : store.AllApart garden) (hgarden : ∀ chatId, ∀ doc ∈ garden' chatId, doc ∈ garden chatId) :
    store.AllApart garden' :=
  fun chatId doc hdoc chatId' doc' hdoc' => h chatId doc (hgarden chatId doc hdoc) chatId' doc' (hgarden chatId' doc' hdoc')

theorem Apart.symm {docPath docPath' : List Char} {chatId' : String} (h : store.Apart chatId docPath chatId' docPath') :
    store.Apart chatId' docPath' chatId docPath := ⟨h.1.symm, h.2.symm⟩

theorem AllApart.grow (h : store.AllApart garden) (hapart : store.ApartFrom garden chatId doc.path)
    (hgrown : Grown garden garden' chatId doc) : store.AllApart garden' := by
  intro chatId₁ doc₁ hdoc₁ chatId₂ doc₂ hdoc₂ hne
  rcases hgrown chatId₁ doc₁ hdoc₁ with ⟨hold₁, hne₁⟩ | ⟨rfl, rfl⟩
  · rcases hgrown chatId₂ doc₂ hdoc₂ with ⟨hold₂, -⟩ | ⟨rfl, rfl⟩
    · exact h chatId₁ doc₁ hold₁ chatId₂ doc₂ hold₂ hne
    · exact (hapart chatId₁ doc₁ hold₁ hne₁).1
  · rcases hgrown chatId₂ doc₂ hdoc₂ with ⟨hold₂, hne₂⟩ | ⟨rfl, rfl⟩
    · exact (hapart chatId₂ doc₂ hold₂ hne₂).1.symm
    · exact absurd rfl hne

/-- The index, the files and the cache hold the documents of the garden. -/
structure Holds (store : StoragePrivateGardenStore) (index : StoredGardenIndex) (desk : GardenDesk) (garden : Garden) : Prop where
  indexed : Indexed index garden
  sound : ∀ chatId, Garden.Sound (garden chatId)
  apart : store.AllApart garden
  files : store.FilesKept desk.files garden
  cache : CacheKept desk.cache garden

/-! Reading. -/

theorem docs_of_indexed (h : Indexed index garden) (chatId : String) :
    (index.lookup chatId).getD [] = (garden chatId).map PrivateGardenDoc.record := by
  rw [h chatId]
  split
  · rename_i hempty
    rw [hempty]
    rfl
  · rfl

theorem find?_record (docs : List PrivateGardenDoc) (docPath : List Char) :
    (docs.map PrivateGardenDoc.record).find? (fun record => record.path = docPath) =
      (Garden.lookup docs docPath).map PrivateGardenDoc.record := by
  rw [List.find?_map]
  rfl

theorem readDoc_of_file {path : StatePath} {content : List Char} (stage : String)
    (hfile : files path = some (utf8 content)) (hsmall : (utf8 content).length ≤ privateGardenMaxDocBytes) :
    store.readDoc files path none stage = .ok content := by
  have hfit := store.docs_fit
  unfold readDoc readFile
  rw [hfile]
  dsimp only
  rw [if_neg (by omega)]
  dsimp only
  rw [fromUtf8_utf8]

theorem get_of_kept {cache : PrivateGardenDocCache} (h : CacheKept cache garden)
    (hdoc : doc ∈ garden chatId) : (cache.get chatId doc.record).1 = none ∨ (cache.get chatId doc.record).1 = some doc := by
  unfold PrivateGardenDocCache.get
  dsimp only
  cases hcached : cache.docs.lookup (docCacheKey chatId doc.record.path) with
  | none => exact .inl rfl
  | some cached =>
    obtain rfl := h chatId doc hdoc cached hcached
    right
    dsimp only
    rw [if_pos ⟨rfl, rfl⟩]

theorem found_of_holds (h : store.Holds index desk garden) (chatId : String)
    (docPath : List Char) : store.found index desk chatId docPath = .ok (Garden.lookup (garden chatId) docPath) := by
  unfold found
  rw [h.indexed chatId]
  by_cases hempty : garden chatId = []
  · rw [if_pos hempty, hempty]
    rfl
  · rw [if_neg hempty]
    dsimp only
    rw [find?_record]
    cases hdoc : Garden.lookup (garden chatId) docPath with
    | none => rfl
    | some doc =>
      have hmem : doc ∈ garden chatId := List.mem_of_find?_eq_some hdoc
      obtain rfl : doc.path = docPath := (Garden.split_of_lookup (h.sound chatId) hdoc).1
      dsimp only [Option.map_some]
      rcases get_of_kept h.cache hmem with hget | hget
      · rw [hget]
        dsimp only
        rw [readDoc_of_file _ (h.files chatId doc hmem) ((h.sound chatId).small doc hmem)]
        rfl
      · rw [hget]

theorem readClosure_holds (h : store.Holds index desk garden) (chatId : String) (docPath : List Char) :
    store.Holds (store.readClosure .none chatId docPath index desk).1.1
      (store.readClosure .none chatId docPath index desk).1.2 garden := by
  unfold readClosure
  rw [h.indexed chatId]
  by_cases hempty : garden chatId = []
  · rw [if_pos hempty]
    exact h
  · rw [if_neg hempty]
    dsimp only
    rw [find?_record]
    cases hdoc : Garden.lookup (garden chatId) docPath with
    | none => exact h
    | some doc =>
      have hmem : doc ∈ garden chatId := List.mem_of_find?_eq_some hdoc
      obtain rfl : doc.path = docPath := (Garden.split_of_lookup (h.sound chatId) hdoc).1
      have hkept : CacheKept (desk.cache.get chatId doc.record).2 garden :=
        h.cache.sub (fun _ _ => PrivateGardenDocCache.lookup_of_get) (fun _ _ hdoc => hdoc)
      dsimp only [Option.map_some]
      rcases hget : desk.cache.get chatId doc.record with ⟨_ | cached, cache⟩
      · rw [hget] at hkept
        dsimp only
        rw [show GardenFaults.none.docRead = none from rfl,
          readDoc_of_file _ (h.files chatId doc hmem) ((h.sound chatId).small doc hmem)]
        refine ⟨h.indexed, h.sound, h.apart, h.files, ?_⟩
        exact hkept.insert (fun chatId' other hother hne => (h.apart chatId' other hother chatId doc hmem hne).2)
          (grown_self h.sound hmem)
      · rw [hget] at hkept
        exact ⟨h.indexed, h.sound, h.apart, h.files, hkept⟩

/-! Changing. -/

/-- Where the index has a document at a path, and where it has none. -/
theorem position_cases (h : Garden.Sound docs) (docPath : List Char) :
    (Garden.lookup docs docPath = none ∧
      ((docs.map PrivateGardenDoc.record).findIdx? fun record => record.path = docPath) = none) ∨
    ∃ front doc back, docs = front ++ doc :: back ∧ doc.path = docPath ∧ Garden.lookup docs docPath = some doc ∧
      ((docs.map PrivateGardenDoc.record).findIdx? fun record => record.path = docPath) = some front.length ∧
      (∀ other ∈ front, other.path ≠ docPath) ∧ ∀ other ∈ back, other.path ≠ docPath := by
  cases hdoc : Garden.lookup docs docPath with
  | none =>
    refine .inl ⟨rfl, findIdx?_eq_none_iff_lacks.mpr ?_⟩
    rintro ⟨record, hrecord, hpath⟩
    obtain ⟨doc, hmem, rfl⟩ := List.mem_map.mp hrecord
    exact Garden.lookup_eq_none_iff.mp hdoc doc hmem hpath
  | some doc =>
    obtain ⟨hpath, front, back, rfl, hfront, hback⟩ := Garden.split_of_lookup h hdoc
    refine .inr ⟨front, doc, back, rfl, hpath, rfl, ?_, hfront, hback⟩
    have hskip : (front.map PrivateGardenDoc.record).findIdx? (fun record => decide (record.path = docPath)) = none := by
      refine findIdx?_eq_none_iff_lacks.mpr ?_
      rintro ⟨record, hrecord, hsame⟩
      obtain ⟨other, hmem, rfl⟩ := List.mem_map.mp hrecord
      exact hfront other hmem hsame
    rw [List.map_append, List.map_cons, List.findIdx?_append, hskip, List.findIdx?_cons,
      if_pos (decide_eq_true (show doc.record.path = docPath from hpath))]
    simp

theorem eraseIdx_record {front back : List PrivateGardenDoc}
    (hfront : ∀ other ∈ front, other.path ≠ doc.path) (hback : ∀ other ∈ back, other.path ≠ doc.path) :
    ((front ++ doc :: back).map PrivateGardenDoc.record).eraseIdx front.length =
      (Garden.without (front ++ doc :: back) doc.path).map PrivateGardenDoc.record := by
  rw [Garden.without_split hfront hback, List.map_append, List.map_cons, List.eraseIdx_append_of_length_le (by simp)]
  simp

theorem Indexed.insert (h : Indexed index garden) (chatId : String) (hdocs : docs ≠ []) :
    Indexed (index.insert chatId (docs.map PrivateGardenDoc.record)) (Function.update garden chatId docs) := by
  intro chatId'
  by_cases hsame : chatId' = chatId
  · subst hsame
    rw [Finmap.lookup_insert, Function.update_self, if_neg hdocs]
  · rw [Finmap.lookup_insert_of_ne _ hsame, Function.update_of_ne hsame]
    exact h chatId'

theorem Indexed.erase (h : Indexed index garden) (chatId : String) :
    Indexed (index.erase chatId) (Function.update garden chatId []) := by
  intro chatId'
  by_cases hsame : chatId' = chatId
  · subst hsame
    rw [Finmap.lookup_erase, Function.update_self, if_pos rfl]
  · rw [Finmap.lookup_erase_ne hsame, Function.update_of_ne hsame]
    exact h chatId'

theorem sound_update (h : ∀ chatId, Garden.Sound (garden chatId)) (hdocs : Garden.Sound docs)
    (chatId' : String) : Garden.Sound (Function.update garden chatId docs chatId') := by
  by_cases hsame : chatId' = chatId
  · subst hsame
    rw [Function.update_self]
    exact hdocs
  · rw [Function.update_of_ne hsame]
    exact h chatId'

theorem mem_update {chatId' : String} (h : doc ∈ Function.update garden chatId docs chatId') :
    chatId' = chatId ∧ doc ∈ docs ∨ chatId' ≠ chatId ∧ doc ∈ garden chatId' := by
  by_cases hsame : chatId' = chatId
  · subst hsame
    rw [Function.update_self] at h
    exact .inl ⟨rfl, h⟩
  · rw [Function.update_of_ne hsame] at h
    exact .inr ⟨hsame, h⟩

theorem mem_of_mem_update (hdocs : ∀ doc ∈ docs, doc ∈ garden chatId) (chatId' : String)
    (doc : PrivateGardenDoc) (h : doc ∈ Function.update garden chatId docs chatId') : doc ∈ garden chatId' := by
  rcases mem_update h with ⟨rfl, hdoc⟩ | ⟨-, hdoc⟩
  · exact hdocs doc hdoc
  · exact hdoc

theorem FilesKept.sub (h : store.FilesKept files garden)
    (hgarden : ∀ chatId, ∀ doc ∈ garden' chatId, doc ∈ garden chatId) : store.FilesKept files garden' :=
  fun chatId doc hdoc => h chatId doc (hgarden chatId doc hdoc)

/-- A document leaves the garden with its file and its place in the cache. -/
theorem removed_kept
    (hfiles : store.FilesKept desk.files garden) (hcache : CacheKept desk.cache garden) (hapart : store.AllApart garden)
    (hdoc : doc ∈ garden chatId) (hdocs : ∀ other ∈ docs, other ∈ garden chatId ∧ other.path ≠ doc.path) :
    store.FilesKept (removeDoc desk.files (store.file chatId doc.path) .none) (Function.update garden chatId docs) ∧
      CacheKept (desk.cache.remove chatId doc.path) (Function.update garden chatId docs) := by
  have hsub : ∀ chatId', ∀ other ∈ Function.update garden chatId docs chatId', other ∈ garden chatId' :=
    mem_of_mem_update fun other hother => (hdocs other hother).1
  constructor
  · refine (hfiles.sub hsub).remove fun chatId' other hother => ?_
    refine (hapart chatId' other (hsub chatId' other hother) chatId doc hdoc fun hsame => ?_).1
    obtain ⟨rfl, hpath⟩ := Prod.mk.inj hsame
    rcases mem_update hother with ⟨-, hold⟩ | ⟨hne, -⟩
    · exact (hdocs other hold).2 hpath
    · exact hne rfl
  · exact hcache.sub (fun _ _ hkept => (PrivateGardenDocCache.lookup_of_removeKey hkept).2) hsub

theorem deleteClosure_holds (h : store.Holds index desk garden) (chatId : String) (docPath : List Char) :
    store.Holds (store.deleteClosure .none chatId docPath index desk).1.1
      (store.deleteClosure .none chatId docPath index desk).1.2
      (Function.update garden chatId (Garden.without (garden chatId) docPath)) := by
  have hsame (hlacks : Garden.lookup (garden chatId) docPath = none) :
      Function.update garden chatId (Garden.without (garden chatId) docPath) = garden := by
    rw [Garden.without_of_lacks (Garden.lookup_eq_none_iff.mp hlacks), Function.update_eq_self]
  unfold deleteClosure
  rw [h.indexed chatId]
  by_cases hempty : garden chatId = []
  · rw [if_pos hempty, hsame (by rw [hempty]; rfl)]
    exact h
  · rw [if_neg hempty]
    dsimp only
    rcases position_cases (h.sound chatId) docPath with ⟨hlacks, hidx⟩ | ⟨front, doc, back, hdocs, rfl, -, hidx, hfront, hback⟩
    · rw [hidx, hsame hlacks]
      exact h
    · rw [hidx]
      dsimp only
      have hrest : ((garden chatId).map PrivateGardenDoc.record).eraseIdx front.length =
          (front ++ back).map PrivateGardenDoc.record := by
        rw [hdocs, List.map_append, List.map_cons, List.eraseIdx_append_of_length_le (by simp)]
        simp
      have hwithout : Garden.without (garden chatId) doc.path = front ++ back := by
        rw [hdocs, Garden.without_split hfront hback]
      have hmem : doc ∈ garden chatId := by simp [hdocs]
      have hothers : ∀ other ∈ front ++ back, other ∈ garden chatId ∧ other.path ≠ doc.path := fun other hother =>
        Garden.mem_without.mp (by rw [hwithout]; exact hother)
      have hkept := removed_kept h.files h.cache h.apart hmem hothers
      rw [hrest, hwithout]
      refine ⟨?_, ?_, ?_, hkept.1, hkept.2⟩
      · by_cases hgone : front ++ back = []
        · rw [hgone, List.map_nil, if_pos rfl]
          exact h.indexed.erase chatId
        · rw [if_neg (by simpa using hgone)]
          exact h.indexed.insert chatId hgone
      · exact sound_update h.sound (by rw [← hwithout]; exact Garden.sound_without (h.sound chatId) doc.path)
      · exact h.apart.sub (mem_of_mem_update fun other hother => (hothers other hother).1)

def recordAge (record : PrivateGardenDocRecord) : Lex (Nat × List Char) := toLex (record.updatedAt.toNat, record.path)

theorem older_iff (a b : PrivateGardenDocRecord) :
    (a.updatedAt < b.updatedAt ∨ a.updatedAt = b.updatedAt ∧ a.path < b.path) ↔ recordAge a < recordAge b := by
  rw [recordAge, recordAge, Prod.Lex.toLex_lt_toLex, UInt64.lt_iff_toNat_lt, ← UInt64.toNat_inj]

theorem oldestDoc_spec {docs : List (PrivateGardenDocRecord × Nat)} (h : docs ≠ []) :
    ∃ oldest ∈ docs, oldestDoc docs = some oldest ∧ ∀ doc ∈ docs, recordAge oldest.1 ≤ recordAge doc.1 := by
  induction docs with
  | nil => exact absurd rfl h
  | cons doc docs ih =>
    by_cases hempty : docs = []
    · subst hempty
      exact ⟨doc, List.mem_cons_self, rfl, fun other hother => by rw [List.mem_singleton.mp hother]⟩
    obtain ⟨other, hmem, hother, hmin⟩ := ih hempty
    unfold oldestDoc
    rw [hother]
    dsimp only
    by_cases holder : recordAge other.1 < recordAge doc.1
    · rw [if_pos ((older_iff other.1 doc.1).mpr holder)]
      refine ⟨other, List.mem_cons_of_mem _ hmem, rfl, fun third hthird => ?_⟩
      rcases List.mem_cons.mp hthird with rfl | hrest
      · exact holder.le
      · exact hmin third hrest
    · rw [if_neg fun hnot => holder ((older_iff other.1 doc.1).mp hnot)]
      refine ⟨doc, List.mem_cons_self, rfl, fun third hthird => ?_⟩
      rcases List.mem_cons.mp hthird with rfl | hrest
      · exact le_refl _
      · exact (not_lt.mp holder).trans (hmin third hrest)

/-- The document that goes is the oldest one. -/
theorem oldestDoc_split (h : docs ≠ []) :
    ∃ front doc back, docs = front ++ doc :: back ∧
      oldestDoc (docs.map PrivateGardenDoc.record).zipIdx = some (doc.record, front.length) ∧
      ∀ other ∈ docs, Garden.age doc ≤ Garden.age other := by
  have hzip : (docs.map PrivateGardenDoc.record).zipIdx ≠ [] := by simpa using h
  obtain ⟨⟨record, i⟩, hmem, holdest, hmin⟩ := oldestDoc_spec hzip
  have hrecord : (docs.map PrivateGardenDoc.record)[i]? = some record := List.mk_mem_zipIdx_iff_getElem?.mp hmem
  rw [List.getElem?_map, Option.map_eq_some_iff] at hrecord
  obtain ⟨doc, hdoc, rfl⟩ := hrecord
  obtain ⟨hi, hget⟩ := List.getElem?_eq_some_iff.mp hdoc
  refine ⟨docs.take i, doc, docs.drop (i + 1), ?_, ?_, fun other hother => ?_⟩
  · rw [← hget, List.cons_getElem_drop_succ, List.take_append_drop]
  · rw [holdest, List.length_take_of_le hi.le]
  · obtain ⟨j, hj⟩ := List.getElem?_of_mem (@List.mem_map_of_mem _ _ _ _ PrivateGardenDoc.record hother)
    exact hmin (other.record, j) (List.mk_mem_zipIdx_iff_getElem?.mpr hj)

/-- The documents of a chat with room for one more. -/
def roomy (docs : List PrivateGardenDoc) : List PrivateGardenDoc :=
  if docs.length < privateGardenMaxDocsPerChat then docs else Garden.dropOldest docs

theorem makeRoomForDoc_holds (hsound : Garden.Sound (garden chatId))
    (hfiles : store.FilesKept desk.files garden) (hcache : CacheKept desk.cache garden) (hapart : store.AllApart garden) :
    (store.makeRoomForDoc .none chatId ((garden chatId).map PrivateGardenDoc.record) desk).1 =
        (roomy (garden chatId)).map PrivateGardenDoc.record ∧
      (∀ doc ∈ roomy (garden chatId), doc ∈ garden chatId) ∧
      Garden.Sound (roomy (garden chatId)) ∧ (roomy (garden chatId)).length < privateGardenMaxDocsPerChat ∧
      store.FilesKept (store.makeRoomForDoc .none chatId ((garden chatId).map PrivateGardenDoc.record) desk).2.files
        (Function.update garden chatId (roomy (garden chatId))) ∧
      CacheKept (store.makeRoomForDoc .none chatId ((garden chatId).map PrivateGardenDoc.record) desk).2.cache
        (Function.update garden chatId (roomy (garden chatId))) := by
  unfold makeRoomForDoc roomy
  rw [List.length_map]
  by_cases hroom : (garden chatId).length < privateGardenMaxDocsPerChat
  · rw [if_neg (by omega), if_pos hroom, Function.update_eq_self]
    exact ⟨rfl, fun _ hdoc => hdoc, hsound, hroom, hfiles, hcache⟩
  · rw [if_pos (by omega), if_neg hroom]
    have hne : garden chatId ≠ [] := by
      intro hempty
      rw [hempty] at hroom
      exact hroom (by decide)
    obtain ⟨front, doc, back, hdocs, holdest, hmin⟩ := oldestDoc_split hne
    rw [holdest]
    dsimp only
    have hdrop : Garden.dropOldest (garden chatId) = front ++ back := by
      rw [hdocs] at hsound hmin ⊢
      exact Garden.dropOldest_split hsound hmin
    have hrest : ((garden chatId).map PrivateGardenDoc.record).eraseIdx front.length =
        (front ++ back).map PrivateGardenDoc.record := by
      rw [hdocs, List.map_append, List.map_cons, List.eraseIdx_append_of_length_le (by simp)]
      simp
    have hsub : (front ++ back).Sublist (garden chatId) := by
      rw [hdocs]
      exact (List.Sublist.refl front).append (List.sublist_cons_self doc back)
    have hothers : ∀ other ∈ front ++ back, other ∈ garden chatId ∧ other.path ≠ doc.path := by
      intro other hother
      refine ⟨hsub.subset hother, fun hsame => ?_⟩
      have hnodup := hsound.nodup
      rw [hdocs, List.map_append, List.map_cons, List.nodup_middle, List.nodup_cons, ← List.map_append] at hnodup
      exact hnodup.1 (List.mem_map.mpr ⟨other, hother, hsame⟩)
    have hkept := removed_kept hfiles hcache hapart (by simp [hdocs]) hothers
    rw [hrest, hdrop]
    refine ⟨rfl, fun other hother => (hothers other hother).1, Garden.sound_of_sublist hsound hsub, ?_, hkept.1, hkept.2⟩
    have hlength := hsound.few
    rw [hdocs] at hlength
    simp only [List.length_append, List.length_cons] at hlength ⊢
    omega

theorem grown_concat (hdocs : ∀ other ∈ docs, other ∈ garden chatId ∧ other.path ≠ doc.path) :
    Grown garden (Function.update garden chatId (docs ++ [doc])) chatId doc := by
  intro chatId' other hother
  rcases mem_update hother with ⟨rfl, hmem⟩ | ⟨hne, hmem⟩
  · rcases List.mem_append.mp hmem with hold | hnew
    · exact .inl ⟨(hdocs other hold).1, fun hsame => (hdocs other hold).2 (Prod.mk.inj hsame).2⟩
    · exact .inr ⟨rfl, List.mem_singleton.mp hnew⟩
  · exact .inl ⟨hmem, fun hsame => hne (Prod.mk.inj hsame).1⟩

theorem put_of_lacks {docPath : List Char} (content : List Char) (nowSecs : UInt64)
    (h : Garden.lookup docs docPath = none) :
    Garden.put docs docPath content nowSecs = roomy docs ++ [⟨docPath, content, nowSecs, 1⟩] := by
  unfold Garden.put roomy
  rw [if_neg]
  rw [List.any_eq_true]
  rintro ⟨doc, hdoc, hpath⟩
  exact Garden.lookup_eq_none_iff.mp h doc hdoc (of_decide_eq_true hpath)

theorem put_split {front back : List PrivateGardenDoc} (content : List Char) (nowSecs : UInt64)
    (hfront : ∀ other ∈ front, other.path ≠ doc.path) (hback : ∀ other ∈ back, other.path ≠ doc.path) :
    Garden.put (front ++ doc :: back) doc.path content nowSecs =
      front ++ ⟨doc.path, content, nowSecs, saturatingSucc doc.revision⟩ :: back := by
  unfold Garden.put
  rw [if_pos (by simp), List.map_append, List.map_cons, if_pos rfl]
  congr 1
  · refine List.map_congr_left (fun other hother => if_neg (hfront other hother)) |>.trans ?_
    exact List.map_id' front
  · congr 1
    refine List.map_congr_left (fun other hother => if_neg (hback other hother)) |>.trans ?_
    exact List.map_id' back

theorem writeClosure_holds {docPath content : List Char}
    (h : store.Holds index desk garden) (hroom : chatId ∈ index ∨ index.keys.card < maxPrivateGardenChats)
    (hsmall : (utf8 content).length ≤ privateGardenMaxDocBytes) (hapart : store.ApartFrom garden chatId docPath)
    (nowSecs : UInt64) :
    store.Holds (store.writeClosure .none chatId docPath content nowSecs index desk).1.1
      (store.writeClosure .none chatId docPath content nowSecs index desk).1.2
      (Function.update garden chatId (Garden.put (garden chatId) docPath content nowSecs)) := by
  have hkeep : store.makeRoomForChat .none chatId index desk = (index, desk) := by
    unfold makeRoomForChat
    refine if_neg fun hfull => ?_
    rcases hroom with hmem | hcard
    · exact hfull.1 hmem
    · omega
  have hdone (files : DocFiles) : store.writeDoc files (store.file chatId docPath) (utf8 content) GardenFaults.none.docWrite =
      (store.replaced files (store.file chatId docPath) none (some (utf8 content)), .ok ()) := writeDoc_done _ _ hsmall
  unfold writeClosure
  simp only [hkeep, docs_of_indexed h.indexed chatId, hdone]
  have hkeys : ∀ chatId', ∀ other ∈ garden chatId', (chatId', other.path) ≠ (chatId, docPath) →
      docCacheKey chatId' other.path ≠ docCacheKey chatId docPath :=
    fun chatId' other hother hne => (hapart chatId' other hother hne).1.2
  rcases position_cases (h.sound chatId) docPath with ⟨hlacks, hidx⟩ | ⟨front, doc, back, hdocs, rfl, -, hidx, hfront, hback⟩
  · rw [hidx, if_pos rfl, put_of_lacks content nowSecs hlacks]
    obtain ⟨hfst, hsub, hsound, hlength, hfiles, hcache⟩ := makeRoomForDoc_holds (h.sound chatId) h.files h.cache h.apart
    rw [hfst]
    dsimp only [Option.bind_none]
    have hlacking : ∀ other ∈ roomy (garden chatId), other.path ≠ docPath := fun other hother =>
      Garden.lookup_eq_none_iff.mp hlacks other (hsub other hother)
    have hstays : ∀ chatId', ∀ other ∈ Function.update garden chatId (roomy (garden chatId)) chatId', other ∈ garden chatId' :=
      mem_of_mem_update hsub
    have hapart₁ : store.ApartFrom (Function.update garden chatId (roomy (garden chatId))) chatId docPath :=
      fun chatId' other hother => hapart chatId' other (hstays chatId' other hother)
    have hgrown : Grown (Function.update garden chatId (roomy (garden chatId)))
        (Function.update (Function.update garden chatId (roomy (garden chatId))) chatId
          (roomy (garden chatId) ++ [⟨docPath, content, nowSecs, 1⟩])) chatId ⟨docPath, content, nowSecs, 1⟩ :=
      grown_concat fun other hother => ⟨by rw [Function.update_self]; exact hother, hlacking other hother⟩
    rw [Function.update_idem] at hgrown
    refine ⟨?_, ?_, ?_, ?_, ?_⟩
    · have hnonempty : roomy (garden chatId) ++ [⟨docPath, content, nowSecs, 1⟩] ≠ [] :=
        List.append_ne_nil_of_right_ne_nil _ (List.cons_ne_nil _ _)
      have hindexed := h.indexed.insert chatId hnonempty
      rw [List.map_append, List.map_singleton] at hindexed
      exact hindexed
    · exact sound_update h.sound (Garden.sound_concat hsound hlacking hlength hsmall)
    · exact (h.apart.sub hstays).grow hapart₁ hgrown
    · exact hfiles.write hapart₁ hgrown
    · exact hcache.insert (fun chatId' other hother hne => (hapart₁ chatId' other hother hne).1.2) hgrown
  · have hget : ((garden chatId).map PrivateGardenDoc.record)[front.length]? = some doc.record := by
      rw [hdocs]
      simp
    rw [hidx, if_neg (by simp)]
    simp only [Option.bind_some, hget]
    rw [hdocs, put_split content nowSecs hfront hback]
    generalize hrevision : saturatingSucc doc.record.revision = revision
    have hnew : saturatingSucc doc.revision = revision := hrevision
    rw [hnew]
    have hmem : ∀ other ∈ front ++ back, other ∈ garden chatId ∧ other.path ≠ doc.path := by
      intro other hother
      rw [hdocs]
      rcases List.mem_append.mp hother with hin | hin
      · exact ⟨List.mem_append_left _ hin, hfront other hin⟩
      · exact ⟨List.mem_append_right _ (List.mem_cons_of_mem _ hin), hback other hin⟩
    obtain ⟨new, hdef⟩ : ∃ new : PrivateGardenDoc, new = ⟨doc.path, content, nowSecs, revision⟩ := ⟨_, rfl⟩
    have hpath : new.path = doc.path := by rw [hdef]
    have hgrown : Grown garden (Function.update garden chatId (front ++ new :: back)) chatId new := by
      intro chatId' other hother
      have hconcat : Grown garden (Function.update garden chatId ((front ++ back) ++ [new])) chatId new :=
        grown_concat (by rw [hpath]; exact hmem)
      refine hconcat chatId' other ?_
      rcases mem_update hother with ⟨rfl, hin⟩ | ⟨hne, hin⟩
      · rw [Function.update_self]
        simp only [List.mem_append, List.mem_cons] at hin ⊢
        tauto
      · rw [Function.update_of_ne hne]
        exact hin
    have hset : ((front ++ doc :: back).map PrivateGardenDoc.record).set front.length new.record =
        (front ++ new :: back).map PrivateGardenDoc.record := by
      simp
    have hcontent : new.content = content := by rw [hdef]
    have hsound := h.sound chatId
    rw [hdocs] at hsound
    rw [← hpath] at hapart hkeys
    rw [← hdef]
    refine ⟨?_, sound_update h.sound (Garden.sound_replaced hsound hpath (by rw [hcontent]; exact hsmall)),
      h.apart.grow hapart hgrown, ?_, ?_⟩
    · have hnext : (⟨doc.path, nowSecs, revision, (utf8 content).length, buildPrivateGardenPreview content⟩ :
          PrivateGardenDocRecord) = new.record := by rw [hdef]; rfl
      rw [hnext, hset]
      exact h.indexed.insert chatId (List.append_ne_nil_of_right_ne_nil _ (List.cons_ne_nil _ _))
    · have hwritten := h.files.write hapart hgrown
      rw [hpath, hcontent] at hwritten
      exact hwritten
    · exact h.cache.insert hkeys hgrown

theorem moveClosure_holds {source target : List Char} (h : store.Holds index desk garden) (hne : source ≠ target)
    (hapart : (∃ doc ∈ garden chatId, doc.path = source) → store.ApartFrom garden chatId target) (nowSecs : UInt64) :
    store.Holds (store.moveClosure .none chatId source target nowSecs index desk).1.1
      (store.moveClosure .none chatId source target nowSecs index desk).1.2
      (Function.update garden chatId (Garden.move (garden chatId) source target nowSecs)) := by
  have hsame (hlacks : Garden.lookup (garden chatId) source = none) :
      Function.update garden chatId (Garden.move (garden chatId) source target nowSecs) = garden := by
    rw [Garden.move, hlacks, Function.update_eq_self]
  unfold moveClosure
  rw [h.indexed chatId]
  by_cases hempty : garden chatId = []
  · rw [if_pos hempty, hsame (by rw [hempty]; rfl)]
    exact h
  rw [if_neg hempty]
  dsimp only
  rcases position_cases (h.sound chatId) source with ⟨hlacks, hidx⟩ | ⟨front, doc, back, hdocs, hsource, hlookup, hidx, hfront, hback⟩
  · rw [hidx, hsame hlacks]
    exact h
  have hmem : doc ∈ garden chatId := by simp [hdocs]
  have hsmall := (h.sound chatId).small doc hmem
  have hfile := h.files chatId doc hmem
  rw [hsource] at hfile
  have hread : store.readDoc desk.files (store.file chatId source) GardenFaults.none.docRead "private_garden_move" =
      .ok doc.content := readDoc_of_file _ hfile hsmall
  have hwrite : store.writeDoc desk.files (store.file chatId target) (utf8 doc.content) GardenFaults.none.docWrite =
      (store.replaced desk.files (store.file chatId target) none (some (utf8 doc.content)), .ok ()) := writeDoc_done _ _ hsmall
  rw [hidx]
  dsimp only
  rw [hread]
  dsimp only
  rw [hwrite]
  dsimp only
  have hget : ((garden chatId).map PrivateGardenDoc.record)[front.length]? = some doc.record := by
    rw [hdocs]
    simp
  have hrest : ((garden chatId).map PrivateGardenDoc.record).eraseIdx front.length =
      (Garden.without (garden chatId) source).map PrivateGardenDoc.record := by
    rw [← hsource] at hfront hback ⊢
    rw [hdocs]
    exact eraseIdx_record hfront hback
  rw [hget, hrest]
  dsimp only
  obtain ⟨new, hdef⟩ : ∃ new : PrivateGardenDoc, new = ⟨target, doc.content, nowSecs, saturatingSucc doc.revision⟩ := ⟨_, rfl⟩
  have hpath : new.path = target := by rw [hdef]
  have hcontent : new.content = doc.content := by rw [hdef]
  have hmove : Garden.move (garden chatId) source target nowSecs =
      Garden.without (Garden.without (garden chatId) source) target ++ [new] := by rw [Garden.move, hlookup, hdef]
  have hnext : (⟨target, nowSecs, saturatingSucc doc.record.revision, (utf8 doc.content).length,
      buildPrivateGardenPreview doc.content⟩ : PrivateGardenDocRecord) = new.record := by rw [hdef]; rfl
  have hlast : (⟨target, doc.content, nowSecs, saturatingSucc doc.record.revision⟩ : PrivateGardenDoc) = new := by
    rw [hdef]
    rfl
  rw [hmove, hnext, hlast]
  have hkeptDocs : ∀ other ∈ Garden.without (Garden.without (garden chatId) source) target,
      other ∈ garden chatId ∧ other.path ≠ source ∧ other.path ≠ target := by
    intro other hother
    obtain ⟨hin, htarget⟩ := Garden.mem_without.mp hother
    obtain ⟨hold, hsource⟩ := Garden.mem_without.mp hin
    exact ⟨hold, hsource, htarget⟩
  have hgrown : Grown garden
      (Function.update garden chatId (Garden.without (Garden.without (garden chatId) source) target ++ [new])) chatId new :=
    grown_concat fun other hother => ⟨(hkeptDocs other hother).1, by rw [hpath]; exact (hkeptDocs other hother).2.2⟩
  have hfrom : store.ApartFrom garden chatId target := hapart ⟨doc, hmem, hsource⟩
  rw [← hpath] at hfrom
  have hsound : Garden.Sound (Garden.without (Garden.without (garden chatId) source) target ++ [new]) := by
    refine Garden.sound_concat (Garden.sound_without (Garden.sound_without (h.sound chatId) source) target)
      (fun other hother => by rw [hpath]; exact (hkeptDocs other hother).2.2) ?_ (by rw [hcontent]; exact hsmall)
    -- the source has gone
    have hlength := (h.sound chatId).few
    have hfewer := (List.filter_sublist (p := fun other : PrivateGardenDoc => decide (other.path ≠ target))
      (l := Garden.without (garden chatId) source)).length_le
    rw [← hsource] at hfront hback hfewer
    rw [hdocs, List.length_append, List.length_cons] at hlength
    rw [hdocs, Garden.without_split hfront hback, List.length_append] at hfewer
    rw [← hsource, hdocs, Garden.without_split hfront hback]
    exact lt_of_le_of_lt hfewer (by omega)
  have hfiles : store.FilesKept (removeDoc (store.replaced desk.files (store.file chatId target) none
      (some (utf8 doc.content))) (store.file chatId source) .none)
      (Function.update garden chatId (Garden.without (Garden.without (garden chatId) source) target ++ [new])) := by
    have hwritten := h.files.write hfrom hgrown
    rw [hpath, hcontent] at hwritten
    refine hwritten.remove fun chatId' other hother => ?_
    rcases hgrown chatId' other hother with ⟨hold, -⟩ | ⟨rfl, rfl⟩
    · rw [← hsource]
      refine (h.apart chatId' other hold chatId doc hmem fun heq => ?_).1
      obtain ⟨rfl, hother'⟩ := Prod.mk.inj heq
      rcases mem_update hother with ⟨-, hin⟩ | ⟨hdistinct, -⟩
      · rcases List.mem_append.mp hin with hkept | hnew
        · exact (hkeptDocs other hkept).2.1 (hother'.trans hsource)
        · rw [List.mem_singleton.mp hnew, hpath] at hother'
          exact hne (hsource.symm.trans hother'.symm)
      · exact hdistinct rfl
    · rw [← hsource]
      exact (hfrom chatId' doc hmem fun heq => hne (hsource.symm.trans ((Prod.mk.inj heq).2.trans hpath))).1.1.symm
  have hindexed := h.indexed.insert chatId (List.append_ne_nil_of_right_ne_nil
    (Garden.without (Garden.without (garden chatId) source) target) (List.cons_ne_nil new []))
  rw [List.map_append, List.map_singleton] at hindexed
  have hcache {cache : PrivateGardenDocCache} (hsub : ∀ key doc, cache.docs.lookup key = some doc →
      desk.cache.docs.lookup key = some doc) : CacheKept ((cache.remove chatId source).insert chatId new)
      (Function.update garden chatId (Garden.without (Garden.without (garden chatId) source) target ++ [new])) := by
    have hbefore : CacheKept (cache.remove chatId source) garden :=
      h.cache.sub (fun key doc hkey => hsub key doc (PrivateGardenDocCache.lookup_of_removeKey hkey).2) (fun _ _ hin => hin)
    exact hbefore.insert (fun chatId' other hother hdistinct => (hfrom chatId' other hother hdistinct).1.2) hgrown
  rcases position_cases (Garden.sound_without (h.sound chatId) source) target with
    ⟨hlacks, hidx⟩ | ⟨front₁, doc₁, back₁, hdocs₁, rfl, -, hidx, hfront₁, hback₁⟩
  · have hrecords : (Garden.without (garden chatId) source).map PrivateGardenDoc.record =
        (Garden.without (Garden.without (garden chatId) source) target).map PrivateGardenDoc.record := by
      rw [Garden.without_of_lacks (Garden.lookup_eq_none_iff.mp hlacks)]
    rw [hidx]
    dsimp only
    rw [if_neg (by simp), hrecords]
    exact ⟨hindexed, sound_update h.sound hsound, h.apart.grow hfrom hgrown, hfiles, hcache fun _ _ hkey => hkey⟩
  · have hrecords : ((Garden.without (garden chatId) source).map PrivateGardenDoc.record).eraseIdx front₁.length =
        (Garden.without (Garden.without (garden chatId) source) doc₁.path).map PrivateGardenDoc.record := by
      rw [hdocs₁]
      exact eraseIdx_record hfront₁ hback₁
    rw [hidx]
    dsimp only
    rw [if_neg (by simp), hrecords]
    exact ⟨hindexed, sound_update h.sound hsound, h.apart.grow hfrom hgrown, hfiles,
      hcache fun _ _ hkey => (PrivateGardenDocCache.lookup_of_removeKey hkey).2⟩

/-! Runs. -/

/-- The store and the garden it stands for take the same call, with no fault. -/
def stepBoth (store : StoragePrivateGardenStore) (s : GardenState × Garden) (call : GardenCall) : Option (GardenState × Garden) :=
  some ((store.perform s.1 .none call).1, s.2.perform call)

/-- A document that is written, or moved, is apart from the others. -/
def Undisturbed (store : StoragePrivateGardenStore) (s : GardenState × Garden) : GardenCall → Prop
  | .list _ _ => True
  | .read _ _ => True
  | .write chatId docPath content _ => ∀ path, normalizePrivateGardenDocPath docPath = .ok path →
      (utf8 content).length ≤ privateGardenMaxDocBytes → store.ApartFrom s.2 chatId path
  | .moveDoc chatId fromPath toPath _ => ∀ source target, normalizePrivateGardenDocPath fromPath = .ok source →
      normalizePrivateGardenDocPath toPath = .ok target → source ≠ target →
      (∃ doc ∈ s.2 chatId, doc.path = source) → store.ApartFrom s.2 chatId target
  | .delete _ _ => True

/-- The store answers as the garden does, and no chat has too many documents. -/
structure IsMap (store : StoragePrivateGardenStore) (s : GardenState × Garden) : Prop where
  reads : ∀ chatId docPath path, normalizePrivateGardenDocPath docPath = .ok path →
    store.answer s.1 chatId docPath = .ok (Garden.lookup (s.2 chatId) path)
  few : ∀ chatId limit, ∃ docs, (store.list s.1 .none chatId limit).2 = .ok docs ∧ docs.length ≤ privateGardenMaxDocsPerChat

/-- A call changes no answer about another chat. -/
def OwnChat (store : StoragePrivateGardenStore) (s : GardenState × Garden) (call : GardenCall) : Prop :=
  ∀ chatId, chatId ≠ call.chatId → ∀ docPath,
    store.answer (store.perform s.1 .none call).1 chatId docPath = store.answer s.1 chatId docPath

/-- The state holds the garden, whose documents are those of the given chats. -/
def Stands (store : StoragePrivateGardenStore) (ids : Finset String) (s : GardenState × Garden) : Prop :=
  (∃ index, store.index.cachedValue s.1.index = .ok index ∧ store.Holds index s.1.desk s.2) ∧
    ∀ chatId, s.2 chatId ≠ [] → chatId ∈ ids

theorem perform_of_ne (garden : Garden) (call : GardenCall) {chatId : String} (h : chatId ≠ call.chatId) :
    garden.perform call chatId = garden chatId := by
  cases call with
  | list chat limit => rfl
  | read chat docPath => rfl
  | write chat docPath content nowSecs =>
    simp only [Garden.perform]
    cases normalizePrivateGardenDocPath docPath with
    | error e => rfl
    | ok path =>
      dsimp only
      by_cases hlarge : privateGardenMaxDocBytes < (utf8 content).length
      · rw [if_pos hlarge]
      · rw [if_neg hlarge]
        exact Function.update_of_ne h _ _
  | moveDoc chat fromPath toPath nowSecs =>
    simp only [Garden.perform]
    cases normalizePrivateGardenDocPath fromPath with
    | error e => rfl
    | ok source =>
      cases normalizePrivateGardenDocPath toPath with
      | error e => rfl
      | ok target =>
        dsimp only
        by_cases hsame : source = target
        · rw [if_pos hsame]
        · rw [if_neg hsame]
          exact Function.update_of_ne h _ _
  | delete chat docPath =>
    simp only [Garden.perform]
    cases normalizePrivateGardenDocPath docPath with
    | error e => rfl
    | ok path => exact Function.update_of_ne h _ _

theorem room_of_stands (hids : ids.card ≤ maxPrivateGardenChats)
    (h : Indexed index garden) (hsupport : ∀ chatId, garden chatId ≠ [] → chatId ∈ ids) (hchat : chatId ∈ ids) :
    chatId ∈ index ∨ index.keys.card < maxPrivateGardenChats := by
  by_cases hmem : chatId ∈ index
  · exact .inl hmem
  · refine .inr (lt_of_lt_of_le (Finset.card_lt_card ((Finset.ssubset_iff_of_subset fun other hother => ?_).mpr
      ⟨chatId, hchat, fun hin => hmem (Finmap.mem_keys.mp hin)⟩)) hids)
    refine hsupport other fun hempty => ?_
    have hlookup := h other
    rw [if_pos hempty, Finmap.lookup_eq_none] at hlookup
    exact hlookup (Finmap.mem_keys.mp hother)

section
variable (hindex : store.index.cachedValue s.index = .ok index)
include hindex

theorem withIndex_holds {R : Type}
    {f : StoredGardenIndex → GardenDesk → (StoredGardenIndex × GardenDesk) × Except Error (StoreOp R)}
    (h : store.Holds (f index s.desk).1.1 (f index s.desk).1.2 garden) :
    ∃ index', store.index.cachedValue (store.withIndex s .none f).1.index = .ok index' ∧
      store.Holds index' (store.withIndex s .none f).1.desk garden := by
  obtain ⟨hvalue, hdesk⟩ := @withIndex_of_seen store R s .none index f hindex
  exact ⟨_, hvalue, by rw [hdesk]; exact h⟩

theorem read_holds (h : store.Holds index s.desk garden) (chatId : String) (docPath : List Char) :
    ∃ index', store.index.cachedValue (store.read s .none chatId docPath).1.index = .ok index' ∧
      store.Holds index' (store.read s .none chatId docPath).1.desk garden := by
  unfold read
  cases normalizePrivateGardenDocPath docPath with
  | error e => exact ⟨index, hindex, h⟩
  | ok path => exact withIndex_holds hindex (readClosure_holds h chatId path)

theorem perform_holds {call : GardenCall} (h : store.Holds index s.desk garden)
    (hroom : call.chatId ∈ index ∨ index.keys.card < maxPrivateGardenChats) (hcall : store.Undisturbed (s, garden) call) :
    ∃ index', store.index.cachedValue (store.perform s .none call).1.index = .ok index' ∧
      store.Holds index' (store.perform s .none call).1.desk (garden.perform call) := by
  cases call with
  | list chatId limit =>
    simp only [perform, list, Garden.perform]
    apply withIndex_holds hindex
    exact h
  | read chatId docPath => exact read_holds hindex h chatId docPath
  | write chatId docPath content nowSecs =>
    simp only [perform, write, Garden.perform]
    cases hpath : normalizePrivateGardenDocPath docPath with
    | error e => exact ⟨index, hindex, h⟩
    | ok path =>
      dsimp only
      by_cases hlarge : privateGardenMaxDocBytes < (utf8 content).length
      · rw [if_pos hlarge, if_pos hlarge]
        exact ⟨index, hindex, h⟩
      · rw [if_neg hlarge, if_neg hlarge]
        have hsmall : (utf8 content).length ≤ privateGardenMaxDocBytes := by omega
        exact withIndex_holds hindex (writeClosure_holds h hroom hsmall (hcall path hpath hsmall) nowSecs)
  | moveDoc chatId fromPath toPath nowSecs =>
    simp only [perform, moveDoc, Garden.perform]
    cases hsource : normalizePrivateGardenDocPath fromPath with
    | error e => exact ⟨index, hindex, h⟩
    | ok source =>
      cases htarget : normalizePrivateGardenDocPath toPath with
      | error e => exact ⟨index, hindex, h⟩
      | ok target =>
        dsimp only
        by_cases hsame : source = target
        · rw [if_pos hsame, if_pos hsame]
          exact read_holds hindex h chatId source
        · rw [if_neg hsame, if_neg hsame]
          exact withIndex_holds hindex
            (moveClosure_holds h hsame (hcall source target hsource htarget hsame) nowSecs)
  | delete chatId docPath =>
    simp only [perform, delete, Garden.perform]
    cases normalizePrivateGardenDocPath docPath with
    | error e => exact ⟨index, hindex, h⟩
    | ok path => exact withIndex_holds hindex (deleteClosure_holds h chatId path)

end

theorem stands_step (hids : ids.card ≤ maxPrivateGardenChats) {s t : GardenState × Garden}
    {call : GardenCall} (hs : store.Stands ids s) (hcall : call.chatId ∈ ids ∧ store.Undisturbed s call)
    (ht : store.stepBoth s call = some t) : store.Stands ids t := by
  obtain ⟨⟨index, hindex, hholds⟩, hsupport⟩ := hs
  obtain rfl := Option.some.inj ht
  refine ⟨perform_holds hindex hholds (room_of_stands hids hholds.indexed hsupport hcall.1) hcall.2, fun chatId hne => ?_⟩
  by_cases hsame : chatId = call.chatId
  · rw [hsame]
    exact hcall.1
  · refine hsupport chatId fun hempty => hne ?_
    exact (perform_of_ne s.2 call hsame).trans hempty

theorem answer_of_stands {s : GardenState × Garden} (hs : store.Stands ids s) (chatId : String)
    (docPath : List Char) : store.answer s.1 chatId docPath =
      (normalizePrivateGardenDocPath docPath).map fun path => Garden.lookup (s.2 chatId) path := by
  obtain ⟨⟨index, hindex, hholds⟩, -⟩ := hs
  rw [answer_eq]
  cases normalizePrivateGardenDocPath docPath with
  | error e => rfl
  | ok path =>
    dsimp only
    rw [hindex]
    exact found_of_holds hholds chatId path

theorem isMap_of_stands {s : GardenState × Garden} (hs : store.Stands ids s) : store.IsMap s where
  reads chatId docPath path hpath := by
    rw [answer_of_stands hs, hpath]
    rfl
  few chatId limit := by
    obtain ⟨⟨index, hindex, hholds⟩, -⟩ := hs
    refine ⟨_, @withIndex_clean store _ s.1 .none index _ hindex ?_, ?_⟩
    · intro op hop
      rw [← Except.ok.inj hop]
      rfl
    · dsimp only [StoreOp.clean]
      rw [List.length_take, List.length_mergeSort, docs_of_indexed hholds.indexed, List.length_map]
      exact (Nat.min_le_right _ _).trans (hholds.sound chatId).few

/-- A store that has no index yet, over any files. -/
def bareGarden (files : DocFiles) : GardenState × Garden := (⟨⟨none, none⟩, ⟨files, .default⟩⟩, fun _ => [])

theorem stands_bare (ids : Finset String) (files : DocFiles) : store.Stands ids (bareGarden files) := by
  refine ⟨⟨∅, store.load_missing _ _ rfl, ⟨Finmap.lookup_empty, fun chatId => ?_, ?_, ?_, ?_⟩⟩, fun chatId hne => absurd rfl hne⟩
  · exact ⟨List.nodup_nil, Nat.zero_le _, fun _ hdoc => (nomatch hdoc)⟩
  · exact fun chatId doc hdoc => (nomatch hdoc)
  · exact fun chatId doc hdoc => (nomatch hdoc)
  · exact fun chatId doc hdoc => (nomatch hdoc)

/-- Where no document that is written or moved shares a file or a place in the cache with another, the
store is a map of documents for each chat. -/
theorem private_garden_is_map (store : StoragePrivateGardenStore) (ids : Finset String)
    (hids : ids.card ≤ maxPrivateGardenChats) (files : DocFiles) (calls : List GardenCall) (hcalls : ∀ call ∈ calls, call.chatId ∈ ids)
    (h : Meets store.stepBoth store.Undisturbed calls (bareGarden files)) :
    Always store.stepBoth store.IsMap calls (bareGarden files) ∧
      Meets store.stepBoth store.OwnChat calls (bareGarden files) := by
  have hmeets : Meets store.stepBoth (fun s call => call.chatId ∈ ids ∧ store.Undisturbed s call) calls (bareGarden files) :=
    h.mono fun _ call hcall hapart => ⟨hcalls call hcall, hapart⟩
  constructor
  · exact always_of_meets (fun s call t hs hcall ht => stands_step hids hs hcall ht) (fun s hs => isMap_of_stands hs)
      calls _ (stands_bare ids files) hmeets
  · refine meets_of_meets (fun s call t hs hcall ht => stands_step hids hs hcall ht) (fun s call t hs hcall ht => ?_)
      calls _ (stands_bare ids files) hmeets
    intro chatId hne docPath
    have hafter := stands_step hids hs hcall ht
    obtain rfl := Option.some.inj ht
    rw [answer_of_stands hs, ← perform_of_ne s.2 call hne]
    exact answer_of_stands hafter chatId docPath

/-! Two chats with one directory: the second is named as the hash of the first. -/

def longChat : String := "oc_a0553eda9014c201e6969b478895c230"
def hashedChat : String := "f6ea674c82c7f8b0"

def sharedCalls : List GardenCall :=
  [.write longChat "p.md".toList "x".toList 1, .write hashedChat "p.md".toList "y".toList 2,
    .moveDoc longChat "p.md".toList "q.md".toList 3]

def recordJson (path updatedAt revision preview : List Char) : List Char :=
  "[\x7b\"path\":\"".toList ++ path ++ "\",\"updated_at\":".toList ++ updatedAt ++ ",\"revision\":".toList ++ revision ++
    ",\"bytes\":1,\"preview\":\"".toList ++ preview ++ "\"\x7d]".toList

def chatJson (chatId : String) (docs : List Char) : List Char :=
  '"' :: chatId.toList ++ "\":\x7b\"docs\":".toList ++ docs ++ ['\x7d']

def gardenJson (chats : List Char) : Bytes := utf8 ("\x7b\"chats\":\x7b".toList ++ chats ++ "\x7d\x7d".toList)

def sharedTable : List (StoredGardenIndex × Bytes) :=
  let px : PrivateGardenDocRecord := ⟨"p.md".toList, 1, 1, 1, "x".toList⟩
  let py : PrivateGardenDocRecord := ⟨"p.md".toList, 2, 1, 1, "y".toList⟩
  let qy : PrivateGardenDocRecord := ⟨"q.md".toList, 3, 2, 1, "y".toList⟩
  let long := chatJson longChat (recordJson "p.md".toList ['1'] ['1'] ['x'])
  let hashed := chatJson hashedChat (recordJson "p.md".toList ['2'] ['1'] ['y'])
  let moved := chatJson longChat (recordJson "q.md".toList ['3'] ['2'] ['y'])
  [(∅, gardenJson []), (Finmap.singleton longChat [px], gardenJson long),
    ((Finmap.singleton longChat [px]).insert hashedChat [py], gardenJson (long ++ ',' :: hashed)),
    ((Finmap.singleton longChat [qy]).insert hashedChat [py], gardenJson (moved ++ ',' :: hashed))]

def sharedStore : StoragePrivateGardenStore :=
  ofTable sharedTable (by decide +kernel) (by decide +kernel) (.host 7) fun _ => none

/-- The chats have different hashes, and the document that the first moves is the one the second has written. -/
theorem move_takes_document_of_other_chat : fnv1a64Hash longChat.toList ≠ fnv1a64Hash hashedChat.toList ∧
    ¬ Always sharedStore.stepBoth sharedStore.IsMap sharedCalls (bareGarden fun _ => none) := by
  refine ⟨by decide, fun h => ?_⟩
  have hmap : sharedStore.IsMap _ := ((h.2 _ rfl).2 _ rfl).2 _ rfl
  have hread := congrArg Except.toOption (hmap.reads longChat "q.md".toList "q.md".toList (by rfl))
  revert hread
  decide +kernel

/-- A run of one chat and one document. -/
theorem one_document_is_map :
    Always oneDocStore.stepBoth oneDocStore.IsMap [.write "chat-1" "a.md".toList "x".toList 1] (bareGarden fun _ => none) ∧
      Meets oneDocStore.stepBoth oneDocStore.OwnChat [.write "chat-1" "a.md".toList "x".toList 1]
        (bareGarden fun _ => none) := by
  refine private_garden_is_map oneDocStore {"chat-1"} (by decide) _ _ (fun call hcall => ?_) fun t _ => ⟨?_, trivial⟩
  · rw [List.mem_singleton.mp hcall]
    exact Finset.mem_singleton_self _
  · exact fun path _ _ chatId doc hdoc => (nomatch hdoc)

end StoragePrivateGardenStore

end Beetle.Platform.Storage
