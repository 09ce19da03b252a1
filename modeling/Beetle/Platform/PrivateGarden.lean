import Beetle.Platform.CachedJson
import Beetle.Tools.StateFileGuard
import Mathlib.Data.Char
import Mathlib.Data.List.Lex

/-! The private garden: an index of all documents in one JSON file, the documents in files of their own, and
the ones used last in a cache. -/
namespace Beetle.Platform.Storage
open Beetle.Lib Beetle.Tools

def maxPrivateGardenChats : Nat := 32
def privateGardenDocCacheMax : Nat := 24
def maxPrivateGardenPathLen : Nat := 96
def maxPrivateGardenPreviewChars : Nat := 160
def privateGardenMaxDocsPerChat : Nat := 16
def privateGardenMaxDocBytes : Nat := 8 * 1024
def relPathPrivateGardenDir : List Char := "memory/private_garden".toList

structure PrivateGardenDocRecord where
  path : List Char
  updatedAt : UInt64
  revision : UInt32
  bytes : Nat
  preview : List Char
  deriving DecidableEq

structure PrivateGardenDoc where
  path : List Char
  content : List Char
  updatedAt : UInt64
  revision : UInt32
  deriving DecidableEq

/-- The documents of each chat. -/
abbrev StoredGardenIndex := HashMap String (List PrivateGardenDocRecord)

def normalizePrivateGardenDocPath (docPath : List Char) : Except Error (List Char) :=
  match normalizeStateRelPath docPath with
  | .error e => .error e
  | .ok normalized =>
    if normalized = [] then .error (.config "document path must not be empty" "private_garden_path")
    else if maxPrivateGardenPathLen < (utf8 normalized).length then
      .error (.config ("document path exceeds " ++ toString maxPrivateGardenPathLen ++ " bytes") "private_garden_path")
    else if normalized.getLast? = some '/' then
      .error (.config "document path must point to a file" "private_garden_path")
    else if (normalized.splitOn '/').any (fun segment => trim segment = []) then
      .error (.config "document path contains an empty segment" "private_garden_path")
    else .ok normalized

/-- White space as single blanks; whether the last character was one. -/
def collapseWhitespace : Bool → List Char → List Char
  | _, [] => []
  | lastWasSpace, ch :: chars =>
    if isWhitespace ch then
      if lastWasSpace then collapseWhitespace true chars else ' ' :: collapseWhitespace true chars
    else ch :: collapseWhitespace false chars

def buildPrivateGardenPreview (content : List Char) : List Char :=
  (trim (collapseWhitespace true (trim content))).take maxPrivateGardenPreviewChars

/-! Where the documents are. -/

def fnv1a64Hash (s : List Char) : UInt64 :=
  (utf8 s).foldl (fun h b => (h ^^^ b.toUInt64) * 1099511628211) 14695981039346656037

def chatDirName (chatId : String) : List Char :=
  if chatId.toList ≠ [] ∧ (utf8 chatId.toList).length ≤ 20 ∧
      chatId.toList.all (fun c => c.isAlphanum || c == '_' || c == '-') then chatId.toList
  else hex 16 (fnv1a64Hash chatId.toList).toNat

def chatDocRelPath (chatId : String) (docPath : List Char) : List Char :=
  relPathPrivateGardenDir ++ '/' :: chatDirName chatId ++ '/' :: docPath

/-- How a target maps the paths below the state root to its files, and the file that is written before it takes
the place of another. -/
structure GardenFs where
  place : List Char → StatePath
  scratch : StatePath → Option StatePath

/-- `atomic_write` goes through a file beside the other, named after the process. -/
def GardenFs.host (pid : Nat) : GardenFs where
  place := components
  scratch path := some (path.dropLast ++ ['.' :: path.getLast?.getD "file".toList ++ ".tmp.".toList ++ (toString pid).toList])

def GardenFs.esp : GardenFs where
  place rel := ["g".toList, hex 16 (fnv1a64Hash rel).toNat ++ ".md".toList]
  scratch _ := none

abbrev DocFiles := StatePath → Option Bytes

/-- How the writing of a document ends. A failed one leaves the file and the one beside it as it may. -/
inductive DocWrite where
  | done
  | failed (e : Error) (left scratchLeft : Option Bytes)

/-- What goes wrong with the files in one call. -/
structure GardenFaults where
  index : Faults
  docRead : Option { e : Error // e.isNotFound = false }
  docWrite : DocWrite
  unremoved : StatePath → Bool

def GardenFaults.none : GardenFaults := ⟨⟨.none, .done⟩, .none, .done, fun _ => false⟩

/-- `remove_file`, whose errors are ignored. -/
def removeDoc (files : DocFiles) (path : StatePath) (faults : GardenFaults) : DocFiles :=
  if faults.unremoved path then files else Function.update files path none

/-! The cache of documents. -/

structure PrivateGardenDocCache where
  docs : HashMap (List Char) PrivateGardenDoc
  order : List (List Char)

def docCacheKey (chatId : String) (docPath : List Char) : List Char := chatId.toList ++ '\n' :: docPath

namespace PrivateGardenDocCache

def default : PrivateGardenDocCache := ⟨∅, []⟩

def removeKey (cache : PrivateGardenDocCache) (key : List Char) : PrivateGardenDocCache :=
  ⟨cache.docs.erase key, cache.order.erase key⟩

def touch (cache : PrivateGardenDocCache) (key : List Char) : PrivateGardenDocCache :=
  { cache with order := cache.order.erase key ++ [key] }

def get (cache : PrivateGardenDocCache) (chatId : String) (record : PrivateGardenDocRecord) :
    Option PrivateGardenDoc × PrivateGardenDocCache :=
  let key := docCacheKey chatId record.path
  match cache.docs.lookup key with
  | some doc =>
    if doc.updatedAt = record.updatedAt ∧ doc.revision = record.revision then (some doc, cache.touch key)
    else (none, cache.removeKey key)
  | none => (none, cache)

/-- The oldest documents go until there are not too many. -/
def shrink (docs : HashMap (List Char) PrivateGardenDoc) : List (List Char) → PrivateGardenDocCache
  | [] => ⟨docs, []⟩
  | oldest :: order =>
    if privateGardenDocCacheMax < docs.keys.card then shrink (docs.erase oldest) order else ⟨docs, oldest :: order⟩

def insert (cache : PrivateGardenDocCache) (chatId : String) (doc : PrivateGardenDoc) : PrivateGardenDocCache :=
  let key := docCacheKey chatId doc.path
  let cache := cache.removeKey key
  shrink (cache.docs.insert key doc) (cache.order ++ [key])

def remove (cache : PrivateGardenDocCache) (chatId : String) (docPath : List Char) : PrivateGardenDocCache :=
  cache.removeKey (docCacheKey chatId docPath)

end PrivateGardenDocCache

/-! The store. -/

/-- What a call finds beside the index. -/
structure GardenDesk where
  files : DocFiles
  cache : PrivateGardenDocCache

structure GardenState where
  index : StoreState StoredGardenIndex
  desk : GardenDesk

/-- `first` is the chat that iteration over the index comes to first. -/
structure StoragePrivateGardenStore where
  index : CachedJsonFileStore StoredGardenIndex
  fs : GardenFs
  first : StoredGardenIndex → Option String
  load_missing : ∀ e stage, e.isNotFound = true → index.loadFn (.error e) stage = .ok ∅
  docs_fit : privateGardenMaxDocBytes ≤ index.maxWriteSize

/-- The document that was changed first, and its position; of two the one whose path comes first. -/
def oldestDoc : List (PrivateGardenDocRecord × Nat) → Option (PrivateGardenDocRecord × Nat)
  | [] => none
  | doc :: docs =>
    match oldestDoc docs with
    | none => some doc
    | some other =>
      if other.1.updatedAt < doc.1.updatedAt ∨ other.1.updatedAt = doc.1.updatedAt ∧ other.1.path < doc.1.path then
        some other
      else some doc

namespace StoragePrivateGardenStore
variable (store : StoragePrivateGardenStore)

def file (chatId : String) (docPath : List Char) : StatePath := store.fs.place (chatDocRelPath chatId docPath)

def readDoc (files : DocFiles) (path : StatePath) (fault : Option { e : Error // e.isNotFound = false }) (stage : String) :
    Except Error (List Char) :=
  match readFile store.index.maxWriteSize (files path) fault with
  | .error e => .error (e.withStage stage)
  | .ok buf =>
    match fromUtf8 buf with
    | none => .error (.config "stored document is not valid UTF-8" stage)
    | some content => .ok content

/-- The files after the file beside one, if there is such a file, and then the one itself have been written. -/
def replaced (files : DocFiles) (path : StatePath) (scratchLeft left : Option Bytes) : DocFiles :=
  let files := match store.fs.scratch path with
    | some beside => Function.update files beside scratchLeft
    | none => files
  Function.update files path left

@[grind =]
def writeDoc (files : DocFiles) (path : StatePath) (data : Bytes) (fault : DocWrite) : DocFiles × Except Error Unit :=
  if data.length > store.index.maxWriteSize then
    (files, .error (.config
      ("write size " ++ toString data.length ++ " exceeds limit " ++ toString store.index.maxWriteSize) "storage_write"))
  else
    match fault with
    | .done => (store.replaced files path none (some data), .ok ())
    | .failed e left scratchLeft => (store.replaced files path scratchLeft left, .error e)

/-- A call of `with_cached_mut` whose closure also works on the documents. -/
@[grind =] def withIndex {R : Type} (s : GardenState) (faults : GardenFaults)
    (f : StoredGardenIndex → GardenDesk → (StoredGardenIndex × GardenDesk) × Except Error (StoreOp R)) :
    GardenState × Except Error R :=
  let (index, result) := store.index.withCachedMut s.index faults.index fun value =>
    ((f value s.desk).1.1, (f value s.desk).2)
  let desk := match store.index.seen s.index faults.index with
    | .error _ => s.desk
    | .ok value => (f value s.desk).1.2
  (⟨index, desk⟩, result)

def list (s : GardenState) (faults : GardenFaults) (chatId : String) (limit : Nat) :
    GardenState × Except Error (List PrivateGardenDocRecord) :=
  store.withIndex s faults fun index desk =>
    let docs := ((index.lookup chatId).getD []).mergeSort fun a b =>
      decide (b.updatedAt < a.updatedAt ∨ a.updatedAt = b.updatedAt ∧ a.path ≤ b.path)
    ((index, desk), .ok (.clean (docs.take limit)))

def readClosure (faults : GardenFaults) (chatId : String) (docPath : List Char) (index : StoredGardenIndex)
    (desk : GardenDesk) : (StoredGardenIndex × GardenDesk) × Except Error (StoreOp (Option PrivateGardenDoc)) :=
  match index.lookup chatId with
  | none => ((index, desk), .ok (.clean none))
  | some docs =>
    match docs.find? fun doc => doc.path = docPath with
    | none => ((index, desk), .ok (.clean none))
    | some record =>
      match desk.cache.get chatId record with
      | (some doc, cache) => ((index, { desk with cache }), .ok (.clean (some doc)))
      | (none, cache) =>
        match store.readDoc desk.files (store.file chatId docPath) faults.docRead "private_garden_read" with
        | .error e => ((index, { desk with cache }), .error e)
        | .ok content =>
          let doc := ⟨docPath, content, record.updatedAt, record.revision⟩
          ((index, { desk with cache := cache.insert chatId doc }), .ok (.clean (some doc)))

def read (s : GardenState) (faults : GardenFaults) (chatId : String) (docPath : List Char) :
    GardenState × Except Error (Option PrivateGardenDoc) :=
  match normalizePrivateGardenDocPath docPath with
  | .error e => (s, .error e)
  | .ok docPath => store.withIndex s faults (store.readClosure faults chatId docPath)

/-- The eviction of a chat where there are as many as there may be. -/
def makeRoomForChat (faults : GardenFaults) (chatId : String) (index : StoredGardenIndex) (desk : GardenDesk) :
    StoredGardenIndex × GardenDesk :=
  if chatId ∉ index ∧ maxPrivateGardenChats ≤ index.keys.card then
    match store.first index with
    | none => (index, desk)
    | some evictedChatId =>
      match index.lookup evictedChatId with
      | none => (index, desk)
      | some evicted =>
        (index.erase evictedChatId, evicted.foldl (fun desk doc =>
          ⟨removeDoc desk.files (store.file evictedChatId doc.path) faults,
            desk.cache.remove evictedChatId doc.path⟩) desk)
  else (index, desk)

/-- The eviction of a document where a chat has as many as it may have. -/
def makeRoomForDoc (faults : GardenFaults) (chatId : String) (docs : List PrivateGardenDocRecord) (desk : GardenDesk) :
    List PrivateGardenDocRecord × GardenDesk :=
  if privateGardenMaxDocsPerChat ≤ docs.length then
    match oldestDoc docs.zipIdx with
    | none => (docs, desk)
    | some (evicted, evictIdx) =>
      (docs.eraseIdx evictIdx, ⟨removeDoc desk.files (store.file chatId evicted.path) faults,
        desk.cache.remove chatId evicted.path⟩)
  else (docs, desk)

def saturatingSucc (revision : UInt32) : UInt32 := if revision = 4294967295 then revision else revision + 1

def writeClosure (faults : GardenFaults) (chatId : String) (docPath content : List Char) (nowSecs : UInt64)
    (index : StoredGardenIndex) (desk : GardenDesk) :
    (StoredGardenIndex × GardenDesk) × Except Error (StoreOp PrivateGardenDocRecord) :=
  let (index, desk) := store.makeRoomForChat faults chatId index desk
  let docs := (index.lookup chatId).getD []
  let existingIndex := docs.findIdx? fun doc => doc.path = docPath
  let revision := match existingIndex.bind fun idx => docs[idx]? with
    | some doc => saturatingSucc doc.revision
    | none => 1
  let next : PrivateGardenDocRecord :=
    ⟨docPath, nowSecs, revision, (utf8 content).length, buildPrivateGardenPreview content⟩
  let (docs, desk) := if existingIndex = none then store.makeRoomForDoc faults chatId docs desk else (docs, desk)
  match store.writeDoc desk.files (store.file chatId docPath) (utf8 content) faults.docWrite with
  | (files, .error e) => ((index.insert chatId docs, { desk with files }), .error e)
  | (files, .ok ()) =>
    let docs := match existingIndex with
      | some idx => docs.set idx next
      | none => docs ++ [next]
    ((index.insert chatId docs, ⟨files, desk.cache.insert chatId ⟨docPath, content, nowSecs, revision⟩⟩),
      .ok (.changed next))

def write (s : GardenState) (faults : GardenFaults) (chatId : String) (docPath content : List Char) (nowSecs : UInt64) :
    GardenState × Except Error PrivateGardenDocRecord :=
  match normalizePrivateGardenDocPath docPath with
  | .error e => (s, .error e)
  | .ok docPath =>
    if privateGardenMaxDocBytes < (utf8 content).length then
      (s, .error (.config ("content exceeds " ++ toString privateGardenMaxDocBytes ++ " bytes") "private_garden_write"))
    else store.withIndex s faults (store.writeClosure faults chatId docPath content nowSecs)

def moveClosure (faults : GardenFaults) (chatId : String) (fromPath toPath : List Char) (nowSecs : UInt64)
    (index : StoredGardenIndex) (desk : GardenDesk) :
    (StoredGardenIndex × GardenDesk) × Except Error (StoreOp (Option PrivateGardenDocRecord)) :=
  match index.lookup chatId with
  | none => ((index, desk), .ok (.clean none))
  | some docs =>
    match docs.findIdx? fun doc => doc.path = fromPath with
    | none => ((index, desk), .ok (.clean none))
    | some fromIdx =>
      match store.readDoc desk.files (store.file chatId fromPath) faults.docRead "private_garden_move" with
      | .error e => ((index, desk), .error e)
      | .ok content =>
        match store.writeDoc desk.files (store.file chatId toPath) (utf8 content) faults.docWrite with
        | (files, .error e) => ((index, { desk with files }), .error e)
        | (files, .ok ()) =>
          let files := removeDoc files (store.file chatId fromPath) faults
          let removedRevision := match docs[fromIdx]? with
            | some removed => removed.revision
            | none => 0
          let docs := docs.eraseIdx fromIdx
          let (docs, cache) := match docs.findIdx? fun doc => doc.path = toPath with
            | some existingToIdx => (docs.eraseIdx existingToIdx, desk.cache.remove chatId toPath)
            | none => (docs, desk.cache)
          let next : PrivateGardenDocRecord :=
            ⟨toPath, nowSecs, saturatingSucc removedRevision, (utf8 content).length, buildPrivateGardenPreview content⟩
          let docs := docs ++ [next]
          let index := if docs = [] then index.erase chatId else index.insert chatId docs
          let cache := (cache.remove chatId fromPath).insert chatId ⟨toPath, content, nowSecs, next.revision⟩
          ((index, ⟨files, cache⟩), .ok (.changed (some next)))

def moveDoc (s : GardenState) (faults : GardenFaults) (chatId : String) (fromPath toPath : List Char)
    (nowSecs : UInt64) : GardenState × Except Error (Option PrivateGardenDocRecord) :=
  match normalizePrivateGardenDocPath fromPath with
  | .error e => (s, .error e)
  | .ok fromPath =>
    match normalizePrivateGardenDocPath toPath with
    | .error e => (s, .error e)
    | .ok toPath =>
      if fromPath = toPath then
        let (s, doc) := store.read s faults chatId fromPath
        (s, doc.map fun doc => doc.map fun doc =>
          ⟨doc.path, doc.updatedAt, doc.revision, (utf8 doc.content).length, buildPrivateGardenPreview doc.content⟩)
      else store.withIndex s faults (store.moveClosure faults chatId fromPath toPath nowSecs)

def deleteClosure (faults : GardenFaults) (chatId : String) (docPath : List Char) (index : StoredGardenIndex)
    (desk : GardenDesk) : (StoredGardenIndex × GardenDesk) × Except Error (StoreOp Bool) :=
  match index.lookup chatId with
  | none => ((index, desk), .ok (.clean false))
  | some docs =>
    match docs.findIdx? fun doc => doc.path = docPath with
    | none => ((index, desk), .ok (.clean false))
    | some idx =>
      let docs := docs.eraseIdx idx
      let desk := ⟨removeDoc desk.files (store.file chatId docPath) faults, desk.cache.remove chatId docPath⟩
      ((if docs = [] then index.erase chatId else index.insert chatId docs, desk), .ok (.changed true))

def delete (s : GardenState) (faults : GardenFaults) (chatId : String) (docPath : List Char) :
    GardenState × Except Error Bool :=
  match normalizePrivateGardenDocPath docPath with
  | .error e => (s, .error e)
  | .ok docPath => store.withIndex s faults (store.deleteClosure faults chatId docPath)

end StoragePrivateGardenStore

end Beetle.Platform.Storage
