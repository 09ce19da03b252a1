import Beetle.Error
import Beetle.Lib.Bytes
import Beetle.Lib.Maps
import Beetle.Lib.Run

/-! A JSON state file behind a write-through cache, and the chat-keyed map built on it. -/
namespace Beetle.Platform.Storage
open Beetle.Lib

/-- `MAX_WRITE_SIZE` on the ESP targets and elsewhere. -/
def maxWriteSizeEsp : Nat := 256 * 1024
def maxWriteSizeHost : Nat := 1024 * 1024

/-- How the overwriting of the file ends; a failed one can leave anything there. -/
inductive WriteOutcome where
  | done
  | failed (error : Error) (left : Option Bytes)

/-- What the environment does to the file operations of one call. -/
structure Faults where
  read : Option { e : Error // e.isNotFound = false }
  write : WriteOutcome

def readFile (maxSize : Nat) (disk : Option Bytes) :
    Option { e : Error // e.isNotFound = false } → Except Error Bytes
  | some e => .error e
  | none =>
    match disk with
    | none => .error (.io ⟨.notFound, some 2⟩ "storage_read")
    | some buf =>
      -- the file is read in chunks of 1024 bytes, up to the first that goes past the limit
      let total := min buf.length (maxSize + 1024)
      if buf.length > maxSize then .error (.config s!"file size {total} exceeds {maxSize}" "storage_read")
      else .ok buf

def writeFileUnlocked (maxSize : Nat) (disk : Option Bytes) (data : Bytes) (stage : String)
    (outcome : WriteOutcome) : Option Bytes × Except Error Unit :=
  let size := data.length
  if size > maxSize then (disk, .error (.config s!"write size {size} exceeds limit {maxSize}" stage))
  else
    match outcome with
    | .done => (some data, .ok ())
    | .failed e left => (left, .error e)

structure StoreOp (R : Type) where
  result : R
  dirty : Bool

def StoreOp.clean {R : Type} (result : R) : StoreOp R := ⟨result, false⟩
def StoreOp.changed {R : Type} (result : R) : StoreOp R := ⟨result, true⟩

/-- The fixed part of a store. The JSON library comes in as `toVec` and inside
`loadFn`, which reads back what was written and passes a read error on. -/
structure CachedJsonFileStore (T : Type) where
  maxWriteSize : Nat
  toVec : T → Except String Bytes
  loadFn : Except Error Bytes → String → Except Error T
  stageCache : String
  stagePersist : String
  load_toVec : ∀ value json stage, toVec value = .ok json → loadFn (.ok json) stage = .ok value
  load_error : ∀ e stage, e.isNotFound = false → ∃ e', loadFn (.error e) stage = .error e'

structure StoreState (T : Type) where
  cache : Option T
  disk : Option Bytes

namespace CachedJsonFileStore
variable {T R : Type} (store : CachedJsonFileStore T) {s : StoreState T} {faults : Faults} {value : T}
  {f : T → T × Except Error (StoreOp R)}

def loadFromDisk (disk : Option Bytes) (fault : Option { e : Error // e.isNotFound = false }) :
    Except Error T :=
  store.loadFn (readFile store.maxWriteSize disk fault) store.stageCache

def persist (disk : Option Bytes) (value : T) (outcome : WriteOutcome) :
    Option Bytes × Except Error Unit :=
  match store.toVec value with
  | .error message => (disk, .error (.config message store.stagePersist))
  | .ok json => writeFileUnlocked store.maxWriteSize disk json "storage_write_json" outcome

/-- The value a call works on: the cached one, else what the file holds. -/
def seen (s : StoreState T) (faults : Faults) : Except Error T :=
  match s.cache with
  | some value => .ok value
  | none => store.loadFromDisk s.disk faults.read

@[grind =] def withCachedMut (s : StoreState T) (faults : Faults) (f : T → T × Except Error (StoreOp R)) :
    StoreState T × Except Error R :=
  match store.seen s faults with
  | .error e => (s, .error e)
  | .ok value =>
    match f value with
    | (value, .error e) => ({ s with cache := some value }, .error e)
    | (value, .ok op) =>
      if op.dirty then
        let (disk, written) := store.persist s.disk value faults.write
        (⟨some value, disk⟩, written.map fun _ => op.result)
      else ({ s with cache := some value }, .ok op.result)

/-- What the file holds, read without a fault. -/
def diskValue (s : StoreState T) : Except Error T := store.loadFromDisk s.disk none

/-- What the next call works on, when nothing goes wrong in reading. -/
def cachedValue (s : StoreState T) : Except Error T :=
  match s.cache with
  | some value => .ok value
  | none => store.diskValue s

/-- A cached value is the one in the file. -/
def Coherent (s : StoreState T) : Prop := ∀ value, s.cache = some value → store.diskValue s = .ok value

theorem seen_eq_ok (h : store.seen s faults = .ok value) : store.cachedValue s = .ok value := by
  unfold seen at h
  unfold cachedValue
  cases hc : s.cache with
  | some v => simpa [hc] using h
  | none =>
    rw [hc] at h
    cases hr : faults.read with
    | none => simpa [diskValue, hr] using h
    | some e =>
      obtain ⟨e', he'⟩ := store.load_error e store.stageCache e.2
      simp [loadFromDisk, hr, readFile, he'] at h

/-- All that a call can do. -/
inductive CallCase (s : StoreState T) (faults : Faults) (f : T → T × Except Error (StoreOp R)) :
    StoreState T × Except Error R → Prop where
  | unread (e : Error) (hseen : store.seen s faults = .error e) : CallCase s faults f (s, .error e)
  | refused (value value' : T) (e : Error) (hseen : store.seen s faults = .ok value)
      (hf : f value = (value', .error e)) : CallCase s faults f (⟨some value', s.disk⟩, .error e)
  | clean (value value' : T) (op : StoreOp R) (hseen : store.seen s faults = .ok value)
      (hf : f value = (value', .ok op)) (hdirty : op.dirty = false) :
      CallCase s faults f (⟨some value', s.disk⟩, .ok op.result)
  | persisted (value value' : T) (op : StoreOp R) (disk : Option Bytes)
      (hseen : store.seen s faults = .ok value) (hf : f value = (value', .ok op))
      (hdirty : op.dirty = true) (hp : store.persist s.disk value' faults.write = (disk, .ok ())) :
      CallCase s faults f (⟨some value', disk⟩, .ok op.result)
  | lost (value value' : T) (op : StoreOp R) (disk : Option Bytes) (e : Error)
      (hseen : store.seen s faults = .ok value) (hf : f value = (value', .ok op))
      (hdirty : op.dirty = true) (hp : store.persist s.disk value' faults.write = (disk, .error e)) :
      CallCase s faults f (⟨some value', disk⟩, .error e)

theorem withCachedMut_cases (s : StoreState T) (faults : Faults)
    (f : T → T × Except Error (StoreOp R)) :
    store.CallCase s faults f (store.withCachedMut s faults f) := by
  unfold withCachedMut
  cases hseen : store.seen s faults with
  | error e => exact .unread e hseen
  | ok value =>
    rcases hf : f value with ⟨value', result⟩
    cases result with
    | error e => simpa only [hf] using .refused value value' e hseen hf
    | ok op =>
      simp only [hf]
      cases hdirty : op.dirty with
      | false => simpa using .clean value value' op hseen hf hdirty
      | true =>
        rcases hp : store.persist s.disk value' faults.write with ⟨disk, written⟩
        cases written with
        | ok _ => simpa using .persisted value value' op disk hseen hf hdirty hp
        | error e => simpa using .lost value value' op disk e hseen hf hdirty hp

/-- What a call leaves for the next one to work on, whether it was written or not. -/
theorem cachedValue_withCachedMut (f : T → T × Except Error (StoreOp R)) (h : store.seen s faults = .ok value) :
    store.cachedValue (store.withCachedMut s faults f).1 = .ok (f value).1 := by
  have hcase := store.withCachedMut_cases s faults f
  generalize store.withCachedMut s faults f = result at hcase
  cases hcase with
  | unread e hseen => cases h.symm.trans hseen
  | refused v v' e hseen hf =>
    obtain rfl := Except.ok.inj (h.symm.trans hseen)
    simp [cachedValue, hf]
  | clean v v' op hseen hf =>
    obtain rfl := Except.ok.inj (h.symm.trans hseen)
    simp [cachedValue, hf]
  | persisted v v' op disk hseen hf =>
    obtain rfl := Except.ok.inj (h.symm.trans hseen)
    simp [cachedValue, hf]
  | lost v v' op disk e hseen hf =>
    obtain rfl := Except.ok.inj (h.symm.trans hseen)
    simp [cachedValue, hf]

theorem withCachedMut_eq_ok {result : R} (h : (store.withCachedMut s faults f).2 = .ok result) :
    ∃ value op, store.seen s faults = .ok value ∧ (f value).2 = .ok op ∧ op.result = result := by
  have hcase := store.withCachedMut_cases s faults f
  generalize store.withCachedMut s faults f = answer at hcase h
  cases hcase with
  | unread e hseen => cases h
  | refused v v' e hseen hf => cases h
  | clean v v' op hseen hf => exact ⟨v, op, hseen, by rw [hf], Except.ok.inj h⟩
  | persisted v v' op disk hseen hf => exact ⟨v, op, hseen, by rw [hf], Except.ok.inj h⟩
  | lost v v' op disk e hseen hf => cases h

/-- A change that the JSON library and the file system take. -/
theorem withCachedMut_of_written
    {value value' : T} {result : R} {json : Bytes} (hseen : store.seen s faults = .ok value)
    (hf : f value = (value', .ok (.changed result))) (hjson : store.toVec value' = .ok json)
    (hsize : json.length ≤ store.maxWriteSize) (hwrite : faults.write = .done) :
    store.withCachedMut s faults f = (⟨some value', some json⟩, .ok result) := by
  have hfits : ¬ json.length > store.maxWriteSize := by omega
  simp [withCachedMut, hseen, hf, StoreOp.changed, persist, hjson, writeFileUnlocked, hfits, hwrite, Except.map]

/-- The answer of a call that only reads. -/
theorem withCachedMut_of_clean (result : T → R) :
    (store.withCachedMut s faults fun value => (value, .ok (.clean (result value)))).2 =
      (store.seen s faults).map result := by
  simp only [withCachedMut]
  cases store.seen s faults with
  | error e => rfl
  | ok value => rfl

theorem persist_eq_ok {disk disk' : Option Bytes} {outcome : WriteOutcome}
    (h : store.persist disk value outcome = (disk', .ok ())) : store.loadFromDisk disk' none = .ok value := by
  unfold persist at h
  cases hv : store.toVec value with
  | error message => simp [hv] at h
  | ok json =>
    simp only [hv, writeFileUnlocked] at h
    split at h
    · simp at h
    · rename_i hsize
      cases outcome with
      | failed e left => simp at h
      | done =>
        obtain ⟨rfl, -⟩ := Prod.mk.inj h
        simp [loadFromDisk, readFile, hsize, store.load_toVec value json _ hv]

end CachedJsonFileStore

/-- An operation on a store of this type: the closure it hands to
`with_cached_mut`, and what holds of the value once the closure answers `Ok`. -/
structure CachedCall (T : Type) where
  Result : Type
  closure : T → T × Except Error (StoreOp Result)
  goal : T → Prop
  reached : ∀ value value' op, closure value = (value', .ok op) → goal value'

/-- The last call of a run: the value before it, its goal and its answer. -/
structure Answered (T : Type) where
  before : Except Error T
  goal : T → Prop
  answer : Except Error Unit

structure CacheRun (T : Type) where
  state : StoreState T
  last : Option (Answered T)

/-- A store that has not read its file yet. -/
def CacheRun.fresh {T : Type} (disk : Option Bytes) : CacheRun T := ⟨⟨none, disk⟩, none⟩

namespace CachedJsonFileStore
variable {T : Type} (store : CachedJsonFileStore T) {before : Except Error T} {state : StoreState T}

def step (r : CacheRun T) (a : CachedCall T × Faults) : Option (CacheRun T) :=
  let (state, answer) := store.withCachedMut r.state a.2 a.1.closure
  some ⟨state, some ⟨store.cachedValue r.state, a.1.goal, answer.map fun _ => ()⟩⟩

/-- After a call that failed the cached value is what it was before; after one
that succeeded the value in the file has what the call is for. -/
structure Consistent (r : CacheRun T) : Prop where
  unchanged : ∀ a e, r.last = some a → a.answer = .error e → store.cachedValue r.state = a.before
  onDisk : ∀ a, r.last = some a → a.answer = .ok () →
    ∃ value, store.diskValue r.state = .ok value ∧ a.goal value

/-- The closure changes the value only when it says so, and then the value is
written, or the file is at least left as it was and the value too. -/
def Written (r : CacheRun T) (a : CachedCall T × Faults) : Prop :=
  ∀ value, store.seen r.state a.2 = .ok value →
    match a.1.closure value with
    | (value', .error _) => value' = value
    | (value', .ok op) =>
      if op.dirty then
        let (disk, written) := store.persist r.state.disk value' a.2.write
        written = .ok () ∨ value' = value ∧ disk = r.state.disk
      else value' = value

theorem cachedValue_of_coherent {s : StoreState T} {value : T} (hs : store.Coherent s)
    (h : store.cachedValue s = .ok value) : store.diskValue s = .ok value := by
  unfold cachedValue at h
  cases hc : s.cache with
  | none => simpa [hc] using h
  | some v =>
    have hv : v = value := by simpa [hc] using h
    exact hs value (hv ▸ hc)

theorem consistent_of_error {goal : T → Prop} {e : Error} (h : store.cachedValue state = before) :
    store.Consistent ⟨state, some ⟨before, goal, .error e⟩⟩ where
  unchanged := by
    rintro _ _ ⟨⟩ -
    exact h
  onDisk := by
    rintro _ ⟨⟩ h
    cases h

theorem consistent_of_ok {goal : T → Prop} {value : T} (h : store.diskValue state = .ok value) (hgoal : goal value) :
    store.Consistent ⟨state, some ⟨before, goal, .ok ()⟩⟩ where
  unchanged := by
    rintro _ _ ⟨⟩ h
    cases h
  onDisk := by
    rintro _ ⟨⟩ -
    exact ⟨value, h, hgoal⟩

theorem step_keeps {r t : CacheRun T} {a : CachedCall T × Faults} (hr : store.Coherent r.state)
    (hc : store.Written r a) (ht : store.step r a = some t) :
    store.Coherent t.state ∧ store.Consistent t := by
  have hkept : ∀ value, store.seen r.state a.2 = .ok value →
      store.cachedValue r.state = .ok value ∧ store.diskValue r.state = .ok value := fun value h =>
    ⟨store.seen_eq_ok h, store.cachedValue_of_coherent hr (store.seen_eq_ok h)⟩
  have hreached := a.1.reached
  have hcase := store.withCachedMut_cases r.state a.2 a.1.closure
  rcases hw : store.withCachedMut r.state a.2 a.1.closure with ⟨state, answer⟩
  rw [hw] at hcase
  simp only [step, hw] at ht
  obtain rfl := Option.some.inj ht
  cases hcase with
  | unread e hseen => exact ⟨hr, store.consistent_of_error rfl⟩
  | refused value value' e hseen hf =>
    obtain rfl : value' = value := by simpa [hf] using hc value hseen
    obtain ⟨hcached, hdisk⟩ := hkept value' hseen
    refine ⟨?_, store.consistent_of_error ?_⟩
    · rintro v ⟨⟩
      exact hdisk
    · exact hcached.symm
  | clean value value' op hseen hf hdirty =>
    obtain rfl : value' = value := by simpa [hf, hdirty] using hc value hseen
    obtain ⟨-, hdisk⟩ := hkept value' hseen
    refine ⟨?_, store.consistent_of_ok hdisk (hreached value' value' op hf)⟩
    rintro v ⟨⟩
    exact hdisk
  | persisted value value' op disk hseen hf hdirty hp =>
    have hload := store.persist_eq_ok hp
    refine ⟨?_, store.consistent_of_ok hload (hreached value value' op hf)⟩
    rintro v ⟨⟩
    exact hload
  | lost value value' op disk e hseen hf hdirty hp =>
    obtain ⟨rfl, rfl⟩ : value' = value ∧ disk = r.state.disk := by
      simpa [hf, hdirty, hp] using hc value hseen
    obtain ⟨hcached, hdisk⟩ := hkept value' hseen
    refine ⟨?_, store.consistent_of_error ?_⟩
    · rintro v ⟨⟩
      exact hdisk
    · exact hcached.symm

theorem consistent_of_written (disk : Option Bytes) (calls : List (CachedCall T × Faults))
    (h : Meets store.step store.Written calls (.fresh disk)) :
    Always store.step store.Consistent calls (.fresh disk) := by
  apply always_of_meets (I := fun r => store.Coherent r.state ∧ store.Consistent r)
    (fun _ _ _ hr hc ht => store.step_keeps hr.1 hc ht) (fun _ hr => hr.2) calls _ ?_ h
  refine ⟨?_, ⟨?_, ?_⟩⟩
  · rintro _ ⟨⟩
  · rintro _ _ ⟨⟩
  · rintro _ ⟨⟩

end CachedJsonFileStore

/-- `serde_json` for a type whose encodings of two bytes or less, such as the
braces of an empty map, are those of the default value only. -/
structure JsonCodec (T : Type) where
  toVec : T → Except String Bytes
  fromSlice : Bytes → Except String T
  default : T
  fromSlice_toVec : ∀ value json, toVec value = .ok json → fromSlice json = .ok value
  short : ∀ value json, toVec value = .ok json → json.length ≤ 2 → value = default

def loadJsonOrDefault {T : Type} (codec : JsonCodec T) (buf : Except Error Bytes) (stage : String) :
    Except Error T :=
  match buf with
  | .ok buf =>
    if buf.length > 2 then (codec.fromSlice buf).mapError fun message => .config message stage
    else .ok codec.default
  | .error e => if e.isNotFound then .ok codec.default else .error (e.withStage stage)

theorem loadJsonOrDefault_toVec {T : Type} (codec : JsonCodec T) (value : T) (json : Bytes)
    (stage : String) (h : codec.toVec value = .ok json) :
    loadJsonOrDefault codec (.ok json) stage = .ok value := by
  unfold loadJsonOrDefault
  by_cases hlen : json.length > 2
  · simp [hlen, codec.fromSlice_toVec value json h, Except.mapError]
  · simp [hlen, codec.short value json h (by omega)]

theorem loadJsonOrDefault_error {T : Type} (codec : JsonCodec T) (e : Error) (stage : String)
    (h : e.isNotFound = false) : ∃ e', loadJsonOrDefault codec (.error e) stage = .error e' :=
  ⟨e.withStage stage, by simp [loadJsonOrDefault, h]⟩

/-- The JSON library on the empty map and on two others. -/
def JsonCodec.ofTwoMaps {V : Type} [DecidableEq V] (mapA mapB : HashMap String V) (jsonA jsonB : Bytes) (ha : 2 < jsonA.length) (hb : 2 < jsonB.length)
    (hne : jsonB ≠ jsonA) : JsonCodec (HashMap String V) where
  toVec map :=
    if map = ∅ then .ok [123, 125]
    else if map = mapA then .ok jsonA
    else if map = mapB then .ok jsonB
    else .error "not written here"
  fromSlice json :=
    if json = [123, 125] then .ok ∅
    else if json = jsonA then .ok mapA
    else if json = jsonB then .ok mapB
    else .error "not read here"
  default := ∅
  fromSlice_toVec map json h := by
    have hempty {json : Bytes} (hlen : 2 < json.length) : json ≠ [123, 125] := by
      rintro rfl
      exact absurd hlen (by decide)
    split at h
    · rename_i hmap
      cases h
      simp [hmap]
    · split at h
      · rename_i hmap
        cases h
        simp [hmap, hempty ha]
      · split at h
        · rename_i hmap
          cases h
          simp [hmap, hempty hb, hne]
        · cases h
  short map json h hlen := by
    split at h
    · assumption
    · split at h
      · cases h
        omega
      · split at h
        · cases h
          omega
        · cases h

/-- `ChatScopedCachedJsonMapStore`: a store of this kind with a limit on its entries. -/
structure ChatScopedCachedJsonMapStore (V : Type) where
  store : CachedJsonFileStore (HashMap String V)
  maxEntries : Nat

namespace ChatScopedCachedJsonMapStore
variable {V : Type}

def new (codec : JsonCodec (HashMap String V)) (maxWriteSize : Nat) (stageCache stagePersist : String)
    (maxEntries : Nat) : ChatScopedCachedJsonMapStore V where
  store :=
    { maxWriteSize, toVec := codec.toVec, loadFn := loadJsonOrDefault codec, stageCache, stagePersist
      load_toVec := loadJsonOrDefault_toVec codec
      load_error := loadJsonOrDefault_error codec }
  maxEntries

def getCloned (chatId : String) : CachedCall (HashMap String V) where
  Result := Option V
  closure map := (map, .ok (.clean (map.lookup chatId)))
  goal _ := True
  reached _ _ _ _ := trivial

/-- `first` is the key that iteration over the map comes to first. -/
def setOwnedClosure [DecidableEq V] (maxEntries : Nat) (first : HashMap String V → Option String) (chatId : String)
    (next : V) (map : HashMap String V) : HashMap String V × Except Error (StoreOp Unit) :=
  if map.lookup chatId = some next then (map, .ok (.clean ()))
  else
    let map :=
      if chatId ∉ map ∧ map.keys.card ≥ maxEntries then
        match first map with
        | some keyToRemove => map.erase keyToRemove
        | none => map
      else map
    (map.insert chatId next, .ok (.changed ()))

def setOwned [DecidableEq V] (s : ChatScopedCachedJsonMapStore V) (first : HashMap String V → Option String)
    (chatId : String) (next : V) : CachedCall (HashMap String V) where
  Result := Unit
  closure := setOwnedClosure s.maxEntries first chatId next
  goal map := map.lookup chatId = some next
  reached map map' op h := by
    unfold setOwnedClosure at h
    split at h
    · rename_i hsame
      obtain ⟨rfl, -⟩ := Prod.mk.inj h
      exact hsame
    · obtain ⟨rfl, -⟩ := Prod.mk.inj h
      exact Finmap.lookup_insert _

def clear (chatId : String) : CachedCall (HashMap String V) where
  Result := Unit
  closure map := if chatId ∈ map then (map.erase chatId, .ok (.changed ())) else (map, .ok (.clean ()))
  goal map := chatId ∉ map
  reached map map' op h := by
    split at h
    · obtain ⟨rfl, -⟩ := Prod.mk.inj h
      exact Finmap.notMem_erase_self
    · rename_i habsent
      obtain ⟨rfl, -⟩ := Prod.mk.inj h
      exact habsent

/-- The text `{"chat-1":42}`. -/
def oneChatJson : Bytes := [123, 34, 99, 104, 97, 116, 45, 49, 34, 58, 52, 50, 125]

/-- The JSON library on the empty map and on a map of one chat. -/
def oneChatCodec : JsonCodec (HashMap String Nat) where
  toVec map :=
    if map = ∅ then .ok [123, 125]
    else if map = Finmap.singleton "chat-1" 42 then .ok oneChatJson
    else .error "not written here"
  fromSlice json :=
    if json = [123, 125] then .ok ∅
    else if json = oneChatJson then .ok (Finmap.singleton "chat-1" 42)
    else .error "not read here"
  default := ∅
  fromSlice_toVec map json h := by
    split at h
    · rename_i hmap
      cases h
      simp [hmap]
    · split at h
      · rename_i hmap
        cases h
        rw [if_neg (by decide), if_pos rfl, hmap]
      · cases h
  short map json h hlen := by
    split at h
    · assumption
    · split at h
      · cases h
        exact absurd hlen (by decide)
      · cases h

def oneChatStore : ChatScopedCachedJsonMapStore Nat :=
  new oneChatCodec maxWriteSizeHost "cache" "persist" 8

/-- The write of the first call fails and its retry answers `Ok`, with no file there. -/
theorem retry_of_failed_persist_skipped :
    let call := oneChatStore.setOwned (fun _ => none) "chat-1" 42
    ¬ Always oneChatStore.store.step oneChatStore.store.Consistent
      [(call, ⟨none, .failed (.io ⟨.other, some 5⟩ "atomic_write") none⟩), (call, ⟨none, .done⟩)]
      (.fresh none) := by
  intro call h
  have hc := h.last (t := ⟨⟨some (Finmap.singleton "chat-1" 42), none⟩,
    some ⟨.ok (Finmap.singleton "chat-1" 42), call.goal, .ok ()⟩⟩) rfl
  obtain ⟨map, hload, hmap⟩ := hc.onDisk _ rfl rfl
  obtain rfl : ∅ = map := Except.ok.inj hload
  have habsent : (∅ : HashMap String Nat).lookup "chat-1" = some 42 := hmap
  exact absurd habsent (by decide)

theorem consistent_of_written_one_call :
    Always oneChatStore.store.step oneChatStore.store.Consistent
      [(oneChatStore.setOwned (fun _ => none) "chat-1" 42, ⟨none, .done⟩)]
      (.fresh none) := by
  apply oneChatStore.store.consistent_of_written
  rintro t -
  refine ⟨?_, trivial⟩
  rintro map ⟨⟩
  exact .inl rfl

end ChatScopedCachedJsonMapStore

/-! Calls on a store that take effect as a whole or fail without any. -/

variable {T R : Type}

/-- A call whose closure is applied to the value, unless it fails before. -/
def atomically (fault : Option Error) (closure : T → T × Except Error (StoreOp R)) (value : T) : T × Except Error R :=
  match fault with
  | some e => (value, .error e)
  | none =>
    match closure value with
    | (_, .error e) => (value, .error e)
    | (value, .ok op) => (value, .ok op.result)

@[simp] theorem atomically_of_fault (e : Error) (closure : T → T × Except Error (StoreOp R)) (value : T) :
    atomically (some e) closure value = (value, .error e) := rfl

/-- Which of the calls on a store fail, for one operation of a tool. -/
structure CallFaults where
  get : Option Error
  upsert : Option Error
  delete : Option Error

namespace CachedJsonFileStore
variable {store : CachedJsonFileStore T} {s : StoreState T} {faults : Faults}
  {closure : T → T × Except Error (StoreOp R)} {value : T}

end CachedJsonFileStore
end Beetle.Platform.Storage
