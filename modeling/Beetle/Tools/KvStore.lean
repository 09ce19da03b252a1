import Mathlib.Data.Finset.Sort
import Mathlib.Data.String.Basic
import Beetle.Lib.JsonSpells
import Beetle.Lib.Maps
import Beetle.Lib.Run
import Beetle.Tools.ToolArgs

/-! The key-value tool: each call reads the whole file and may write it again. -/
namespace Beetle.Tools.KvStore
open Beetle.Lib

def kvStoreMaxEntries : Nat := 64
def kvStoreMaxKeyLen : Nat := 64
def kvStoreMaxValueLen : Nat := 512

abbrev KvMap := HashMap String String

/-- What the JSON library does for these maps: every map is printed, what is printed is read
back, and two bytes are the braces of the empty one. -/
structure KvCodec where
  toVec : KvMap → Except String Bytes
  fromSlice : Bytes → Option KvMap
  total : ∀ map, ∃ json, toVec map = .ok json
  fromSlice_toVec : ∀ map json, toVec map = .ok json → fromSlice json = some map
  short : ∀ map json, toVec map = .ok json → json.length ≤ 2 → map = ∅

/-! The text of a map, with its entries in the order of their keys. -/

def kvMember (entry : String × String) : JsonString × Json :=
  (Json.string entry.1.toList, .str (Json.string entry.2.toList))

def entriesJson (entries : List (String × String)) : Json := .obj (entries.map kvMember)

def sortedEntries (map : KvMap) : List (String × String) :=
  (map.keys.sort (· ≤ ·)).filterMap fun key => (map.lookup key).map (Prod.mk key)

/-- An entry is read into the map; the last one of a key counts. -/
def readEntry (map : KvMap) (member : JsonString × Json) : Option KvMap :=
  (Json.asString member.2).map fun value => map.insert (String.ofList member.1.value) (String.ofList value)

def readEntries : Json → Option KvMap
  | .obj members => members.foldlM readEntry ∅
  | _ => none

variable (entries : List (String × String))

theorem printedMembers : Json.PrintedMembers (entries.map kvMember) := by
  induction entries with
  | nil => trivial
  | cons entry entries ih => exact ⟨rfl, rfl, ih⟩

theorem depthMembers : Json.depthMembers (entries.map kvMember) = 0 := by
  induction entries with
  | nil => rfl
  | cons entry entries ih => simp [Json.depthMembers, kvMember, Json.depth, ih]

theorem foldlM_readEntry (map : KvMap) (entries : List (String × String)) :
    (entries.map kvMember).foldlM readEntry map = some (entries.foldl (fun map entry => map.insert entry.1 entry.2) map) := by
  induction entries generalizing map with
  | nil => rfl
  | cons entry entries ih =>
    rw [List.map_cons, List.foldlM_cons]
    simp [readEntry, kvMember, Json.asString, Json.string, ih]

/-- The entries of a map, put into another map. -/
theorem lookup_foldl_insert (map start : KvMap) (keys : List String) (key : String) :
    ((keys.filterMap fun key => (map.lookup key).map (Prod.mk key)).foldl
        (fun map entry => map.insert entry.1 entry.2) start).lookup key =
      if key ∈ keys ∧ key ∈ map then map.lookup key else start.lookup key := by
  induction keys generalizing start with
  | nil => simp
  | cons first keys ih =>
    cases hfirst : map.lookup first with
    | none =>
      have hnot : first ∉ map := Finmap.lookup_eq_none.mp hfirst
      have hiff : key ∈ first :: keys ∧ key ∈ map ↔ key ∈ keys ∧ key ∈ map := by
        rw [List.mem_cons]
        constructor
        · rintro ⟨rfl | hmem, hin⟩
          · exact absurd hin hnot
          · exact ⟨hmem, hin⟩
        · exact fun h => ⟨.inr h.1, h.2⟩
      rw [List.filterMap_cons_none (by rw [hfirst]; rfl), ih]
      simp only [hiff]
    | some value =>
      rw [List.filterMap_cons_some (by rw [hfirst]; rfl), List.foldl_cons, ih]
      by_cases hkey : key = first
      · have hin : first ∈ map := Finmap.mem_of_lookup_eq_some hfirst
        have hmem : first ∈ first :: keys := List.mem_cons_self
        rw [hkey, Finmap.lookup_insert, hfirst, ite_self, if_pos ⟨hmem, hin⟩]
      · simp [hkey, Finmap.lookup_insert_of_ne _ hkey]

theorem readEntries_sortedEntries (map : KvMap) : readEntries (entriesJson (sortedEntries map)) = some map := by
  rw [entriesJson, readEntries, foldlM_readEntry]
  refine congrArg some (Finmap.ext_lookup fun key => ?_)
  rw [sortedEntries, lookup_foldl_insert]
  simp only [Finset.mem_sort, Finmap.mem_keys, and_self, Finmap.lookup_empty]
  by_cases hkey : key ∈ map
  · exact if_pos hkey
  · rw [if_neg hkey, Finmap.lookup_eq_none.mpr hkey]

theorem fromStr_entriesJson :
    Json.fromStr 128 (Json.print .compact 0 (entriesJson entries)) = some (entriesJson entries) := by
  have hdepth : (entriesJson entries).depth ≤ 128 := by
    rw [entriesJson, Json.depth, depthMembers]
    decide
  have hprinted : (entriesJson entries).Printed := printedMembers entries
  have h := Json.fromStr_print .compact hprinted hdepth 0 Json.spaces_nil Json.spaces_nil
  rwa [List.append_nil, List.nil_append] at h

/-- The text of two characters is the one of the empty map. -/
theorem entries_eq_nil {entries : List (String × String)}
    (h : (utf8 (Json.print .compact 0 (entriesJson entries))).length ≤ 2) : entries = [] := by
  have hchars := (length_le_utf8 _).trans h
  cases entries with
  | nil => rfl
  | cons entry entries =>
    simp only [entriesJson, Json.print, List.map_cons, List.isEmpty_cons, Bool.false_eq_true, if_false, Json.printMembers,
      kvMember, Json.printString, List.length_cons, List.length_append] at hchars
    omega

/-- The JSON library on these maps, where the entries are in the order of their keys. -/
def jsonCodec : KvCodec where
  toVec map := .ok (utf8 (Json.print .compact 0 (entriesJson (sortedEntries map))))
  fromSlice buf := ((fromUtf8 buf).bind (Json.fromStr 128)).bind readEntries
  total map := ⟨_, rfl⟩
  fromSlice_toVec := by
    intro map json h
    rw [← Except.ok.inj h, fromUtf8_utf8, Option.bind_some, fromStr_entriesJson, Option.bind_some,
      readEntries_sortedEntries]
  short := by
    intro map json h hshort
    rw [← Except.ok.inj h] at hshort
    have hread := readEntries_sortedEntries map
    rw [entries_eq_nil hshort] at hread
    exact (Option.some.inj hread).symm

/-- Whether the read and the write of a call fail. -/
structure FileFaults where
  read : Option Error
  write : Option Error

def kvError {α : Type} (message : String) : Except Error α := .error (.config message "kv_store")

/-- A file that is not there, cannot be read or does not parse is the empty map. -/
def loadMap (codec : KvCodec) (file : Option Bytes) (fault : Option Error) : KvMap :=
  match fault, file with
  | none, some buf => if 2 < buf.length then (codec.fromSlice buf).getD ∅ else ∅
  | _, _ => ∅

def saveMap (codec : KvCodec) (file : Option Bytes) (fault : Option Error) (map : KvMap) :
    Option Bytes × Except Error Unit :=
  match codec.toVec map, fault with
  | .error message, _ => (file, .error (.config message "kv_store_save"))
  | .ok _, some e => (file, .error e)
  | .ok json, none => (some json, .ok ())

def isKeyChar (c : Char) : Bool := c.isAlphanum || c = '_' || c = '-' || c = '.'

def validateKey (key : String) : Except Error Unit :=
  if key = "" then kvError "key must not be empty"
  else if kvStoreMaxKeyLen < key.utf8ByteSize then
    kvError ("key too long (max " ++ toString kvStoreMaxKeyLen ++ " bytes)")
  else if key.toList.all isKeyChar = false then kvError "key may only contain [a-zA-Z0-9_\\-.] characters"
  else .ok ()

def requiredArg (obj : ToolArgs) (field : String) : Except Error String :=
  match obj.str field with
  | some value => .ok value
  | none => kvError ("missing " ++ field)

/-- The key of a call. -/
def keyArg (obj : ToolArgs) : Except Error String := do
  let key ← requiredArg obj "key"
  validateKey key
  .ok key

/-- The key and the value of a set. -/
def setArgs (obj : ToolArgs) : Except Error (String × String) := do
  let key ← requiredArg obj "key"
  let value ← requiredArg obj "value"
  validateKey key
  if kvStoreMaxValueLen < value.utf8ByteSize then
    kvError ("value too long (max " ++ toString kvStoreMaxValueLen ++ " bytes)")
  else .ok (key, value)

def keysJson (map : KvMap) : Json := .arr ((map.keys.sort (· ≤ ·)).map fun key => .str (Json.string key.toList))

section
variable (codec : KvCodec) (file : Option Bytes) (faults : FileFaults)

def get (key : String) : String := ((loadMap codec file faults.read).lookup key).getD "key not found"

/-- A key that is there takes no new entry. -/
def set (key value : String) : Option Bytes × Except Error String :=
  let map := loadMap codec file faults.read
  if key ∉ map ∧ kvStoreMaxEntries ≤ map.keys.card then
    (file, kvError ("store full (max " ++ toString kvStoreMaxEntries ++ " entries)"))
  else
    let (file, saved) := saveMap codec file faults.write (map.insert key value)
    (file, saved.map fun _ => "ok")

def delete (key : String) : Option Bytes × Except Error String :=
  let map := loadMap codec file faults.read
  if key ∉ map then (file, .ok "key not found")
  else
    let (file, saved) := saveMap codec file faults.write (map.erase key)
    (file, saved.map fun _ => "ok")

def listKeys : String := String.ofList (Json.print .compact 0 (keysJson (loadMap codec file faults.read)))

@[grind =] def execute (obj : ToolArgs) : Option Bytes × Except Error String :=
  match obj.str "op" with
  | none => (file, kvError "missing op")
  | some op =>
    if op = "get" then (file, (keyArg obj).map (get codec file faults))
    else if op = "set" then
      match setArgs obj with
      | .error e => (file, .error e)
      | .ok (key, value) => set codec file faults key value
    else if op = "delete" then
      match keyArg obj with
      | .error e => (file, .error e)
      | .ok key => delete codec file faults key
    else if op = "list_keys" then (file, .ok (listKeys codec file faults))
    else (file, kvError "op must be one of: get, set, delete, list_keys")

end

/-- The set that a call asks for. -/
@[grind =] def setRequest (obj : ToolArgs) : Option (String × String) :=
  if obj.str "op" = some "set" then (setArgs obj).toOption else none

/-- The key that a call asks to delete. -/
def deleteRequest (obj : ToolArgs) : Option String :=
  if obj.str "op" = some "delete" then (keyArg obj).toOption else none

/-- The file, and the map that the sets and deletes make that have reported ok. -/
structure KvRun where
  file : Option Bytes
  reported : KvMap

def KvRun.start : KvRun := ⟨none, ∅⟩

def reportedAfter (reported : KvMap) (obj : ToolArgs) (answer : Except Error String) : KvMap :=
  if answer.toOption = some "ok" then
    match setRequest obj, deleteRequest obj with
    | some (key, value), _ => reported.insert key value
    | none, some key => reported.erase key
    | none, none => reported
  else reported

def step (codec : KvCodec) (r : KvRun) (call : ToolArgs × FileFaults) : Option KvRun :=
  let (file, answer) := execute codec r.file call.2 call.1
  some ⟨file, reportedAfter r.reported call.1 answer⟩

/-- What the calls find that read the file: each key with the value of the last set that reported
ok since the last delete that did. -/
structure IsMap (codec : KvCodec) (r : KvRun) : Prop where
  get : ∀ obj faults key, faults.read = none → obj.str "op" = some "get" → keyArg obj = .ok key →
    (execute codec r.file faults obj).2 = .ok ((r.reported.lookup key).getD "key not found")
  kept : ∀ key, (loadMap codec r.file none).lookup key = r.reported.lookup key
  entries : (loadMap codec r.file none).keys.card ≤ kvStoreMaxEntries

/-- A set that goes on after a failed read finds no other key in the file, or does not write it. -/
def LosesNothing (codec : KvCodec) (r : KvRun) (call : ToolArgs × FileFaults) : Prop :=
  ∀ key value, setRequest call.1 = some (key, value) → call.2.read ≠ none → call.2.write = none →
    ∀ other ∈ loadMap codec r.file none, other = key

section
variable {codec : KvCodec} {file : Option Bytes} {faults : FileFaults} {obj : ToolArgs}

theorem loadMap_of_fault {e : Error} : loadMap codec file (some e) = ∅ := rfl

theorem loadMap_of_toVec {map : KvMap} {json : Bytes} (h : codec.toVec map = .ok json) :
    loadMap codec (some json) none = map := by
  unfold loadMap
  by_cases hlong : 2 < json.length
  · simp only [hlong, if_true, codec.fromSlice_toVec map json h, Option.getD_some]
  · simp only [hlong, if_false]
    exact (codec.short map json h (Nat.not_lt.mp hlong)).symm

/-- A map is written whole, or the file stays as it is. -/
theorem saveMap_cases (codec : KvCodec) (file : Option Bytes) (faults : FileFaults) (map : KvMap) :
    (∃ e, faults.write = some e ∧ saveMap codec file faults.write map = (file, .error e)) ∨
    (faults.write = none ∧ ∃ json, loadMap codec (some json) none = map ∧
      saveMap codec file faults.write map = (some json, .ok ())) := by
  obtain ⟨json, hjson⟩ := codec.total map
  cases hfault : faults.write with
  | some e => exact .inl ⟨e, rfl, by simp only [saveMap, hjson]⟩
  | none => exact .inr ⟨rfl, json, loadMap_of_toVec hjson, by simp only [saveMap, hjson]⟩

/-- What a call can do: it leaves the file and reports no change, or it sets or deletes a key. -/
inductive Effect (codec : KvCodec) (file : Option Bytes) (faults : FileFaults) (obj : ToolArgs) :
    Option Bytes × Except Error String → Prop
  | kept {answer : Except Error String} (hkept : ∀ reported, reportedAfter reported obj answer = reported) :
      Effect codec file faults obj (file, answer)
  | stored {key value : String} {json : Bytes} (hrequest : setRequest obj = some (key, value))
      (hwrite : faults.write = none)
      (hroom : key ∈ loadMap codec file faults.read ∨ (loadMap codec file faults.read).keys.card < kvStoreMaxEntries)
      (hload : loadMap codec (some json) none = (loadMap codec file faults.read).insert key value) :
      Effect codec file faults obj (some json, .ok "ok")
  | removed {key : String} {json : Bytes} (hrequest : deleteRequest obj = some key)
      (hthere : key ∈ loadMap codec file faults.read)
      (hload : loadMap codec (some json) none = (loadMap codec file faults.read).erase key) :
      Effect codec file faults obj (some json, .ok "ok")

theorem reportedAfter_set {key value : String} (h : setRequest obj = some (key, value)) (reported : KvMap) :
    reportedAfter reported obj (.ok "ok") = reported.insert key value := by
  simp only [reportedAfter, Except.toOption, if_true, h]

theorem reportedAfter_delete {key : String} (h : deleteRequest obj = some key) (reported : KvMap) :
    reportedAfter reported obj (.ok "ok") = reported.erase key := by
  have hset : setRequest obj = none := by
    unfold setRequest
    refine if_neg fun hop => ?_
    rw [deleteRequest, hop] at h
    exact absurd h (by simp)
  simp only [reportedAfter, Except.toOption, if_true, hset, h]

theorem reportedAfter_error (reported : KvMap) (e : Error) : reportedAfter reported obj (.error e) = reported :=
  if_neg (by simp [Except.toOption])

/-- A call that asks neither for a set nor for a deletion reports none. -/
theorem reportedAfter_other (hset : obj.str "op" ≠ some "set") (hdelete : obj.str "op" ≠ some "delete")
    (reported : KvMap) (answer : Except Error String) : reportedAfter reported obj answer = reported := by
  simp only [reportedAfter, setRequest, deleteRequest, if_neg hset, if_neg hdelete, ite_self]

theorem effect_set {key value : String} (hrequest : setRequest obj = some (key, value)) :
    Effect codec file faults obj (set codec file faults key value) := by
  unfold set
  dsimp only
  split
  · exact .kept fun reported => reportedAfter_error reported _
  · rename_i hroom
    have hroom' : key ∈ loadMap codec file faults.read ∨ (loadMap codec file faults.read).keys.card < kvStoreMaxEntries := by
      by_contra hnot
      rw [not_or, Nat.not_lt] at hnot
      exact hroom hnot
    rcases saveMap_cases codec file faults ((loadMap codec file faults.read).insert key value) with
      ⟨e, -, hsave⟩ | ⟨hwrite, json, hload, hsave⟩
    · rw [hsave]
      exact .kept fun reported => reportedAfter_error reported e
    · rw [hsave]
      exact .stored hrequest hwrite hroom' hload

theorem effect_delete {key : String} (hrequest : deleteRequest obj = some key) :
    Effect codec file faults obj (delete codec file faults key) := by
  unfold delete
  dsimp only
  split
  · apply Effect.kept
    intro reported
    exact if_neg (by decide)
  · rename_i hthere
    rcases saveMap_cases codec file faults ((loadMap codec file faults.read).erase key) with
      ⟨e, -, hsave⟩ | ⟨-, json, hload, hsave⟩
    · rw [hsave]
      exact .kept fun reported => reportedAfter_error reported e
    · rw [hsave]
      exact .removed hrequest (not_not.mp hthere) hload

theorem execute_effect (codec : KvCodec) (file : Option Bytes) (faults : FileFaults) (obj : ToolArgs) :
    Effect codec file faults obj (execute codec file faults obj) := by
  unfold execute
  cases hop : obj.str "op" with
  | none => exact .kept fun reported => reportedAfter_error reported _
  | some op =>
    dsimp only
    by_cases hget : op = "get"
    · rw [if_pos hget]
      exact .kept fun reported => reportedAfter_other (by simp [hop, hget]) (by simp [hop, hget]) reported _
    · rw [if_neg hget]
      by_cases hset : op = "set"
      · rw [if_pos hset]
        cases hargs : setArgs obj with
        | error e => exact .kept fun reported => reportedAfter_error reported e
        | ok args =>
          apply effect_set
          rw [setRequest, hop, hset, if_pos rfl, hargs]
          rfl
      · rw [if_neg hset]
        by_cases hdelete : op = "delete"
        · rw [if_pos hdelete]
          cases hargs : keyArg obj with
          | error e => exact .kept fun reported => reportedAfter_error reported e
          | ok key =>
            apply effect_delete
            rw [deleteRequest, hop, hdelete, if_pos rfl, hargs]
            rfl
        · rw [if_neg hdelete]
          split
          · exact .kept fun reported => reportedAfter_other (by simp [hop, hset]) (by simp [hop, hdelete]) reported _
          · exact .kept fun reported => reportedAfter_error reported _

end

/-- The part of the map that the file carries. -/
structure Stores (codec : KvCodec) (r : KvRun) : Prop where
  kept : loadMap codec r.file none = r.reported
  entries : r.reported.keys.card ≤ kvStoreMaxEntries

theorem keys_insert (map : KvMap) (key value : String) : (map.insert key value).keys = insert key map.keys := by
  ext other
  rw [Finmap.mem_keys, Finmap.mem_insert, Finset.mem_insert, Finmap.mem_keys]

/-- An entry that takes the place of another one, or for which there is room. -/
theorem card_insert_le {map : KvMap} {key value : String} (hle : map.keys.card ≤ kvStoreMaxEntries)
    (hroom : key ∈ map ∨ map.keys.card < kvStoreMaxEntries) : (map.insert key value).keys.card ≤ kvStoreMaxEntries := by
  rw [keys_insert]
  rcases hroom with hmem | hlt
  · rwa [Finset.insert_eq_of_mem (Finmap.mem_keys.mpr hmem)]
  · exact (Finset.card_insert_le key map.keys).trans hlt

/-- Where there is no other key, it makes no difference whether the map was read. -/
theorem insert_empty_of_only {map : KvMap} {key value : String} (h : ∀ other ∈ map, other = key) :
    (∅ : KvMap).insert key value = map.insert key value := by
  apply Finmap.ext_lookup
  intro other
  by_cases heq : other = key
  · rw [heq, Finmap.lookup_insert, Finmap.lookup_insert]
  · rw [Finmap.lookup_insert_of_ne _ heq, Finmap.lookup_insert_of_ne _ heq, Finmap.lookup_empty]
    exact (Finmap.lookup_eq_none.mpr fun hmem => heq (h other hmem)).symm

section
variable {codec : KvCodec} {r t : KvRun} {call : ToolArgs × FileFaults} {fault : Option Error}

theorem Stores.isMap (h : Stores codec r) : IsMap codec r where
  get := by
    intro obj faults key hread hop hkey
    simp only [execute, hop, if_true, hkey, Except.map, get, hread, h.kept]
  kept := fun key => congrArg (Finmap.lookup key) h.kept
  entries := h.kept ▸ h.entries

theorem stores_start : Stores codec .start := ⟨rfl, Nat.zero_le _⟩

/-- A set that reports ok. -/
theorem Stores.set {key value : String} {json : Bytes} (h : Stores codec r)
    (hroom : key ∈ loadMap codec r.file fault ∨ (loadMap codec r.file fault).keys.card < kvStoreMaxEntries)
    (hload : loadMap codec (some json) none = (loadMap codec r.file fault).insert key value)
    (honly : fault ≠ none → ∀ other ∈ loadMap codec r.file none, other = key) :
    Stores codec ⟨some json, r.reported.insert key value⟩ := by
  rw [h.kept] at honly
  cases fault with
  | none =>
    rw [h.kept] at hroom hload
    exact ⟨hload, card_insert_le h.entries hroom⟩
  | some e =>
    have honly' := honly (Option.some_ne_none e)
    refine ⟨hload.trans (insert_empty_of_only honly'), ?_⟩
    change (r.reported.insert key value).keys.card ≤ kvStoreMaxEntries
    rw [← insert_empty_of_only honly']
    exact card_insert_le (Nat.zero_le _) (.inr (by decide))

/-- A delete that reports ok has read the map. -/
theorem Stores.delete {key : String} {json : Bytes} (h : Stores codec r) (hthere : key ∈ loadMap codec r.file fault)
    (hload : loadMap codec (some json) none = (loadMap codec r.file fault).erase key) :
    Stores codec ⟨some json, r.reported.erase key⟩ := by
  cases fault with
  | some e => exact absurd hthere Finmap.notMem_empty
  | none =>
    rw [h.kept] at hload
    refine ⟨hload, ?_⟩
    change (r.reported.erase key).keys.card ≤ kvStoreMaxEntries
    rw [Finmap.keys_erase]
    exact (Finset.card_erase_le).trans h.entries

theorem step_eq : step codec r call = some ⟨(execute codec r.file call.2 call.1).1,
    reportedAfter r.reported call.1 (execute codec r.file call.2 call.1).2⟩ := rfl

theorem step_stores (h : Stores codec r) (hc : LosesNothing codec r call) (ht : step codec r call = some t) :
    Stores codec t := by
  have heffect := execute_effect codec r.file call.2 call.1
  rw [step_eq, Option.some.injEq] at ht
  rw [← ht]
  generalize execute codec r.file call.2 call.1 = result at heffect
  cases heffect with
  | kept hkept =>
    rw [hkept]
    exact h
  | stored hrequest hwrite hroom hload =>
    rw [reportedAfter_set hrequest]
    exact h.set hroom hload fun hread => hc _ _ hrequest hread hwrite
  | removed hrequest hthere hload =>
    rw [reportedAfter_delete hrequest]
    exact h.delete hthere hload

theorem execute_setRequest {obj : ToolArgs} {key value : String} (h : setRequest obj = some (key, value))
    (file : Option Bytes) (faults : FileFaults) :
    execute codec file faults obj = set codec file faults key value := by
  unfold setRequest at h
  by_cases hop : obj.str "op" = some "set"
  · rw [if_pos hop] at h
    have hargs := eq_ok_of_toOption h
    simp [execute, hop, hargs]
  · rw [if_neg hop] at h
    cases h

/-- A set of the only key. -/
theorem set_of_empty {file : Option Bytes} {faults : FileFaults} (hempty : loadMap codec file faults.read = ∅)
    (hwrite : faults.write = none) (key value : String) :
    ∃ json, loadMap codec (some json) none = (∅ : KvMap).insert key value ∧
      set codec file faults key value = (some json, .ok "ok") := by
  rcases saveMap_cases codec file faults ((∅ : KvMap).insert key value) with ⟨e', hfault, -⟩ | ⟨-, json, hload, hsave⟩
  · rw [hwrite] at hfault
    cases hfault
  · refine ⟨json, hload, ?_⟩
    have hroom : ¬ (key ∉ (∅ : KvMap) ∧ kvStoreMaxEntries ≤ (∅ : KvMap).keys.card) := fun hfull => absurd hfull.2 (by decide)
    simp only [set, hempty, if_neg hroom, hsave, Except.map]

/-- A set after a failed read, whose write goes through, throws the other keys away. -/
theorem step_loses (h : Stores codec r) (hc : ¬ LosesNothing codec r call) (ht : step codec r call = some t) :
    ¬ IsMap codec t := by
  unfold LosesNothing at hc
  push Not at hc
  obtain ⟨key, value, hrequest, hread, hwrite, other, hother, hne⟩ := hc
  intro hmap
  obtain ⟨e, hread⟩ := Option.ne_none_iff_exists'.mp hread
  have hempty : loadMap codec r.file call.2.read = ∅ := by
    rw [hread]
    exact loadMap_of_fault
  obtain ⟨json, hload, hset⟩ := set_of_empty hempty hwrite key value
  rw [step_eq, execute_setRequest hrequest, hset, reportedAfter_set hrequest, Option.some.injEq] at ht
  have hkept := hmap.kept other
  rw [← ht, hload, Finmap.lookup_insert_of_ne _ hne, Finmap.lookup_insert_of_ne _ hne, Finmap.lookup_empty, ← h.kept] at hkept
  exact Finmap.lookup_eq_none.mp hkept.symm hother

end

section
variable (codec : KvCodec)

/-- The store is the map of what its calls have reported, as long as no set writes the map that it
could not read while another key is stored. -/
theorem always_isMap_iff (calls : List (ToolArgs × FileFaults)) :
    Always (step codec) (IsMap codec) calls .start ↔ Meets (step codec) (LosesNothing codec) calls .start :=
  always_iff_meets (fun _ _ _ => step_stores) (fun _ h => h.isMap) (fun _ _ _ h ht hc => step_loses h hc ht)
    calls _ stores_start

end

def setCall (key value : Char) : ToolArgs :=
  [(Json.string "op".toList, .str (Json.string "set".toList)), (Json.string "key".toList, .str (Json.string [key])),
    (Json.string "value".toList, .str (Json.string [value]))]

/-- A set of another key, whose read of the file fails. -/
def unreadRun : List (ToolArgs × FileFaults) :=
  [(setCall 'a' '1', ⟨none, none⟩), (setCall 'b' '2', ⟨some (.io ⟨.other, some 5⟩ "state_fs"), none⟩)]

theorem unread_set_loses_key : ¬ Always (step jsonCodec) (IsMap jsonCodec) unreadRun .start := by
  intro h
  have hfirst : setRequest (setCall 'a' '1') = some ("a", "1") := by decide
  have hsecond : setRequest (setCall 'b' '2') = some ("b", "2") := by decide
  have hempty : loadMap jsonCodec none (⟨none, none⟩ : FileFaults).read = ∅ := rfl
  obtain ⟨json, hload, hset⟩ := set_of_empty hempty rfl "a" "1"
  have hstep : step jsonCodec .start (setCall 'a' '1', ⟨none, none⟩) = some ⟨some json, (∅ : KvMap).insert "a" "1"⟩ := by
    rw [step_eq]
    dsimp only [KvRun.start]
    rw [execute_setRequest hfirst, hset, reportedAfter_set hfirst]
  have hstores : Stores jsonCodec ⟨some json, (∅ : KvMap).insert "a" "1"⟩ :=
    step_stores stores_start (fun _ _ _ hread => absurd rfl hread) hstep
  obtain ⟨t, ht⟩ : ∃ t, step jsonCodec ⟨some json, (∅ : KvMap).insert "a" "1"⟩
      (setCall 'b' '2', ⟨some (.io ⟨.other, some 5⟩ "state_fs"), none⟩) = some t := ⟨_, step_eq⟩
  refine step_loses hstores ?_ ht ((h.2 _ hstep).2 t ht)
  intro honly
  have hother : "a" ∈ loadMap jsonCodec (some json) none := by
    rw [hload]
    exact Finmap.mem_insert.mpr (.inl rfl)
  exact absurd (honly "b" "2" hsecond (Option.some_ne_none _) rfl "a" hother) (by decide)

end Beetle.Tools.KvStore
