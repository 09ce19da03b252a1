import Beetle.Lib.JsonPrint
import Mathlib.Data.Char
import Mathlib.Data.List.Lex

/-! What a JSON text says: strings without how they are written, objects as maps. A value is a tree
in which the members of the objects are in order and each key is there once. -/
namespace Beetle.Lib.Json

mutual

def beq : Json → Json → Bool
  | .null, .null => true
  | .bool a, .bool b => a = b
  | .num a, .num b => a = b
  | .str a, .str b => a = b
  | .arr as, .arr bs => beqItems as bs
  | .obj as, .obj bs => beqMembers as bs
  | _, _ => false

def beqItems : List Json → List Json → Bool
  | [], [] => true
  | a :: as, b :: bs => beq a b && beqItems as bs
  | _, _ => false

def beqMembers : List (JsonString × Json) → List (JsonString × Json) → Bool
  | [], [] => true
  | (k, a) :: as, (l, b) :: bs => decide (k = l) && (beq a b && beqMembers as bs)
  | _, _ => false

end

mutual

theorem beq_iff : ∀ a b : Json, beq a b = true ↔ a = b
  | .null, b => by cases b <;> simp [beq]
  | .bool _, b => by cases b <;> simp [beq]
  | .num _, b => by cases b <;> simp [beq]
  | .str _, b => by cases b <;> simp [beq]
  | .arr as, b => by
    cases b with
    | arr bs => rw [beq, beqItems_iff as bs, Json.arr.injEq]
    | null | bool | num | str | obj => simp [beq]
  | .obj as, b => by
    cases b with
    | obj bs => rw [beq, beqMembers_iff as bs, Json.obj.injEq]
    | null | bool | num | str | arr => simp [beq]

theorem beqItems_iff : ∀ as bs : List Json, beqItems as bs = true ↔ as = bs
  | [], bs => by cases bs <;> simp [beqItems]
  | a :: as, bs => by
    cases bs with
    | nil => simp [beqItems]
    | cons b bs => rw [beqItems, Bool.and_eq_true, beq_iff a b, beqItems_iff as bs, List.cons.injEq]

theorem beqMembers_iff : ∀ as bs : List (JsonString × Json), beqMembers as bs = true ↔ as = bs
  | [], bs => by cases bs <;> simp [beqMembers]
  | (k, a) :: as, bs => by
    cases bs with
    | nil => simp [beqMembers]
    | cons m bs =>
      rw [beqMembers, Bool.and_eq_true, Bool.and_eq_true, beq_iff a m.2, beqMembers_iff as bs, decide_eq_true_eq,
        List.cons.injEq, Prod.ext_iff, and_assoc]

end

instance : DecidableEq Json := fun a b => decidable_of_iff _ (beq_iff a b)

/-- How numbers are read and written again; those out of range are refused. -/
structure NumberFormat where
  canon : List Char → Option (List Char)
  isNumber_canon : ∀ {l l' : List Char}, canon l = some l' → isNumber l' = true
  canon_canon : ∀ {l l' : List Char}, canon l = some l' → canon l' = some l'

/-- Numbers that stay as they are written. -/
def NumberFormat.literal : NumberFormat where
  canon l := if isNumber l then some l else none
  isNumber_canon {l l'} h := by
    split at h
    · rename_i hnumber
      rwa [← Option.some.inj h]
    · cases h
  canon_canon {l l'} h := by
    split at h
    · rename_i hnumber
      rw [← Option.some.inj h, if_pos hnumber]
    · cases h

/-- `BTreeMap::insert`: a key that is there gets the new value. -/
def insertMember (key : JsonString) (value : Json) : List (JsonString × Json) → List (JsonString × Json)
  | [] => [(key, value)]
  | (k, v) :: members =>
    if key.value < k.value then (key, value) :: (k, v) :: members
    else if key.value = k.value then (key, value) :: members
    else (k, v) :: insertMember key value members

def sortMembers (members : List (JsonString × Json)) : List (JsonString × Json) :=
  members.foldl (fun sorted member => insertMember member.1 member.2 sorted) []

section
variable (N : NumberFormat)

mutual

/-- `serde_json::Value` of a text that has been read. -/
def value : Json → Option Json
  | .null => some .null
  | .bool b => some (.bool b)
  | .num literal => (N.canon literal).map .num
  | .str s => some (.str (string s.value))
  | .arr items => (valueItems items).map .arr
  | .obj members => (valueMembers members).map fun members => .obj (sortMembers members)

def valueItems : List Json → Option (List Json)
  | [] => some []
  | item :: items =>
    match value item, valueItems items with
    | some item, some items => some (item :: items)
    | _, _ => none

def valueMembers : List (JsonString × Json) → Option (List (JsonString × Json))
  | [] => some []
  | (key, item) :: members =>
    match value item, valueMembers members with
    | some item, some members => some ((string key.value, item) :: members)
    | _, _ => none

end

end

/-! Members in order. -/

/-- Keys go up. -/
def Ascending (members : List (JsonString × Json)) : Prop := members.Pairwise fun a b => a.1.value < b.1.value

variable {members : List (JsonString × Json)} {m : JsonString × Json}

theorem mem_insertMember {key : JsonString} {item : Json}
    (h : m ∈ insertMember key item members) : m = (key, item) ∨ m ∈ members := by
  induction members with
  | nil => exact .inl (List.mem_singleton.mp h)
  | cons member members ih =>
    obtain ⟨k, v⟩ := member
    unfold insertMember at h
    split at h
    · exact List.mem_cons.mp h
    · split at h
      · exact (List.mem_cons.mp h).imp id (List.mem_cons_of_mem _)
      · rcases List.mem_cons.mp h with rfl | h
        · exact .inr List.mem_cons_self
        · exact (ih h).imp id (List.mem_cons_of_mem _)

theorem Ascending.insertMember (h : Ascending members) (key : JsonString)
    (item : Json) : Ascending (insertMember key item members) := by
  induction members with
  | nil => exact List.pairwise_singleton _ _
  | cons member members ih =>
    obtain ⟨k, v⟩ := member
    obtain ⟨hfirst, hrest⟩ := List.pairwise_cons.mp h
    unfold Json.insertMember
    split
    · rename_i hlt
      refine List.pairwise_cons.mpr ⟨?_, h⟩
      intro m hm
      rcases List.mem_cons.mp hm with rfl | hm
      · exact hlt
      · exact lt_trans hlt (hfirst m hm)
    · rename_i hnot
      split
      · rename_i heq
        refine List.pairwise_cons.mpr ⟨?_, hrest⟩
        intro m hm
        rw [heq]
        exact hfirst m hm
      · rename_i hne
        refine List.pairwise_cons.mpr ⟨?_, ih hrest⟩
        intro m hm
        rcases mem_insertMember hm with rfl | hm
        · exact lt_of_le_of_ne (le_of_not_gt hnot) (Ne.symm hne)
        · exact hfirst m hm

theorem ascending_foldl (members sorted : List (JsonString × Json)) (h : Ascending sorted) :
    Ascending (members.foldl (fun sorted member => insertMember member.1 member.2 sorted) sorted) := by
  induction members generalizing sorted with
  | nil => exact h
  | cons member members ih => exact ih _ (h.insertMember member.1 member.2)

theorem ascending_sortMembers (members : List (JsonString × Json)) : Ascending (sortMembers members) :=
  ascending_foldl members [] List.Pairwise.nil

theorem mem_foldl_insertMember {members sorted : List (JsonString × Json)}
    (h : m ∈ members.foldl (fun sorted member => insertMember member.1 member.2 sorted) sorted) :
    m ∈ members ∨ m ∈ sorted := by
  induction members generalizing sorted with
  | nil => exact .inr h
  | cons member members ih =>
    rcases ih h with h | h
    · exact .inl (List.mem_cons_of_mem _ h)
    · rcases mem_insertMember h with rfl | h
      · exact .inl List.mem_cons_self
      · exact .inr h

theorem mem_of_mem_sortMembers (h : m ∈ sortMembers members) : m ∈ members := by
  rcases mem_foldl_insertMember h with h | h
  · exact h
  · cases h

/-- A key above all others goes to the end. -/
theorem insertMember_append {key : JsonString} (item : Json)
    (h : ∀ m ∈ members, m.1.value < key.value) : insertMember key item members = members ++ [(key, item)] := by
  induction members with
  | nil => rfl
  | cons member members ih =>
    obtain ⟨k, v⟩ := member
    rw [List.forall_mem_cons] at h
    rw [insertMember, if_neg (lt_asymm h.1), if_neg (ne_of_gt h.1), ih h.2, List.cons_append]

theorem sortMembers_eq_self (h : Ascending members) : sortMembers members = members := by
  induction members using List.reverseRecOn with
  | nil => rfl
  | append_singleton members member ih =>
    obtain ⟨hmembers, -, hlast⟩ := List.pairwise_append.mp h
    rw [sortMembers, List.foldl_append, List.foldl_cons, List.foldl_nil]
    rw [sortMembers] at ih
    rw [ih hmembers]
    apply insertMember_append
    intro m hm
    exact hlast m hm member (List.mem_singleton_self member)

/-! A value is a tree that stays the same when it is printed and read again. -/

/-- What holds of a value. -/
structure Settled (N : NumberFormat) (v : Json) : Prop where
  printed : v.Printed
  same : value N v = some v

theorem printedItems_iff (items : List Json) : PrintedItems items ↔ ∀ item ∈ items, item.Printed := by
  induction items with
  | nil => simp [PrintedItems]
  | cons item items ih => rw [PrintedItems, ih, List.forall_mem_cons]

theorem printedMembers_iff (members : List (JsonString × Json)) :
    PrintedMembers members ↔ ∀ m ∈ members, m.1 = string m.1.value ∧ m.2.Printed := by
  induction members with
  | nil => simp [PrintedMembers]
  | cons member members ih => rw [PrintedMembers, ih, List.forall_mem_cons, and_assoc]

section
variable {N : NumberFormat}

theorem valueItems_eq_self {items : List Json} (h : ∀ item ∈ items, Settled N item) :
    valueItems N items = some items := by
  induction items with
  | nil => rfl
  | cons item items ih =>
    rw [List.forall_mem_cons] at h
    rw [valueItems, h.1.same, ih h.2]

theorem valueMembers_eq_self {members : List (JsonString × Json)}
    (h : ∀ m ∈ members, m.1 = string m.1.value ∧ Settled N m.2) : valueMembers N members = some members := by
  induction members with
  | nil => rfl
  | cons member members ih =>
    rw [List.forall_mem_cons] at h
    rw [valueMembers, h.1.2.same, ih h.2, ← h.1.1]

mutual

theorem settled_value : ∀ (json : Json) {v : Json}, value N json = some v → Settled N v
  | .null, v, h => by
    obtain rfl := Option.some.inj h
    exact ⟨trivial, rfl⟩
  | .bool b, v, h => by
    obtain rfl := Option.some.inj h
    exact ⟨trivial, rfl⟩
  | .num literal, v, h => by
    obtain ⟨l, hl, rfl⟩ := Option.map_eq_some_iff.mp h
    exact ⟨N.isNumber_canon hl, by rw [value, N.canon_canon hl]; rfl⟩
  | .str s, v, h => by
    obtain rfl := Option.some.inj h
    exact ⟨rfl, rfl⟩
  | .arr items, v, h => by
    obtain ⟨items', hitems, rfl⟩ := Option.map_eq_some_iff.mp h
    have hsettled := settled_valueItems items hitems
    refine ⟨(printedItems_iff items').mpr fun item hitem => (hsettled item hitem).printed, ?_⟩
    rw [value, valueItems_eq_self hsettled]
    rfl
  | .obj members, v, h => by
    obtain ⟨members', hmembers, rfl⟩ := Option.map_eq_some_iff.mp h
    have hsettled : ∀ m ∈ sortMembers members', m.1 = string m.1.value ∧ Settled N m.2 :=
      fun m hm => settled_valueMembers members hmembers m (mem_of_mem_sortMembers hm)
    refine ⟨(printedMembers_iff _).mpr fun m hm => ⟨(hsettled m hm).1, (hsettled m hm).2.printed⟩, ?_⟩
    rw [value, valueMembers_eq_self hsettled, Option.map_some, sortMembers_eq_self (ascending_sortMembers members')]

theorem settled_valueItems : ∀ (items : List Json) {items' : List Json}, valueItems N items = some items' →
    ∀ item ∈ items', Settled N item
  | [], items', h, item, hitem => by
    obtain rfl := Option.some.inj h
    cases hitem
  | json :: items, items', h, item, hitem => by
    rw [valueItems] at h
    split at h
    · rename_i v vs hv hvs
      obtain rfl := Option.some.inj h
      rcases List.mem_cons.mp hitem with rfl | hitem
      · exact settled_value json hv
      · exact settled_valueItems items hvs item hitem
    · cases h

theorem settled_valueMembers : ∀ (members : List (JsonString × Json)) {members' : List (JsonString × Json)},
    valueMembers N members = some members' → ∀ m ∈ members', m.1 = string m.1.value ∧ Settled N m.2
  | [], members', h, m, hm => by
    obtain rfl := Option.some.inj h
    cases hm
  | (key, json) :: members, members', h, m, hm => by
    rw [valueMembers] at h
    split at h
    · rename_i v vs hv hvs
      obtain rfl := Option.some.inj h
      rcases List.mem_cons.mp hm with rfl | hm
      · exact ⟨rfl, settled_value json hv⟩
      · exact settled_valueMembers members hvs m hm
    · cases h

end

end

/-! Texts. -/

mutual

theorem depth_le_length (L : Layout) (level : Nat) : ∀ json : Json, json.depth ≤ (print L level json).length
  | .null => by simp [depth]
  | .bool _ => by simp [depth]
  | .num _ => by simp [depth]
  | .str _ => by simp [depth]
  | .arr items => by
    have hitems := depthItems_le_length L (level + 1) items
    rw [depth, print]
    cases items with
    | nil => simp [depthItems]
    | cons item items =>
      simp only [List.isEmpty_cons, Bool.false_eq_true, if_false, List.length_append, List.length_cons]
      omega
  | .obj members => by
    have hmembers := depthMembers_le_length L (level + 1) members
    rw [depth, print]
    cases members with
    | nil => simp [depthMembers]
    | cons member members =>
      simp only [List.isEmpty_cons, Bool.false_eq_true, if_false, List.length_append, List.length_cons]
      omega

theorem depthItems_le_length (L : Layout) (level : Nat) : ∀ items : List Json,
    depthItems items ≤ (printItems L level items).length
  | [] => by simp [depthItems]
  | item :: items => by
    have hitem := depth_le_length L level item
    have hitems := depthItems_le_length L level items
    rw [depthItems, printItems]
    cases items with
    | nil =>
      simp only [depthItems, List.length_append]
      omega
    | cons =>
      simp only [List.isEmpty_cons, Bool.false_eq_true, if_false, List.length_append, List.length_cons]
      omega

theorem depthMembers_le_length (L : Layout) (level : Nat) : ∀ members : List (JsonString × Json),
    depthMembers members ≤ (printMembers L level members).length
  | [] => by simp [depthMembers]
  | (key, item) :: members => by
    have hitem := depth_le_length L level item
    have hmembers := depthMembers_le_length L level members
    rw [depthMembers, printMembers]
    cases members with
    | nil =>
      simp only [depthMembers, List.length_append, List.length_cons]
      omega
    | cons =>
      simp only [List.isEmpty_cons, Bool.false_eq_true, if_false, List.length_append, List.length_cons]
      omega

end

/-- What a text says; containers may be nested as far as they like. -/
def valueOf (N : NumberFormat) (text : List Char) : Option Json := (fromStr text.length text).bind (value N)

/-- `Value::to_string`. -/
def toText (v : Json) : List Char := print .compact 0 v

/-- A value that is printed is read back. -/
theorem valueOf_toText {N : NumberFormat} {v : Json} (h : Settled N v) : valueOf N (toText v) = some v := by
  have hread := fromStr_print .compact h.printed (depth_le_length .compact 0 v) 0 (List.forall_mem_nil _) (List.forall_mem_nil _)
  rw [List.nil_append, List.append_nil] at hread
  rw [valueOf, toText, hread]
  exact h.same

end Beetle.Lib.Json
