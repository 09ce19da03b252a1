import Mathlib.Data.Char
import Mathlib.Data.Prod.Lex
import Beetle.Platform.PrivateGardenFailures

/-! What the private garden is for: the documents of each chat, found by their paths. -/
namespace Beetle.Platform.Storage
open Beetle.Lib StoragePrivateGardenStore

abbrev Garden := String → List PrivateGardenDoc

namespace Garden

/-- Documents by their last change; of two that were changed at the same time the path decides. -/
def age (doc : PrivateGardenDoc) : Lex (Nat × List Char) := toLex (doc.updatedAt.toNat, doc.path)

/-- All but the oldest document. -/
def dropOldest (docs : List PrivateGardenDoc) : List PrivateGardenDoc :=
  docs.filter fun doc => docs.any fun other => age other < age doc

/-- A document in the place of the one at its path, or after the others if there is none. -/
def put (docs : List PrivateGardenDoc) (docPath content : List Char) (nowSecs : UInt64) : List PrivateGardenDoc :=
  if docs.any fun doc => doc.path = docPath then
    docs.map fun doc => if doc.path = docPath then ⟨docPath, content, nowSecs, saturatingSucc doc.revision⟩ else doc
  else
    (if docs.length < privateGardenMaxDocsPerChat then docs else dropOldest docs) ++ [⟨docPath, content, nowSecs, 1⟩]

def lookup (docs : List PrivateGardenDoc) (docPath : List Char) : Option PrivateGardenDoc :=
  docs.find? fun doc => doc.path = docPath

def without (docs : List PrivateGardenDoc) (docPath : List Char) : List PrivateGardenDoc :=
  docs.filter fun doc => doc.path ≠ docPath

def move (docs : List PrivateGardenDoc) (source target : List Char) (nowSecs : UInt64) : List PrivateGardenDoc :=
  match lookup docs source with
  | none => docs
  | some doc => without (without docs source) target ++ [⟨target, doc.content, nowSecs, saturatingSucc doc.revision⟩]

def perform (garden : Garden) : GardenCall → Garden
  | .list _ _ => garden
  | .read _ _ => garden
  | .write chatId docPath content nowSecs =>
    match normalizePrivateGardenDocPath docPath with
    | .error _ => garden
    | .ok path =>
      if privateGardenMaxDocBytes < (utf8 content).length then garden
      else Function.update garden chatId (put (garden chatId) path content nowSecs)
  | .moveDoc chatId fromPath toPath nowSecs =>
    match normalizePrivateGardenDocPath fromPath, normalizePrivateGardenDocPath toPath with
    | .ok source, .ok target =>
      if source = target then garden else Function.update garden chatId (move (garden chatId) source target nowSecs)
    | _, _ => garden
  | .delete chatId docPath =>
    match normalizePrivateGardenDocPath docPath with
    | .error _ => garden
    | .ok path => Function.update garden chatId (without (garden chatId) path)

/-- What holds of the documents of one chat. -/
structure Sound (docs : List PrivateGardenDoc) : Prop where
  nodup : (docs.map PrivateGardenDoc.path).Nodup
  few : docs.length ≤ privateGardenMaxDocsPerChat
  small : ∀ doc ∈ docs, (utf8 doc.content).length ≤ privateGardenMaxDocBytes

variable {docs : List PrivateGardenDoc} {doc : PrivateGardenDoc} {docPath : List Char}
  {front back : List PrivateGardenDoc}

/-- A document stands between others with other paths. -/
theorem split_of_lookup (h : Sound docs)
    (hdoc : lookup docs docPath = some doc) : doc.path = docPath ∧ ∃ front back, docs = front ++ doc :: back ∧
      (∀ other ∈ front, other.path ≠ docPath) ∧ ∀ other ∈ back, other.path ≠ docPath := by
  obtain ⟨hpath, front, back, rfl, hfront⟩ := List.find?_eq_some_iff_append.mp hdoc
  obtain rfl : doc.path = docPath := by simpa using hpath
  refine ⟨rfl, front, back, rfl, fun other hother => by simpa using hfront other hother, fun other hother hsame => ?_⟩
  have hnodup := h.nodup
  rw [List.map_append, List.map_cons] at hnodup
  exact (List.nodup_cons.mp hnodup.of_append_right).1 (List.mem_map.mpr ⟨other, hother, hsame⟩)

theorem lookup_eq_none_iff : lookup docs docPath = none ↔ ∀ doc ∈ docs, doc.path ≠ docPath := by
  unfold lookup
  rw [List.find?_eq_none]
  simp

theorem mem_without : doc ∈ without docs docPath ↔ doc ∈ docs ∧ doc.path ≠ docPath := by
  unfold without
  rw [List.mem_filter, decide_eq_true_iff]

theorem without_of_lacks (h : ∀ doc ∈ docs, doc.path ≠ docPath) : without docs docPath = docs := by
  unfold without
  rw [List.filter_eq_self]
  intro doc hdoc
  exact decide_eq_true (h doc hdoc)

theorem without_split
    (hfront : ∀ other ∈ front, other.path ≠ doc.path) (hback : ∀ other ∈ back, other.path ≠ doc.path) :
    without (front ++ doc :: back) doc.path = front ++ back := by
  have hself : without [doc] doc.path = [] := by simp [without]
  calc without (front ++ doc :: back) doc.path
      = without front doc.path ++ (without [doc] doc.path ++ without back doc.path) := by
        simp only [without, ← List.filter_append, List.singleton_append]
    _ = front ++ back := by rw [hself, without_of_lacks hfront, without_of_lacks hback, List.nil_append]

theorem sound_of_sublist {docs docs' : List PrivateGardenDoc} (h : Sound docs) (hsub : docs'.Sublist docs) : Sound docs' where
  nodup := h.nodup.sublist (hsub.map _)
  few := hsub.length_le.trans h.few
  small doc hdoc := h.small doc (hsub.subset hdoc)

theorem sound_without (h : Sound docs) (docPath : List Char) : Sound (without docs docPath) :=
  sound_of_sublist h List.filter_sublist

/-- A new document after others that lack its path. -/
theorem sound_concat (h : Sound docs)
    (hlacks : ∀ other ∈ docs, other.path ≠ doc.path) (hroom : docs.length < privateGardenMaxDocsPerChat)
    (hsmall : (utf8 doc.content).length ≤ privateGardenMaxDocBytes) : Sound (docs ++ [doc]) where
  nodup := by
    rw [List.map_append, List.map_singleton]
    refine h.nodup.append (List.nodup_singleton _) fun path hpath hnew => ?_
    obtain ⟨other, hother, rfl⟩ := List.mem_map.mp hpath
    exact hlacks other hother (List.mem_singleton.mp hnew)
  few := by
    rw [List.length_append, List.length_singleton]
    omega
  small other hother := by
    rcases List.mem_append.mp hother with hold | hnew
    · exact h.small other hold
    · rw [List.mem_singleton.mp hnew]
      exact hsmall

/-- A document in the place of another at its path. -/
theorem sound_replaced {doc doc' : PrivateGardenDoc} (h : Sound (front ++ doc :: back))
    (hpath : doc'.path = doc.path) (hsmall : (utf8 doc'.content).length ≤ privateGardenMaxDocBytes) :
    Sound (front ++ doc' :: back) where
  nodup := by
    have hnodup := h.nodup
    rw [List.map_append, List.map_cons] at hnodup ⊢
    rw [hpath]
    exact hnodup
  few := by
    have hfew := h.few
    simp only [List.length_append, List.length_cons] at hfew ⊢
    exact hfew
  small other hother := by
    rcases List.mem_append.mp hother with hfront | hrest
    · exact h.small other (List.mem_append_left _ hfront)
    · rcases List.mem_cons.mp hrest with rfl | hback
      · exact hsmall
      · exact h.small other (List.mem_append_right _ (List.mem_cons_of_mem _ hback))

/-- Of the documents around the oldest one none is dropped. -/
theorem dropOldest_split (h : Sound (front ++ doc :: back))
    (holdest : ∀ other ∈ front ++ doc :: back, age doc ≤ age other) : dropOldest (front ++ doc :: back) = front ++ back := by
  have hlacks : ∀ other ∈ front ++ back, other.path ≠ doc.path := by
    have hnodup := h.nodup
    rw [List.map_append, List.map_cons, List.nodup_middle, List.nodup_cons, ← List.map_append] at hnodup
    intro other hother hsame
    exact hnodup.1 (List.mem_map.mpr ⟨other, hother, hsame⟩)
  have hkept : ∀ other ∈ front ++ back, ((front ++ doc :: back).any fun first => age first < age other) = true := by
    intro other hother
    have hmem : other ∈ front ++ doc :: back := by
      rcases List.mem_append.mp hother with hfront | hback
      · exact List.mem_append_left _ hfront
      · exact List.mem_append_right _ (List.mem_cons_of_mem _ hback)
    refine List.any_eq_true.mpr ⟨doc, List.mem_append_right _ List.mem_cons_self, decide_eq_true ?_⟩
    refine lt_of_le_of_ne (holdest other hmem) fun hage => hlacks other hother ?_
    exact (congrArg Prod.snd (toLex.injective hage)).symm
  have hgone : ((front ++ doc :: back).any fun first => age first < age doc) = false := by
    refine List.any_eq_false.mpr fun other hother => ?_
    rw [decide_eq_true_iff]
    exact not_lt_of_ge (holdest other hother)
  unfold dropOldest
  rw [List.filter_append, List.filter_cons_of_neg (by rw [hgone]; exact Bool.false_ne_true)]
  rw [List.filter_eq_self.mpr fun other hother => hkept other (List.mem_append_left _ hother),
    List.filter_eq_self.mpr fun other hother => hkept other (List.mem_append_right _ hother)]

end Garden

end Beetle.Platform.Storage
