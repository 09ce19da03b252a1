import Beetle.Lib.JsonCut
import Beetle.Lib.JsonRead

/-! Texts that spell a value wherever they stand, and how larger ones are put together from them. -/
namespace Beetle.Lib.Json

/-- White space may be left after the value. -/
def Spells (depth : Nat) (text : List Char) (json : Json) : Prop :=
  ∀ (fuel : Nat) (rest : List Char), 2 * (text ++ rest).length + 1 ≤ fuel → Follows rest →
    ∃ post, Spaces post ∧ readValue fuel depth (text ++ rest) = some (json, post ++ rest)

/-- Items up to the bracket that closes them. -/
def SpellsItems (depth : Nat) (text : List Char) (items : List Json) : Prop :=
  ∀ (fuel : Nat) (rest : List Char), 2 * (text ++ ']' :: rest).length + 2 ≤ fuel →
    readItems fuel depth (text ++ ']' :: rest) = some (items, rest)

def SpellsMembers (depth : Nat) (text : List Char) (members : List (JsonString × Json)) : Prop :=
  ∀ (fuel : Nat) (rest : List Char), 2 * (text ++ '\x7d' :: rest).length + 2 ≤ fuel →
    readMembers fuel depth (text ++ '\x7d' :: rest) = some (members, rest)

variable {depth : Nat} {text : List Char} {fuel : Nat} {text rest : List Char}

theorem spaces_nil : Spaces [] := fun _ h => (nomatch h)

theorem spaces_of_skipSpace (h : skipSpace text = []) : Spaces text :=
  List.dropWhile_eq_nil_iff.mp h

/-- What is printed spells the value that was printed. -/
theorem spells_print {json : Json} (h : json.Printed) (hdepth : json.depth ≤ depth) : Spells depth (print .compact 0 json) json := by
  intro fuel rest hfuel hrest
  refine ⟨[], spaces_nil, readValue_print .compact json h spaces_nil hdepth hrest ?_⟩
  rw [List.nil_append]
  omega

theorem spells_string (text : List Char) : Spells depth (printString text) (.str (string text)) := by
  have hprint : print .compact 0 (.str (string text)) = printString text := by rw [print, string]
  have hspells := spells_print (show Printed (.str (string text)) from rfl) (Nat.zero_le depth)
  rw [hprint] at hspells
  exact hspells

/-- A number up to the end of its text. -/
theorem eq_append_of_readValue_num {text literal : List Char}
    (h : readValue fuel depth text = some (.num literal, [])) :
    isNumber literal = true ∧ ∃ pre, Spaces pre ∧ text = pre ++ literal := by
  obtain ⟨pre, hpre, hsplit⟩ := exists_skipSpace text
  cases fuel with
  | zero =>
    rw [readValue] at h
    cases h
  | succ fuel =>
    rw [readValue] at h
    cases hskip : skipSpace text with
    | nil =>
      rw [hskip] at h
      cases h
    | cons c tail =>
      rw [hskip] at h hsplit
      dsimp only at h
      by_cases hquote : c = '"'
      · rw [if_pos hquote] at h
        obtain ⟨found, hfound, heq⟩ := Option.map_eq_some_iff.mp h
        cases heq
      rw [if_neg hquote] at h
      by_cases harray : c = '['
      · rw [if_pos harray] at h
        split at h
        · cases h
        · split at h
          · cases h
          · obtain ⟨found, hfound, heq⟩ := Option.map_eq_some_iff.mp h
            cases heq
      rw [if_neg harray] at h
      by_cases hobject : c = '\x7b'
      · rw [if_pos hobject] at h
        split at h
        · cases h
        · split at h
          · cases h
          · obtain ⟨found, hfound, heq⟩ := Option.map_eq_some_iff.mp h
            cases heq
      rw [if_neg hobject] at h
      unfold readScalar at h
      split at h
      · cases h
      · cases h
      · cases h
      · obtain ⟨⟨digits, rest⟩, hnumber, heq⟩ := Option.map_eq_some_iff.mp h
        obtain ⟨hjson, rfl⟩ := Prod.mk.inj heq
        obtain rfl := Json.num.inj hjson
        unfold readNumber at hnumber
        dsimp only at hnumber
        split at hnumber
        · rename_i hvalid
          obtain ⟨rfl, hrest⟩ := Prod.mk.inj (Option.some.inj hnumber)
          have hall := @List.takeWhile_append_dropWhile _ isNumberChar (c :: tail)
          rw [hrest, List.append_nil] at hall
          exact ⟨hvalid, pre, hpre, by rw [hall]; exact hsplit⟩
        · cases hnumber

theorem spells_of_fromStr {json : Json} (h : fromStr depth text = some json) : Spells depth text json := by
  intro fuel rest hfuel hrest
  rw [List.length_append] at hfuel
  unfold fromStr at h
  split at h
  · rename_i found left hread
    split at h
    · rename_i hskip
      obtain rfl := Option.some.inj h
      by_cases hended : Ended found left rest
      · exact ⟨left, spaces_of_skipSpace hskip, (readsOn (by omega)).value hread hended⟩
      · -- a number that nothing follows
        obtain ⟨rfl, hnumber⟩ : left = [] ∧ ∃ literal, found = .num literal := by
          unfold Ended at hended
          simp only [not_forall, not_or, not_not] at hended
          obtain ⟨hnil, -, hliteral⟩ := hended
          exact ⟨hnil, hliteral⟩
        obtain ⟨literal, rfl⟩ := hnumber
        obtain ⟨hvalid, pre, hpre, rfl⟩ := eq_append_of_readValue_num hread
        have hprinted : Printed (.num literal) := hvalid
        have hprint : print .compact 0 (.num literal) = literal := by rw [print]
        have hvalue := @readValue_print .compact (.num literal) hprinted fuel depth 0 pre rest hpre (Nat.zero_le depth) hrest
        rw [hprint] at hvalue
        refine ⟨[], spaces_nil, ?_⟩
        rw [List.append_assoc]
        refine hvalue ?_
        simp only [List.length_append] at hfuel ⊢
        omega
    · cases h
  · cases h

theorem Spells.fromStr {json : Json} (h : Spells depth text json) : fromStr depth text = some json := by
  obtain ⟨post, hpost, hread⟩ := h (2 * text.length + 1) [] (by rw [List.append_nil]) nofun
  rw [List.append_nil, List.append_nil] at hread
  have hskip : skipSpace post = [] := List.dropWhile_eq_nil_iff.mpr hpost
  unfold Json.fromStr
  rw [hread]
  exact if_pos hskip

/-! Containers. -/

theorem isSpace_of_skipSpace {c : Char} (h : skipSpace text = c :: rest) : isSpace c = false := by
  induction text with
  | nil => cases h
  | cons d text ih =>
    rw [skipSpace, List.dropWhile_cons] at h
    split at h
    · exact ih h
    · rename_i hspace
      obtain ⟨rfl, -⟩ := List.cons.inj h
      exact Bool.eq_false_iff.mpr hspace

theorem skipSpace_spaces {post rest : List Char} {c : Char} (hpost : Spaces post) (hc : isSpace c = false) :
    skipSpace (post ++ c :: rest) = c :: rest := by
  rw [skipSpace_append hpost, skipSpace_cons hc]

theorem spellsItems_singleton {item : Json} (h : Spells depth text item) : SpellsItems depth text [item] := by
  intro fuel rest hfuel
  obtain ⟨fuel, rfl⟩ : ∃ n, fuel = n + 1 := ⟨fuel - 1, by omega⟩
  obtain ⟨post, hpost, hread⟩ := h fuel (']' :: rest) (by omega) (follows_cons (by decide) rest)
  rw [readItems, hread]
  simp only [skipSpace_spaces hpost (show isSpace ']' = false by decide)]

theorem SpellsItems.cons {text more : List Char} {item : Json} {items : List Json} (h : Spells depth text item)
    (hmore : SpellsItems depth more items) : SpellsItems depth (text ++ ',' :: more) (item :: items) := by
  intro fuel rest hfuel
  obtain ⟨fuel, rfl⟩ : ∃ n, fuel = n + 1 := ⟨fuel - 1, by omega⟩
  rw [List.append_assoc, List.cons_append] at hfuel ⊢
  obtain ⟨post, hpost, hread⟩ := h fuel (',' :: (more ++ ']' :: rest)) (by omega) (follows_cons (by decide) _)
  have htail := hmore fuel rest (by rw [List.length_append, List.length_cons] at hfuel; omega)
  rw [readItems, hread]
  simp only [skipSpace_spaces hpost (show isSpace ',' = false by decide), htail, Option.map_some]

/-- A member as it is written. -/
def memberText (key text : List Char) : List Char := printString key ++ ':' :: text

theorem memberText_append (key text rest : List Char) :
    memberText key text ++ rest = '"' :: (key.flatMap escapeChar ++ '"' :: ':' :: (text ++ rest)) := by
  simp [memberText, printString]

theorem readValue_of_memberText {key text rest : List Char} {value : Json} (h : Spells depth text value)
    (hfuel : 2 * (memberText key text ++ rest).length + 2 ≤ fuel + 1) (hrest : Follows rest) :
    ∃ post, Spaces post ∧ readValue fuel depth (text ++ rest) = some (value, post ++ rest) := by
  rw [memberText_append] at hfuel
  exact h fuel rest (by simp only [List.length_append, List.length_cons] at hfuel ⊢; omega) hrest

theorem spellsMembers_singleton {key text : List Char} {value : Json} (h : Spells depth text value) :
    SpellsMembers depth (memberText key text) [(string key, value)] := by
  intro fuel rest hfuel
  obtain ⟨fuel, rfl⟩ : ∃ n, fuel = n + 1 := ⟨fuel - 1, by omega⟩
  obtain ⟨post, hpost, hread⟩ := readValue_of_memberText h hfuel (follows_cons (by decide) rest)
  rw [memberText_append, readMembers, skipSpace_cons (by decide)]
  simp only [readChars_escape, skipSpace_cons (show isSpace ':' = false by decide), hread,
    skipSpace_spaces hpost (show isSpace '\x7d' = false by decide)]

theorem SpellsMembers.cons {key text more : List Char} {value : Json} {members : List (JsonString × Json)}
    (h : Spells depth text value) (hmore : SpellsMembers depth more members) :
    SpellsMembers depth (memberText key text ++ ',' :: more) ((string key, value) :: members) := by
  intro fuel rest hfuel
  obtain ⟨fuel, rfl⟩ : ∃ n, fuel = n + 1 := ⟨fuel - 1, by omega⟩
  rw [List.append_assoc, List.cons_append] at hfuel ⊢
  obtain ⟨post, hpost, hread⟩ := readValue_of_memberText h hfuel (follows_cons (by decide) _)
  have htail := hmore fuel rest (by rw [List.length_append, List.length_cons] at hfuel; omega)
  rw [memberText_append, readMembers, skipSpace_cons (by decide)]
  simp only [readChars_escape, skipSpace_cons (show isSpace ':' = false by decide), hread,
    skipSpace_spaces hpost (show isSpace ',' = false by decide), htail, Option.map_some]

theorem readValue_close (h : skipSpace text = ']' :: rest) : readValue fuel depth text = none := by
  cases fuel with
  | zero => rw [readValue]
  | succ fuel =>
    rw [readValue, h]
    dsimp only
    rw [if_neg (by decide), if_neg (by decide), if_neg (by decide), readScalar, readNumber_letter (by decide)]
    · rfl
    all_goals exact fun _ heq => absurd (List.cons.inj heq).1 (by decide)

theorem spells_empty_array : Spells (depth + 1) ['[', ']'] (.arr []) := by
  have hprint : print .compact 0 (.arr []) = ['[', ']'] := rfl
  have h : Spells (depth + 1) (print .compact 0 (.arr [])) (.arr []) := spells_print trivial (by simp [Json.depth, depthItems])
  rwa [hprint] at h

theorem SpellsItems.array {text : List Char} {items : List Json} (h : SpellsItems depth text items) :
    Spells (depth + 1) ('[' :: text ++ [']']) (.arr items) := by
  intro fuel rest hfuel hrest
  obtain ⟨fuel, rfl⟩ : ∃ n, fuel = n + 1 := ⟨fuel - 1, by omega⟩
  have htext : '[' :: text ++ [']'] ++ rest = '[' :: (text ++ ']' :: rest) := by simp
  rw [htext] at hfuel ⊢
  have hread := h fuel rest (by rw [List.length_cons] at hfuel; omega)
  obtain ⟨c, tail, hskip⟩ := skipSpace_of_readItems hread
  obtain ⟨pre, hpre, hsplit⟩ := exists_skipSpace (text ++ ']' :: rest)
  have hclose : c ≠ ']' := by
    rintro rfl
    cases fuel with
    | zero =>
      rw [readItems] at hread
      cases hread
    | succ fuel =>
      rw [readItems, readValue_close hskip] at hread
      cases hread
  rw [hskip] at hsplit
  refine ⟨[], spaces_nil, ?_⟩
  rw [hsplit] at hread ⊢
  have hopen := @readValue_array fuel depth [] spaces_nil tail c (isSpace_of_skipSpace hskip) hclose pre hpre
  rw [List.nil_append] at hopen
  rw [hopen, hread]
  rfl

theorem SpellsMembers.object {text : List Char} {members : List (JsonString × Json)} (h : SpellsMembers depth text members) :
    Spells (depth + 1) ('\x7b' :: text ++ ['\x7d']) (.obj members) := by
  intro fuel rest hfuel hrest
  obtain ⟨fuel, rfl⟩ : ∃ n, fuel = n + 1 := ⟨fuel - 1, by omega⟩
  have htext : '\x7b' :: text ++ ['\x7d'] ++ rest = '\x7b' :: (text ++ '\x7d' :: rest) := by simp
  rw [htext] at hfuel ⊢
  have hread := h fuel rest (by rw [List.length_cons] at hfuel; omega)
  obtain ⟨c, tail, hskip⟩ := skipSpace_of_readMembers hread
  obtain ⟨pre, hpre, hsplit⟩ := exists_skipSpace (text ++ '\x7d' :: rest)
  have hclose : c ≠ '\x7d' := by
    rintro rfl
    cases fuel with
    | zero =>
      rw [readMembers] at hread
      cases hread
    | succ fuel =>
      rw [readMembers, hskip] at hread
      cases hread
  rw [hskip] at hsplit
  refine ⟨[], spaces_nil, ?_⟩
  rw [hsplit] at hread ⊢
  have hopen := @readValue_object fuel depth [] spaces_nil tail c (isSpace_of_skipSpace hskip) hclose pre hpre
  rw [List.nil_append] at hopen
  rw [hopen, hread]
  rfl

theorem spells_empty_object : Spells (depth + 1) ['\x7b', '\x7d'] (.obj []) := by
  have hprint : print .compact 0 (.obj []) = ['\x7b', '\x7d'] := rfl
  have h : Spells (depth + 1) (print .compact 0 (.obj [])) (.obj []) :=
    spells_print trivial (by simp [Json.depth, depthMembers])
  rwa [hprint] at h

/-- A value beside the text that it is written as. -/
structure Written where
  text : List Char
  json : Json

namespace Written

def Ok (depth : Nat) (w : Written) : Prop := Spells depth w.text w.json

def string (text : List Char) : Written := ⟨printString text, .str (Json.string text)⟩
def number (n : Nat) : Written := ⟨decimal n, .num (decimal n)⟩
def true : Written := ⟨['t', 'r', 'u', 'e'], .bool Bool.true⟩

def itemsText : List Written → List Char
  | [] => []
  | item :: items => item.text ++ items.flatMap (',' :: ·.text)

def membersText : List (List Char × Written) → List Char
  | [] => []
  | (key, value) :: members => memberText key value.text ++ members.flatMap fun m => ',' :: memberText m.1 m.2.text

def array (items : List Written) : Written := ⟨'[' :: itemsText items ++ [']'], .arr (items.map json)⟩

def object (members : List (List Char × Written)) : Written :=
  ⟨'\x7b' :: membersText members ++ ['\x7d'], .obj (members.map fun m => (Json.string m.1, m.2.json))⟩

theorem ok_string (text : List Char) : (string text).Ok depth := spells_string text

theorem ok_number (n : Nat) : (number n).Ok depth := by
  have hprint : print .compact 0 (.num (decimal n)) = decimal n := by rw [print]
  have h : Spells depth (print .compact 0 (.num (decimal n))) (.num (decimal n)) :=
    spells_print (show Printed (.num (decimal n)) from isNumber_decimal n) (Nat.zero_le depth)
  rwa [hprint] at h

theorem ok_true : true.Ok depth := by
  have h : Spells depth (print .compact 0 (.bool Bool.true)) (.bool Bool.true) := spells_print trivial (Nat.zero_le depth)
  exact h

theorem spellsItems {item : Written} {items : List Written} (h : ∀ i ∈ item :: items, i.Ok depth) :
    SpellsItems depth (itemsText (item :: items)) ((item :: items).map json) := by
  induction items generalizing item with
  | nil =>
    rw [itemsText, List.flatMap_nil, List.append_nil]
    exact spellsItems_singleton (h item List.mem_cons_self)
  | cons next items ih => exact (ih fun i hi => h i (List.mem_cons_of_mem _ hi)).cons (h item List.mem_cons_self)

theorem spellsMembers {member : List Char × Written} {members : List (List Char × Written)}
    (h : ∀ m ∈ member :: members, m.2.Ok depth) :
    SpellsMembers depth (membersText (member :: members)) ((member :: members).map fun m => (Json.string m.1, m.2.json)) := by
  induction members generalizing member with
  | nil =>
    rw [membersText, List.flatMap_nil, List.append_nil]
    exact spellsMembers_singleton (h member List.mem_cons_self)
  | cons next members ih => exact (ih fun m hm => h m (List.mem_cons_of_mem _ hm)).cons (h member List.mem_cons_self)

theorem ok_array {items : List Written} (h : ∀ item ∈ items, item.Ok depth) : (array items).Ok (depth + 1) := by
  cases items with
  | nil => exact spells_empty_array
  | cons item items => exact (spellsItems h).array

theorem ok_object {members : List (List Char × Written)} (h : ∀ m ∈ members, m.2.Ok depth) :
    (object members).Ok (depth + 1) := by
  cases members with
  | nil => exact spells_empty_object
  | cons member members => exact (spellsMembers h).object

end Written

end Beetle.Lib.Json
