import Beetle.Lib.JsonGrammar
import Beetle.Lib.JsonValue
import Beetle.Lib.Search

/-! JSON that a model puts into its prose, and how it is found there. -/
namespace Beetle.Memory
open Beetle.Lib

inductive LlmJsonPayload where
  | absent
  | null
  | value (json : Json)

/-- What a character outside of strings makes of the two depths, and whether it begins a string. -/
def bracketChar (objectDepth arrayDepth : Nat) (ch : Char) : Option (Nat × Nat × Bool) :=
  if ch = '"' then some (objectDepth, arrayDepth, true)
  else if ch = '\x7b' then some (objectDepth + 1, arrayDepth, false)
  else if ch = '\x7d' then if objectDepth = 0 then none else some (objectDepth - 1, arrayDepth, false)
  else if ch = '[' then some (objectDepth, arrayDepth + 1, false)
  else if ch = ']' then if arrayDepth = 0 then none else some (objectDepth, arrayDepth - 1, false)
  else some (objectDepth, arrayDepth, false)

@[grind =]
def balancedLoop (objectDepth arrayDepth : Nat) (inString escaped : Bool) (idx : Nat) : List Char → Option Nat
  | [] => none
  | ch :: rest =>
    if inString then
      if escaped then balancedLoop objectDepth arrayDepth true false (idx + ch.utf8Size) rest
      else balancedLoop objectDepth arrayDepth (ch ≠ '"') (ch = '\\') (idx + ch.utf8Size) rest
    else
      match bracketChar objectDepth arrayDepth ch with
      | none => none
      | some (objectDepth, arrayDepth, inString) =>
        if objectDepth = 0 ∧ arrayDepth = 0 then some (idx + ch.utf8Size)
        else balancedLoop objectDepth arrayDepth inString escaped (idx + ch.utf8Size) rest

/-- In bytes. -/
def balancedJsonPrefixLen (raw : List Char) : Option Nat := balancedLoop 0 0 false false 0 raw

def opensJson (ch : Char) : Bool := ch = '\x7b' || ch = '['

def extractFirstJsonSlice : List Char → Option (List Char)
  | [] => none
  | ch :: rest =>
    if opensJson ch then
      match balancedJsonPrefixLen (ch :: rest) with
      | some len => slice (ch :: rest) 0 len
      | none => extractFirstJsonSlice rest
    else extractFirstJsonSlice rest

def codeFence : List Char := ['\x60', '\x60', '\x60']

/-- What is between the line of the first fence and the fence after it. -/
def extractFirstCodeFenceBody (raw : List Char) : Option (List Char) :=
  (splitAtFirst codeFence raw).bind fun (_, afterFence) =>
    (splitAtFirst ['\n'] afterFence).bind fun (_, body) => (splitAtFirst codeFence body).map fun (body, _) => trim body

section
variable (N : Json.NumberFormat)

/-- `serde_json::from_str::<Value>`. -/
def valueFromStr (text : List Char) : Option Json := (Json.fromStr 127 text).bind (Json.value N)

def parseJsonishText (raw : List Char) : Option Json :=
  let trimmed := trim raw
  if trimmed = [] then none
  else (valueFromStr N trimmed).or ((extractFirstJsonSlice trimmed).bind (valueFromStr N))

def mapPayload : Json → LlmJsonPayload
  | .null => .null
  | value => .value value

def parseLlmJsonPayload (raw : List Char) : LlmJsonPayload :=
  let trimmed := trim raw
  if trimmed = [] then .absent
  else
    match parseJsonishText N trimmed with
    | some value => mapPayload value
    | none =>
      match (extractFirstCodeFenceBody trimmed).bind (parseJsonishText N) with
      | some value => mapPayload value
      | none => .absent

end

/-! When the JSON object in a model's prose is the one that is found. -/

variable {N : Json.NumberFormat} {objectDepth arrayDepth idx : Nat} {text rest inner : List Char}
  {c : Char} {inString escaped : Bool}

/-! The count of brackets. -/

theorem balancedLoop_inString (h : Json.InString text) :
    balancedLoop objectDepth arrayDepth true false idx (text ++ rest) =
      balancedLoop objectDepth arrayDepth true false (idx + (utf8 text).length) rest := by
  induction h generalizing idx with
  | nil => rfl
  | @plain c text hquote hbackslash _ ih =>
    rw [List.cons_append, balancedLoop, if_pos rfl, if_neg (by decide), decide_eq_true hquote, decide_eq_false hbackslash, ih,
      length_utf8_cons, Nat.add_assoc]
  | @escape c text _ ih =>
    have hbackslash : (decide (('\\' : Char) ≠ '"') = true) ∧ decide (('\\' : Char) = '\\') = true := by decide
    rw [List.cons_append, balancedLoop, if_pos rfl, if_neg (by decide), hbackslash.1, hbackslash.2, List.cons_append,
      balancedLoop, if_pos rfl, if_pos rfl, ih, length_utf8_cons, length_utf8_cons]
    congr 1
    omega

/-- Where some bracket is open, closed text is passed over. -/
theorem balancedLoop_nested (h : Json.Nested text) (hopen : ¬ (objectDepth = 0 ∧ arrayDepth = 0)) :
    balancedLoop objectDepth arrayDepth false false idx (text ++ rest) =
      balancedLoop objectDepth arrayDepth false false (idx + (utf8 text).length) rest := by
  induction h generalizing objectDepth arrayDepth idx rest with
  | nil => rfl
  | @plain c hplain =>
    have hc : bracketChar objectDepth arrayDepth c = some (objectDepth, arrayDepth, false) := by
      simp only [Json.isPlain, List.mem_cons, List.not_mem_nil, or_false, not_or, decide_eq_true_eq] at hplain
      obtain ⟨hquote, harray, harrayEnd, hobject, hobjectEnd⟩ := hplain
      rw [bracketChar, if_neg hquote, if_neg hobject, if_neg hobjectEnd, if_neg harray, if_neg harrayEnd]
    rw [List.cons_append, List.nil_append, balancedLoop, if_neg (by decide), hc]
    dsimp only
    rw [if_neg hopen, length_utf8_cons]
    rfl
  | @string text hstring =>
    have hclose : decide (('"' : Char) ≠ '"') = false ∧ decide (('"' : Char) = '\\') = false := by decide
    rw [List.cons_append, balancedLoop, if_neg (by decide), bracketChar, if_pos rfl]
    dsimp only
    rw [if_neg hopen, List.append_assoc, balancedLoop_inString hstring, List.singleton_append, balancedLoop, if_pos rfl,
      if_neg (by decide), hclose.1, hclose.2, length_utf8_cons, utf8_append, List.length_append, length_utf8_cons]
    congr 1
    simp only [utf8_nil, List.length_nil]
    omega
  | @array text _ ih =>
    have hbegin : bracketChar objectDepth arrayDepth '[' = some (objectDepth, arrayDepth + 1, false) := rfl
    have hend : bracketChar objectDepth (arrayDepth + 1) ']' = some (objectDepth, arrayDepth, false) := rfl
    rw [List.cons_append, balancedLoop, if_neg (by decide), hbegin]
    dsimp only
    rw [if_neg (by omega), List.append_assoc, ih (by omega), List.singleton_append, balancedLoop, if_neg (by decide), hend]
    dsimp only
    rw [if_neg hopen, length_utf8_cons, utf8_append, List.length_append, length_utf8_cons]
    congr 1
    simp only [utf8_nil, List.length_nil]
    omega
  | @object text _ ih =>
    have hbegin : bracketChar objectDepth arrayDepth '\x7b' = some (objectDepth + 1, arrayDepth, false) := rfl
    have hend : bracketChar (objectDepth + 1) arrayDepth '\x7d' = some (objectDepth, arrayDepth, false) := rfl
    rw [List.cons_append, balancedLoop, if_neg (by decide), hbegin]
    dsimp only
    rw [if_neg (by omega), List.append_assoc, ih (by omega), List.singleton_append, balancedLoop, if_neg (by decide), hend]
    dsimp only
    rw [if_neg hopen, length_utf8_cons, utf8_append, List.length_append, length_utf8_cons]
    congr 1
    simp only [utf8_nil, List.length_nil]
    omega
  | @append a b _ _ iha ihb =>
    rw [List.append_assoc, iha hopen, ihb hopen, utf8_append, List.length_append, Nat.add_assoc]

theorem balancedJsonPrefixLen_brackets {opening closing : Char} (h : Json.Nested inner)
    (hbegin : bracketChar 0 0 opening = some (objectDepth, arrayDepth, false)) (hopen : ¬ (objectDepth = 0 ∧ arrayDepth = 0))
    (hend : bracketChar objectDepth arrayDepth closing = some (0, 0, false)) (more : List Char) :
    balancedJsonPrefixLen (opening :: (inner ++ [closing]) ++ more) = some (utf8 (opening :: (inner ++ [closing]))).length := by
  rw [balancedJsonPrefixLen, List.cons_append, balancedLoop, if_neg (by decide), hbegin]
  dsimp only
  rw [if_neg hopen, List.append_assoc, balancedLoop_nested h hopen, List.singleton_append, balancedLoop,
    if_neg (by decide), hend]
  dsimp only
  rw [if_pos (by decide), length_utf8_cons, utf8_append, List.length_append, length_utf8_cons]
  simp only [utf8_nil, List.length_nil, Nat.zero_add, Nat.add_assoc, Nat.add_zero]

/-- An object is a balanced slice, whatever follows it. -/
theorem balancedJsonPrefixLen_object (h : Json.Nested inner) (more : List Char) :
    balancedJsonPrefixLen ('\x7b' :: (inner ++ ['\x7d']) ++ more) = some (utf8 ('\x7b' :: (inner ++ ['\x7d']))).length :=
  balancedJsonPrefixLen_brackets h (show bracketChar 0 0 '\x7b' = some (1, 0, false) from rfl) (by decide) rfl more

theorem balancedJsonPrefixLen_of_derives {text : List Char} (h : Json.Derives .object text ∨ Json.Derives .array text)
    (more : List Char) : balancedJsonPrefixLen (text ++ more) = some (utf8 text).length := by
  rcases h with hobject | harray
  · obtain ⟨inner, rfl, hinner⟩ := hobject.object_eq
    exact balancedJsonPrefixLen_object hinner more
  · obtain ⟨inner, rfl, hinner⟩ := harray.array_eq
    exact balancedJsonPrefixLen_brackets hinner (show bracketChar 0 0 '[' = some (0, 1, false) from rfl) (by decide) rfl more

/-- The text `{"]\"":[{},"\\"]}`, and a bracket after it. -/
theorem balancedJsonPrefixLen_of_derives_escapes :
    balancedJsonPrefixLen ("\x7b\"]\\\"\":[\x7b\x7d,\"\\\\\"]\x7d".toList ++ ['\x7d']) = some 17 := by
  have hkey : Json.StringText [']', '\\', '"'] :=
    .unescaped (by decide) (by decide) (by decide) (.escaped (by decide) .nil)
  have hempty : Json.Derives .value ['\x7b', '\x7d'] := .valueObject (.noMembers Json.spaces_nil)
  have hbackslash : Json.Derives .value ['"', '\\', '\\', '"'] := .string (.escaped (by decide) .nil)
  have harray : Json.Derives .value "[\x7b\x7d,\"\\\\\"]".toList :=
    .valueArray (.array (.moreElements hempty.bare (.lastElement hbackslash.bare)))
  have hmember := Json.Derives.member Json.spaces_nil hkey Json.spaces_nil harray.bare
  exact balancedJsonPrefixLen_of_derives (.inl (.object (.lastMember hmember))) _

/-- The count ends behind a character of the text. -/
theorem exists_of_balancedLoop {len : Nat}
    (h : balancedLoop objectDepth arrayDepth inString escaped idx text = some len) :
    ∃ front back, text = front ++ back ∧ len = idx + (utf8 front).length := by
  induction text generalizing objectDepth arrayDepth inString escaped idx with
  | nil => cases h
  | cons c text ih =>
    -- The character and what the count goes on with.
    have hcons {objectDepth arrayDepth : Nat} {inString escaped : Bool}
        (h : balancedLoop objectDepth arrayDepth inString escaped (idx + c.utf8Size) text = some len) :
        ∃ front back, c :: text = front ++ back ∧ len = idx + (utf8 front).length := by
      obtain ⟨front, back, rfl, rfl⟩ := ih h
      exact ⟨c :: front, back, rfl, by rw [length_utf8_cons, Nat.add_assoc]⟩
    rw [balancedLoop] at h
    split at h
    · split at h
      · exact hcons h
      · exact hcons h
    · split at h
      · cases h
      · split at h
        · obtain rfl := Option.some.inj h
          exact ⟨[c], text, rfl, by rw [length_utf8_cons]; rfl⟩
        · exact hcons h

/-- White space at the end makes no difference to the count. -/
theorem balancedLoop_whitespace {space : List Char} (hspace : ∀ c ∈ space, isWhitespace c = true)
    (hopen : ¬ (objectDepth = 0 ∧ arrayDepth = 0)) :
    balancedLoop objectDepth arrayDepth inString escaped idx (text ++ space) =
      balancedLoop objectDepth arrayDepth inString escaped idx text := by
  induction text generalizing objectDepth arrayDepth inString escaped idx with
  | nil =>
    rw [List.nil_append]
    induction space generalizing inString escaped idx with
    | nil => rfl
    | cons c space ih =>
      rw [List.forall_mem_cons] at hspace
      have hne : c ≠ '"' ∧ c ≠ '\x7b' ∧ c ≠ '\x7d' ∧ c ≠ '[' ∧ c ≠ ']' := by
        refine ⟨?_, ?_, ?_, ?_, ?_⟩ <;> rintro rfl <;> exact absurd hspace.1 (by decide)
      have hc : bracketChar objectDepth arrayDepth c = some (objectDepth, arrayDepth, false) := by
        rw [bracketChar, if_neg hne.1, if_neg hne.2.1, if_neg hne.2.2.1, if_neg hne.2.2.2.1, if_neg hne.2.2.2.2]
      change balancedLoop objectDepth arrayDepth inString escaped idx (c :: space) = none
      rw [balancedLoop]
      split
      · split
        · exact ih hspace.2
        · exact ih hspace.2
      · rw [hc]
        dsimp only
        rw [if_neg hopen]
        exact ih hspace.2
  | cons c text ih =>
    rw [List.cons_append, balancedLoop, balancedLoop]
    split
    · split
      · exact ih hopen
      · exact ih hopen
    · split
      · rfl
      · split
        · rfl
        · rename_i hdepth
          exact ih hdepth

theorem balancedJsonPrefixLen_whitespace (hc : opensJson c = true) {space : List Char}
    (hspace : ∀ d ∈ space, isWhitespace d = true) (text : List Char) :
    balancedJsonPrefixLen (c :: text ++ space) = balancedJsonPrefixLen (c :: text) := by
  have hbegin : bracketChar 0 0 c = some (1, 0, false) ∨ bracketChar 0 0 c = some (0, 1, false) := by
    rw [opensJson, Bool.or_eq_true, decide_eq_true_iff, decide_eq_true_iff] at hc
    rcases hc with rfl | rfl
    · exact .inl rfl
    · exact .inr rfl
  rw [balancedJsonPrefixLen, balancedJsonPrefixLen, List.cons_append, balancedLoop, balancedLoop, if_neg (by decide),
    if_neg (by decide)]
  rcases hbegin with hbegin | hbegin
  · rw [hbegin]
    exact balancedLoop_whitespace hspace (by decide)
  · rw [hbegin]
    exact balancedLoop_whitespace hspace (by decide)

/-! The texts that begin with a bracket of the prose. -/

@[grind =] def candidates : List Char → List Char → List (List Char)
  | [], _ => []
  | c :: prose, rest => if opensJson c then (c :: (prose ++ rest)) :: candidates prose rest else candidates prose rest

theorem mem_candidates {prose rest candidate : List Char} (h : candidate ∈ candidates prose rest) :
    ∃ a c b, prose = a ++ c :: b ∧ opensJson c = true ∧ candidate = c :: (b ++ rest) := by
  induction prose with
  | nil => cases h
  | cons c prose ih =>
    rw [candidates] at h
    split at h
    · rename_i hopens
      rcases List.mem_cons.mp h with rfl | h
      · exact ⟨[], c, prose, rfl, hopens, rfl⟩
      · obtain ⟨a, d, b, rfl, hd, rfl⟩ := ih h
        exact ⟨c :: a, d, b, rfl, hd, rfl⟩
    · obtain ⟨a, d, b, rfl, hd, rfl⟩ := ih h
      exact ⟨c :: a, d, b, rfl, hd, rfl⟩

theorem candidates_append (a b rest : List Char) :
    candidates (a ++ b) rest = candidates a (b ++ rest) ++ candidates b rest := by
  induction a with
  | nil => rfl
  | cons c a ih =>
    rw [List.cons_append, candidates, candidates, ih, List.append_assoc]
    split <;> rfl

theorem candidates_eq_nil {prose : List Char} (h : ∀ c ∈ prose, opensJson c = false) (rest : List Char) :
    candidates prose rest = [] := by
  induction prose with
  | nil => rfl
  | cons c prose ih =>
    rw [List.forall_mem_cons] at h
    rw [candidates, h.1, ih h.2]
    rfl

theorem opensJson_of_isWhitespace (h : isWhitespace c = true) : opensJson c = false := by
  rw [← Bool.not_eq_true, opensJson, Bool.or_eq_true, decide_eq_true_iff, decide_eq_true_iff]
  rintro (rfl | rfl) <;> exact absurd h (by decide)

theorem candidates_rest (prose rest space : List Char) :
    candidates prose (rest ++ space) = (candidates prose rest).map (· ++ space) := by
  induction prose with
  | nil => rfl
  | cons c prose ih =>
    rw [candidates, candidates, ih]
    split
    · rw [List.map_cons, List.cons_append, List.append_assoc]
    · rfl

/-- What is found in prose before an object: the object, unless a bracket of the prose begins a balanced slice. -/
theorem extractFirstJsonSlice_prose (h : Json.Nested inner) (prose more : List Char) :
    ((∀ candidate ∈ candidates prose ('\x7b' :: (inner ++ ['\x7d']) ++ more), balancedJsonPrefixLen candidate = none) ∧
      extractFirstJsonSlice (prose ++ ('\x7b' :: (inner ++ ['\x7d']) ++ more)) = some ('\x7b' :: (inner ++ ['\x7d']))) ∨
    ((∃ candidate ∈ candidates prose ('\x7b' :: (inner ++ ['\x7d']) ++ more), balancedJsonPrefixLen candidate ≠ none) ∧
      ∃ candidate ∈ candidates prose ('\x7b' :: (inner ++ ['\x7d']) ++ more), ∃ found, found <+: candidate ∧
        extractFirstJsonSlice (prose ++ ('\x7b' :: (inner ++ ['\x7d']) ++ more)) = some found) := by
  induction prose with
  | nil =>
    refine .inl ⟨fun _ hnone => (List.not_mem_nil hnone).elim, ?_⟩
    have hslice := slice_append [] ('\x7b' :: (inner ++ ['\x7d'])) more
    rw [utf8_nil, List.length_nil, Nat.zero_add, List.nil_append] at hslice
    rw [List.nil_append, List.cons_append, extractFirstJsonSlice, if_pos (by decide), ← List.cons_append,
      balancedJsonPrefixLen_object h more]
    exact hslice
  | cons c prose ih =>
    rw [candidates, List.cons_append (a := c), extractFirstJsonSlice]
    by_cases hopens : opensJson c = true
    · rw [if_pos hopens, if_pos hopens]
      cases hlen : balancedJsonPrefixLen (c :: (prose ++ ('\x7b' :: (inner ++ ['\x7d']) ++ more))) with
      | none =>
        rcases ih with ⟨hnone, hfound⟩ | ⟨⟨other, hmem, hsome⟩, candidate, hcandidate, hfound⟩
        · exact .inl ⟨List.forall_mem_cons.mpr ⟨hlen, hnone⟩, hfound⟩
        · exact .inr ⟨⟨other, .tail _ hmem, hsome⟩, candidate, .tail _ hcandidate, hfound⟩
      | some len =>
        obtain ⟨front, back, htext, rfl⟩ := exists_of_balancedLoop hlen
        refine .inr ⟨⟨_, .head _, by rw [hlen]; exact Option.some_ne_none _⟩, _, .head _, front, ⟨back, htext.symm⟩, ?_⟩
        have hslice := slice_append [] front back
        rw [utf8_nil, List.length_nil, List.nil_append] at hslice
        rw [htext]
        exact hslice
    · rw [if_neg hopens, if_neg hopens]
      exact ih

/-! White space around the text. -/

theorem rdropWhile_append_of_last {p : Char → Bool} {front : List Char} (hc : p c = false) (back : List Char) :
    (front ++ [c] ++ back).rdropWhile p = front ++ [c] ++ back.rdropWhile p := by
  rw [List.rdropWhile, List.rdropWhile, List.reverse_append, List.dropWhile_append]
  split
  · rename_i hnone
    have hempty : back.reverse.dropWhile p = [] := List.isEmpty_iff.mp hnone
    rw [hempty, List.reverse_nil, List.append_nil, List.reverse_append, List.reverse_singleton, List.singleton_append,
      List.dropWhile_cons_of_neg (by rw [hc]; decide), List.reverse_cons, List.reverse_reverse]
  · rw [List.reverse_append, List.reverse_reverse]

theorem trim_around {first last : Char} (hfirst : isWhitespace first = false) (hlast : isWhitespace last = false)
    (prose inner more : List Char) : trim (prose ++ (first :: (inner ++ [last]) ++ more)) =
      prose.dropWhile isWhitespace ++ (first :: (inner ++ [last]) ++ more.rdropWhile isWhitespace) := by
  have hstart : (prose ++ (first :: (inner ++ [last]) ++ more)).dropWhile isWhitespace =
      prose.dropWhile isWhitespace ++ (first :: (inner ++ [last]) ++ more) := by
    rw [List.dropWhile_append]
    split
    · rename_i hnone
      rw [List.isEmpty_iff.mp hnone, List.nil_append, List.cons_append, List.dropWhile_cons_of_neg (by rw [hfirst]; decide)]
    · rfl
  have hend := @rdropWhile_append_of_last last isWhitespace (prose.dropWhile isWhitespace ++ first :: inner) hlast more
  simp only [List.append_assoc, List.cons_append, List.nil_append] at hend hstart ⊢
  rw [trim, hstart, hend]

/-! The text as a whole. -/

/-- Prose before an object is no JSON, unless one of its brackets begins a value. -/
theorem prose_eq_nil_of_fromStr {depth : Nat} {prose object : List Char} {json : Json}
    (hfirst : ∀ c ∈ prose.head?, isWhitespace c = false) (hquote : '"' ∉ prose)
    (hvalue : ∀ candidate ∈ candidates prose object, ∀ part, part <+: candidate → ∀ depth, Json.fromStr depth part = none)
    (hobject : '\x7b' ∈ object) (h : Json.fromStr depth (prose ++ object) = some json) : prose = [] := by
  cases prose with
  | nil => rfl
  | cons c prose =>
    exfalso
    have hspace : Json.isSpace c = false := by
      rw [← Bool.not_eq_true]
      intro hspace
      exact absurd (Json.isWhitespace_of_isSpace hspace) (by rw [hfirst c rfl]; decide)
    cases hopens : opensJson c with
    | true =>
      have hnone := hvalue (c :: (prose ++ object)) (by rw [candidates, if_pos hopens]; exact .head _) _ (List.prefix_refl _) depth
      rw [← List.cons_append, h] at hnone
      cases hnone
    | false =>
      have hopen : c ≠ '"' ∧ c ≠ '[' ∧ c ≠ '\x7b' := by
        rw [← Bool.not_eq_true, opensJson, Bool.or_eq_true, decide_eq_true_iff, decide_eq_true_iff, not_or] at hopens
        exact ⟨fun heq => hquote (heq ▸ .head _), hopens.2, hopens.1⟩
      unfold Json.fromStr at h
      rw [← List.nil_append (c :: prose ++ object), List.cons_append, Json.readValue_scalar Json.spaces_nil _ hspace hopen] at h
      split at h
      · rename_i found rest hread
        split at h
        · rename_i hrest
          obtain ⟨front, htext, hplain, -⟩ := Json.exists_plain_of_readScalar hread
          have hmem : '\x7b' ∈ front ++ rest := by
            rw [← htext]
            exact .tail _ (List.mem_append_right _ hobject)
          rcases List.mem_append.mp hmem with hmem | hmem
          · exact absurd (hplain _ hmem) (by decide)
          · exact absurd (List.dropWhile_eq_nil_iff.mp hrest _ hmem) (by decide)
        · cases h
      · cases h

theorem exists_obj_of_value {json : Json} {members : List (JsonString × Json)} (h : Json.value N json = some (.obj members)) :
    ∃ read, json = .obj read := by
  cases json with
  | obj read => exact ⟨read, rfl⟩
  | null => cases h
  | bool => cases h
  | str => cases h
  | num =>
    obtain ⟨_, -, heq⟩ := Option.map_eq_some_iff.mp h
    cases heq
  | arr =>
    obtain ⟨_, -, heq⟩ := Option.map_eq_some_iff.mp h
    cases heq

/-- No bracket of the prose begins a JSON value. -/
def NoValueBegins (prose rest : List Char) : Prop :=
  ∀ candidate ∈ candidates prose rest, ∀ part, part <+: candidate → ∀ depth, Json.fromStr depth part = none

/-- No bracket of the prose begins a slice whose brackets are closed. -/
def NoSliceBegins (prose rest : List Char) : Prop :=
  ∀ candidate ∈ candidates prose rest, balancedJsonPrefixLen candidate = none

/-- Trimmed prose, then an object. -/
theorem parseJsonishText_prose {prose inner more : List Char} {members read : List (JsonString × Json)}
    (hinner : Json.Nested inner) (hvalue : Json.value N (.obj read) = some (.obj members))
    (hobject : ∀ more, Json.fromStr 127 ('\x7b' :: (inner ++ ['\x7d']) ++ more) =
      if Json.skipSpace more = [] then some (.obj read) else none)
    (hfirst : ∀ c ∈ prose.head?, isWhitespace c = false) (hlast : more.rdropWhile isWhitespace = more) (hquote : '"' ∉ prose)
    (hnone : NoValueBegins prose ('\x7b' :: (inner ++ ['\x7d']) ++ more)) :
    (NoSliceBegins prose ('\x7b' :: (inner ++ ['\x7d']) ++ more) ∧
      parseJsonishText N (prose ++ ('\x7b' :: (inner ++ ['\x7d']) ++ more)) = some (.obj members)) ∨
    (¬ NoSliceBegins prose ('\x7b' :: (inner ++ ['\x7d']) ++ more) ∧
      parseJsonishText N (prose ++ ('\x7b' :: (inner ++ ['\x7d']) ++ more)) = none) := by
  have htrim : trim (prose ++ ('\x7b' :: (inner ++ ['\x7d']) ++ more)) = prose ++ ('\x7b' :: (inner ++ ['\x7d']) ++ more) := by
    rw [trim_around (by decide) (by decide), hlast, dropWhile_eq_self_of_head hfirst]
  have hparse : parseJsonishText N (prose ++ ('\x7b' :: (inner ++ ['\x7d']) ++ more)) =
      (valueFromStr N (prose ++ ('\x7b' :: (inner ++ ['\x7d']) ++ more))).or
        ((extractFirstJsonSlice (prose ++ ('\x7b' :: (inner ++ ['\x7d']) ++ more))).bind (valueFromStr N)) := by
    rw [parseJsonishText, htrim]
    exact if_neg (by simp)
  have hread {more : List Char} : Json.skipSpace more = [] →
      valueFromStr N ('\x7b' :: (inner ++ ['\x7d']) ++ more) = some (.obj members) := by
    intro hmore
    rw [valueFromStr, hobject, if_pos hmore]
    exact hvalue
  have hwhole {json : Json} (h : valueFromStr N (prose ++ ('\x7b' :: (inner ++ ['\x7d']) ++ more)) = some json) :
      prose = [] ∧ json = .obj members := by
    obtain ⟨found, hfound, hjson⟩ := Option.bind_eq_some_iff.mp h
    obtain rfl := prose_eq_nil_of_fromStr hfirst hquote hnone (by simp) hfound
    rw [List.nil_append, hobject] at hfound
    split at hfound
    · obtain rfl := Option.some.inj hfound
      exact ⟨rfl, (Option.some.inj (hvalue.symm.trans hjson)).symm⟩
    · cases hfound
  rw [hparse]
  rcases extractFirstJsonSlice_prose hinner prose more with ⟨hslice, hfound⟩ | ⟨⟨other, hother, hsome⟩, candidate, hmem, found,
    hprefix, hfound⟩
  · refine .inl ⟨hslice, ?_⟩
    cases hall : valueFromStr N (prose ++ ('\x7b' :: (inner ++ ['\x7d']) ++ more)) with
    | some json => rw [Option.some_or, (hwhole hall).2]
    | none =>
      have hself := @hread [] rfl
      rw [List.append_nil] at hself
      rw [Option.none_or, hfound, Option.bind_some, hself]
  · refine .inr ⟨fun hslice => hsome (hslice other hother), ?_⟩
    cases hall : valueFromStr N (prose ++ ('\x7b' :: (inner ++ ['\x7d']) ++ more)) with
    | some json =>
      obtain ⟨rfl, -⟩ := hwhole hall
      cases hother
    | none => rw [Option.none_or, hfound, Option.bind_some, valueFromStr, hnone candidate hmem found hprefix, Option.bind_none]

/-- The object in the prose is found exactly when no bracket before it begins a slice whose brackets are closed, or else when
the first code fence is around a text in which the same object is found. -/
theorem parse_prose_iff {before s after : List Char} {members : List (JsonString × Json)}
    (hs : valueFromStr N s = some (.obj members)) (hquote : '"' ∉ before) (hnone : NoValueBegins before (s ++ after)) :
    parseLlmJsonPayload N (before ++ s ++ after) = .value (.obj members) ↔
      NoSliceBegins before (s ++ after) ∨
        (extractFirstCodeFenceBody (trim (before ++ s ++ after))).bind (parseJsonishText N) = some (.obj members) := by
  obtain ⟨json, hjson, hvalue⟩ := Option.bind_eq_some_iff.mp hs
  obtain ⟨read, rfl⟩ := exists_obj_of_value hvalue
  obtain ⟨pre, inner, post, rfl, hpre, hpost, hinner, hobject⟩ := Json.exists_object_of_fromStr hjson
  have htext : before ++ (pre ++ '\x7b' :: (inner ++ ['\x7d']) ++ post) ++ after =
      (before ++ pre) ++ ('\x7b' :: (inner ++ ['\x7d']) ++ (post ++ after)) := by simp
  have hrest : pre ++ '\x7b' :: (inner ++ ['\x7d']) ++ post ++ after =
      pre ++ ('\x7b' :: (inner ++ ['\x7d']) ++ (post ++ after)) := by simp
  have htrim := @trim_around '\x7b' '\x7d' (by decide) (by decide) (before ++ pre) inner (post ++ after)
  obtain ⟨prose, hprose⟩ : ∃ prose, prose = (before ++ pre).dropWhile isWhitespace := ⟨_, rfl⟩
  obtain ⟨more, hmore⟩ : ∃ more, more = (post ++ after).rdropWhile isWhitespace := ⟨_, rfl⟩
  rw [← hprose, ← hmore] at htrim
  obtain ⟨space, hspace, hback⟩ : ∃ space, (∀ c ∈ space, isWhitespace c = true) ∧ post ++ after = more ++ space :=
    ⟨(post ++ after).rtakeWhile isWhitespace, fun c hc => List.mem_rtakeWhile_imp hc,
      by rw [hmore, List.rdropWhile_append_rtakeWhile]⟩
  have hopens : ∀ c ∈ pre, opensJson c = false := fun c hc => opensJson_of_isWhitespace (Json.isWhitespace_of_isSpace (hpre c hc))
  have hleading : ∀ c ∈ (before ++ pre).takeWhile isWhitespace, opensJson c = false := fun c hc =>
    opensJson_of_isWhitespace (List.mem_takeWhile_imp hc)
  -- The brackets are those of the trimmed text, and the texts that begin with them differ in white space at the end.
  have hcandidates : candidates before (pre ++ '\x7b' :: (inner ++ ['\x7d']) ++ post ++ after) =
      (candidates prose ('\x7b' :: (inner ++ ['\x7d']) ++ more)).map (· ++ space) := by
    have hpre' := candidates_append before pre ('\x7b' :: (inner ++ ['\x7d']) ++ (post ++ after))
    have hleading' := candidates_append ((before ++ pre).takeWhile isWhitespace) prose ('\x7b' :: (inner ++ ['\x7d']) ++ (post ++ after))
    rw [candidates_eq_nil hopens, List.append_nil] at hpre'
    rw [candidates_eq_nil hleading, List.nil_append, hprose, List.takeWhile_append_dropWhile, ← hprose] at hleading'
    rw [hrest, ← hpre', hleading', hback, ← List.append_assoc, candidates_rest]
  have hquote' : '"' ∉ prose := by
    rw [hprose]
    intro hmem
    rcases List.mem_append.mp ((List.dropWhile_sublist _).subset hmem) with hmem | hmem
    · exact hquote hmem
    · exact absurd (hpre _ hmem) (by decide)
  have hfirst : ∀ c ∈ prose.head?, isWhitespace c = false := by
    rw [hprose]
    intro c hc
    have hnot := List.head?_dropWhile_not isWhitespace (before ++ pre)
    rwa [Option.mem_def.mp hc] at hnot
  have hlast : more.rdropWhile isWhitespace = more := by
    rw [hmore, List.rdropWhile_idempotent]
  have hnone' : NoValueBegins prose ('\x7b' :: (inner ++ ['\x7d']) ++ more) := by
    intro candidate hmem part hpart
    refine hnone (candidate ++ space) ?_ part (hpart.trans (List.prefix_append _ _))
    rw [hcandidates]
    exact List.mem_map_of_mem hmem
  have hslices : NoSliceBegins before (pre ++ '\x7b' :: (inner ++ ['\x7d']) ++ post ++ after) ↔
      NoSliceBegins prose ('\x7b' :: (inner ++ ['\x7d']) ++ more) := by
    rw [NoSliceBegins, hcandidates, List.forall_mem_map]
    refine forall₂_congr fun candidate hmem => ?_
    obtain ⟨_, c, b, -, hc, rfl⟩ := mem_candidates hmem
    rw [balancedJsonPrefixLen_whitespace hc hspace]
  have hne : prose ++ ('\x7b' :: (inner ++ ['\x7d']) ++ more) ≠ [] := by simp
  rw [hslices, htext, parseLlmJsonPayload, htrim, if_neg hne]
  rcases parseJsonishText_prose hinner hvalue hobject hfirst hlast hquote' hnone' with ⟨hslice, hparse⟩ | ⟨hslice, hparse⟩
  · rw [hparse]
    exact iff_of_true rfl (.inl hslice)
  · rw [hparse]
    dsimp only
    rw [or_iff_right hslice]
    split
    · rename_i value hfenced
      rw [hfenced, Option.some_inj]
      cases value with
      | null => exact iff_of_false nofun nofun
      | bool | num | str | arr | obj => exact LlmJsonPayload.value.injEq _ _ ▸ Iff.rfl
    · rename_i hfenced
      rw [hfenced]
      exact iff_of_false nofun nofun

def updateText : List Char := "\x7b\"field\":\"value\"\x7d".toList

def update : List (JsonString × Json) := [(Json.string "field".toList, .str (Json.string "value".toList))]

theorem valueFromStr_updateText : valueFromStr .literal updateText = some (.obj update) := by
  have hprinted : (Json.obj update).Printed := ⟨rfl, rfl, trivial⟩
  have hdepth : (Json.obj update).depth ≤ 127 := by decide
  have htext : updateText = [] ++ (Json.print .compact 0 (.obj update) ++ []) := by decide
  have hread : Json.fromStr 127 updateText = some (.obj update) := by
    rw [htext]
    exact Json.fromStr_print .compact hprinted hdepth 0 Json.spaces_nil Json.spaces_nil
  rw [valueFromStr, hread]
  rfl

theorem object_in_prose : parseLlmJsonPayload .literal ("Here is the update:\n".toList ++ updateText ++ "\nDone.".toList) =
    .value (.obj update) := by
  have hcandidates (rest : List Char) : candidates "Here is the update:\n".toList rest = [] :=
    candidates_eq_nil (by decide) rest
  have hquote : '"' ∉ "Here is the update:\n".toList := by decide
  refine (parse_prose_iff valueFromStr_updateText hquote fun candidate hmem => ?_).mpr (.inl fun candidate hmem => ?_)
  · rw [hcandidates] at hmem
    cases hmem
  · rw [hcandidates] at hmem
    cases hmem

theorem fromStr_bracket_letter {depth : Nat} (text : List Char) : Json.fromStr depth ('[' :: 'x' :: text) = none := by
  have hvalue (fuel depth : Nat) : Json.readValue fuel depth ('x' :: text) = none := by
    cases fuel with
    | zero => rw [Json.readValue]
    | succ fuel =>
      rw [Json.readValue, Json.skipSpace_cons (by decide)]
      dsimp only
      rw [if_neg (by decide), if_neg (by decide), if_neg (by decide), Json.readScalar, Json.readNumber_letter (by decide)]
      · rfl
      all_goals exact fun _ heq => absurd (List.cons.inj heq).1 (by decide)
  have hitems (fuel depth : Nat) : Json.readItems fuel depth ('x' :: text) = none := by
    cases fuel with
    | zero => rw [Json.readItems]
    | succ fuel => rw [Json.readItems, hvalue]
  rw [Json.fromStr, Json.readValue, Json.skipSpace_cons (by decide)]
  dsimp only
  rw [if_neg (by decide), if_pos rfl]
  cases depth with
  | zero => rfl
  | succ depth =>
    dsimp only
    rw [Json.skipSpace_cons (by decide), hitems]
    rfl

/-- A note in brackets before the object. -/
theorem note_hides_object : ¬ ∀ (N : Json.NumberFormat) (before s after : List Char) (members : List (JsonString × Json)),
    valueFromStr N s = some (.obj members) → '"' ∉ before → ¬ codeFence <:+: before → NoValueBegins before (s ++ after) →
      parseLlmJsonPayload N (before ++ s ++ after) = .value (.obj members) := by
  intro h
  have hcandidates : candidates ['[', 'x', ']', ' '] ['\x7b', '\x7d'] = [['[', 'x', ']', ' ', '\x7b', '\x7d']] := rfl
  have hnone : NoValueBegins ['[', 'x', ']', ' '] (['\x7b', '\x7d'] ++ []) := by
    intro candidate hmem part hpart depth
    rw [List.append_nil, hcandidates] at hmem
    obtain rfl := List.mem_singleton.mp hmem
    rcases List.prefix_cons_iff.mp hpart with rfl | ⟨tail, rfl, htail⟩
    · rfl
    · rcases List.prefix_cons_iff.mp htail with rfl | ⟨text, rfl, -⟩
      · cases depth with
        | zero => rfl
        | succ => rfl
      · exact fromStr_bracket_letter text
  have hfound := h .literal ['[', 'x', ']', ' '] ['\x7b', '\x7d'] [] [] rfl (by decide) (by decide) hnone
  have habsent : parseLlmJsonPayload .literal (['[', 'x', ']', ' '] ++ ['\x7b', '\x7d'] ++ []) = .absent := rfl
  rw [habsent] at hfound
  cases hfound

end Beetle.Memory
