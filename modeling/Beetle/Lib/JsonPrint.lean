import Beetle.Lib.Json

/-! How JSON is printed, and that what is printed is read back. -/
namespace Beetle.Lib.Json

def escapeChar (c : Char) : List Char :=
  match c.toNat with
  | 34 => ['\\', '"']
  | 92 => ['\\', '\\']
  | 8 => ['\\', 'b']
  | 12 => ['\\', 'f']
  | 10 => ['\\', 'n']
  | 13 => ['\\', 'r']
  | 9 => ['\\', 't']
  | n => if n < 32 then '\\' :: 'u' :: hex 4 n else [c]

def needsEscape (c : Char) : Bool := c.toNat < 32 || c == '"' || c == '\\'

/-- A string as it is printed, with escapes only where they are needed. -/
def string (cs : List Char) : JsonString := ⟨cs, cs.any needsEscape⟩

def printString (cs : List Char) : List Char := '"' :: cs.flatMap escapeChar ++ ['"']

/-- White space around the parts of arrays and objects, at each level of nesting. -/
structure Layout where
  line : Nat → List Char
  colon : List Char
  line_space : ∀ level, ∀ c ∈ line level, isSpace c = true
  colon_space : ∀ c ∈ colon, isSpace c = true

/-- `serde_json::to_string` and `to_string_pretty`. -/
def Layout.compact : Layout := ⟨fun _ => [], [], by simp, by simp⟩

def Layout.pretty : Layout where
  line level := '\n' :: List.replicate (2 * level) ' '
  colon := [' ']
  line_space level c hc := by
    rcases List.mem_cons.mp hc with rfl | hc
    · rfl
    · rw [List.eq_of_mem_replicate hc]
      rfl
  colon_space := by decide

mutual

def print (L : Layout) (level : Nat) : Json → List Char
  | .null => ['n', 'u', 'l', 'l']
  | .bool true => ['t', 'r', 'u', 'e']
  | .bool false => ['f', 'a', 'l', 's', 'e']
  | .num literal => literal
  | .str s => printString s.value
  | .arr items =>
    if items.isEmpty then ['[', ']'] else '[' :: printItems L (level + 1) items ++ (L.line level ++ [']'])
  | .obj members =>
    if members.isEmpty then ['\x7b', '\x7d']
    else '\x7b' :: printMembers L (level + 1) members ++ (L.line level ++ ['\x7d'])

def printItems (L : Layout) (level : Nat) : List Json → List Char
  | [] => []
  | item :: items =>
    L.line level ++ (print L level item ++ if items.isEmpty then [] else ',' :: printItems L level items)

def printMembers (L : Layout) (level : Nat) : List (JsonString × Json) → List Char
  | [] => []
  | (key, value) :: members =>
    L.line level ++ (printString key.value ++ ':' :: (L.colon ++ (print L level value ++
      if members.isEmpty then [] else ',' :: printMembers L level members)))

end

/-! What a printed value has about it. -/

mutual

/-- Strings carry escapes just where they are needed, and numbers are numbers. -/
def Printed : Json → Prop
  | .null => True
  | .bool _ => True
  | .num literal => isNumber literal = true
  | .str s => s = string s.value
  | .arr items => PrintedItems items
  | .obj members => PrintedMembers members

def PrintedItems : List Json → Prop
  | [] => True
  | item :: items => Printed item ∧ PrintedItems items

def PrintedMembers : List (JsonString × Json) → Prop
  | [] => True
  | (key, value) :: members => key = string key.value ∧ Printed value ∧ PrintedMembers members

end

mutual

/-- How far containers are nested. -/
def depth : Json → Nat
  | .arr items => depthItems items + 1
  | .obj members => depthMembers members + 1
  | _ => 0

def depthItems : List Json → Nat
  | [] => 0
  | item :: items => max item.depth (depthItems items)

def depthMembers : List (JsonString × Json) → Nat
  | [] => 0
  | (_, value) :: members => max value.depth (depthMembers members)

end

/-! Strings are read back. -/

theorem readChars_escapeChar (c : Char) (text : List Char) :
    readChars (escapeChar c ++ text) = (readChars text).map fun (s, rest) =>
      (if needsEscape c then s.consEscaped c else s.consRaw c, rest) := by
  have hcode {n : Nat} (h : c.toNat = n) : c = Char.ofNat n := by rw [← h, Char.ofNat_toNat]
  unfold escapeChar
  split
  case h_1 h | h_2 h | h_3 h | h_4 h | h_5 h | h_6 h | h_7 h =>
    obtain rfl := hcode h
    rfl
  case h_8 hquote hslash _ _ _ _ _ =>
    split
    · rename_i hcontrol
      have hhex : ∀ n < 32, ∃ a b c d, hex 4 n = [a, b, c, d] ∧ hex4? a b c d = some n := by
        intro n hn
        refine ⟨_, _, _, _, rfl, ?_⟩
        revert n
        decide
      obtain ⟨h₃, h₂, h₁, h₀, hdigits, hvalue⟩ := hhex c.toNat hcontrol
      have hhigh : isHighSurrogate c.toNat = false := by simp [isHighSurrogate]; omega
      have hlow : isLowSurrogate c.toNat = false := by simp [isLowSurrogate]; omega
      have hneeds : needsEscape c = true := by simp [needsEscape, hcontrol]
      rw [hdigits]
      have hread : readChars ('\\' :: 'u' :: h₃ :: h₂ :: h₁ :: h₀ :: text) =
          (readChars text).map fun (s, rest) => (s.consEscaped (Char.ofNat c.toNat), rest) := by
        rw [readChars.eq_def]
        simp only [hvalue, hhigh, hlow, Bool.false_eq_true, if_false, if_true, Char.reduceEq]
      simpa [hneeds, Char.ofNat_toNat] using hread
    · rename_i hcontrol
      have h₁ : c ≠ '"' := fun h => hquote (by rw [h]; rfl)
      have h₂ : c ≠ '\\' := fun h => hslash (by rw [h]; rfl)
      have hneeds : needsEscape c = false := by simp [needsEscape, hcontrol, h₁, h₂]
      rw [List.singleton_append, readChars.eq_def]
      simp only [h₁, h₂, hcontrol, hneeds, if_false, Bool.false_eq_true]

theorem readChars_escape (cs text : List Char) :
    readChars (cs.flatMap escapeChar ++ '"' :: text) = some (string cs, text) := by
  induction cs with
  | nil => simp [string]
  | cons c cs ih =>
    rw [List.flatMap_cons, List.append_assoc, readChars_escapeChar, ih]
    cases hneeds : needsEscape c with
    | true => simp [string, JsonString.consEscaped, hneeds]
    | false => simp [string, JsonString.consRaw, hneeds]

/-! Numbers are read back, where no more of a number follows. -/

/-- No number goes on in the rest of the text. -/
def Follows (rest : List Char) : Prop := ∀ c t, rest = c :: t → isNumberChar c = false

variable {c : Char} {cs : List Char}

theorem isNumberChar_of_isDigit (h : c.isDigit = true) : isNumberChar c = true := by
  simp [isNumberChar, h]

theorem all_isNumberChar_of_dropWhile
    (h : ∀ c ∈ cs.dropWhile Char.isDigit, isNumberChar c = true) : ∀ c ∈ cs, isNumberChar c = true := by
  intro c hc
  rw [← List.takeWhile_append_dropWhile (p := Char.isDigit) (l := cs)] at hc
  rcases List.mem_append.mp hc with hc | hc
  · exact isNumberChar_of_isDigit (List.mem_takeWhile_imp hc)
  · exact h c hc

theorem all_isNumberChar_of_isExponent (h : isExponent cs = true) : ∀ c ∈ cs, isNumberChar c = true := by
  unfold isExponent at h
  split at h
  · simp
  · rename_i e rest
    simp only [Bool.and_eq_true, Bool.or_eq_true, beq_iff_eq] at h
    obtain ⟨he, hrest⟩ := h
    split at hrest
    · cases hrest
    · rename_i s digits
      simp only [Bool.and_eq_true, List.all_eq_true] at hrest
      intro c hc
      rcases List.mem_cons.mp hc with rfl | hc
      · rcases he with rfl | rfl <;> decide
      · split at hrest
        · rename_i hs
          rcases List.mem_cons.mp hc with rfl | hc
          · rcases hs with rfl | rfl <;> decide
          · exact isNumberChar_of_isDigit (hrest.2 c hc)
        · exact isNumberChar_of_isDigit (hrest.2 c hc)

theorem all_isNumberChar_of_isFraction (h : isFraction cs = true) : ∀ c ∈ cs, isNumberChar c = true := by
  unfold isFraction at h
  split at h
  · rename_i d rest
    simp only [Bool.and_eq_true] at h
    intro c hc
    rcases List.mem_cons.mp hc with rfl | hc
    · decide
    · rcases List.mem_cons.mp hc with rfl | hc
      · exact isNumberChar_of_isDigit h.1
      · exact all_isNumberChar_of_dropWhile (all_isNumberChar_of_isExponent h.2) c hc
  · exact all_isNumberChar_of_isExponent h

theorem all_isNumberChar_of_isUnsignedNumber (h : isUnsignedNumber cs = true) :
    (∀ c ∈ cs, isNumberChar c = true) ∧ ∃ c rest, cs = c :: rest ∧ c.isDigit = true := by
  cases cs with
  | nil => cases h
  | cons d rest =>
    simp only [isUnsignedNumber] at h
    split at h
    · rename_i hd
      subst hd
      refine ⟨fun c hc => ?_, '0', rest, rfl, by decide⟩
      rcases List.mem_cons.mp hc with rfl | hc
      · decide
      · exact all_isNumberChar_of_isFraction h c hc
    · simp only [Bool.and_eq_true] at h
      refine ⟨fun c hc => ?_, d, rest, rfl, h.1⟩
      rcases List.mem_cons.mp hc with rfl | hc
      · exact isNumberChar_of_isDigit h.1
      · exact all_isNumberChar_of_dropWhile (all_isNumberChar_of_isFraction h.2) c hc

theorem all_isNumberChar_of_isNumber (h : isNumber cs = true) :
    (∀ c ∈ cs, isNumberChar c = true) ∧ ∃ c rest, cs = c :: rest ∧ (c = '-' ∨ c.isDigit = true) := by
  unfold isNumber at h
  split at h
  · rename_i rest
    refine ⟨fun c hc => ?_, '-', rest, rfl, .inl rfl⟩
    rcases List.mem_cons.mp hc with rfl | hc
    · decide
    · exact (all_isNumberChar_of_isUnsignedNumber h).1 c hc
  · obtain ⟨hall, c, rest, hcs, hc⟩ := all_isNumberChar_of_isUnsignedNumber h
    exact ⟨hall, c, rest, hcs, .inr hc⟩

theorem readNumber_append {literal rest : List Char} (h : isNumber literal = true) (hrest : Follows rest) :
    readNumber (literal ++ rest) = some (literal, rest) := by
  obtain ⟨hall, -⟩ := all_isNumberChar_of_isNumber h
  have htake : (literal ++ rest).takeWhile isNumberChar = literal := by
    rw [List.takeWhile_append_of_pos hall]
    cases rest with
    | nil => simp
    | cons c t => simp [hrest c t rfl]
  have hdrop : (literal ++ rest).dropWhile isNumberChar = rest := by
    rw [List.dropWhile_append_of_pos hall]
    cases rest with
    | nil => rfl
    | cons c t => simp [hrest c t rfl]
  rw [readNumber, htake, hdrop, if_pos h]

/-! Values are read back. -/

/-- White space before the rest of the text. -/
def Spaces (cs : List Char) : Prop := ∀ c ∈ cs, isSpace c = true

theorem skipSpace_append {pre : List Char} (h : Spaces pre) (text : List Char) :
    skipSpace (pre ++ text) = skipSpace text := List.dropWhile_append_of_pos h

theorem skipSpace_cons (h : isSpace c = false) (text : List Char) : skipSpace (c :: text) = c :: text := by
  simp [skipSpace, h]

theorem Follows.spaces {pre text : List Char} (hpre : Spaces pre) (h : Follows text) : Follows (pre ++ text) := by
  intro c t heq
  cases pre with
  | nil => exact h c t heq
  | cons d pre =>
    obtain rfl := (List.cons.inj heq).1
    have hspace := hpre d (by simp)
    simp only [isSpace, Bool.or_eq_true, beq_iff_eq] at hspace
    rcases hspace with ((rfl | rfl) | rfl) | rfl <;> decide

theorem follows_cons (h : isNumberChar c = false) (text : List Char) : Follows (c :: text) := by
  intro d t heq
  obtain rfl := (List.cons.inj heq).1
  exact h

theorem readScalar_number {literal rest : List Char} (h : isNumber literal = true) (hrest : Follows rest) :
    readScalar (literal ++ rest) = some (.num literal, rest) := by
  obtain ⟨-, c, tail, rfl, hc⟩ := all_isNumberChar_of_isNumber h
  have hletter : c ≠ 'n' ∧ c ≠ 't' ∧ c ≠ 'f' := by
    rcases hc with rfl | hdigit
    · decide
    · refine ⟨?_, ?_, ?_⟩ <;> rintro rfl <;> exact absurd hdigit (by decide)
  unfold readScalar
  split
  · rename_i heq
    exact absurd (List.cons.inj heq).1 hletter.1
  · rename_i heq
    exact absurd (List.cons.inj heq).1 hletter.2.1
  · rename_i heq
    exact absurd (List.cons.inj heq).1 hletter.2.2
  · rw [readNumber_append h hrest]
    rfl

/-- How the printed form of a value starts. -/
theorem print_eq_cons (L : Layout) (level : Nat) {json : Json} (h : json.Printed) :
    ∃ c text, print L level json = c :: text ∧ isSpace c = false ∧ c ≠ ']' := by
  cases json with
  | null => exact ⟨_, _, rfl, by decide, by decide⟩
  | bool b => cases b <;> exact ⟨_, _, rfl, by decide, by decide⟩
  | num literal =>
    obtain ⟨-, c, tail, rfl, hc⟩ := all_isNumberChar_of_isNumber h
    refine ⟨c, tail, rfl, ?_, ?_⟩
    · rcases hc with rfl | hdigit
      · decide
      · by_contra hspace
        simp only [isSpace, Bool.not_eq_false, Bool.or_eq_true, beq_iff_eq] at hspace
        rcases hspace with ((rfl | rfl) | rfl) | rfl <;> exact absurd hdigit (by decide)
    · rintro rfl
      rcases hc with hc | hdigit
      · exact absurd hc (by decide)
      · exact absurd hdigit (by decide)
  | str s => exact ⟨_, _, rfl, by decide, by decide⟩
  | arr items =>
    simp only [print]
    split
    · exact ⟨_, _, rfl, by decide, by decide⟩
    · exact ⟨_, _, rfl, by decide, by decide⟩
  | obj members =>
    simp only [print]
    split
    · exact ⟨_, _, rfl, by decide, by decide⟩
    · exact ⟨_, _, rfl, by decide, by decide⟩

section
variable {fuel depth : Nat} {pre : List Char} (hpre : Spaces pre) (text : List Char)
include hpre

theorem readValue_string : readValue (fuel + 1) depth (pre ++ '"' :: text) =
    (readChars text).map fun (s, rest) => (.str s, rest) := by
  rw [readValue, skipSpace_append hpre, skipSpace_cons (by decide)]
  simp only [if_true]

theorem readValue_array {c : Char} (hc : isSpace c = false) (hclose : c ≠ ']') {pre' : List Char}
    (hpre' : Spaces pre') : readValue (fuel + 1) (depth + 1) (pre ++ '[' :: (pre' ++ c :: text)) =
    (readItems fuel depth (pre' ++ c :: text)).map fun (items, rest) => (.arr items, rest) := by
  rw [readValue, skipSpace_append hpre, skipSpace_cons (by decide)]
  simp only [Char.reduceEq, if_false, if_true, skipSpace_append hpre', skipSpace_cons hc]
  split
  · rename_i heq
    exact absurd (List.cons.inj heq).1 hclose
  · rfl

theorem readValue_object {c : Char} (hc : isSpace c = false) (hclose : c ≠ '\x7d') {pre' : List Char}
    (hpre' : Spaces pre') : readValue (fuel + 1) (depth + 1) (pre ++ '\x7b' :: (pre' ++ c :: text)) =
    (readMembers fuel depth (pre' ++ c :: text)).map fun (members, rest) => (.obj members, rest) := by
  rw [readValue, skipSpace_append hpre, skipSpace_cons (by decide)]
  simp only [Char.reduceEq, if_false, if_true, skipSpace_append hpre', skipSpace_cons hc]
  split
  · rename_i heq
    exact absurd (List.cons.inj heq).1 hclose
  · rfl

theorem readValue_scalar {c : Char} (hc : isSpace c = false) (hopen : c ≠ '"' ∧ c ≠ '[' ∧ c ≠ '\x7b') :
    readValue (fuel + 1) depth (pre ++ c :: text) = readScalar (c :: text) := by
  rw [readValue, skipSpace_append hpre, skipSpace_cons hc]
  simp only [hopen.1, hopen.2.1, hopen.2.2, if_false]

end

theorem isSpace_number (h : c = '-' ∨ c.isDigit = true) :
    isSpace c = false ∧ c ≠ '"' ∧ c ≠ '[' ∧ c ≠ '\x7b' ∧ c ≠ ']' := by
  rcases h with rfl | hdigit
  · decide
  · have hne {d : Char} (hd : d.isDigit = false) : c ≠ d := by
      rintro rfl
      rw [hd] at hdigit
      cases hdigit
    refine ⟨?_, hne rfl, hne rfl, hne rfl, hne rfl⟩
    simp [isSpace, hne (show ' '.isDigit = false from rfl), hne (show '\t'.isDigit = false from rfl),
      hne (show '\n'.isDigit = false from rfl), hne (show '\r'.isDigit = false from rfl)]

mutual

theorem readValue_print (L : Layout) : ∀ (json : Json), json.Printed → ∀ {fuel depth level : Nat}
    {pre rest : List Char}, Spaces pre → json.depth ≤ depth → Follows rest →
    2 * (pre ++ (print L level json ++ rest)).length ≤ fuel →
    readValue fuel depth (pre ++ (print L level json ++ rest)) = some (json, rest)
  | .null, _, fuel, depth, level, pre, rest, hpre, hdepth, hrest, hfuel => by
    obtain ⟨fuel, rfl⟩ : ∃ n, fuel = n + 1 := ⟨fuel - 1, by simp [print] at hfuel; omega⟩
    exact readValue_scalar hpre _ (by decide) (by decide)
  | .bool b, _, fuel, depth, level, pre, rest, hpre, hdepth, hrest, hfuel => by
    obtain ⟨fuel, rfl⟩ : ∃ n, fuel = n + 1 := ⟨fuel - 1, by cases b <;> simp [print] at hfuel <;> omega⟩
    cases b <;> exact readValue_scalar hpre _ (by decide) (by decide)
  | .num literal, h, fuel, depth, level, pre, rest, hpre, hdepth, hrest, hfuel => by
    obtain ⟨-, c, tail, hliteral, hc⟩ := all_isNumberChar_of_isNumber h
    obtain ⟨fuel, rfl⟩ : ∃ n, fuel = n + 1 := ⟨fuel - 1, by simp [print, hliteral] at hfuel; omega⟩
    obtain ⟨hspace, hquote, hbracket, hbrace, -⟩ := isSpace_number hc
    have hread := readScalar_number h hrest
    rw [print]
    rw [hliteral] at hread ⊢
    exact (readValue_scalar hpre _ hspace ⟨hquote, hbracket, hbrace⟩).trans hread
  | .str s, h, fuel, depth, level, pre, rest, hpre, hdepth, hrest, hfuel => by
    obtain ⟨fuel, rfl⟩ : ∃ n, fuel = n + 1 := ⟨fuel - 1, by simp [print, printString] at hfuel; omega⟩
    have hstring : print L level (.str s) ++ rest = '"' :: (s.value.flatMap escapeChar ++ '"' :: rest) := by
      simp [print, printString]
    rw [hstring, readValue_string hpre, readChars_escape, ← (show s = string s.value from h)]
    rfl
  | .arr [], h, fuel, depth, level, pre, rest, hpre, hdepth, hrest, hfuel => by
    obtain ⟨fuel, rfl⟩ : ∃ n, fuel = n + 1 := ⟨fuel - 1, by simp [print] at hfuel; omega⟩
    obtain ⟨depth, rfl⟩ : ∃ n, depth = n + 1 := ⟨depth - 1, by simp [Json.depth] at hdepth; omega⟩
    rw [readValue, skipSpace_append hpre]
    rfl
  | .arr (item :: items), h, fuel, depth, level, pre, rest, hpre, hdepth, hrest, hfuel => by
    obtain ⟨fuel, rfl⟩ : ∃ n, fuel = n + 1 := ⟨fuel - 1, by simp [print] at hfuel; omega⟩
    obtain ⟨depth, rfl⟩ : ∃ n, depth = n + 1 := ⟨depth - 1, by simp [Json.depth] at hdepth; omega⟩
    obtain ⟨c, text, hprint, hspace, hclose⟩ := print_eq_cons L (level + 1) h.1
    have hsplit : print L level (.arr (item :: items)) ++ rest =
        '[' :: (printItems L (level + 1) (item :: items) ++ (L.line level ++ ']' :: rest)) := by
      simp [print]
    have hstart : ∃ text, printItems L (level + 1) (item :: items) ++ (L.line level ++ ']' :: rest) =
        L.line (level + 1) ++ c :: text := by
      rw [printItems, hprint]
      simp only [List.append_assoc, List.cons_append]
      exact ⟨_, rfl⟩
    rw [hsplit] at hfuel ⊢
    have hitems : readItems fuel depth (printItems L (level + 1) (item :: items) ++ (L.line level ++ ']' :: rest)) =
        some (item :: items, rest) := by
      refine readItems_print L (item :: items) (by simp) h (L.line_space level) ?_ ?_
      · simpa [Json.depth] using hdepth
      · simp only [List.length_append, List.length_cons] at hfuel ⊢
        omega
    obtain ⟨text, htext⟩ := hstart
    rw [htext] at hitems ⊢
    rw [readValue_array hpre _ hspace hclose (L.line_space _), hitems]
    rfl
  | .obj [], h, fuel, depth, level, pre, rest, hpre, hdepth, hrest, hfuel => by
    obtain ⟨fuel, rfl⟩ : ∃ n, fuel = n + 1 := ⟨fuel - 1, by simp [print] at hfuel; omega⟩
    obtain ⟨depth, rfl⟩ : ∃ n, depth = n + 1 := ⟨depth - 1, by simp [Json.depth] at hdepth; omega⟩
    rw [readValue, skipSpace_append hpre]
    rfl
  | .obj ((key, value) :: members), h, fuel, depth, level, pre, rest, hpre, hdepth, hrest, hfuel => by
    obtain ⟨fuel, rfl⟩ : ∃ n, fuel = n + 1 := ⟨fuel - 1, by simp [print] at hfuel; omega⟩
    obtain ⟨depth, rfl⟩ : ∃ n, depth = n + 1 := ⟨depth - 1, by simp [Json.depth] at hdepth; omega⟩
    have hsplit : print L level (.obj ((key, value) :: members)) ++ rest = '\x7b' ::
        (printMembers L (level + 1) ((key, value) :: members) ++ (L.line level ++ '\x7d' :: rest)) := by
      simp [print]
    have hstart : ∃ text, printMembers L (level + 1) ((key, value) :: members) ++
        (L.line level ++ '\x7d' :: rest) = L.line (level + 1) ++ '"' :: text := by
      rw [printMembers, printString]
      simp only [List.append_assoc, List.cons_append]
      exact ⟨_, rfl⟩
    rw [hsplit] at hfuel ⊢
    have hmembers : readMembers fuel depth (printMembers L (level + 1) ((key, value) :: members) ++
        (L.line level ++ '\x7d' :: rest)) = some ((key, value) :: members, rest) := by
      refine readMembers_print L ((key, value) :: members) (by simp) h (L.line_space level) ?_ ?_
      · simpa [Json.depth] using hdepth
      · simp only [List.length_append, List.length_cons] at hfuel ⊢
        omega
    obtain ⟨text, htext⟩ := hstart
    rw [htext] at hmembers ⊢
    rw [readValue_object hpre _ (by decide) (by decide) (L.line_space _), hmembers]
    rfl

theorem readItems_print (L : Layout) : ∀ (items : List Json), items ≠ [] → PrintedItems items →
    ∀ {fuel depth level : Nat} {post rest : List Char}, Spaces post → depthItems items ≤ depth →
    2 * (printItems L level items ++ (post ++ ']' :: rest)).length + 1 ≤ fuel →
    readItems fuel depth (printItems L level items ++ (post ++ ']' :: rest)) = some (items, rest)
  | [], hne, _, _, _, _, _, _, _, _, _ => absurd rfl hne
  | [item], _, h, fuel, depth, level, post, rest, hpost, hdepth, hfuel => by
    obtain ⟨fuel, rfl⟩ : ∃ n, fuel = n + 1 := ⟨fuel - 1, by omega⟩
    have hsplit : printItems L level [item] ++ (post ++ ']' :: rest) =
        L.line level ++ (print L level item ++ (post ++ ']' :: rest)) := by
      simp [printItems]
    rw [hsplit] at hfuel ⊢
    have hitem : readValue fuel depth (L.line level ++ (print L level item ++ (post ++ ']' :: rest))) =
        some (item, post ++ ']' :: rest) := by
      refine readValue_print L item h.1 (L.line_space level) ?_ ((follows_cons (by decide) rest).spaces hpost) ?_
      · exact (le_max_left _ _).trans hdepth
      · omega
    rw [readItems, hitem]
    simp only [skipSpace_append hpost, skipSpace_cons (show isSpace ']' = false by decide)]
  | item :: next :: items, _, h, fuel, depth, level, post, rest, hpost, hdepth, hfuel => by
    obtain ⟨fuel, rfl⟩ : ∃ n, fuel = n + 1 := ⟨fuel - 1, by omega⟩
    have hsplit : printItems L level (item :: next :: items) ++ (post ++ ']' :: rest) =
        L.line level ++ (print L level item ++ ',' ::
          (printItems L level (next :: items) ++ (post ++ ']' :: rest))) := by
      rw [printItems]
      simp
    rw [hsplit] at hfuel ⊢
    simp only [List.length_append, List.length_cons] at hfuel
    have hitem : readValue fuel depth (L.line level ++ (print L level item ++ ',' ::
        (printItems L level (next :: items) ++ (post ++ ']' :: rest)))) =
        some (item, ',' :: (printItems L level (next :: items) ++ (post ++ ']' :: rest))) := by
      refine readValue_print L item h.1 (L.line_space level) ?_ (follows_cons (by decide) _) ?_
      · exact (le_max_left _ _).trans hdepth
      · simp only [List.length_append, List.length_cons]
        omega
    have hitems : readItems fuel depth (printItems L level (next :: items) ++ (post ++ ']' :: rest)) =
        some (next :: items, rest) := by
      refine readItems_print L (next :: items) (by simp) h.2 hpost ?_ ?_
      · exact (le_max_right _ _).trans hdepth
      · simp only [List.length_append, List.length_cons]
        omega
    rw [readItems, hitem]
    simp only [skipSpace_cons (show isSpace ',' = false by decide), hitems, Option.map_some]

theorem readMembers_print (L : Layout) : ∀ (members : List (JsonString × Json)), members ≠ [] →
    PrintedMembers members → ∀ {fuel depth level : Nat} {post rest : List Char}, Spaces post →
    depthMembers members ≤ depth →
    2 * (printMembers L level members ++ (post ++ '\x7d' :: rest)).length + 1 ≤ fuel →
    readMembers fuel depth (printMembers L level members ++ (post ++ '\x7d' :: rest)) = some (members, rest)
  | [], hne, _, _, _, _, _, _, _, _, _ => absurd rfl hne
  | (key, value) :: members, _, h, fuel, depth, level, post, rest, hpost, hdepth, hfuel => by
    obtain ⟨fuel, rfl⟩ : ∃ n, fuel = n + 1 := ⟨fuel - 1, by omega⟩
    obtain ⟨hkey, hvalue, hmembers⟩ := h
    generalize htail : (if members.isEmpty then [] else ',' :: printMembers L level members) ++
      (post ++ '\x7d' :: rest) = tail
    have hsplit : printMembers L level ((key, value) :: members) ++ (post ++ '\x7d' :: rest) =
        L.line level ++ '"' :: (key.value.flatMap escapeChar ++ '"' :: ':' ::
          (L.colon ++ (print L level value ++ tail))) := by
      rw [printMembers, ← htail, printString]
      simp only [List.append_assoc, List.cons_append, List.nil_append]
    rw [hsplit] at hfuel ⊢
    simp only [List.length_append, List.length_cons] at hfuel
    have hfollows : Follows tail := by
      rw [← htail]
      cases members with
      | nil =>
        rw [List.isEmpty_nil, if_pos rfl, List.nil_append]
        exact (follows_cons (by decide) rest).spaces hpost
      | cons => exact follows_cons (by decide) _
    have hread : readValue fuel depth (L.colon ++ (print L level value ++ tail)) = some (value, tail) := by
      refine readValue_print L value hvalue L.colon_space ?_ hfollows ?_
      · exact (le_max_left _ _).trans hdepth
      · simp only [List.length_append]
        omega
    rw [readMembers, skipSpace_append (L.line_space level), skipSpace_cons (by decide)]
    simp only [readChars_escape, skipSpace_cons (show isSpace ':' = false by decide), hread, ← hkey]
    cases members with
    | nil =>
      rw [← htail]
      simp only [List.isEmpty_nil, if_true, List.nil_append, skipSpace_append hpost,
        skipSpace_cons (show isSpace '\x7d' = false by decide)]
    | cons member members =>
      have hrest : readMembers fuel depth (printMembers L level (member :: members) ++ (post ++ '\x7d' :: rest)) =
          some (member :: members, rest) := by
        refine readMembers_print L (member :: members) (by simp) hmembers hpost ?_ ?_
        · exact (le_max_right _ _).trans hdepth
        · have hlength := congrArg List.length htail
          simp only [List.isEmpty_cons, Bool.false_eq_true, if_false, List.length_append,
            List.length_cons] at hlength ⊢
          omega
      rw [← htail]
      simp only [List.isEmpty_cons, Bool.false_eq_true, if_false, List.cons_append,
        skipSpace_cons (show isSpace ',' = false by decide), hrest, Option.map_some]

end

/-- What is printed, in any layout and with white space around it, is read back. -/
theorem fromStr_print (L : Layout) {json : Json} (h : json.Printed) {depth : Nat} (hdepth : json.depth ≤ depth)
    (level : Nat) {pre post : List Char} (hpre : Spaces pre) (hpost : Spaces post) :
    fromStr depth (pre ++ (print L level json ++ post)) = some json := by
  have hfollows : Follows post := by
    rw [← List.append_nil post]
    exact Follows.spaces hpost nofun
  have hskip : skipSpace post = [] := by
    rw [← List.append_nil post, skipSpace_append hpost]
    rfl
  rw [fromStr, readValue_print L json h hpre hdepth hfollows (by omega)]
  simp only [hskip, if_true]

/-! Compact text has no control characters. -/

theorem plain_of_mem_escapeChar {c d : Char} (h : d ∈ escapeChar c) : 32 ≤ d.toNat := by
  unfold escapeChar at h
  split at h
  case h_8 =>
    split at h
    · rcases List.mem_cons.mp h with rfl | h
      · decide
      · rcases List.mem_cons.mp h with rfl | h
        · decide
        · have hdigit : ∀ d < 16, 32 ≤ (Nat.digitChar d).toNat := by decide
          obtain ⟨n, hn, rfl⟩ := mem_hex h
          exact hdigit n hn
    · rename_i hplain
      rw [List.mem_singleton.mp h]
      exact Nat.le_of_not_lt hplain
  all_goals
    rcases List.mem_cons.mp h with rfl | h
    · decide
    · rw [List.mem_singleton.mp h]
      decide

theorem plain_of_mem_printString (h : c ∈ printString cs) : 32 ≤ c.toNat := by
  rcases List.mem_cons.mp h with rfl | h
  · decide
  · rcases List.mem_append.mp h with h | h
    · obtain ⟨d, -, hd⟩ := List.mem_flatMap.mp h
      exact plain_of_mem_escapeChar hd
    · rw [List.mem_singleton.mp h]
      decide

theorem plain_of_isNumberChar (h : isNumberChar c = true) : 32 ≤ c.toNat := by
  simp only [isNumberChar, Bool.or_eq_true, beq_iff_eq] at h
  rcases h with ((((h | rfl) | rfl) | rfl) | rfl) | rfl
  · have hge := (Bool.and_eq_true _ _ ▸ h : _ ∧ _).1
    have : '0'.toNat ≤ c.toNat := UInt32.le_iff_toNat_le.mp (of_decide_eq_true hge)
    exact Nat.le_trans (by decide) this
  all_goals decide

mutual

theorem plain_of_mem_print : ∀ (json : Json), json.Printed → ∀ {level : Nat} {c : Char},
    c ∈ print .compact level json → 32 ≤ c.toNat
  | .null, _, _, c, h => by
    have hall : ∀ c ∈ ['n', 'u', 'l', 'l'], 32 ≤ c.toNat := by decide
    exact hall c h
  | .bool true, _, _, c, h => by
    have hall : ∀ c ∈ ['t', 'r', 'u', 'e'], 32 ≤ c.toNat := by decide
    exact hall c h
  | .bool false, _, _, c, h => by
    have hall : ∀ c ∈ ['f', 'a', 'l', 's', 'e'], 32 ≤ c.toNat := by decide
    exact hall c h
  | .num literal, hprinted, _, c, h => plain_of_isNumberChar ((all_isNumberChar_of_isNumber hprinted).1 c h)
  | .str s, _, _, c, h => plain_of_mem_printString h
  | .arr items, hprinted, level, c, h => by
    rw [print] at h
    split at h
    · have hall : ∀ c ∈ ['[', ']'], 32 ≤ c.toNat := by decide
      exact hall c h
    · rcases List.mem_append.mp h with h | h
      · rcases List.mem_cons.mp h with rfl | h
        · decide
        · exact plain_of_mem_printItems items hprinted h
      · rw [List.mem_singleton.mp h]
        decide
  | .obj members, hprinted, level, c, h => by
    rw [print] at h
    split at h
    · have hall : ∀ c ∈ ['\x7b', '\x7d'], 32 ≤ c.toNat := by decide
      exact hall c h
    · rcases List.mem_append.mp h with h | h
      · rcases List.mem_cons.mp h with rfl | h
        · decide
        · exact plain_of_mem_printMembers members hprinted h
      · rw [List.mem_singleton.mp h]
        decide

theorem plain_of_mem_printItems : ∀ (items : List Json), PrintedItems items → ∀ {level : Nat} {c : Char},
    c ∈ printItems .compact level items → 32 ≤ c.toNat
  | [], _, _, _, h => nomatch h
  | item :: items, hprinted, level, c, h => by
    change c ∈ print .compact level item ++ (if items.isEmpty then [] else ',' :: printItems .compact level items) at h
    rcases List.mem_append.mp h with h | h
    · exact plain_of_mem_print item hprinted.1 h
    · split at h
      · cases h
      · rcases List.mem_cons.mp h with rfl | h
        · decide
        · exact plain_of_mem_printItems items hprinted.2 h

theorem plain_of_mem_printMembers : ∀ (members : List (JsonString × Json)), PrintedMembers members →
    ∀ {level : Nat} {c : Char}, c ∈ printMembers .compact level members → 32 ≤ c.toNat
  | [], _, _, _, h => nomatch h
  | (key, value) :: members, hprinted, level, c, h => by
    change c ∈ printString key.value ++ ':' :: (print .compact level value ++
      if members.isEmpty then [] else ',' :: printMembers .compact level members) at h
    rcases List.mem_append.mp h with h | h
    · exact plain_of_mem_printString h
    · rcases List.mem_cons.mp h with rfl | h
      · decide
      · rcases List.mem_append.mp h with h | h
        · exact plain_of_mem_print value hprinted.2.1 h
        · split at h
          · cases h
          · rcases List.mem_cons.mp h with rfl | h
            · decide
            · exact plain_of_mem_printMembers members hprinted.2.2 h

end

end Beetle.Lib.Json
