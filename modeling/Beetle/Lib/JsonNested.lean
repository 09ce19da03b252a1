import Beetle.Lib.JsonSpells

/-! Texts whose strings and brackets are closed, such as those that a JSON value is read from; what follows such a text
makes no difference to the value. -/
namespace Beetle.Lib.Json

/-- What may stand between the quotes of a string. -/
inductive InString : List Char → Prop where
  | nil : InString []
  | plain {c : Char} {text : List Char} : c ≠ '"' → c ≠ '\\' → InString text → InString (c :: text)
  | escape {c : Char} {text : List Char} : InString text → InString ('\\' :: c :: text)

def isPlain (c : Char) : Bool := c ∉ ['"', '[', ']', '\x7b', '\x7d']

inductive Nested : List Char → Prop where
  | nil : Nested []
  | plain {c : Char} : isPlain c = true → Nested [c]
  | string {text : List Char} : InString text → Nested ('"' :: (text ++ ['"']))
  | array {text : List Char} : Nested text → Nested ('[' :: (text ++ [']']))
  | object {text : List Char} : Nested text → Nested ('\x7b' :: (text ++ ['\x7d']))
  | append {a b : List Char} : Nested a → Nested b → Nested (a ++ b)

theorem InString.append {a b : List Char} (ha : InString a) (hb : InString b) : InString (a ++ b) := by
  induction ha with
  | nil => exact hb
  | plain hquote hbackslash _ ih => exact .plain hquote hbackslash ih
  | escape _ ih => exact .escape ih

variable {text : List Char}

theorem Nested.of_forall (h : ∀ c ∈ text, isPlain c = true) : Nested text := by
  induction text with
  | nil => exact .nil
  | cons c text ih =>
    rw [List.forall_mem_cons] at h
    exact (Nested.plain h.1).append (ih h.2)

variable {c : Char} {text rest : List Char} {json : Json} {fuel depth : Nat} {members : List (JsonString × Json)}

theorem isPlain_of_isSpace (h : isSpace c = true) : isPlain c = true := by
  simp only [isSpace, Bool.or_eq_true, beq_iff_eq] at h
  rcases h with ((rfl | rfl) | rfl) | rfl <;> decide

theorem isPlain_of_isNumberChar (h : isNumberChar c = true) : isPlain c = true := by
  unfold isPlain
  rw [decide_eq_true_iff]
  intro hmem
  simp only [List.mem_cons, List.not_mem_nil, or_false] at hmem
  rcases hmem with rfl | rfl | rfl | rfl | rfl <;> exact absurd h (by decide)

theorem Nested.spaces (h : Spaces text) : Nested text := .of_forall fun c hc => isPlain_of_isSpace (h c hc)

/-! The readers. -/

theorem exists_inString_cons {piece more rest : List Char} {f : JsonString → JsonString} {s : JsonString}
    (ih : ∀ {s}, readChars more = some (s, rest) →
      ∃ front, more = front ++ '"' :: rest ∧ InString front ∧ readChars (front ++ ['"']) = some (s, []))
    (hpiece : InString piece) (hread : ∀ more, readChars (piece ++ more) = (readChars more).map fun x => (f x.1, x.2))
    (h : ((readChars more).map fun x => (f x.1, x.2)) = some (s, rest)) :
    ∃ front, piece ++ more = front ++ '"' :: rest ∧ InString front ∧ readChars (front ++ ['"']) = some (s, []) := by
  obtain ⟨⟨s', rest'⟩, hmore, heq⟩ := Option.map_eq_some_iff.mp h
  obtain ⟨rfl, rfl⟩ := Prod.ext_iff.mp heq
  obtain ⟨front, hfront, htext, hagain⟩ := ih hmore
  refine ⟨piece ++ front, by rw [hfront, List.append_assoc], hpiece.append htext, ?_⟩
  rw [List.append_assoc, hread, hagain]
  rfl

theorem hexDigit?_plain {d : Nat} (h : hexDigit? c = some d) : c ≠ '"' ∧ c ≠ '\\' := by
  constructor
  · rintro rfl
    cases h
  · rintro rfl
    cases h

theorem inString_of_hex4? {a b c d : Char} {m : Nat} (h : hex4? a b c d = some m) : InString ['\\', 'u', a, b, c, d] := by
  simp only [hex4?, Option.bind_eq_bind, Option.bind_eq_some_iff] at h
  obtain ⟨_, ha, _, hb, _, hc, _, hd, -⟩ := h
  have plain {c : Char} {n : Nat} {text : List Char} (h : hexDigit? c = some n) (htext : InString text) :
      InString (c :: text) := .plain (hexDigit?_plain h).1 (hexDigit?_plain h).2 htext
  exact .escape (plain ha (plain hb (plain hc (plain hd .nil))))

/-- A string is read up to its closing quote. -/
theorem exists_inString_of_readChars {s : JsonString} {rest : List Char} (h : readChars text = some (s, rest)) :
    ∃ front, text = front ++ '"' :: rest ∧ InString front ∧ readChars (front ++ ['"']) = some (s, []) := by
  fun_induction readChars text generalizing s with
  | case2 =>
    obtain ⟨rfl, rfl⟩ := Prod.ext_iff.mp (Option.some.inj h)
    exact ⟨[], rfl, .nil, readChars_quote []⟩
  | case5 a b c d m hhex hhigh a' b' c' d' tail m' hhex' hlow =>
    rename_i ih
    refine exists_inString_cons ih ((inString_of_hex4? hhex).append (inString_of_hex4? hhex')) (fun more => ?_) h
    simp only [List.cons_append, List.nil_append]
    rw [readChars.eq_def]
    simp only [hhex, hhigh, hhex', hlow, if_true]
    rw [if_neg (by decide)]
  | case9 a b c d tail m hhex hhigh hlow _ ih =>
    refine exists_inString_cons ih (inString_of_hex4? hhex) (fun more => ?_) h
    simp only [List.cons_append, List.nil_append]
    rw [readChars.eq_def]
    simp only [hhex, hhigh, hlow]
    rw [if_neg (by decide)]
    rfl
  | case11 c tail hu char hshort _ ih =>
    refine exists_inString_cons ih (.escape .nil) (fun more => ?_) h
    have hne : c ≠ 'u' := by
      rintro rfl
      cases hshort
    simp only [List.cons_append, List.nil_append]
    rw [readChars.eq_def]
    dsimp only
    rw [if_neg (by decide), if_pos rfl]
    split
    · rename_i heq
      exact absurd (List.cons.inj heq).1 hne
    · rename_i heq
      obtain ⟨rfl, rfl⟩ := List.cons.inj heq
      rw [hshort]
    · rename_i heq
      cases heq
  | case14 c tail hquote hbackslash hcontrol ih =>
    refine exists_inString_cons ih (.plain hquote hbackslash .nil) (fun more => ?_) h
    rw [List.cons_append, List.nil_append, readChars.eq_def]
    simp only [hquote, hbackslash, hcontrol, if_false]
  | _ => cases h

theorem exists_plain_of_readScalar (h : readScalar text = some (json, rest)) :
    ∃ front, text = front ++ rest ∧ (∀ c ∈ front, isPlain c = true) ∧ readScalar front = some (json, []) := by
  unfold readScalar at h
  split at h
  · obtain ⟨rfl, rfl⟩ := Prod.mk.inj (Option.some.inj h)
    exact ⟨['n', 'u', 'l', 'l'], rfl, by decide, rfl⟩
  · obtain ⟨rfl, rfl⟩ := Prod.mk.inj (Option.some.inj h)
    exact ⟨['t', 'r', 'u', 'e'], rfl, by decide, rfl⟩
  · obtain ⟨rfl, rfl⟩ := Prod.mk.inj (Option.some.inj h)
    exact ⟨['f', 'a', 'l', 's', 'e'], rfl, by decide, rfl⟩
  · rename_i text _ _ _
    obtain ⟨⟨literal, rest'⟩, hread, heq⟩ := Option.map_eq_some_iff.mp h
    obtain ⟨rfl, rfl⟩ := Prod.mk.inj heq
    unfold readNumber at hread
    dsimp only at hread
    split at hread
    · rename_i hnumber
      obtain ⟨rfl, rfl⟩ := Prod.mk.inj (Option.some.inj hread)
      refine ⟨_, List.takeWhile_append_dropWhile.symm, fun c hc => isPlain_of_isNumberChar (List.mem_takeWhile_imp hc), ?_⟩
      have hscalar := @readScalar_number _ [] hnumber nofun
      rwa [List.append_nil] at hscalar
    · cases hread

/-- What the readers take with so much fuel; they read the same from it alone, with fuel for its length. -/
structure ReadsNested (fuel : Nat) : Prop where
  value : ∀ {depth text json rest}, readValue fuel depth text = some (json, rest) →
    ∃ front, text = front ++ rest ∧ Nested front ∧ readValue (2 * front.length + 1) depth front = some (json, [])
  items : ∀ {depth text items rest}, readItems fuel depth text = some (items, rest) → ∃ front,
    text = front ++ ']' :: rest ∧ Nested front ∧ readItems (2 * front.length + 4) depth (front ++ [']']) = some (items, [])
  members : ∀ {depth text members rest}, readMembers fuel depth text = some (members, rest) → ∃ front,
    text = front ++ '\x7d' :: rest ∧ Nested front ∧
      readMembers (2 * front.length + 4) depth (front ++ ['\x7d']) = some (members, [])

theorem readValue_more_fuel {fuel fuel' depth : Nat}
    (h : readValue fuel depth text = some (json, [])) (hle : fuel ≤ fuel') : readValue fuel' depth text = some (json, []) := by
  have hread := @(readsOn hle).value _ _ [] _ _ h fun _ => .inl rfl
  rwa [List.append_nil] at hread

theorem readValue_spaces {pre : List Char} (hpre : Spaces pre) (fuel depth : Nat) (text : List Char) :
    readValue fuel depth (pre ++ text) = readValue fuel depth text := by
  cases fuel with
  | zero => rw [readValue, readValue]
  | succ fuel => rw [readValue, readValue, skipSpace_append hpre]

section
variable {fuel depth : Nat} {text rest : List Char} {json : Json} (ih : ReadsNested fuel)
include ih

/-- An object, from its opening bracket on. -/
theorem exists_nested_of_readValue_object (h : readValue (fuel + 1) depth ('\x7b' :: text) = some (json, rest)) :
    ∃ front, text = front ++ '\x7d' :: rest ∧ Nested front ∧
      readValue (2 * front.length + 5) depth ('\x7b' :: (front ++ ['\x7d'])) = some (json, []) := by
  rw [readValue, skipSpace_cons (by decide)] at h
  dsimp only at h
  rw [if_neg (by decide), if_neg (by decide), if_pos rfl] at h
  cases depth with
  | zero => cases h
  | succ depth =>
    dsimp only at h
    split at h
    · rename_i hclose
      obtain ⟨rfl, rfl⟩ := Prod.mk.inj (Option.some.inj h)
      obtain ⟨pre, hpre, htext⟩ := exists_skipSpace text
      refine ⟨pre, by rw [htext, hclose], .spaces hpre, ?_⟩
      rw [readValue, skipSpace_cons (by decide)]
      dsimp only
      rw [if_neg (by decide), if_neg (by decide), if_pos rfl, skipSpace_append hpre, skipSpace_cons (by decide)]
      rfl
    · obtain ⟨⟨members, rest'⟩, hmembers, heq⟩ := Option.map_eq_some_iff.mp h
      obtain ⟨rfl, rfl⟩ := Prod.mk.inj heq
      obtain ⟨front, rfl, hfront, hagain⟩ := ih.members hmembers
      refine ⟨front, rfl, hfront, ?_⟩
      rw [readValue, skipSpace_cons (by decide)]
      dsimp only
      rw [if_neg (by decide), if_neg (by decide), if_pos rfl]
      split
      · rename_i hclose
        -- There is a member, so what is read does not close the object at once.
        rw [readMembers, hclose] at hagain
        cases hagain
      · rw [hagain]
        rfl

theorem exists_nested_of_readValue_array (h : readValue (fuel + 1) depth ('[' :: text) = some (json, rest)) :
    ∃ front, text = front ++ ']' :: rest ∧ Nested front ∧
      readValue (2 * front.length + 5) depth ('[' :: (front ++ [']'])) = some (json, []) := by
  rw [readValue, skipSpace_cons (by decide)] at h
  dsimp only at h
  rw [if_neg (by decide), if_pos rfl] at h
  cases depth with
  | zero => cases h
  | succ depth =>
    dsimp only at h
    split at h
    · rename_i hclose
      obtain ⟨rfl, rfl⟩ := Prod.mk.inj (Option.some.inj h)
      obtain ⟨pre, hpre, htext⟩ := exists_skipSpace text
      refine ⟨pre, by rw [htext, hclose], .spaces hpre, ?_⟩
      rw [readValue, skipSpace_cons (by decide)]
      dsimp only
      rw [if_neg (by decide), if_pos rfl, skipSpace_append hpre, skipSpace_cons (by decide)]
      rfl
    · obtain ⟨⟨items, rest'⟩, hitems, heq⟩ := Option.map_eq_some_iff.mp h
      obtain ⟨rfl, rfl⟩ := Prod.mk.inj heq
      obtain ⟨front, rfl, hfront, hagain⟩ := ih.items hitems
      refine ⟨front, rfl, hfront, ?_⟩
      rw [readValue, skipSpace_cons (by decide)]
      dsimp only
      rw [if_neg (by decide), if_pos rfl]
      split
      · rename_i hclose
        rw [readItems, readValue_close hclose] at hagain
        cases hagain
      · rw [hagain]
        rfl

theorem ReadsNested.succ_value (h : readValue (fuel + 1) depth text = some (json, rest)) :
    ∃ front, text = front ++ rest ∧ Nested front ∧ readValue (2 * front.length + 1) depth front = some (json, []) := by
  obtain ⟨pre, hpre, htext⟩ := exists_skipSpace text
  rw [htext, readValue_spaces hpre] at h
  suffices hskip : ∃ front, skipSpace text = front ++ rest ∧ Nested front ∧
      readValue (2 * front.length + 1) depth front = some (json, []) by
    obtain ⟨front, hfront, hnested, hagain⟩ := hskip
    refine ⟨pre ++ front, by rw [List.append_assoc, ← hfront]; exact htext, (Nested.spaces hpre).append hnested, ?_⟩
    rw [readValue_spaces hpre]
    exact readValue_more_fuel hagain (by rw [List.length_append]; omega)
  cases hskip : skipSpace text with
  | nil =>
    rw [hskip, readValue] at h
    cases h
  | cons c tail =>
    have hspace := isSpace_of_skipSpace hskip
    rw [hskip] at h
    have hvalue := h
    rw [readValue, skipSpace_cons hspace] at h
    dsimp only at h
    split at h
    · rename_i hquote
      obtain rfl := hquote
      obtain ⟨⟨s, rest'⟩, hchars, heq⟩ := Option.map_eq_some_iff.mp h
      obtain ⟨rfl, rfl⟩ := Prod.mk.inj heq
      obtain ⟨front, rfl, hfront, hagain⟩ := exists_inString_of_readChars hchars
      refine ⟨'"' :: (front ++ ['"']), by simp, .string hfront, ?_⟩
      rw [readValue, skipSpace_cons hspace]
      dsimp only
      rw [if_pos rfl, hagain]
      rfl
    · rename_i hquote
      split at h
      · rename_i hopen
        obtain rfl := hopen
        obtain ⟨front, rfl, hfront, hagain⟩ := exists_nested_of_readValue_array ih hvalue
        exact ⟨'[' :: (front ++ [']']), by simp, .array hfront, readValue_more_fuel hagain (by simp; omega)⟩
      · rename_i harray
        split at h
        · rename_i hopen
          obtain rfl := hopen
          obtain ⟨front, rfl, hfront, hagain⟩ := exists_nested_of_readValue_object ih hvalue
          exact ⟨'\x7b' :: (front ++ ['\x7d']), by simp, .object hfront, readValue_more_fuel hagain (by simp; omega)⟩
        · rename_i hobject
          obtain ⟨front, hfront, hplain, hagain⟩ := exists_plain_of_readScalar h
          refine ⟨front, hfront, .of_forall hplain, ?_⟩
          cases front with
          | nil => cases hagain
          | cons d front =>
            obtain ⟨rfl, -⟩ := List.cons.inj hfront
            rw [readValue, skipSpace_cons hspace]
            dsimp only
            rw [if_neg hquote, if_neg harray, if_neg hobject, hagain]

end

/-- White space before a character that closes or separates. -/
theorem exists_spaces_of_skipSpace (h : skipSpace text = c :: rest) : ∃ pre, text = pre ++ c :: rest ∧ Spaces pre := by
  obtain ⟨pre, hpre, htext⟩ := exists_skipSpace text
  exact ⟨pre, by rw [← h]; exact htext, hpre⟩

/-- A value that is read alone is read as well before a character that does not belong to it. -/
theorem readValue_append_of_alone {front : List Char}
    (h : readValue fuel depth front = some (json, [])) {more : List Char} (hmore : Follows more) :
    readValue fuel depth (front ++ more) = some (json, more) := by
  by_cases hnumber : ∃ literal, json = .num literal
  · obtain ⟨literal, rfl⟩ := hnumber
    obtain ⟨hliteral, pre, hpre, rfl⟩ := eq_append_of_readValue_num h
    rw [List.append_assoc, readValue_spaces hpre]
    obtain ⟨-, c, tail, rfl, hc⟩ := all_isNumberChar_of_isNumber hliteral
    obtain ⟨hspace, hquote, harray, hobject, -⟩ := isSpace_number hc
    cases fuel with
    | zero =>
      rw [readValue] at h
      cases h
    | succ fuel =>
      rw [List.cons_append, ← List.nil_append (c :: _), readValue_scalar spaces_nil _ hspace ⟨hquote, harray, hobject⟩]
      exact readScalar_number hliteral hmore
  · exact (readsOn (le_refl fuel)).value h fun _ => .inr (not_exists.mp hnumber)

theorem ReadsNested.succ_items {items : List Json} (ih : ReadsNested fuel)
    (h : readItems (fuel + 1) depth text = some (items, rest)) :
    ∃ front, text = front ++ ']' :: rest ∧ Nested front ∧
      readItems (2 * front.length + 4) depth (front ++ [']']) = some (items, []) := by
  rw [readItems] at h
  rcases hvalue : readValue fuel depth text with _ | ⟨item, more⟩
  · rw [hvalue] at h
    cases h
  · rw [hvalue] at h
    obtain ⟨item_, rfl, hitem, halone⟩ := ih.value hvalue
    dsimp only at h
    split at h
    · rename_i hcomma
      obtain ⟨⟨items', rest'⟩, hitems, heq⟩ := Option.map_eq_some_iff.mp h
      obtain ⟨rfl, rfl⟩ := Prod.mk.inj heq
      obtain ⟨front, rfl, hfront, hagain⟩ := ih.items hitems
      obtain ⟨pre, rfl, hpre⟩ := exists_spaces_of_skipSpace hcomma
      refine ⟨item_ ++ (pre ++ ([','] ++ front)), by simp,
        hitem.append ((Nested.spaces hpre).append ((Nested.plain (by decide)).append hfront)), ?_⟩
      have hread := readValue_append_of_alone
        (readValue_more_fuel halone (show _ ≤ 2 * (item_ ++ (pre ++ ([','] ++ front))).length + 3 by
          simp only [List.length_append]
          omega)) (Follows.spaces hpre (follows_cons (c := ',') (by decide) (front ++ [']'])))
      have hitems' := (readsOn (show 2 * front.length + 4 ≤ 2 * (item_ ++ (pre ++ ([','] ++ front))).length + 3 by
        simp only [List.length_append, List.length_singleton]
        omega)).items [] hagain
      rw [List.append_nil, List.append_nil] at hitems'
      have htext : item_ ++ (pre ++ ([','] ++ front)) ++ [']'] = item_ ++ (pre ++ ',' :: (front ++ [']'])) := by simp
      rw [htext, readItems, hread]
      simp only [skipSpace_append hpre, skipSpace_cons (show isSpace ',' = false by decide), hitems', Option.map_some]
    · rename_i hclose
      obtain ⟨rfl, rfl⟩ := Prod.mk.inj (Option.some.inj h)
      obtain ⟨pre, rfl, hpre⟩ := exists_spaces_of_skipSpace hclose
      refine ⟨item_ ++ pre, by simp, hitem.append (.spaces hpre), ?_⟩
      have hread := readValue_append_of_alone
        (readValue_more_fuel halone (show _ ≤ 2 * (item_ ++ pre).length + 3 by rw [List.length_append]; omega))
        (Follows.spaces hpre (follows_cons (c := ']') (by decide) []))
      rw [List.append_assoc, readItems, hread]
      simp only [skipSpace_append hpre, skipSpace_cons (show isSpace ']' = false by decide)]
    · cases h

/-- A member that has been read, and then whatever may follow a value. -/
theorem readMembers_member {depth n : Nat} {before key_ beforeColon value_ tail : List Char} {key : JsonString} {value : Json}
    (hbefore : Spaces before) (hkey : readChars (key_ ++ ['"']) = some (key, [])) (hcolon : Spaces beforeColon)
    (hvalue : readValue (2 * value_.length + 1) depth value_ = some (value, [])) (hn : value_.length ≤ n)
    (htail : Follows tail) :
    readMembers (2 * n + 4) depth (before ++ '"' :: (key_ ++ '"' :: (beforeColon ++ ':' :: value_)) ++ tail) =
      match skipSpace tail with
      | ',' :: rest => (readMembers (2 * n + 3) depth rest).map fun (members, rest) => ((key, value) :: members, rest)
      | '\x7d' :: rest => some ([(key, value)], rest)
      | _ => none := by
  have hchars := readChars_append hkey (beforeColon ++ ':' :: (value_ ++ tail))
  rw [List.nil_append] at hchars
  have htext : before ++ '"' :: (key_ ++ '"' :: (beforeColon ++ ':' :: value_)) ++ tail =
      before ++ '"' :: (key_ ++ ['"'] ++ (beforeColon ++ ':' :: (value_ ++ tail))) := by simp
  have hread := readValue_append_of_alone (readValue_more_fuel hvalue (show 2 * value_.length + 1 ≤ 2 * n + 3 by omega)) htail
  rw [htext, readMembers]
  simp only [skipSpace_append hbefore, skipSpace_cons (show isSpace '"' = false by decide), hchars,
    skipSpace_append hcolon, skipSpace_cons (show isSpace ':' = false by decide), hread]
  all_goals rfl

theorem ReadsNested.succ_members
    (ih : ReadsNested fuel) (h : readMembers (fuel + 1) depth text = some (members, rest)) : ∃ front,
      text = front ++ '\x7d' :: rest ∧ Nested front ∧
        readMembers (2 * front.length + 4) depth (front ++ ['\x7d']) = some (members, []) := by
  rw [readMembers] at h
  split at h
  · rename_i hquote
    obtain ⟨before, rfl, hbefore⟩ := exists_spaces_of_skipSpace hquote
    rcases hkey : readChars _ with _ | ⟨key, afterKey⟩
    · rw [hkey] at h
      cases h
    · rw [hkey] at h
      obtain ⟨key_, rfl, hkey_, hkeyAlone⟩ := exists_inString_of_readChars hkey
      dsimp only at h
      split at h
      · rename_i hcolon
        obtain ⟨beforeColon, rfl, hbeforeColon⟩ := exists_spaces_of_skipSpace hcolon
        rcases hvalue : readValue fuel depth _ with _ | ⟨value, more⟩
        · rw [hvalue] at h
          cases h
        · rw [hvalue] at h
          obtain ⟨value_, rfl, hvalue_, halone⟩ := ih.value hvalue
          have hread {n : Nat} {tail : List Char} := @readMembers_member depth n before key_ beforeColon value_ tail key value
            hbefore hkeyAlone hbeforeColon halone
          obtain ⟨member, hmember⟩ : ∃ m, m = before ++ '"' :: (key_ ++ '"' :: (beforeColon ++ ':' :: value_)) := ⟨_, rfl⟩
          have hnested : Nested member := by
            have hparts : member = before ++ ('"' :: (key_ ++ ['"']) ++ (beforeColon ++ ([':'] ++ value_))) := by simp [hmember]
            rw [hparts]
            exact (Nested.spaces hbefore).append ((Nested.string hkey_).append ((Nested.spaces hbeforeColon).append
              ((Nested.plain (by decide)).append hvalue_)))
          have hlength : value_.length + 2 ≤ member.length := by
            rw [hmember]
            simp only [List.length_append, List.length_cons]
            omega
          rw [← hmember] at hread
          dsimp only at h
          split at h
          · rename_i hcomma
            obtain ⟨⟨members', rest'⟩, hmembers, heq⟩ := Option.map_eq_some_iff.mp h
            obtain ⟨rfl, rfl⟩ := Prod.mk.inj heq
            obtain ⟨front, rfl, hfront, hagain⟩ := ih.members hmembers
            obtain ⟨pre, rfl, hpre⟩ := exists_spaces_of_skipSpace hcomma
            refine ⟨member ++ (pre ++ ([','] ++ front)), by simp [hmember],
              hnested.append ((Nested.spaces hpre).append ((Nested.plain (by decide)).append hfront)), ?_⟩
            have hmembers' := (readsOn (show 2 * front.length + 4 ≤ 2 * (member ++ (pre ++ ([','] ++ front))).length + 3 by
              simp only [List.length_append, List.length_singleton]
              omega)).members [] hagain
            rw [List.append_nil, List.append_nil] at hmembers'
            have htext : member ++ (pre ++ ([','] ++ front)) ++ ['\x7d'] = member ++ (pre ++ ',' :: (front ++ ['\x7d'])) := by simp
            rw [htext, hread (by simp only [List.length_append]; omega) (Follows.spaces hpre (follows_cons (by decide) _))]
            simp only [skipSpace_append hpre, skipSpace_cons (show isSpace ',' = false by decide), hmembers', Option.map_some]
          · rename_i hclose
            obtain ⟨rfl, rfl⟩ := Prod.mk.inj (Option.some.inj h)
            obtain ⟨pre, rfl, hpre⟩ := exists_spaces_of_skipSpace hclose
            refine ⟨member ++ pre, by simp [hmember], hnested.append (.spaces hpre), ?_⟩
            rw [List.append_assoc, hread (by rw [List.length_append]; omega) (Follows.spaces hpre (follows_cons (by decide) []))]
            simp only [skipSpace_append hpre, skipSpace_cons (show isSpace '\x7d' = false by decide)]
          · cases h
      · cases h
  · cases h

theorem readsNested (fuel : Nat) : ReadsNested fuel := by
  induction fuel with
  | zero =>
    refine ⟨fun h => ?_, fun h => ?_, fun h => ?_⟩
    · rw [readValue] at h
      cases h
    · rw [readItems] at h
      cases h
    · rw [readMembers] at h
      cases h
  | succ fuel ih => exact ⟨ih.succ_value, ih.succ_items, ih.succ_members⟩

theorem readScalar_ne_obj : readScalar text ≠ some (.obj members, rest) := by
  intro h
  unfold readScalar at h
  split at h
  · cases h
  · cases h
  · cases h
  · obtain ⟨_, -, heq⟩ := Option.map_eq_some_iff.mp h
    cases heq

/-- An object is read from a curly bracket on, after white space. -/
theorem exists_of_readValue_obj (h : readValue fuel depth text = some (.obj members, rest)) : ∃ pre inner,
      text = pre ++ '\x7b' :: (inner ++ ['\x7d']) ++ rest ∧ Spaces pre ∧ Nested inner ∧
        readValue (2 * inner.length + 5) depth ('\x7b' :: (inner ++ ['\x7d'])) = some (.obj members, []) := by
  obtain ⟨pre, hpre, htext⟩ := exists_skipSpace text
  rw [htext, readValue_spaces hpre] at h
  cases fuel with
  | zero =>
    rw [readValue] at h
    cases h
  | succ fuel =>
    cases hskip : skipSpace text with
    | nil =>
      rw [hskip, readValue] at h
      cases h
    | cons c tail =>
      have hspace := isSpace_of_skipSpace hskip
      rw [hskip] at h htext
      have hvalue := h
      rw [readValue, skipSpace_cons hspace] at h
      dsimp only at h
      split at h
      · obtain ⟨_, -, heq⟩ := Option.map_eq_some_iff.mp h
        cases heq
      · split at h
        · cases depth with
          | zero => cases h
          | succ depth =>
            dsimp only at h
            split at h
            · cases h
            · obtain ⟨_, -, heq⟩ := Option.map_eq_some_iff.mp h
              cases heq
        · split at h
          · rename_i hopen
            obtain rfl := hopen
            obtain ⟨inner, rfl, hinner, hagain⟩ := exists_nested_of_readValue_object (readsNested fuel) hvalue
            exact ⟨pre, inner, by rw [htext]; simp, hpre, hinner, hagain⟩
          · exact absurd h readScalar_ne_obj

/-- A text that spells an object is that object with white space around it; another text behind the object makes no
difference but for whether it is all there is. -/
theorem exists_object_of_fromStr {depth : Nat} (h : fromStr depth text = some (.obj members)) : ∃ pre inner post,
      text = pre ++ '\x7b' :: (inner ++ ['\x7d']) ++ post ∧ Spaces pre ∧ Spaces post ∧ Nested inner ∧
        ∀ more, fromStr depth ('\x7b' :: (inner ++ ['\x7d']) ++ more) =
          if skipSpace more = [] then some (.obj members) else none := by
  unfold fromStr at h
  split at h
  · rename_i json rest hread
    split at h
    · rename_i hspace
      obtain rfl := Option.some.inj h
      obtain ⟨pre, inner, htext, hpre, hinner, hagain⟩ := exists_of_readValue_obj hread
      refine ⟨pre, inner, rest, htext, hpre, List.dropWhile_eq_nil_iff.mp hspace, hinner, fun more => ?_⟩
      have hfuel : 2 * inner.length + 5 ≤ 2 * ('\x7b' :: (inner ++ ['\x7d']) ++ more).length + 1 := by
        simp only [List.length_append, List.length_cons]
        omega
      have hmore := @(readsOn hfuel).value _ _ more _ _ hagain fun _ => .inr nofun
      rw [fromStr, hmore]
      rfl
    · cases h
  · cases h

end Beetle.Lib.Json
