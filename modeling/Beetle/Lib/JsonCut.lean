import Beetle.Lib.JsonPrint
import Beetle.Lib.Trim

/-! What is read from the front of a text is read from any longer text, so a text that is cut within an object
spells nothing. -/
namespace Beetle.Lib.Json

variable {c : Char} {text : List Char} {json : Json} {fuel depth : Nat} {text rest : List Char}

theorem isWhitespace_of_isSpace (h : isSpace c = true) : isWhitespace c = true := by
  simp only [isSpace, Bool.or_eq_true, beq_iff_eq] at h
  rcases h with ((rfl | rfl) | rfl) | rfl
  · decide
  · decide
  · decide
  · decide

theorem exists_skipSpace (text : List Char) : ∃ pre, Spaces pre ∧ text = pre ++ skipSpace text :=
  ⟨text.takeWhile isSpace, fun _ hc => List.mem_takeWhile_imp hc, (List.takeWhile_append_dropWhile).symm⟩

theorem map_readChars_append {tail rest more : List Char} {f : JsonString → JsonString} {s : JsonString}
    (ih : ∀ {s}, readChars tail = some (s, rest) → readChars (tail ++ more) = some (s, rest ++ more))
    (h : ((readChars tail).map fun x => (f x.1, x.2)) = some (s, rest)) :
    ((readChars (tail ++ more)).map fun x => (f x.1, x.2)) = some (s, rest ++ more) := by
  obtain ⟨⟨s', rest'⟩, htail, heq⟩ := Option.map_eq_some_iff.mp h
  obtain ⟨rfl, rfl⟩ := Prod.mk.inj heq
  rw [ih htail]
  rfl

theorem readChars_append {s : JsonString} {rest : List Char} (h : readChars text = some (s, rest))
    (more : List Char) : readChars (text ++ more) = some (s, rest ++ more) := by
  fun_induction readChars text generalizing s with
  | case2 =>
    obtain ⟨rfl, rfl⟩ := Prod.ext_iff.mp (Option.some.inj h)
    rw [List.cons_append, readChars_quote]
  | case5 a b c d m hhigh hhex a' b' c' d' tail m' hlow hhex' =>
    rename_i ih
    simp only [List.cons_append]
    rw [readChars.eq_def]
    simp only [hhex, hhigh, hhex', hlow, if_true]
    rw [if_neg (by decide)]
    exact map_readChars_append ih h
  | case9 a b c d tail m hhex hhigh hlow _ ih =>
    simp only [List.cons_append]
    rw [readChars.eq_def]
    simp only [hhex, hhigh, hlow]
    exact map_readChars_append ih h
  | case11 c tail hu char hshort _ ih =>
    simp only [List.cons_append]
    have hne : c ≠ 'u' := by
      rintro rfl
      cases hshort
    rw [readChars.eq_def]
    dsimp only
    rw [if_neg (by decide), if_pos rfl]
    split
    · rename_i heq
      exact absurd (List.cons.inj heq).1 hne
    · rename_i heq
      obtain ⟨rfl, rfl⟩ := List.cons.inj heq
      rw [hshort]
      exact map_readChars_append ih h
    · rename_i heq
      cases heq
  | case14 c tail hquote hbackslash hcontrol ih =>
    rw [List.cons_append, readChars.eq_def]
    simp only [hquote, hbackslash, hcontrol, if_false]
    exact map_readChars_append ih h
  | _ => cases h

theorem skipSpace_append_of_cons (h : skipSpace text = c :: rest) (more : List Char) :
    skipSpace (text ++ more) = c :: (rest ++ more) := by
  have hsome : (text.dropWhile isSpace).isEmpty = false := by rw [← skipSpace, h, List.isEmpty_cons]
  rw [skipSpace, List.dropWhile_append, hsome, if_neg (by decide), ← skipSpace, h, List.cons_append]

/-- The end of a value shows: more text, if there is any, is not part of it. -/
def Ended (json : Json) (rest more : List Char) : Prop := rest = [] → more = [] ∨ ∀ literal, json ≠ .num literal

theorem readNumber_append_more {text literal rest more : List Char} (h : readNumber text = some (literal, rest))
    (hended : rest = [] → more = []) : readNumber (text ++ more) = some (literal, rest ++ more) := by
  cases rest with
  | nil =>
    rw [hended rfl, List.append_nil, List.append_nil, h]
  | cons c rest =>
    unfold readNumber at h ⊢
    dsimp only at h ⊢
    split at h
    · rename_i hnumber
      obtain ⟨rfl, hrest⟩ := Prod.mk.inj (Option.some.inj h)
      have hsome : (text.dropWhile isNumberChar).isEmpty = false := by rw [hrest, List.isEmpty_cons]
      have htake : (text ++ more).takeWhile isNumberChar = text.takeWhile isNumberChar := by
        have hlength : (text.takeWhile isNumberChar).length ≠ text.length := by
          intro hall
          have hsplit := congrArg List.length (List.takeWhile_append_dropWhile (p := isNumberChar) (l := text))
          rw [List.length_append, hrest, List.length_cons] at hsplit
          omega
        rw [List.takeWhile_append, if_neg hlength]
      rw [htake, if_pos hnumber, List.dropWhile_append, hsome, if_neg (by decide), hrest]
    · cases h

theorem readNumber_letter (h : isNumberChar c = false) : readNumber (c :: text) = none := by
  rw [readNumber, List.takeWhile_cons, h]
  rfl

theorem readScalar_append {text rest more : List Char} (h : readScalar text = some (json, rest))
    (hended : Ended json rest more) : readScalar (text ++ more) = some (json, rest ++ more) := by
  unfold readScalar at h
  split at h
  · obtain ⟨rfl, rfl⟩ := Prod.mk.inj (Option.some.inj h)
    rfl
  · obtain ⟨rfl, rfl⟩ := Prod.mk.inj (Option.some.inj h)
    rfl
  · obtain ⟨rfl, rfl⟩ := Prod.mk.inj (Option.some.inj h)
    rfl
  · obtain ⟨⟨literal, rest'⟩, hnumber, heq⟩ := Option.map_eq_some_iff.mp h
    obtain ⟨rfl, rfl⟩ := Prod.mk.inj heq
    have hmore := readNumber_append_more hnumber fun hrest => (hended hrest).resolve_right fun h => h literal rfl
    unfold readScalar
    split
    · rename_i htext
      rw [htext, readNumber_letter (by decide)] at hmore
      cases hmore
    · rename_i htext
      rw [htext, readNumber_letter (by decide)] at hmore
      cases hmore
    · rename_i htext
      rw [htext, readNumber_letter (by decide)] at hmore
      cases hmore
    · rw [hmore]
      rfl

theorem ended_of_skipSpace {rest rest' : List Char} (h : skipSpace rest = c :: rest')
    (more : List Char) : Ended json rest more := by
  rintro rfl
  cases h

/-- A container that is not empty goes on with a character that is no space. -/
theorem skipSpace_of_readItems {found : List Json × List Char}
    (h : readItems fuel depth text = some found) : ∃ c rest, skipSpace text = c :: rest := by
  cases htext : skipSpace text with
  | cons c rest => exact ⟨c, rest, rfl⟩
  | nil =>
    have hvalue (n : Nat) : readValue n depth text = none := by
      cases n with
      | zero => rw [readValue]
      | succ n => rw [readValue, htext]
    cases fuel with
    | zero =>
      rw [readItems] at h
      cases h
    | succ fuel =>
      rw [readItems, hvalue] at h
      cases h

theorem skipSpace_of_readMembers {found : List (JsonString × Json) × List Char}
    (h : readMembers fuel depth text = some found) : ∃ c rest, skipSpace text = c :: rest := by
  cases htext : skipSpace text with
  | cons c rest => exact ⟨c, rest, rfl⟩
  | nil =>
    cases fuel with
    | zero =>
      rw [readMembers] at h
      cases h
    | succ fuel =>
      rw [readMembers, htext] at h
      cases h

/-- More fuel, and more text behind the value, make no difference. -/
structure ReadsOn (fuel fuel' : Nat) : Prop where
  value : ∀ {depth : Nat} {text more rest : List Char} {json : Json}, readValue fuel depth text = some (json, rest) →
    Ended json rest more → readValue fuel' depth (text ++ more) = some (json, rest ++ more)
  items : ∀ {depth : Nat} {text rest : List Char} {items : List Json} (more : List Char),
    readItems fuel depth text = some (items, rest) → readItems fuel' depth (text ++ more) = some (items, rest ++ more)
  members : ∀ {depth : Nat} {text rest : List Char} {members : List (JsonString × Json)} (more : List Char),
    readMembers fuel depth text = some (members, rest) →
    readMembers fuel' depth (text ++ more) = some (members, rest ++ more)

section
variable {fuel fuel' : Nat} (ih : ReadsOn fuel fuel') {depth : Nat} {text more rest : List Char}
include ih

theorem readValue_succ_append {json : Json} (h : readValue (fuel + 1) depth text = some (json, rest))
    (hended : Ended json rest more) : readValue (fuel' + 1) depth (text ++ more) = some (json, rest ++ more) := by
  rw [readValue] at h ⊢
  cases htext : skipSpace text with
  | nil =>
    rw [htext] at h
    cases h
  | cons c tail =>
    rw [htext] at h
    rw [skipSpace_append_of_cons htext]
    dsimp only at h ⊢
    by_cases hquote : c = '"'
    · rw [if_pos hquote] at h ⊢
      obtain ⟨⟨s, rest'⟩, hchars, heq⟩ := Option.map_eq_some_iff.mp h
      obtain ⟨rfl, rfl⟩ := Prod.mk.inj heq
      rw [readChars_append hchars]
      rfl
    · rw [if_neg hquote] at h ⊢
      by_cases harray : c = '['
      · rw [if_pos harray] at h ⊢
        cases depth with
        | zero => cases h
        | succ depth =>
          dsimp only at h ⊢
          split at h
          · rename_i hclose
            obtain ⟨rfl, rfl⟩ := Prod.mk.inj (Option.some.inj h)
            rw [skipSpace_append_of_cons hclose]
            rfl
          · rename_i hopen
            obtain ⟨⟨items, rest'⟩, hitems, heq⟩ := Option.map_eq_some_iff.mp h
            obtain ⟨rfl, rfl⟩ := Prod.mk.inj heq
            obtain ⟨d, tail', htail⟩ := skipSpace_of_readItems hitems
            rw [skipSpace_append_of_cons htail]
            split
            · rename_i heq
              obtain ⟨rfl, -⟩ := List.cons.inj heq
              exact absurd htail (hopen tail')
            · rw [ih.items more hitems]
              rfl
      · rw [if_neg harray] at h ⊢
        by_cases hobject : c = '\x7b'
        · rw [if_pos hobject] at h ⊢
          cases depth with
          | zero => cases h
          | succ depth =>
            dsimp only at h ⊢
            split at h
            · rename_i hclose
              obtain ⟨rfl, rfl⟩ := Prod.mk.inj (Option.some.inj h)
              rw [skipSpace_append_of_cons hclose]
              rfl
            · rename_i hopen
              obtain ⟨⟨members, rest'⟩, hmembers, heq⟩ := Option.map_eq_some_iff.mp h
              obtain ⟨rfl, rfl⟩ := Prod.mk.inj heq
              obtain ⟨d, tail', htail⟩ := skipSpace_of_readMembers hmembers
              rw [skipSpace_append_of_cons htail]
              split
              · rename_i heq
                obtain ⟨rfl, -⟩ := List.cons.inj heq
                exact absurd htail (hopen tail')
              · rw [ih.members more hmembers]
                rfl
        · rw [if_neg hobject] at h ⊢
          exact readScalar_append h hended

theorem readItems_succ_append {items : List Json} (h : readItems (fuel + 1) depth text = some (items, rest)) :
    readItems (fuel' + 1) depth (text ++ more) = some (items, rest ++ more) := by
  rw [readItems] at h ⊢
  rcases hvalue : readValue fuel depth text with _ | ⟨item, tail⟩
  · rw [hvalue] at h
    cases h
  · rw [hvalue] at h
    dsimp only at h
    cases htail : skipSpace tail with
    | nil =>
      rw [htail] at h
      cases h
    | cons c rest' =>
      rw [htail] at h
      rw [ih.value hvalue (ended_of_skipSpace htail more)]
      dsimp only
      rw [skipSpace_append_of_cons htail]
      split at h
      · rename_i heq
        obtain ⟨rfl, rfl⟩ := List.cons.inj heq
        obtain ⟨⟨items', rest''⟩, hitems, heq⟩ := Option.map_eq_some_iff.mp h
        obtain ⟨rfl, rfl⟩ := Prod.mk.inj heq
        change Option.map _ (readItems fuel' depth (rest' ++ more)) = _
        rw [ih.items more hitems]
        rfl
      · rename_i heq
        obtain ⟨rfl, rfl⟩ := List.cons.inj heq
        obtain ⟨rfl, rfl⟩ := Prod.mk.inj (Option.some.inj h)
        rfl
      · cases h

theorem readMembers_succ_append {members : List (JsonString × Json)}
    (h : readMembers (fuel + 1) depth text = some (members, rest)) :
    readMembers (fuel' + 1) depth (text ++ more) = some (members, rest ++ more) := by
  rw [readMembers] at h ⊢
  cases htext : skipSpace text with
  | nil =>
    rw [htext] at h
    cases h
  | cons c tail =>
    rw [htext] at h
    rw [skipSpace_append_of_cons htext]
    split at h
    · rename_i heq
      obtain ⟨rfl, rfl⟩ := List.cons.inj heq
      rcases hkey : readChars _ with _ | ⟨key, tail'⟩
      · rw [hkey] at h
        cases h
      · rw [hkey] at h
        dsimp only at h
        split at h
        · rename_i hcolon
          rcases hvalue : readValue fuel depth _ with _ | ⟨value, tail''⟩
          · rw [hvalue] at h
            cases h
          · rw [hvalue] at h
            dsimp only at h
            split at h
            · rename_i hcomma
              obtain ⟨⟨members', rest'⟩, hmembers, heq⟩ := Option.map_eq_some_iff.mp h
              obtain ⟨rfl, rfl⟩ := Prod.mk.inj heq
              simp only [readChars_append hkey, skipSpace_append_of_cons hcolon,
                ih.value hvalue (ended_of_skipSpace hcomma more), skipSpace_append_of_cons hcomma, ih.members more hmembers]
              rfl
            · rename_i hclose
              obtain ⟨rfl, rfl⟩ := Prod.mk.inj (Option.some.inj h)
              simp only [readChars_append hkey, skipSpace_append_of_cons hcolon,
                ih.value hvalue (ended_of_skipSpace hclose more), skipSpace_append_of_cons hclose]
            · cases h
        · cases h
    · cases h

end

theorem readsOn {fuel fuel' : Nat} (h : fuel ≤ fuel') : ReadsOn fuel fuel' := by
  induction fuel generalizing fuel' with
  | zero =>
    refine ⟨fun h _ => ?_, fun _ h => ?_, fun _ h => ?_⟩
    · rw [readValue] at h
      cases h
    · rw [readItems] at h
      cases h
    · rw [readMembers] at h
      cases h
  | succ fuel ih =>
    obtain ⟨fuel', rfl⟩ : ∃ n, fuel' = n + 1 := ⟨fuel' - 1, by omega⟩
    have hreads := ih (Nat.le_of_succ_le_succ h)
    exact ⟨readValue_succ_append hreads, fun _ => readItems_succ_append hreads, fun _ => readMembers_succ_append hreads⟩

theorem obj_of_readValue
    (h : readValue fuel depth ('\x7b' :: text) = some (json, rest)) : ∃ members, json = .obj members := by
  cases fuel with
  | zero =>
    rw [readValue] at h
    cases h
  | succ fuel =>
    rw [readValue, skipSpace_cons (by decide)] at h
    dsimp only at h
    rw [if_neg (by decide), if_neg (by decide), if_pos rfl] at h
    cases depth with
    | zero => cases h
    | succ depth =>
      dsimp only at h
      split at h
      · obtain ⟨rfl, -⟩ := Prod.mk.inj (Option.some.inj h)
        exact ⟨[], rfl⟩
      · obtain ⟨⟨members, rest'⟩, -, heq⟩ := Option.map_eq_some_iff.mp h
        obtain ⟨rfl, -⟩ := Prod.mk.inj heq
        exact ⟨members, rfl⟩

/-- What is cut off an object, but for white space, is missing. -/
theorem fromStr_eq_none_of_cut {depth : Nat} {front more : List Char}
    (h : fromStr depth ('\x7b' :: front ++ more) = some json) (hmore : skipSpace more ≠ []) :
    fromStr depth ('\x7b' :: front) = none := by
  unfold fromStr at h ⊢
  rcases hfront : readValue (2 * ('\x7b' :: front).length + 1) depth ('\x7b' :: front) with _ | ⟨json', rest⟩
  · rfl
  · have hended : Ended json' rest more := by
      obtain ⟨members, rfl⟩ := obj_of_readValue hfront
      exact fun _ => .inr fun _ h => nomatch h
    have hfuel : 2 * ('\x7b' :: front).length + 1 ≤ 2 * ('\x7b' :: front ++ more).length + 1 := by
      rw [List.length_append]
      omega
    rw [(readsOn hfuel).value hfront hended] at h
    dsimp only at h
    split at h
    · rename_i hspace
      refine absurd (List.dropWhile_eq_nil_iff.mpr fun c hc => ?_) hmore
      exact List.dropWhile_eq_nil_iff.mp hspace c (List.mem_append_right rest hc)
    · cases h

end Beetle.Lib.Json
