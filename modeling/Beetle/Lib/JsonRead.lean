import Beetle.Lib.Json

/-! Reading the fields of a struct out of a JSON value. -/
namespace Beetle.Lib.Json
variable {α : Type*} {read : Json → Option α} {a : α} {members : List (JsonString × Json)}

/-- `Option<T>`: a missing field and a null are the same. -/
def optionalField (read : Json → Option α) (members : List (JsonString × Json)) (key : String) : Option (Option α) :=
  match field members key.toList with
  | none => none
  | some none => some none
  | some (some .null) => some none
  | some (some json) => (read json).map some

/-- A field that has to be there. -/
def requiredField (read : Json → Option α) (members : List (JsonString × Json)) (key : String) : Option α :=
  match field members key.toList with
  | some (some json) => read json
  | _ => none

/-- `#[serde(default)]`: a missing field only. -/
def defaultField (read : Json → Option α) (default : α) (members : List (JsonString × Json)) (key : String) : Option α :=
  match field members key.toList with
  | none => none
  | some none => some default
  | some (some json) => read json

def asArr (read : Json → Option α) : Json → Option (List α)
  | .arr items => items.mapM read
  | _ => none

def asObj (read : List (JsonString × Json) → Option α) : Json → Option α
  | .obj members => read members
  | _ => none

def asU64 : Json → Option Nat
  | .num literal => parseUnsigned 64 literal
  | _ => none

/-- The second reader reads whatever the first one reads, and the same from it. -/
def Extends (strict lenient : Json → Option α) : Prop := ∀ json a, strict json = some a → lenient json = some a

theorem extends_asStr : Extends asStr asString := by
  intro json a h
  cases json with
  | str s =>
    by_cases hescaped : s.escaped = true
    · rw [asStr, if_pos hescaped] at h
      cases h
    · rwa [asStr, if_neg hescaped] at h
  | null | bool | num | arr | obj => cases h

section
variable {strict lenient : Json → Option α} (h : Extends strict lenient) {members : List (JsonString × Json)} {key : String}
include h

theorem Extends.optionalField {a : Option α} (hread : optionalField strict members key = some a) :
    optionalField lenient members key = some a := by
  unfold Json.optionalField at hread ⊢
  split at hread
  · cases hread
  · exact hread
  · exact hread
  · obtain ⟨b, hb, rfl⟩ := Option.map_eq_some_iff.mp hread
    rw [h _ b hb]
    rfl

theorem Extends.requiredField {a : α} (hread : requiredField strict members key = some a) :
    requiredField lenient members key = some a := by
  unfold Json.requiredField at hread ⊢
  split at hread
  · exact h _ a hread
  · cases hread

theorem Extends.defaultField {a default : α} (hread : defaultField strict default members key = some a) :
    defaultField lenient default members key = some a := by
  unfold Json.defaultField at hread ⊢
  split at hread
  · cases hread
  · exact hread
  · exact h _ a hread

theorem Extends.asArr : Extends (asArr strict) (asArr lenient) := by
  intro json as hread
  cases json with
  | arr items =>
    unfold Json.asArr at hread ⊢
    dsimp only at hread ⊢
    induction items generalizing as with
    | nil => exact hread
    | cons item items ih =>
      rw [List.mapM_cons] at hread ⊢
      obtain ⟨a, ha, hread⟩ := Option.bind_eq_some_iff.mp hread
      obtain ⟨as', has', hread⟩ := Option.bind_eq_some_iff.mp hread
      rw [h item a ha, ih as' has']
      exact hread
  | null | bool | num | str | obj => cases hread

end

theorem Extends.asObj {strict lenient : List (JsonString × Json) → Option α}
    (h : ∀ members a, strict members = some a → lenient members = some a) : Extends (asObj strict) (asObj lenient) := by
  intro json a hread
  cases json with
  | obj members => exact h members a hread
  | null | bool | num | str | arr => cases hread

/-! What is known of a value that has been read. -/

theorem exists_of_optionalField {key : String}
    (h : optionalField read members key = some (some a)) : ∃ json, read json = some a := by
  unfold optionalField at h
  split at h
  · cases h
  · cases Option.some.inj h
  · cases Option.some.inj h
  · obtain ⟨b, hb, heq⟩ := Option.map_eq_some_iff.mp h
    obtain rfl := Option.some.inj heq
    exact ⟨_, hb⟩

theorem exists_of_requiredField {key : String}
    (h : requiredField read members key = some a) : ∃ json, read json = some a := by
  unfold requiredField at h
  split at h
  · rename_i json _
    exact ⟨json, h⟩
  · cases h

theorem exists_of_asObj {read : List (JsonString × Json) → Option α} {json : Json}
    (h : asObj read json = some a) : ∃ members, read members = some a := by
  cases json with
  | obj members => exact ⟨members, h⟩
  | null | bool | num | str | arr => cases h

theorem exists_of_mem_asArr {json : Json} {as : List α} (h : asArr read json = some as)
    (ha : a ∈ as) : ∃ item, read item = some a := by
  cases json with
  | arr items =>
    unfold asArr at h
    dsimp only at h
    induction items generalizing as with
    | nil =>
      obtain rfl := Option.some.inj h
      cases ha
    | cons item items ih =>
      rw [List.mapM_cons] at h
      obtain ⟨b, hb, h⟩ := Option.bind_eq_some_iff.mp h
      obtain ⟨bs, hbs, h⟩ := Option.bind_eq_some_iff.mp h
      obtain rfl := Option.some.inj h
      rcases List.mem_cons.mp ha with rfl | ha
      · exact ⟨item, hb⟩
      · exact ih ha hbs
  | null | bool | num | str | obj => cases h

end Beetle.Lib.Json

/-! Natural numbers in decimal digits, as they are written and as they are read. -/
namespace Beetle.Lib

def decimal (n : Nat) : List Char := Nat.toDigits 10 n

theorem decimal_ne_nil (n : Nat) : decimal n ≠ [] := Nat.toDigits_ne_nil

variable {n : Nat}

theorem isDigit_of_mem_decimal {c : Char} (h : c ∈ decimal n) : c.isDigit = true :=
  Nat.isDigit_of_mem_toDigits (by decide) (by decide) h

theorem parseUnsigned_decimal {bits n : Nat} (h : n < 2 ^ bits) : parseUnsigned bits (decimal n) = some n := by
  have hplus : (decimal n).head? ≠ some '+' := by
    intro hhead
    exact absurd (isDigit_of_mem_decimal (List.mem_of_head? hhead)) (by decide)
  have hall : (decimal n).all Char.isDigit = true := List.all_eq_true.mpr fun c hc => isDigit_of_mem_decimal hc
  have hvalue : (decimal n).foldl (fun n c => n * 10 + (c.toNat - '0'.toNat)) 0 = n := by
    have hdigits : Nat.ofDigitChars 10 (decimal n) 0 = n := Nat.ofDigitChars_ten_toDigits
    rw [Nat.ofDigitChars_eq_foldl] at hdigits
    simpa only [Nat.mul_comm] using hdigits
  unfold parseUnsigned
  simp only [if_neg hplus, hall, hvalue, decimal_ne_nil, Bool.not_true, Bool.false_eq_true, or_self, if_false, if_pos h]

/-- There are no zeros in front. -/
theorem decimal_head (hn : 0 < n) : ∃ c digits, decimal n = c :: digits ∧ c ≠ '0' := by
  induction n using Nat.strongRecOn with
  | ind n ih =>
    by_cases hlt : n < 10
    · have hdigit : ∀ n < 10, 0 < n → Nat.digitChar n ≠ '0' := by decide
      exact ⟨n.digitChar, [], Nat.toDigits_of_lt_base hlt, hdigit n hlt hn⟩
    · have hsplit : decimal n = decimal (n / 10) ++ [(n % 10).digitChar] := Nat.toDigits_of_base_le (by decide) (by omega)
      obtain ⟨c, digits, hdigits, hc⟩ := ih (n / 10) (by omega) (by omega)
      exact ⟨c, digits ++ [(n % 10).digitChar], by rw [hsplit, hdigits, List.cons_append], hc⟩

theorem isNumber_decimal (n : Nat) : Json.isNumber (decimal n) = true := by
  rcases Nat.eq_zero_or_pos n with rfl | hn
  · rfl
  · obtain ⟨c, digits, hdecimal, hc⟩ := decimal_head hn
    have hdigit (d : Char) (hd : d ∈ c :: digits) : d.isDigit = true := isDigit_of_mem_decimal (hdecimal ▸ hd)
    have hminus : c ≠ '-' := by
      rintro rfl
      exact absurd (hdigit '-' List.mem_cons_self) (by decide)
    have hrest : digits.dropWhile Char.isDigit = [] :=
      List.dropWhile_eq_nil_iff.mpr fun d hd => hdigit d (List.mem_cons_of_mem c hd)
    rw [hdecimal, Json.isNumber.eq_def]
    split
    · rename_i heq
      exact absurd (List.cons.inj heq).1 hminus
    · rw [Json.isUnsignedNumber, if_neg hc, hdigit c List.mem_cons_self, hrest]
      rfl

theorem asU64_decimal (h : n < 2 ^ 64) : Json.asU64 (.num (decimal n)) = some n := parseUnsigned_decimal h

end Beetle.Lib
