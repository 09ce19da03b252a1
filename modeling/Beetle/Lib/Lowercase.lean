import Beetle.Lib.Text

/-! The lower case of a text. -/
namespace Beetle.Lib

theorem toLower_of_not_ascii {c : Char} (hc : 128 ≤ c.toNat) : c.toLower = c := by
  unfold Char.toLower
  rw [dif_neg]
  rintro ⟨-, hle⟩
  have hz : c.toNat ≤ 'Z'.toNat := hle
  have hval : 'Z'.toNat = 90 := rfl
  omega

theorem ascii_of_map_toLower {cs text : List Char} (h : cs.map Char.toLower = text) (htext : ∀ c ∈ text, c.toNat < 128) :
    ∀ c ∈ cs, c.toNat < 128 := by
  subst h
  intro c hc
  have hlower := htext c.toLower (List.mem_map_of_mem hc)
  by_contra hnot
  have hsame : c.toLower = c := by
    apply toLower_of_not_ascii
    omega
  rw [hsame] at hlower
  exact hnot hlower

/-- An ASCII character that no letter becomes. -/
structure Separator (sep : Char) : Prop where
  ascii : sep.toNat < 128
  other : sep.isAlpha = false

theorem toLower_cases {c : Char} (hc : c.toNat < 128) : c.toLower = c ∨ c.isAlpha = true ∧ c.toLower.isAlpha = true := by
  have hall : ∀ n < 128, (Char.ofNat n).toLower = Char.ofNat n ∨
      (Char.ofNat n).isAlpha = true ∧ (Char.ofNat n).toLower.isAlpha = true := by decide
  have h := hall c.toNat hc
  rwa [Char.ofNat_toNat] at h

theorem Separator.toLower_eq_iff {sep c : Char} (hsep : Separator sep) (hc : c.toNat < 128) :
    c.toLower = sep ↔ c = sep := by
  rcases toLower_cases hc with hsame | ⟨halpha, hlower⟩
  · rw [hsame]
  · have hother := hsep.other
    constructor
    · rintro rfl
      rw [hlower] at hother
      cases hother
    · rintro rfl
      rw [halpha] at hother
      cases hother

theorem Separator.notMem_piece {sep : Char} (hsep : Separator sep) {piece : List Char}
    (hpiece : ∀ d ∈ piece, d.toNat < 128 → d = 'k' ∨ d = 'i') : sep ∉ piece := by
  intro hmem
  have halpha := hsep.other
  rcases hpiece sep hmem hsep.ascii with rfl | rfl
  · exact absurd halpha (by decide)
  · exact absurd halpha (by decide)

/-- What Unicode says of lower case: the mapping of each character, and where a capital
sigma ends a word. The Kelvin sign and the dotted capital I are the characters outside
ASCII with a lower case that has ASCII in it. -/
structure CaseTables where
  lower : Char → List Char
  finalSigma : List Char → List Char → Bool
  lower_ascii : ∀ c, c.toNat < 128 → lower c = [c.toLower]
  lower_ne_nil : ∀ c, lower c ≠ []
  ascii_of_lower : ∀ c, 128 ≤ c.toNat → ∀ d ∈ lower c, d.toNat < 128 → d = 'k' ∨ d = 'i'

/-- The tables on texts of ASCII and of characters without case. -/
def asciiCaseTables : CaseTables where
  lower c := [c.toLower]
  finalSigma _ _ := false
  lower_ascii _ _ := rfl
  lower_ne_nil _ := List.cons_ne_nil _ _
  ascii_of_lower c hc d hd hlt := by
    rw [toLower_of_not_ascii hc, List.mem_singleton] at hd
    subst hd
    omega

namespace CaseTables
variable (tables : CaseTables)

def toLowercaseFrom (before : List Char) : List Char → List Char
  | [] => []
  | c :: cs =>
    (if c = 'Σ' then [if tables.finalSigma before cs then 'ς' else 'σ'] else tables.lower c) ++
      toLowercaseFrom (before ++ [c]) cs

/-- `str::to_lowercase`. -/
def toLowercase (cs : List Char) : List Char := tables.toLowercaseFrom [] cs

/-- The second text has the characters of the first one in lower case, with any choice for
each sigma. -/
inductive Lowered : List Char → List Char → Prop
  | nil : Lowered [] []
  | ascii {c : Char} {cs out : List Char} (hc : c.toNat < 128) (h : Lowered cs out) :
      Lowered (c :: cs) (c.toLower :: out)
  | other {c : Char} {cs piece out : List Char} (hc : 128 ≤ c.toNat) (hne : piece ≠ [])
      (hpiece : ∀ d ∈ piece, d.toNat < 128 → d = 'k' ∨ d = 'i') (h : Lowered cs out) :
      Lowered (c :: cs) (piece ++ out)

variable {tables}

theorem lowered_toLowercaseFrom (before cs : List Char) : Lowered cs (tables.toLowercaseFrom before cs) := by
  induction cs generalizing before with
  | nil => exact .nil
  | cons c cs ih =>
    unfold toLowercaseFrom
    by_cases hsigma : c = 'Σ'
    · subst hsigma
      refine .other (by decide) (by simp) ?_ (ih _)
      intro d hd hascii
      rw [if_pos rfl, List.mem_singleton] at hd
      split at hd
      · subst hd
        exact absurd hascii (by decide)
      · subst hd
        exact absurd hascii (by decide)
    · rw [if_neg hsigma]
      by_cases hascii : c.toNat < 128
      · rw [tables.lower_ascii c hascii]
        exact .ascii hascii (ih _)
      · exact .other (by omega) (tables.lower_ne_nil c) (tables.ascii_of_lower c (by omega)) (ih _)

theorem lowered_toLowercase (cs : List Char) : Lowered cs (tables.toLowercase cs) := lowered_toLowercaseFrom [] cs

end CaseTables

namespace CaseTables.Lowered
variable {cs out : List Char}

theorem of_ascii (h : Lowered cs out) (hascii : ∀ c ∈ cs, c.toNat < 128) : out = cs.map Char.toLower := by
  induction h with
  | nil => rfl
  | ascii hc h ih => rw [List.map_cons, ih fun c hc => hascii c (List.mem_cons_of_mem _ hc)]
  | @other c cs piece out hc hne hpiece h ih =>
    have hlt := hascii c List.mem_cons_self
    omega

/-- ASCII lower case is one way to lower-case. -/
theorem map_toLower (cs : List Char) : Lowered cs (cs.map Char.toLower) := by
  induction cs with
  | nil => exact .nil
  | cons c cs ih =>
    by_cases hc : c.toNat < 128
    · exact .ascii hc ih
    · have hsame : c.toLower = c := toLower_of_not_ascii (by omega)
      rw [List.map_cons, hsame]
      refine .other (by omega) (List.cons_ne_nil c []) ?_ ih
      intro d hd hlt
      obtain rfl := List.mem_singleton.mp hd
      omega

/-- A character outside ASCII leaves one outside ASCII, or a `k` or an `i`. -/
theorem exists_of_not_ascii (h : Lowered cs out) {c : Char} (hc : c ∈ cs) (hnot : 128 ≤ c.toNat) :
    ∃ d ∈ out, 128 ≤ d.toNat ∨ d = 'k' ∨ d = 'i' := by
  induction h with
  | nil => cases hc
  | @ascii c' cs out hascii h ih =>
    rcases List.mem_cons.mp hc with rfl | hc
    · omega
    · obtain ⟨d, hd, hchar⟩ := ih hc
      exact ⟨d, List.mem_cons_of_mem _ hd, hchar⟩
  | @other c' cs piece out hnot' hne hpiece h ih =>
    obtain ⟨d, hd⟩ := List.exists_mem_of_ne_nil piece hne
    refine ⟨d, List.mem_append_left out hd, ?_⟩
    by_cases hlt : d.toNat < 128
    · exact .inr (hpiece d hd hlt)
    · exact .inl (by omega)

/-- What is lower-cased in parts. -/
theorem append {a b : List Char} (h : Lowered (a ++ b) out) :
    ∃ before after, out = before ++ after ∧ Lowered a before ∧ Lowered b after := by
  induction a generalizing out with
  | nil => exact ⟨[], out, rfl, .nil, h⟩
  | cons c a ih =>
    cases h with
    | ascii hc h =>
      obtain ⟨before, after, rfl, ha, hb⟩ := ih h
      exact ⟨_, after, rfl, .ascii hc ha, hb⟩
    | other hc hne hpiece h =>
      obtain ⟨before, after, rfl, ha, hb⟩ := ih h
      exact ⟨_, after, (List.append_assoc _ _ _).symm, .other hc hne hpiece ha, hb⟩

/-- The text up to the first separator is lower-cased to the text up to the first one. -/
theorem takeWhile_not {seps : List Char} (hseps : ∀ sep ∈ seps, Separator sep) (h : Lowered cs out) :
    Lowered (cs.takeWhile (· ∉ seps)) (out.takeWhile (· ∉ seps)) := by
  induction h with
  | nil => exact .nil
  | @ascii c cs out hc h ih =>
    have hiff : c.toLower ∈ seps ↔ c ∈ seps := by
      constructor
      · intro hmem
        rwa [← ((hseps _ hmem).toLower_eq_iff hc).mp rfl] at hmem
      · intro hmem
        rwa [((hseps c hmem).toLower_eq_iff hc).mpr rfl]
    by_cases hmem : c ∈ seps
    · simpa [hmem, hiff.mpr hmem] using Lowered.nil
    · simpa [hmem, mt hiff.mp hmem] using Lowered.ascii hc ih
  | @other c cs piece out hc hne hpiece h ih =>
    have hnot : c ∉ seps := by
      intro hmem
      have hlt := (hseps c hmem).ascii
      omega
    have hpieces : ∀ d ∈ piece, decide (d ∉ seps) = true := by
      intro d hd
      exact decide_eq_true fun hmem => (hseps d hmem).notMem_piece hpiece hd
    rw [List.takeWhile_append_of_pos hpieces, List.takeWhile_cons_of_pos (by simpa using hnot)]
    exact .other hc hne hpiece ih

/-- A separator stands in the one text where it stands in the other. -/
theorem mem_iff (h : Lowered cs out) {sep : Char} (hsep : Separator sep) : sep ∈ out ↔ sep ∈ cs := by
  induction h with
  | nil => rfl
  | @ascii c cs out hc h ih => rw [List.mem_cons, List.mem_cons, ih, eq_comm, hsep.toLower_eq_iff hc, eq_comm]
  | @other c cs piece out hc hne hpiece h ih =>
    have hne : sep ≠ c := by
      rintro rfl
      have hlt := hsep.ascii
      omega
    simp [ih, hne, hsep.notMem_piece hpiece]

end CaseTables.Lowered

end Beetle.Lib
