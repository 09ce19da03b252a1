import Mathlib.Data.List.Basic
import Mathlib.Data.List.Flatten

/-! Texts with tags in angle brackets that open and close elements, and with entities from an ampersand to a
semicolon. -/
namespace Beetle.Lib.Markup
variable {τ : Type*}

inductive Tag (τ : Type*) where
  | opening (element : τ)
  | closing (element : τ)
  deriving DecidableEq

/-- The tags and the entities there are. Spaces count nowhere. -/
structure Dialect (τ : Type*) where
  isSpace : Char → Bool
  readTag : List Char → Option (Tag τ)
  isEntity : List Char → Bool

inductive Mode where
  | text
  | tag (soFar : List Char)
  | entity (soFar : List Char)
  deriving DecidableEq

/-- A place in a text, with the elements that are open there, the innermost first. -/
structure Place (τ : Type*) where
  elements : List τ
  mode : Mode
  deriving DecidableEq

namespace Dialect
variable (g : Dialect τ)

def visible (text : List Char) : List Char := text.filter fun c => !g.isSpace c

variable [DecidableEq τ]

def endTag (elements : List τ) : Option (Tag τ) → Option (Place τ)
  | some (.opening element) => some ⟨element :: elements, .text⟩
  | some (.closing element) => if elements.head? = some element then some ⟨elements.tail, .text⟩ else none
  | none => none

/-- Over one character; `none` where it cannot stand. -/
@[grind =] def step (p : Place τ) (c : Char) : Option (Place τ) :=
  if g.isSpace c then some p
  else
    match p.mode with
    | .text =>
      if c = '<' then some ⟨p.elements, .tag []⟩
      else if c = '&' then some ⟨p.elements, .entity []⟩
      else if c = '>' then none
      else some p
    | .tag soFar =>
      if c = '>' then endTag p.elements (g.readTag soFar) else some ⟨p.elements, .tag (soFar ++ [c])⟩
    | .entity soFar =>
      if c = ';' then if g.isEntity soFar then some ⟨p.elements, .text⟩ else none
      else some ⟨p.elements, .entity (soFar ++ [c])⟩

@[grind =] def run (p : Place τ) (text : List Char) : Option (Place τ) := text.foldlM g.step p

/-- Everything that is opened in the text is closed in it, in nesting order, and nothing is cut. -/
def WellFormed (text : List Char) : Prop := g.run ⟨[], .text⟩ text = some ⟨[], .text⟩

/-- No element, tag or entity has begun and not ended in the first so many characters, spaces not counted. -/
def ClosedAt (text : List Char) (n : Nat) : Prop := g.WellFormed ((g.visible text).take n)

instance (text : List Char) : Decidable (g.WellFormed text) := inferInstanceAs (Decidable (_ = _))

instance (text : List Char) (n : Nat) : Decidable (g.ClosedAt text n) :=
  inferInstanceAs (Decidable (g.WellFormed _))

/-- A text that may stand in any element. -/
def Closed (text : List Char) : Prop := ∀ elements, g.run ⟨elements, .text⟩ text = some ⟨elements, .text⟩

variable {g} {text : List Char}

theorem run_append (p : Place τ) (a b : List Char) : g.run p (a ++ b) = (g.run p a).bind fun q => g.run q b :=
  List.foldlM_append

theorem run_cons (p : Place τ) (c : Char) (text : List Char) :
    g.run p (c :: text) = (g.step p c).bind fun q => g.run q text := rfl

theorem run_visible (p : Place τ) (text : List Char) : g.run p (g.visible text) = g.run p text := by
  induction text generalizing p with
  | nil => rfl
  | cons c text ih =>
    by_cases hc : g.isSpace c = true
    · have hstep : g.step p c = some p := if_pos hc
      rw [run_cons, hstep, Option.bind_some, ← ih]
      simp [visible, hc]
    · have hvisible : g.visible (c :: text) = c :: g.visible text := by simp [visible, hc]
      rw [hvisible, run_cons, run_cons]
      simp only [ih]

theorem wellFormed_visible (text : List Char) : g.WellFormed (g.visible text) ↔ g.WellFormed text := by
  rw [WellFormed, run_visible, WellFormed]

theorem wellFormed_append {a : List Char} (ha : g.WellFormed a) (b : List Char) :
    g.WellFormed (a ++ b) ↔ g.WellFormed b := by
  rw [WellFormed, run_append, show g.run ⟨[], .text⟩ a = some ⟨[], .text⟩ from ha, Option.bind_some, WellFormed]

theorem Closed.wellFormed (h : g.Closed text) : g.WellFormed text := h []

theorem closed_nil : g.Closed [] := fun _ => rfl

theorem Closed.append {a b : List Char} (ha : g.Closed a) (hb : g.Closed b) : g.Closed (a ++ b) := by
  intro elements
  rw [run_append, ha elements, Option.bind_some, hb elements]

theorem closed_flatMap {α : Type*} {f : α → List Char} {l : List α} (h : ∀ a ∈ l, g.Closed (f a)) :
    g.Closed (l.flatMap f) := by
  induction l with
  | nil => exact closed_nil
  | cons a l ih =>
    rw [List.flatMap_cons]
    exact (h a (by simp)).append (ih fun b hb => h b (by simp [hb]))

theorem closed_char {c : Char} (hopen : c ≠ '<') (hamp : c ≠ '&') (hclose : c ≠ '>') : g.Closed [c] := by
  intro elements
  simp [run, step, hopen, hamp, hclose]

/-- Nothing but characters of the text itself. -/
theorem closed_of_plain (h : ∀ c ∈ text, c ≠ '<' ∧ c ≠ '&' ∧ c ≠ '>') : g.Closed text := by
  have hflat : text = text.flatMap fun c => [c] := by simp
  rw [hflat]
  apply closed_flatMap
  intro c hc
  obtain ⟨hopen, hamp, hclose⟩ := h c hc
  exact closed_char hopen hamp hclose

theorem run_tag_soFar {tag : List Char} (htag : '>' ∉ tag) (elements : List τ) (soFar : List Char) :
    g.run ⟨elements, .tag soFar⟩ tag = some ⟨elements, .tag (soFar ++ g.visible tag)⟩ := by
  induction tag generalizing soFar with
  | nil => simp [run, visible]
  | cons c tag ih =>
    rw [List.mem_cons, not_or] at htag
    by_cases hc : g.isSpace c = true
    · have hstep : g.step ⟨elements, .tag soFar⟩ c = some ⟨elements, .tag soFar⟩ := if_pos hc
      rw [run_cons, hstep, Option.bind_some, ih htag.2]
      simp [visible, hc]
    · have hstep : g.step ⟨elements, .tag soFar⟩ c = some ⟨elements, .tag (soFar ++ [c])⟩ := by
        simp [step, hc, Ne.symm htag.1]
      rw [run_cons, hstep, Option.bind_some, ih htag.2]
      simp [visible, hc]

/-- The angle brackets are no spaces. -/
theorem run_tag (hopen : g.isSpace '<' = false) (hclose : g.isSpace '>' = false) {tag : List Char}
    (htag : '>' ∉ tag) (elements : List τ) :
    g.run ⟨elements, .text⟩ ('<' :: (tag ++ ['>'])) = endTag elements (g.readTag (g.visible tag)) := by
  have hfirst : g.step ⟨elements, .text⟩ '<' = some ⟨elements, .tag []⟩ := by simp [step, hopen]
  rw [run_cons, hfirst, Option.bind_some, run_append, run_tag_soFar htag, Option.bind_some]
  simp [run, step, hclose]

theorem closed_element (hopen : g.isSpace '<' = false) (hclose : g.isSpace '>' = false) {front back inner : List Char}
    {element : τ} (hfront : '>' ∉ front) (hback : '>' ∉ back)
    (hopening : g.readTag (g.visible front) = some (.opening element))
    (hclosing : g.readTag (g.visible back) = some (.closing element)) (hinner : g.Closed inner) :
    g.Closed ('<' :: (front ++ ['>']) ++ inner ++ '<' :: (back ++ ['>'])) := by
  intro elements
  rw [run_append, run_append, run_tag hopen hclose hfront, hopening]
  simp only [endTag, Option.bind_some]
  rw [hinner, Option.bind_some, run_tag hopen hclose hback, hclosing]
  simp [endTag]

/-! A text in parts. -/

/-- The places in the text where the parts end, behind so many characters. -/
def endsFrom : Nat → List (List Char) → List Nat
  | _, [] => []
  | n, part :: parts => (n + part.length) :: endsFrom (n + part.length) parts

theorem endsFrom_concat (n : Nat) (parts : List (List Char)) (part : List Char) :
    endsFrom n (parts ++ [part]) = endsFrom n parts ++ [n + parts.flatten.length + part.length] := by
  induction parts generalizing n with
  | nil => simp [endsFrom]
  | cons first parts ih => simp [endsFrom, ih, Nat.add_assoc]

theorem wellFormed_parts_after (front : List Char) (parts : List (List Char)) (hfront : g.WellFormed front) :
    (∀ part ∈ parts, g.WellFormed part) ↔
      ∀ n ∈ endsFrom front.length parts, g.WellFormed ((front ++ parts.flatten).take n) := by
  induction parts generalizing front with
  | nil => simp [endsFrom]
  | cons part parts ih =>
    have htake : (front ++ (part :: parts).flatten).take (front.length + part.length) = front ++ part := by
      rw [List.flatten_cons, ← List.append_assoc, ← List.length_append, List.take_left']
      rfl
    rw [List.forall_mem_cons, endsFrom, List.forall_mem_cons, htake, wellFormed_append hfront]
    refine and_congr_right fun hpart => ?_
    have hnext := ih (front ++ part) ((wellFormed_append hfront part).mpr hpart)
    rwa [List.length_append, List.append_assoc, ← List.flatten_cons] at hnext

/-- Each part of a text is well-formed on its own when nothing is open at their ends. -/
theorem wellFormed_parts_iff {parts : List (List Char)} (h : (parts.map g.visible).flatten = g.visible text) :
    (∀ part ∈ parts, g.WellFormed part) ↔ ∀ n ∈ endsFrom 0 (parts.map g.visible), g.ClosedAt text n := by
  have hvisible : (∀ part ∈ parts, g.WellFormed part) ↔ ∀ part ∈ parts.map g.visible, g.WellFormed part := by
    simp only [List.forall_mem_map, wellFormed_visible]
  have hparts := wellFormed_parts_after (g := g) [] (parts.map g.visible) rfl
  rw [hvisible, hparts]
  simp only [List.nil_append, List.length_nil, h]
  rfl

end Dialect
end Beetle.Lib.Markup
