import Beetle.Lib.JsonNested

/-! The grammar of JSON texts. -/
namespace Beetle.Lib.Json

/-- What may stand between the quotes of a string. A surrogate need not be half of a pair. -/
inductive StringText : List Char → Prop where
  | nil : StringText []
  | unescaped {c : Char} {text : List Char} : c ≠ '"' → c ≠ '\\' → 32 ≤ c.toNat → StringText text → StringText (c :: text)
  | escaped {c : Char} {text : List Char} : (shortEscape? c).isSome → StringText text → StringText ('\\' :: c :: text)
  | unicode {a b c d : Char} {text : List Char} : (hex4? a b c d).isSome → StringText text →
      StringText ('\\' :: 'u' :: a :: b :: c :: d :: text)

inductive Phrase where
  | value
  | object
  | array
  | element
  | elements
  | member
  | members

/-- White space stands around the elements of arrays and the keys and elements of objects, so an object or an array is
the text from its bracket to the bracket that closes it. -/
inductive Derives : Phrase → List Char → Prop where
  | null : Derives .value ['n', 'u', 'l', 'l']
  | true : Derives .value ['t', 'r', 'u', 'e']
  | false : Derives .value ['f', 'a', 'l', 's', 'e']
  | number {literal : List Char} : isNumber literal = Bool.true → Derives .value literal
  | string {text : List Char} : StringText text → Derives .value ('"' :: (text ++ ['"']))
  | valueObject {text : List Char} : Derives .object text → Derives .value text
  | valueArray {text : List Char} : Derives .array text → Derives .value text
  | noMembers {pre : List Char} : Spaces pre → Derives .object ('\x7b' :: (pre ++ ['\x7d']))
  | object {text : List Char} : Derives .members text → Derives .object ('\x7b' :: (text ++ ['\x7d']))
  | noElements {pre : List Char} : Spaces pre → Derives .array ('[' :: (pre ++ [']']))
  | array {text : List Char} : Derives .elements text → Derives .array ('[' :: (text ++ [']']))
  | element {pre text post : List Char} : Spaces pre → Derives .value text → Spaces post →
      Derives .element (pre ++ (text ++ post))
  | lastElement {text : List Char} : Derives .element text → Derives .elements text
  | moreElements {text more : List Char} : Derives .element text → Derives .elements more →
      Derives .elements (text ++ ([','] ++ more))
  | member {pre key post text : List Char} : Spaces pre → StringText key → Spaces post → Derives .element text →
      Derives .member (pre ++ ('"' :: (key ++ ['"']) ++ (post ++ ([':'] ++ text))))
  | lastMember {text : List Char} : Derives .member text → Derives .members text
  | moreMembers {text more : List Char} : Derives .member text → Derives .members more →
      Derives .members (text ++ ([','] ++ more))

variable {text : List Char}

theorem Derives.bare (h : Derives .value text) : Derives .element text := by
  have helement := Derives.element spaces_nil h spaces_nil
  rwa [List.nil_append, List.append_nil] at helement

theorem StringText.inString (h : StringText text) : InString text := by
  induction h with
  | nil => exact .nil
  | unescaped hquote hbackslash _ _ ih => exact .plain hquote hbackslash ih
  | escaped _ _ ih => exact .escape ih
  | unicode hhex _ ih =>
    obtain ⟨m, hm⟩ := Option.isSome_iff_exists.mp hhex
    exact (inString_of_hex4? hm).append ih

/-- The strings and brackets of every phrase are closed. -/
theorem Derives.nested {phrase : Phrase} (h : Derives phrase text) : Nested text := by
  induction h with
  | null => exact .of_forall (by decide)
  | true => exact .of_forall (by decide)
  | false => exact .of_forall (by decide)
  | number hnumber => exact .of_forall fun c hc => isPlain_of_isNumberChar ((all_isNumberChar_of_isNumber hnumber).1 c hc)
  | string htext => exact .string htext.inString
  | valueObject _ ih => exact ih
  | valueArray _ ih => exact ih
  | noMembers hpre => exact .object (.spaces hpre)
  | object _ ih => exact .object ih
  | noElements hpre => exact .array (.spaces hpre)
  | array _ ih => exact .array ih
  | element hpre _ hpost ih => exact (Nested.spaces hpre).append (ih.append (.spaces hpost))
  | lastElement _ ih => exact ih
  | moreElements _ _ ih ihmore => exact ih.append ((Nested.plain (by decide)).append ihmore)
  | member hpre hkey hpost _ ih =>
    have hcolon : Nested [':'] := .plain (by decide)
    exact (Nested.spaces hpre).append ((Nested.string hkey.inString).append ((Nested.spaces hpost).append (hcolon.append ih)))
  | lastMember _ ih => exact ih
  | moreMembers _ _ ih ihmore => exact ih.append ((Nested.plain (by decide)).append ihmore)

theorem Derives.object_eq (h : Derives .object text) :
    ∃ inner, text = '\x7b' :: (inner ++ ['\x7d']) ∧ Nested inner := by
  cases h with
  | noMembers hpre => exact ⟨_, rfl, .spaces hpre⟩
  | object hmembers => exact ⟨_, rfl, hmembers.nested⟩

theorem Derives.array_eq (h : Derives .array text) : ∃ inner, text = '[' :: (inner ++ [']']) ∧ Nested inner := by
  cases h with
  | noElements hpre => exact ⟨_, rfl, .spaces hpre⟩
  | array helements => exact ⟨_, rfl, helements.nested⟩

end Beetle.Lib.Json
