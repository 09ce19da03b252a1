import Beetle.Lib.Lowercase
import Beetle.Lib.Trim
import Mathlib.Data.List.Flatten

/-! Credentials in the texts of the tools: which of them are replaced. -/
namespace Beetle
open Beetle.Lib

def sensitiveKeys : List (List Char) :=
  ["token", "api_key", "api-key", "apikey", "client_secret", "client-secret", "password", "passwd", "secret",
    "secret_key", "secret-key", "credential", "authorization", "cookie", "access_key", "access_token",
    "refresh_token", "private_key"].map String.toList

def isAsciiPunctuation (c : Char) : Bool :=
  let n := c.toNat
  (33 ≤ n && n ≤ 47) || (58 ≤ n && n ≤ 64) || (91 ≤ n && n ≤ 96) || (123 ≤ n && n ≤ 126)

def singleQuote : Char := Char.ofNat 39

def isQuote (c : Char) : Bool := c = '"' || c = singleQuote

/-- What is taken off in front of a key. -/
def isKeyLead (c : Char) : Bool := isAsciiPunctuation c && c ≠ '_' && c ≠ '-'

/-- What is taken off around a key. -/
def isKeyBracket (c : Char) : Bool := isQuote c || c ∈ ['{', '}', '[', ']', '(', ')']

def isSensitiveKey (rawKey : List Char) : Bool :=
  let key := trim (trimEnds isKeyBracket ((trim rawKey).dropWhile isKeyLead))
  key.map Char.toLower ∈ sensitiveKeys

/-- The place of the first equals sign or colon, but for a colon before a slash. -/
def findKvSeparator : List Char → Option Nat
  | [] => none
  | c :: cs =>
    if c = ':' ∧ cs.head? = some '/' then (findKvSeparator cs).map (· + 1)
    else if c = '=' ∨ c = ':' then some 0
    else (findKvSeparator cs).map (· + 1)

def secretPrefix (s : List Char) : List Char := s.take 4

def redactedMark : List Char := "…[REDACTED]".toList

def stripAsciiPrefix (s prefixLower : List Char) : Option (List Char) :=
  if (s.take prefixLower.length).map Char.toLower = prefixLower then some (s.drop prefixLower.length) else none

def redactSecretValue (value : List Char) : Option (List Char) :=
  let trimmed := trim value
  if (utf8 trimmed).length < 8 then none
  else
    match stripAsciiPrefix trimmed "bearer ".toList with
    | some rest => some ("Bearer ".toList ++ secretPrefix rest ++ redactedMark)
    | none =>
      match stripAsciiPrefix trimmed "basic ".toList with
      | some rest => some ("Basic ".toList ++ secretPrefix rest ++ redactedMark)
      | none => some (secretPrefix trimmed ++ redactedMark)

/-- Where a value without quotes ends. -/
def isValueEnd (c : Char) : Bool := isWhitespace c || c ∈ [',', '}', ']', ';']

/-- The scheme, the token and what is after it. -/
def splitAuthSchemeValue (s : List Char) : Option (List Char × List Char × List Char) :=
  match splitOnce ' ' s with
  | some (scheme, rest) =>
    if scheme.map Char.toLower ∈ ["bearer".toList, "basic".toList] then
      let token := rest.takeWhile (!isValueEnd ·)
      if token = [] then none else some (scheme, token, rest.dropWhile (!isValueEnd ·))
    else none
  | none => none

@[grind =] def redactValueFragment (fragment : List Char) : Option (List Char) :=
  let leadingWs := fragment.takeWhile isWhitespace
  match fragment.dropWhile isWhitespace with
  | [] => none
  | q :: rest =>
    if isQuote q then
      match splitOnce q rest with
      | some (value, tail) => (redactSecretValue value).map fun redacted => leadingWs ++ q :: redacted ++ q :: tail
      | none => (redactSecretValue rest).map fun redacted => leadingWs ++ q :: redacted
    else
      match splitAuthSchemeValue (q :: rest) with
      | some (scheme, token, tail) =>
        (redactSecretValue (scheme ++ ' ' :: token)).map fun redacted => leadingWs ++ redacted ++ tail
      | none =>
        let value := (q :: rest).takeWhile (!isValueEnd ·)
        (redactSecretValue value).map fun redacted =>
          leadingWs ++ redacted ++ (q :: rest).dropWhile (!isValueEnd ·)

def lineHasSensitiveKv (line : List Char) : Bool :=
  match findKvSeparator line with
  | some pos => isSensitiveKey (line.take pos)
  | none => false

def scrubKvLine (line : List Char) : List Char :=
  match findKvSeparator line with
  | some pos =>
    match redactValueFragment (line.drop (pos + 1)) with
    | some redacted => line.take (pos + 1) ++ redacted
    | none => line
  | none => line

def scrubLine (line : List Char) : List Char := if lineHasSensitiveKv line then scrubKvLine line else line

def scrubCredentials (input : List Char) : List Char := ['\n'].intercalate ((input.splitOn '\n').map scrubLine)

/-! What counts as a credential. -/

/-- What a key is not directly next to. -/
def isWordChar (c : Char) : Bool := c.isAlphanum || c = '_' || c = '-'

/-- The characters of a value. -/
def isSecretChar (c : Char) : Bool := !(isWhitespace c || isQuote c || c ∈ [',', ';', ')', ']', '}'])

/-- A key in a line, with what is before its value: an optional quote, blanks, the separator,
blanks and an optional quote; the value, as far as it goes; and the rest of the line. -/
structure Credential where
  before : List Char
  key : List Char
  close : Option Char
  blanks : List Char
  sep : Char
  blanks' : List Char
  quote : Option Char
  value : List Char
  rest : List Char
  before_last : ∀ c ∈ before.getLast?, isWordChar c = false
  sensitive : key.map Char.toLower ∈ sensitiveKeys
  close_quote : ∀ c ∈ close, isQuote c = true
  blanks_ws : ∀ c ∈ blanks, isWhitespace c = true
  sep_kv : sep = '=' ∨ sep = ':'
  blanks_ws' : ∀ c ∈ blanks', isWhitespace c = true
  quote_quote : ∀ c ∈ quote, isQuote c = true
  secret : ∀ c ∈ value, isSecretChar c = true
  long : 8 ≤ (utf8 value).length
  rest_head : ∀ c ∈ rest.head?, isSecretChar c = false

namespace Credential
variable (cred : Credential)

/-- What is before the value. -/
def head : List Char :=
  cred.before ++ cred.key ++ cred.close.toList ++ cred.blanks ++ cred.sep :: cred.blanks' ++ cred.quote.toList

def line : List Char := cred.head ++ cred.value ++ cred.rest

end Credential

/-! Keys. -/

def isKeyChar (c : Char) : Bool := c.isAlpha || c = '_' || c = '-'

/-- The characters of a key are no blanks, nothing that is taken off, and no separators. -/
structure KeyChar (c : Char) : Prop where
  blank : isWhitespace c = false
  lead : isKeyLead c = false
  bracket : isKeyBracket c = false
  equals : c ≠ '='
  colon : c ≠ ':'

theorem keyChar_of_mem {key : List Char} (h : key.map Char.toLower ∈ sensitiveKeys) : ∀ c ∈ key, KeyChar c := by
  have hnames : ∀ name ∈ sensitiveKeys, ∀ c ∈ name, c.toNat < 128 ∧ isKeyChar c = true := by decide
  have hall : ∀ n < 128, isKeyChar (Char.ofNat n).toLower = true →
      isWhitespace (Char.ofNat n) = false ∧ isKeyLead (Char.ofNat n) = false ∧ isKeyBracket (Char.ofNat n) = false ∧
        Char.ofNat n ≠ '=' ∧ Char.ofNat n ≠ ':' := by
    decide
  intro c hc
  have hascii := ascii_of_map_toLower rfl (fun d hd => (hnames _ h d hd).1) c hc
  have hkey := (hnames _ h c.toLower (List.mem_map_of_mem hc)).2
  have hfacts := hall c.toNat hascii
  rw [Char.ofNat_toNat] at hfacts
  obtain ⟨hblank, hlead, hbracket, hequals, hcolon⟩ := hfacts hkey
  exact ⟨hblank, hlead, hbracket, hequals, hcolon⟩

theorem key_ne_nil {key : List Char} (h : key.map Char.toLower ∈ sensitiveKeys) : key ≠ [] := by
  rintro rfl
  exact absurd h (by decide)

variable {c : Char}

theorem isKeyBracket_of_quote (h : isQuote c = true) : isKeyBracket c = true := by
  rw [isKeyBracket, h]
  rfl

theorem not_blank_of_quote (h : isQuote c = true) : isWhitespace c = false := by
  have hc : c = '"' ∨ c = singleQuote := by simpa [isQuote] using h
  rcases hc with rfl | rfl
  · decide
  · decide

theorem not_blank_of_keyLead (h : isKeyLead c = true) : isWhitespace c = false := by
  have hpunct : isAsciiPunctuation c = true := by
    simp only [isKeyLead, Bool.and_eq_true] at h
    exact h.1.1
  have hall : ∀ n < 128, isAsciiPunctuation (Char.ofNat n) = true → isWhitespace (Char.ofNat n) = false := by
    decide
  have hlt : c.toNat < 128 := by
    simp only [isAsciiPunctuation, Bool.or_eq_true, Bool.and_eq_true, decide_eq_true_eq] at hpunct
    omega
  have hfact := hall c.toNat hlt
  rw [Char.ofNat_toNat] at hfact
  exact hfact hpunct

theorem not_keyLead_of_blank (h : isWhitespace c = true) : isKeyLead c = false := by
  rw [Bool.eq_false_iff]
  intro hlead
  rw [not_blank_of_keyLead hlead] at h
  cases h

theorem not_bracket_of_blank (h : isWhitespace c = true) : isKeyBracket c = false := by
  rw [Bool.eq_false_iff]
  intro hbracket
  have hpunct : ∀ d ∈ ['{', '}', '[', ']', '(', ')'], isWhitespace d = false := by decide
  rcases (Bool.or_eq_true _ _).mp hbracket with hquote | hmem
  · rw [not_blank_of_quote hquote] at h
    cases h
  · rw [hpunct c (of_decide_eq_true hmem)] at h
    cases h

/-- What may stand before a key that the scan finds: blanks, punctuation, blanks, and no
separator in it. -/
structure KeyLead (before : List Char) : Prop where
  parts : ∃ blanks punct blanks', before = blanks ++ punct ++ blanks' ∧ (∀ c ∈ blanks, isWhitespace c = true) ∧
    (∀ c ∈ punct, isKeyLead c = true) ∧ (∀ c ∈ blanks', isWhitespace c = true)
  equals : '=' ∉ before
  colon : ':' ∉ before

section
variable {key close : List Char} (hkey : key.map Char.toLower ∈ sensitiveKeys) (hclose : ∀ c ∈ close, isQuote c = true)
include hkey hclose

theorem last_not_blank (front : List Char) : ∀ c ∈ (front ++ key ++ close).getLast?, isWhitespace c = false := by
  intro c hc
  rcases List.eq_nil_or_concat close with rfl | ⟨close', q, rfl⟩
  · rcases List.eq_nil_or_concat key with rfl | ⟨key', k, rfl⟩
    · exact absurd rfl (key_ne_nil hkey)
    · obtain rfl : k = c := by simpa [← List.append_assoc] using hc
      exact (keyChar_of_mem hkey k (by simp)).blank
  · obtain rfl : q = c := by simpa [← List.append_assoc] using hc
    exact not_blank_of_quote (hclose q (by simp))

/-- Brackets are only at the end of a key that has blanks before it. -/
theorem trim_trimEnds_key {blanks : List Char} (hblanks : ∀ c ∈ blanks, isWhitespace c = true) :
    trim (trimEnds isKeyBracket (blanks ++ key ++ close)) = key := by
  have hkeyLast : ∀ c ∈ (blanks ++ key).getLast?, isKeyBracket c = false := by
    rcases List.eq_nil_or_concat key with rfl | ⟨key', k, rfl⟩
    · exact absurd rfl (key_ne_nil hkey)
    · intro c hc
      obtain rfl : k = c := by simpa [← List.append_assoc] using hc
      exact (keyChar_of_mem hkey k (by simp)).bracket
  have hhead : ∀ c ∈ (blanks ++ key).head?, isKeyBracket c = false := by
    intro c hc
    rcases List.mem_append.mp (List.mem_of_mem_head? hc) with hblank | hmem
    · exact not_bracket_of_blank (hblanks c hblank)
    · exact (keyChar_of_mem hkey c hmem).bracket
  have hends := trimEnds_append (List.forall_mem_nil _) (fun c hc => isKeyBracket_of_quote (hclose c hc)) hhead hkeyLast
  rw [List.nil_append] at hends
  have hblank : ∀ c ∈ key, isWhitespace c = false := fun c hc => (keyChar_of_mem hkey c hc).blank
  have htrim := trimEnds_append hblanks (List.forall_mem_nil _) (fun c hc => hblank c (List.mem_of_mem_head? hc))
    (fun c hc => hblank c (List.mem_of_mem_getLast? hc))
  rw [List.append_nil] at htrim
  rw [hends, trim_eq_trimEnds, htrim]

/-- A key is found behind blanks and punctuation, with a quote and blanks after it. -/
theorem isSensitiveKey_lead {before blanks : List Char} (hbefore : KeyLead before)
    (hblanks : ∀ c ∈ blanks, isWhitespace c = true) : isSensitiveKey (before ++ key ++ close ++ blanks) = true := by
  obtain ⟨front, punct, gap, rfl, hfront, hpunct, hgap⟩ := hbefore.parts
  obtain ⟨gap', hgap', htrim⟩ : ∃ gap', (∀ c ∈ gap', isWhitespace c = true) ∧
      trim (front ++ punct ++ gap ++ key ++ close ++ blanks) = punct ++ (gap' ++ key ++ close) := by
    cases punct with
    | nil =>
      refine ⟨[], List.forall_mem_nil _, ?_⟩
      have hfront' : ∀ c ∈ front ++ gap, isWhitespace c = true := by
        intro c hc
        rcases List.mem_append.mp hc with hc | hc
        · exact hfront c hc
        · exact hgap c hc
      have hhead : ∀ c ∈ (key ++ close).head?, isWhitespace c = false := by
        intro c hc
        rcases List.mem_append.mp (List.mem_of_mem_head? hc) with hc | hc
        · exact (keyChar_of_mem hkey c hc).blank
        · exact not_blank_of_quote (hclose c hc)
      have hends := trimEnds_append hfront' hblanks hhead (last_not_blank hkey hclose [])
      simpa [trim_eq_trimEnds] using hends
    | cons p punct =>
      refine ⟨gap, hgap, ?_⟩
      have hhead : ∀ c ∈ (p :: punct ++ gap ++ key ++ close).head?, isWhitespace c = false := by
        intro c hc
        obtain rfl : p = c := by simpa using hc
        exact not_blank_of_keyLead (hpunct p List.mem_cons_self)
      have hends := trimEnds_append hfront hblanks hhead (last_not_blank hkey hclose (p :: punct ++ gap))
      simpa [trim_eq_trimEnds] using hends
  have hdrop : (punct ++ (gap' ++ key ++ close)).dropWhile isKeyLead = gap' ++ key ++ close := by
    rw [List.dropWhile_append_of_pos hpunct]
    apply dropWhile_eq_self_of_head
    intro c hc
    cases gap' with
    | cons g gap' =>
      obtain rfl : g = c := by simpa using hc
      exact not_keyLead_of_blank (hgap' g List.mem_cons_self)
    | nil =>
      cases key with
      | nil => exact absurd rfl (key_ne_nil hkey)
      | cons k key =>
        obtain rfl : k = c := by simpa using hc
        exact (keyChar_of_mem hkey k List.mem_cons_self).lead
  rw [isSensitiveKey, htrim, hdrop, trim_trimEnds_key hkey hclose hgap']
  exact decide_eq_true hkey

end

/-! Values. -/

theorem isSecretChar_iff (c : Char) : isSecretChar c = true ↔
    isWhitespace c = false ∧ isQuote c = false ∧ c ∉ [',', ';', ')', ']', '}'] := by
  simp [isSecretChar, and_assoc]

theorem not_valueEnd_of_secret (h : isSecretChar c = true) : isValueEnd c = false := by
  obtain ⟨hblank, -, hend⟩ := (isSecretChar_iff c).mp h
  rw [isValueEnd, hblank, Bool.false_or, decide_eq_false_iff_not]
  intro hmem
  have hall : ∀ c ∈ [',', '}', ']', ';'], c ∈ [',', ';', ')', ']', '}'] := by decide
  exact hend (hall c hmem)

section
variable {value : List Char} (hsecret : ∀ c ∈ value, isSecretChar c = true) (hlong : 8 ≤ (utf8 value).length)
include hsecret hlong

theorem value_ne_nil : value ≠ [] := by
  rintro rfl
  simp at hlong

theorem exists_trim_value (more : List Char) : ∃ more', trim (value ++ more) = value ++ more' := by
  have hblank : ∀ c ∈ value, isWhitespace c = false := fun c hc => ((isSecretChar_iff c).mp (hsecret c hc)).1
  have hdrop : (value ++ more).dropWhile isWhitespace = value ++ more := by
    apply dropWhile_eq_self_of_head
    intro c hc
    rw [List.head?_append_of_ne_nil _ (value_ne_nil hsecret hlong)] at hc
    exact hblank c (List.mem_of_mem_head? hc)
  rw [trim, hdrop]
  induction more using List.reverseRecOn with
  | nil =>
    refine ⟨[], ?_⟩
    rw [List.append_nil]
    exact rdropWhile_eq_self_of_last fun c hc => hblank c (List.mem_of_mem_getLast? hc)
  | append_singleton more c ih =>
    rw [← List.append_assoc, List.rdropWhile_concat]
    split
    · apply ih
      apply dropWhile_eq_self_of_head
      intro c hc
      rw [List.head?_append_of_ne_nil _ (value_ne_nil hsecret hlong)] at hc
      exact hblank c (List.mem_of_mem_head? hc)
    · exact ⟨more ++ [c], by simp⟩

omit hsecret in
theorem length_of_ascii (hascii : ∀ c ∈ value, c.toNat < 128) : 8 ≤ value.length := by
  have hone : (utf8 value).length = value.length := by
    apply length_utf8_of_forall
    intro c hc
    have hle : c.val.toNat ≤ 127 := Nat.le_of_lt_succ (hascii c hc)
    rw [String.length_utf8EncodeChar, Char.utf8Size_eq_one_iff, UInt32.le_iff_toNat_le]
    exact hle
  omega

/-- A scheme has a blank too early for such a value. -/
theorem not_map_toLower_take {word : List Char} (hword : ∀ c ∈ word, c.toNat < 128) (hshort : word.length < 8)
    (hblank : ' ' ∈ word) (more : List Char) : ((value ++ more).take word.length).map Char.toLower ≠ word := by
  intro heq
  have hascii := ascii_of_map_toLower heq hword
  by_cases hlength : value.length ≤ word.length
  · have hvalue : 8 ≤ value.length := by
      apply length_of_ascii hlong
      intro c hc
      apply hascii c
      rw [List.take_append, List.take_of_length_le hlength]
      exact List.mem_append_left _ hc
    omega
  · rw [List.take_append_of_le_length (by omega)] at heq hascii
    rw [← heq] at hblank
    obtain ⟨c, hc, hspace⟩ := List.mem_map.mp hblank
    rw [Separator.toLower_eq_iff ⟨by decide, by decide⟩ (hascii c hc)] at hspace
    subst hspace
    have hnot := ((isSecretChar_iff ' ').mp (hsecret ' ' (List.mem_of_mem_take hc))).1
    exact absurd hnot (by decide)

theorem splitAuthSchemeValue_secret (rest : List Char) : splitAuthSchemeValue (value ++ rest) = none := by
  have hvalue : ∀ c ∈ value, decide (c ≠ ' ') = true := by
    intro c hc
    apply decide_eq_true
    rintro rfl
    have hnot := ((isSecretChar_iff ' ').mp (hsecret ' ' hc)).1
    exact absurd hnot (by decide)
  unfold splitAuthSchemeValue splitOnce
  by_cases hspace : ' ' ∈ value ++ rest
  · rw [if_pos hspace, List.takeWhile_append_of_pos hvalue]
    refine if_neg ?_
    intro hmem
    have hwords : ∀ word ∈ ["bearer".toList, "basic".toList], word.length < 8 ∧ ∀ c ∈ word, c.toNat < 128 := by
      decide
    obtain ⟨hshort, hword⟩ := hwords _ hmem
    have hascii := ascii_of_map_toLower rfl hword
    have hlength := length_of_ascii hlong fun c hc => hascii c (List.mem_append_left _ hc)
    simp only [List.length_map, List.length_append] at hshort
    omega
  · rw [if_neg hspace]

theorem redactSecretValue_secret (more : List Char) :
    redactSecretValue (value ++ more) = some (secretPrefix (trim (value ++ more)) ++ redactedMark) := by
  obtain ⟨more', htrim⟩ := exists_trim_value hsecret hlong more
  have hlength : ¬ (utf8 (value ++ more')).length < 8 := by
    rw [utf8_append, List.length_append]
    omega
  have hbearer : stripAsciiPrefix (value ++ more') "bearer ".toList = none :=
    if_neg (not_map_toLower_take hsecret hlong (by decide) (by decide) (by decide) more')
  have hbasic : stripAsciiPrefix (value ++ more') "basic ".toList = none :=
    if_neg (not_map_toLower_take hsecret hlong (by decide) (by decide) (by decide) more')
  simp only [redactSecretValue, htrim, if_neg hlength, hbearer, hbasic]

/-- A value without a quote in front goes on to its end. -/
theorem redactValueFragment_plain {blanks : List Char} (hblanks : ∀ c ∈ blanks, isWhitespace c = true)
    (rest : List Char) : redactValueFragment (blanks ++ (value ++ rest)) =
      some (blanks ++ (secretPrefix (trim (value ++ rest.takeWhile (!isValueEnd ·))) ++ redactedMark) ++
        rest.dropWhile (!isValueEnd ·)) := by
  cases hvalue : value with
  | nil => exact absurd hvalue (value_ne_nil hsecret hlong)
  | cons v value' =>
    have hv : isSecretChar v = true := hsecret v (by simp [hvalue])
    obtain ⟨hblank, hquote, -⟩ := (isSecretChar_iff v).mp hv
    have hends : ∀ c ∈ v :: value', (!isValueEnd c) = true := by
      intro c hc
      rw [not_valueEnd_of_secret (hsecret c (hvalue ▸ hc))]
      rfl
    have htake : (blanks ++ (v :: value' ++ rest)).takeWhile isWhitespace = blanks := by
      rw [List.takeWhile_append_of_pos hblanks, List.cons_append, List.takeWhile_cons_of_neg (by simp [hblank]),
        List.append_nil]
    have hdrop : (blanks ++ (v :: value' ++ rest)).dropWhile isWhitespace = v :: (value' ++ rest) := by
      rw [List.dropWhile_append_of_pos hblanks, List.cons_append, List.dropWhile_cons_of_neg (by simp [hblank])]
    have hscheme := splitAuthSchemeValue_secret hsecret hlong rest
    rw [hvalue, List.cons_append] at hscheme
    have hmore := redactSecretValue_secret hsecret hlong (rest.takeWhile (!isValueEnd ·))
    rw [hvalue] at hmore
    have htakeEnd : (v :: (value' ++ rest)).takeWhile (!isValueEnd ·) =
        v :: value' ++ rest.takeWhile (!isValueEnd ·) := by
      rw [← List.cons_append, List.takeWhile_append_of_pos hends]
    have hdropEnd : (v :: (value' ++ rest)).dropWhile (!isValueEnd ·) = rest.dropWhile (!isValueEnd ·) := by
      rw [← List.cons_append, List.dropWhile_append_of_pos hends]
    simp only [redactValueFragment, htake, hdrop, hquote, Bool.false_eq_true, if_false, hscheme, htakeEnd, hdropEnd,
      hmore, Option.map_some]

/-- A quoted value goes on to the same quote. -/
theorem redactValueFragment_quoted {blanks : List Char} (hblanks : ∀ c ∈ blanks, isWhitespace c = true) {q : Char}
    (hq : isQuote q = true) (rest : List Char) : redactValueFragment (blanks ++ q :: (value ++ rest)) =
      some (blanks ++ q :: (secretPrefix (trim (value ++ rest.takeWhile (· ≠ q))) ++ redactedMark) ++
        rest.dropWhile (· ≠ q)) := by
  have hblank : isWhitespace q = false := not_blank_of_quote hq
  have htake : (blanks ++ q :: (value ++ rest)).takeWhile isWhitespace = blanks := by
    rw [List.takeWhile_append_of_pos hblanks, List.takeWhile_cons_of_neg (by simp [hblank]), List.append_nil]
  have hdrop : (blanks ++ q :: (value ++ rest)).dropWhile isWhitespace = q :: (value ++ rest) := by
    rw [List.dropWhile_append_of_pos hblanks, List.dropWhile_cons_of_neg (by simp [hblank])]
  have hvalue : ∀ c ∈ value, decide (c ≠ q) = true := by
    intro c hc
    have hnot := ((isSecretChar_iff c).mp (hsecret c hc)).2.1
    apply decide_eq_true
    rintro rfl
    rw [hq] at hnot
    cases hnot
  have hvalue' : q ∉ value := fun hmem => of_decide_eq_true (hvalue q hmem) rfl
  simp only [redactValueFragment, htake, hdrop, hq, if_true]
  by_cases hclosed : q ∈ rest
  · have hsplit : splitOnce q (value ++ rest) =
        some (value ++ rest.takeWhile (· ≠ q), (rest.dropWhile (· ≠ q)).tail) := by
      rw [splitOnce, if_pos (List.mem_append_right _ hclosed), List.takeWhile_append_of_pos hvalue,
        List.dropWhile_append_of_pos hvalue]
    have htail : q :: (rest.dropWhile (· ≠ q)).tail = rest.dropWhile (· ≠ q) := by
      obtain ⟨before, after, rfl, hbefore⟩ := List.eq_append_cons_of_mem hclosed
      have hall : ∀ c ∈ before, decide (c ≠ q) = true := fun c hc => decide_eq_true fun h => hbefore (h ▸ hc)
      rw [List.dropWhile_append_of_pos hall, List.dropWhile_cons_of_neg (by simp)]
      rfl
    rw [hsplit]
    simp only [redactSecretValue_secret hsecret hlong, Option.map_some, htail]
  · have hsplit : splitOnce q (value ++ rest) = none := by
      rw [splitOnce, if_neg]
      intro hmem
      rcases List.mem_append.mp hmem with hmem | hmem
      · exact hvalue' hmem
      · exact hclosed hmem
    have hall : ∀ c ∈ rest, decide (c ≠ q) = true := fun c hc => decide_eq_true fun h => hclosed (h ▸ hc)
    rw [hsplit, List.takeWhile_eq_self_iff.mpr hall, List.dropWhile_eq_nil_iff.mpr hall]
    simp only [redactSecretValue_secret hsecret hlong, Option.map_some, List.append_nil]

end

/-! The separator. -/

theorem findKvSeparator_append {before : List Char} (hequals : '=' ∉ before) (hcolon : ':' ∉ before) {sep : Char}
    {after : List Char} (hsep : sep = '=' ∨ sep = ':' ∧ after.head? ≠ some '/') :
    findKvSeparator (before ++ sep :: after) = some before.length := by
  induction before with
  | nil =>
    rcases hsep with rfl | ⟨rfl, hslash⟩
    · simp [findKvSeparator]
    · simp [findKvSeparator, hslash]
  | cons c before ih =>
    have hc : c ≠ '=' ∧ c ≠ ':' := ⟨fun h => hequals (by simp [h]), fun h => hcolon (by simp [h])⟩
    have hrest := ih (fun h => hequals (List.mem_cons_of_mem c h)) (fun h => hcolon (List.mem_cons_of_mem c h))
    simp [findKvSeparator, hc.1, hc.2, hrest]

theorem eq_of_findKvSeparator {line : List Char} {pos : Nat} (h : findKvSeparator line = some pos) :
    ∃ sep after, line = line.take pos ++ sep :: after ∧ (sep = '=' ∨ sep = ':') ∧ '=' ∉ line.take pos ∧
      line.drop (pos + 1) = after := by
  induction line generalizing pos with
  | nil => cases h
  | cons c line ih =>
    unfold findKvSeparator at h
    split at h
    · rename_i hcolon
      obtain ⟨pos', hpos, rfl⟩ := Option.map_eq_some_iff.mp h
      obtain ⟨sep, after, hline, hsep, hequals, hdrop⟩ := ih hpos
      refine ⟨sep, after, ?_, hsep, ?_, hdrop⟩
      · rw [List.take_succ_cons, List.cons_append, ← hline]
      · rw [List.take_succ_cons, List.mem_cons, not_or]
        exact ⟨by simp [hcolon.1], hequals⟩
    · split at h
      · rename_i hsep
        obtain rfl := Option.some.inj h
        exact ⟨c, line, rfl, hsep, by simp, rfl⟩
      · rename_i hnot
        obtain ⟨pos', hpos, rfl⟩ := Option.map_eq_some_iff.mp h
        obtain ⟨sep, after, hline, hsep, hequals, hdrop⟩ := ih hpos
        refine ⟨sep, after, ?_, hsep, ?_, hdrop⟩
        · rw [List.take_succ_cons, List.cons_append, ← hline]
        · rw [List.take_succ_cons, List.mem_cons, not_or]
          exact ⟨fun h => hnot (.inl h.symm), hequals⟩

/-! Lines with a key in front. -/

namespace Credential
variable (cred : Credential)

/-- The key is the first one of the line and stands alone, and the separator is not that of a
scheme and a path. -/
structure Leads : Prop where
  before : KeyLead cred.before
  no_path : cred.sep = ':' → (cred.blanks' ++ cred.quote.toList ++ cred.value ++ cred.rest).head? ≠ some '/'

/-- A value goes on to its quote, or to a blank, a comma, a semicolon or a closing bracket. -/
def inValue (c : Char) : Bool :=
  match cred.quote with
  | some q => c ≠ q
  | none => !isValueEnd c

/-- The line with the value replaced. -/
def scrubbed : List Char :=
  cred.head ++ (secretPrefix (trim (cred.value ++ cred.rest.takeWhile cred.inValue)) ++ redactedMark) ++
    cred.rest.dropWhile cred.inValue

variable {cred}

theorem Leads.redactValueFragment :
    redactValueFragment (cred.blanks' ++ cred.quote.toList ++ cred.value ++ cred.rest) =
      some (cred.blanks' ++ cred.quote.toList ++
        (secretPrefix (trim (cred.value ++ cred.rest.takeWhile cred.inValue)) ++ redactedMark) ++
        cred.rest.dropWhile cred.inValue) := by
  unfold inValue
  cases hquote : cred.quote with
  | none =>
    have hplain := redactValueFragment_plain cred.secret cred.long cred.blanks_ws' cred.rest
    simpa [List.append_assoc] using hplain
  | some q =>
    have hquoted := redactValueFragment_quoted cred.secret cred.long cred.blanks_ws'
      (cred.quote_quote q (by simp [hquote])) cred.rest
    simpa [List.append_assoc] using hquoted

/-- The value of a key in front is replaced. -/
theorem Leads.scrubLine (h : cred.Leads) : scrubLine cred.line = cred.scrubbed := by
  let before := cred.before ++ cred.key ++ cred.close.toList ++ cred.blanks
  let after := cred.blanks' ++ cred.quote.toList ++ cred.value ++ cred.rest
  have hline : cred.line = before ++ cred.sep :: after := by
    simp [before, after, line, head, List.append_assoc]
  have hclose : ∀ c ∈ cred.close.toList, isQuote c = true := by
    intro c hc
    exact cred.close_quote c (Option.mem_toList.mp hc)
  have hchars : ∀ c ∈ before, c ≠ '=' ∧ c ≠ ':' := by
    intro c hc
    rcases List.mem_append.mp hc with hc | hblank
    · rcases List.mem_append.mp hc with hc | hquote
      · rcases List.mem_append.mp hc with hlead | hkey
        · exact ⟨fun heq => h.before.equals (heq ▸ hlead), fun heq => h.before.colon (heq ▸ hlead)⟩
        · have hchar := keyChar_of_mem cred.sensitive c hkey
          exact ⟨hchar.equals, hchar.colon⟩
      · have hq := hclose c hquote
        constructor
        · rintro rfl
          exact absurd hq (by decide)
        · rintro rfl
          exact absurd hq (by decide)
    · have hws := cred.blanks_ws c hblank
      constructor
      · rintro rfl
        exact absurd hws (by decide)
      · rintro rfl
        exact absurd hws (by decide)
  have hfind : findKvSeparator cred.line = some before.length := by
    rw [hline]
    refine findKvSeparator_append (fun hc => (hchars _ hc).1 rfl) (fun hc => (hchars _ hc).2 rfl) ?_
    rcases cred.sep_kv with hsep | hsep
    · exact .inl hsep
    · exact .inr ⟨hsep, h.no_path hsep⟩
  have htake : cred.line.take before.length = before := by rw [hline, List.take_left]
  have hassoc : cred.line = (before ++ [cred.sep]) ++ after := by simp [hline]
  have htakeSep : cred.line.take (before.length + 1) = before ++ [cred.sep] := by
    rw [hassoc, List.take_left' (by simp)]
  have hdropSep : cred.line.drop (before.length + 1) = after := by
    rw [hassoc, List.drop_left' (by simp)]
  have hkey : isSensitiveKey before = true := isSensitiveKey_lead cred.sensitive hclose h.before cred.blanks_ws
  have hhas : lineHasSensitiveKv cred.line = true := by
    simp only [lineHasSensitiveKv, hfind, htake, hkey]
  have hfragment : Beetle.redactValueFragment after = _ := Leads.redactValueFragment
  rw [Beetle.scrubLine, if_pos hhas]
  simp only [scrubKvLine, hfind, htakeSep, hdropSep, hfragment]
  simp [scrubbed, head, before, List.append_assoc]

end Credential

/-! Lines that are changed. -/

/-- What stands around a key: blanks and punctuation. -/
def isAroundKey (c : Char) : Bool := isWhitespace c || isAsciiPunctuation c

theorem isAroundKey_of_blank (h : isWhitespace c = true) : isAroundKey c = true := by
  rw [isAroundKey, h, Bool.true_or]

theorem isAroundKey_of_lead (h : isKeyLead c = true) : isAroundKey c = true := by
  simp only [isKeyLead, Bool.and_eq_true] at h
  rw [isAroundKey, h.1.1, Bool.or_true]

theorem isAroundKey_of_bracket (h : isKeyBracket c = true) : isAroundKey c = true := by
  have hall : ∀ d ∈ ['"', singleQuote, '{', '}', '[', ']', '(', ')'], isAroundKey d = true := by decide
  apply hall
  simpa [isKeyBracket, isQuote, or_assoc] using h

/-- A key that is found is one of the names, but for what stands around it. -/
theorem exists_of_isSensitiveKey {rawKey : List Char} (h : isSensitiveKey rawKey = true) : ∃ lead key tail,
    rawKey = lead ++ key ++ tail ∧ key.map Char.toLower ∈ sensitiveKeys ∧
      (∀ c ∈ lead, isAroundKey c = true) ∧ ∀ c ∈ tail, isAroundKey c = true := by
  let trimmed := trim rawKey
  let unquoted := trimEnds isKeyBracket (trimmed.dropWhile isKeyLead)
  obtain ⟨front, back, hraw, hfront, hback⟩ := eq_append_trimEnds isWhitespace rawKey
  obtain ⟨front', back', hbracket, hfront', hback'⟩ := eq_append_trimEnds isKeyBracket (trimmed.dropWhile isKeyLead)
  obtain ⟨front'', back'', hblank, hfront'', hback''⟩ := eq_append_trimEnds isWhitespace unquoted
  refine ⟨front ++ trimmed.takeWhile isKeyLead ++ front' ++ front'', trim unquoted, back'' ++ back' ++ back, ?_,
    of_decide_eq_true h, ?_, ?_⟩
  · have htrimmed : trimmed = trimmed.takeWhile isKeyLead ++ (front' ++ (front'' ++ trim unquoted ++ back'') ++ back') := by
      conv_lhs => rw [← List.takeWhile_append_dropWhile (p := isKeyLead) (l := trimmed), hbracket]
      rw [trim_eq_trimEnds, ← hblank]
    calc rawKey = front ++ trimmed ++ back := hraw
      _ = front ++ (trimmed.takeWhile isKeyLead ++ (front' ++ (front'' ++ trim unquoted ++ back'') ++ back')) ++ back := by
        conv_lhs => rw [htrimmed]
      _ = _ := by simp only [List.append_assoc]
  · intro c hc
    simp only [List.mem_append] at hc
    rcases hc with ((hc | hc) | hc) | hc
    · exact isAroundKey_of_blank (hfront c hc)
    · exact isAroundKey_of_lead (List.mem_takeWhile_imp hc)
    · exact isAroundKey_of_bracket (hfront' c hc)
    · exact isAroundKey_of_blank (hfront'' c hc)
  · intro c hc
    simp only [List.mem_append] at hc
    rcases hc with (hc | hc) | hc
    · exact isAroundKey_of_blank (hback'' c hc)
    · exact isAroundKey_of_bracket (hback' c hc)
    · exact isAroundKey_of_blank (hback c hc)

theorem eq_append_of_splitOnce {sep : Char} {cs before after : List Char} (h : splitOnce sep cs = some (before, after)) :
    cs = before ++ sep :: after :=
  (splitOnce_eq_some_iff.mp h).1

/-- What a value is replaced by is of its own characters and of these. -/
def markChars : List Char := "Bearer Basic …[REDACTED]".toList

theorem redactSecretValue_eq_some {value redacted : List Char} (h : redactSecretValue value = some redacted) :
    8 ≤ (utf8 value).length ∧ ∀ c ∈ redacted, c ∈ value ∨ c ∈ markChars := by
  have hpart : (trim value).Sublist value := (trimEnds_part isWhitespace value).sublist
  have hlength : (utf8 (trim value)).length ≤ (utf8 value).length := (hpart.flatMap String.utf8EncodeChar).length_le
  have hchars : ∀ word rest : List Char, (∀ c ∈ word, c ∈ markChars) → (∀ c ∈ rest, c ∈ trim value) →
      ∀ c ∈ word ++ secretPrefix rest ++ redactedMark, c ∈ value ∨ c ∈ markChars := by
    intro word rest hword hrest c hc
    have hmark : ∀ c ∈ redactedMark, c ∈ markChars := by decide
    simp only [List.mem_append] at hc
    rcases hc with (hc | hc) | hc
    · exact .inr (hword c hc)
    · exact .inl (hpart.subset (hrest c (List.mem_of_mem_take hc)))
    · exact .inr (hmark c hc)
  have hscheme : ∀ prefixLower rest, stripAsciiPrefix (trim value) prefixLower = some rest →
      ∀ c ∈ rest, c ∈ trim value := by
    intro prefixLower rest hstrip c hc
    unfold stripAsciiPrefix at hstrip
    split at hstrip
    · obtain rfl := Option.some.inj hstrip
      exact List.mem_of_mem_drop hc
    · cases hstrip
  unfold redactSecretValue at h
  dsimp only at h
  split at h
  · cases h
  · refine ⟨by omega, ?_⟩
    split at h
    · rename_i rest hbearer
      obtain rfl := Option.some.inj h
      exact hchars _ rest (by decide) (hscheme _ rest hbearer)
    · split at h
      · rename_i rest hbasic
        obtain rfl := Option.some.inj h
        exact hchars _ rest (by decide) (hscheme _ rest hbasic)
      · obtain rfl := Option.some.inj h
        exact hchars [] _ (List.forall_mem_nil _) fun c hc => hc

/-- A fragment that is changed holds a value of eight bytes. -/
theorem redactValueFragment_eq_some {fragment redacted : List Char} (h : redactValueFragment fragment = some redacted) :
    8 ≤ (utf8 fragment).length ∧ ∀ c ∈ redacted, c ∈ fragment ∨ c ∈ markChars := by
  -- in each case a value between two parts of the fragment is replaced
  have hpart : ∀ (front value back secret : List Char), fragment = front ++ value ++ back →
      redactSecretValue value = some secret →
      8 ≤ (utf8 fragment).length ∧ ∀ c ∈ front ++ secret ++ back, c ∈ fragment ∨ c ∈ markChars := by
    rintro front value back secret rfl hsecret
    obtain ⟨hlong, hchars⟩ := redactSecretValue_eq_some hsecret
    constructor
    · simp only [utf8_append, List.length_append]
      omega
    · intro c hc
      simp only [List.mem_append] at hc ⊢
      rcases hc with (hc | hc) | hc
      · exact .inl (.inl (.inl hc))
      · exact (hchars c hc).imp (fun hvalue => .inl (.inr hvalue)) id
      · exact .inl (.inr hc)
  have hfragment : fragment = fragment.takeWhile isWhitespace ++ fragment.dropWhile isWhitespace :=
    List.takeWhile_append_dropWhile.symm
  unfold redactValueFragment at h
  split at h
  · cases h
  · rename_i q rest hdrop
    rw [hdrop] at hfragment
    split at h
    · split at h
      · rename_i value tail hsplit
        obtain ⟨secret, hsecret, rfl⟩ := Option.map_eq_some_iff.mp h
        rw [eq_append_of_splitOnce hsplit] at hfragment
        have hspec := hpart (fragment.takeWhile isWhitespace ++ [q]) value (q :: tail) secret (by simpa using hfragment) hsecret
        simpa using hspec
      · obtain ⟨secret, hsecret, rfl⟩ := Option.map_eq_some_iff.mp h
        have hspec := hpart (fragment.takeWhile isWhitespace ++ [q]) rest [] secret (by simpa using hfragment) hsecret
        simpa using hspec
    · split at h
      · rename_i scheme token tail hscheme
        obtain ⟨secret, hsecret, rfl⟩ := Option.map_eq_some_iff.mp h
        have hparts : q :: rest = scheme ++ ' ' :: token ++ tail := by
          unfold splitAuthSchemeValue at hscheme
          split at hscheme
          · rename_i scheme' after hsplit
            dsimp only at hscheme
            split at hscheme
            · split at hscheme
              · cases hscheme
              · simp only [Option.some.injEq, Prod.mk.injEq] at hscheme
                obtain ⟨rfl, rfl, rfl⟩ := hscheme
                rw [eq_append_of_splitOnce hsplit, List.append_assoc, List.cons_append, List.takeWhile_append_dropWhile]
            · cases hscheme
          · cases hscheme
        rw [hparts] at hfragment
        exact hpart _ _ tail secret (by simpa using hfragment) hsecret
      · obtain ⟨secret, hsecret, rfl⟩ := Option.map_eq_some_iff.mp h
        refine hpart _ _ _ secret ?_ hsecret
        rw [List.append_assoc, List.takeWhile_append_dropWhile]
        exact hfragment

/-- A line that begins, but for blanks and punctuation, with a key and a separator, and has eight
bytes after it. -/
def BeginsWithKey (line : List Char) : Prop :=
  ∃ lead key tail sep after, line = lead ++ key ++ tail ++ sep :: after ∧ key.map Char.toLower ∈ sensitiveKeys ∧
    (∀ c ∈ lead ++ tail, isAroundKey c = true ∧ c ≠ '=') ∧ (sep = '=' ∨ sep = ':') ∧ 8 ≤ (utf8 after).length

theorem scrubLine_cases (line : List Char) :
    scrubLine line = line ∨ BeginsWithKey line ∧ ∀ c ∈ scrubLine line, c ∈ line ∨ c ∈ markChars := by
  unfold scrubLine lineHasSensitiveKv scrubKvLine
  cases hfind : findKvSeparator line with
  | none => exact .inl rfl
  | some pos =>
    dsimp only
    split
    · rename_i hkey
      obtain ⟨sep, after, hline, hsep, hequals, hdrop⟩ := eq_of_findKvSeparator hfind
      rw [hdrop]
      cases hredact : redactValueFragment after with
      | none => exact .inl rfl
      | some redacted =>
        obtain ⟨hlong, hchars⟩ := redactValueFragment_eq_some hredact
        obtain ⟨lead, key, tail, hkeyLine, hname, hlead, htail⟩ := exists_of_isSensitiveKey hkey
        refine .inr ⟨⟨lead, key, tail, sep, after, ?_, hname, ?_, hsep, hlong⟩, ?_⟩
        · rw [← hkeyLine]
          exact hline
        · intro c hc
          have hmem : c ∈ line.take pos := by
            rw [hkeyLine]
            simp only [List.mem_append] at hc ⊢
            exact hc.elim (fun h => .inl (.inl h)) .inr
          refine ⟨?_, fun heq => hequals (heq ▸ hmem)⟩
          rcases List.mem_append.mp hc with hc | hc
          · exact hlead c hc
          · exact htail c hc
        · intro c hc
          rcases List.mem_append.mp hc with hc | hc
          · exact .inl (List.mem_of_mem_take hc)
          · refine (hchars c hc).imp (fun hafter => ?_) id
            rw [hline]
            exact List.mem_append_right _ (List.mem_cons_of_mem _ hafter)
    · exact .inl rfl

theorem notMem_scrubLine {line : List Char} (h : '\n' ∉ line) : '\n' ∉ scrubLine line := by
  rcases scrubLine_cases line with hsame | ⟨-, hchars⟩
  · rwa [hsame]
  · intro hmem
    rcases hchars _ hmem with hmem | hmem
    · exact h hmem
    · exact absurd hmem (by decide)

/-- The lines are scrubbed one by one. -/
theorem splitOn_scrubCredentials (text : List Char) :
    (scrubCredentials text).splitOn '\n' = (text.splitOn '\n').map scrubLine := by
  apply List.splitOn_intercalate
  · intro line hline
    obtain ⟨line', hline', rfl⟩ := List.mem_map.mp hline
    exact notMem_scrubLine (notMem_of_mem_splitOn hline')
  · simp

def tokenCredential : Credential where
  before := ['{', '"']
  key := "Token".toList
  close := some '"'
  blanks := []
  sep := ':'
  blanks' := [' ']
  quote := some '"'
  value := "abcdefghi123".toList
  rest := ['"', '}']
  before_last := by decide
  sensitive := by decide
  close_quote := by decide
  blanks_ws := by decide
  sep_kv := .inr rfl
  blanks_ws' := by decide
  quote_quote := by decide
  secret := by decide
  long := by decide
  rest_head := by decide

/-- A key that is not the first one of its line. -/
def secondCredential : Credential where
  before := "a=1, ".toList
  key := "token".toList
  close := none
  blanks := []
  sep := '='
  blanks' := []
  quote := none
  value := "abcdefgh".toList
  rest := []
  before_last := by decide
  sensitive := by decide
  close_quote := by decide
  blanks_ws := by decide
  sep_kv := .inl rfl
  blanks_ws' := by decide
  quote_quote := by decide
  secret := by decide
  long := by decide
  rest_head := by decide

def bearerLine : List Char := "authorization: Bearer abcdefgh1234".toList

/-- The scheme is too short for a value, and a blank is after it. -/
theorem line_ne_bearerLine (cred : Credential) : cred.line ≠ bearerLine := by
  intro hline
  let before := cred.before ++ cred.key ++ cred.close.toList ++ cred.blanks
  let lead := cred.blanks' ++ cred.quote.toList
  have hparts : bearerLine = before ++ cred.sep :: (lead ++ cred.value ++ cred.rest) := by
    rw [← hline]
    simp [before, lead, Credential.line, Credential.head, List.append_assoc]
  have hsep : before.length = 13 := by
    have hall : ∀ i < 34, (bearerLine[i]? = some '=' ∨ bearerLine[i]? = some ':') → i = 13 := by decide
    have hget : bearerLine[before.length]? = some cred.sep := by
      rw [hparts]
      simp
    have hlt : before.length < 34 := (List.getElem?_eq_some_iff.mp hget).1
    apply hall _ hlt
    rw [hget]
    exact cred.sep_kv.imp (congrArg some) (congrArg some)
  have hafter : " Bearer abcdefgh1234".toList = lead ++ cred.value ++ cred.rest := by
    have hdrop : bearerLine.drop 14 = lead ++ cred.value ++ cred.rest := by
      have hlength : 14 = before.length + 1 := by omega
      rw [hparts, hlength, List.drop_length_add_append, List.drop_one, List.tail_cons]
    exact hdrop
  have hvalue : 8 ≤ cred.value.length := by
    apply length_of_ascii cred.long
    intro c hc
    have hall : ∀ c ∈ " Bearer abcdefgh1234".toList, c.toNat < 128 := by decide
    apply hall c
    rw [hafter]
    exact List.mem_append_left _ (List.mem_append_right _ hc)
  have hlead : ¬ 2 ≤ lead.length := by
    intro hlong
    have hget : lead[1]? = some 'B' := by
      have hsecond : (lead ++ cred.value ++ cred.rest)[1]? = some 'B' := by rw [← hafter]; rfl
      rwa [List.append_assoc, List.getElem?_append_left (by omega)] at hsecond
    rcases List.mem_append.mp (List.mem_of_getElem? hget) with hblank | hquote
    · exact absurd (cred.blanks_ws' _ hblank) (by decide)
    · exact absurd (cred.quote_quote _ (Option.mem_toList.mp hquote)) (by decide)
  have hsecret : ∀ i < 8, ∃ c, " Bearer abcdefgh1234".toList[lead.length + i]? = some c ∧ isSecretChar c = true := by
    intro i hi
    obtain ⟨c, hc⟩ : ∃ c, cred.value[i]? = some c := ⟨_, List.getElem?_eq_getElem (by omega)⟩
    refine ⟨c, ?_, cred.secret c (List.mem_of_getElem? hc)⟩
    rw [hafter, List.append_assoc, List.getElem?_append_right (by omega), List.getElem?_append_left (by omega),
      Nat.add_sub_cancel_left, hc]
  obtain hzero | hone : lead.length = 0 ∨ lead.length = 1 := by omega
  · obtain ⟨c, hc, hnot⟩ := hsecret 0 (by decide)
    rw [hzero] at hc
    obtain rfl : ' ' = c := Option.some.inj hc
    exact absurd hnot (by decide)
  · obtain ⟨c, hc, hnot⟩ := hsecret 6 (by decide)
    rw [hone] at hc
    obtain rfl : ' ' = c := Option.some.inj hc
    exact absurd hnot (by decide)

end Beetle
