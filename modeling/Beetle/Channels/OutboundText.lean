import Beetle.Channels.Chunk

/-! Markdown in outbound texts, and what becomes of it on channels without it. -/
namespace Beetle.Channels
open Beetle.Lib

def trimStart (s : List Char) : List Char := s.dropWhile isWhitespace

def startsWith (s pat : List Char) : Bool := (pat.isPrefixOf? s).isSome

def contains (s pat : List Char) : Bool := (splitAtFirst pat s).isSome

/-- What ends a line is no part of it: `\n`, or `\r\n`. -/
def dropCarriageReturn (line : List Char) : List Char :=
  if line.getLast? = some '\r' then line.dropLast else line

/-- `str::lines`. Nothing behind the last line end is no line. -/
def lines (s : List Char) : List (List Char) :=
  (s.splitOn '\n').dropLast.map dropCarriageReturn ++ (s.splitOn '\n').getLast?.toList.filter (· ≠ [])

def joinLines (lines : List (List Char)) : List Char := ['\n'].intercalate lines

def isBlank (line : List Char) : Bool := trim line = []

/-- The loop of `collapse_blank_lines`. -/
def dropRepeatedBlanks : Bool → List (List Char) → List (List Char)
  | _, [] => []
  | previousBlank, line :: lines =>
    if isBlank line && previousBlank then dropRepeatedBlanks previousBlank lines
    else line :: dropRepeatedBlanks (isBlank line) lines

def collapseBlankLines (lines : List (List Char)) : List (List Char) :=
  ((dropRepeatedBlanks false lines).dropWhile isBlank).rdropWhile isBlank

def headingText (line : List Char) : Option (List Char) :=
  let hashes := (line.takeWhile (· = '#')).length
  if hashes = 0 ∨ hashes > 6 then none
  else
    let rest := trimStart (line.drop hashes)
    if rest = [] ∨ rest.length = line.length - hashes then none else some rest

def unorderedListText (line : List Char) : Option (List Char) :=
  (["- ", "* ", "+ "].findSome? fun mark => mark.toList.isPrefixOf? line).map trimStart

def orderedListText (line : List Char) : Option (List Char × List Char) :=
  let index := line.takeWhile Char.isDigit
  if index = [] then none
  else (". ".toList.isPrefixOf? (line.drop index.length)).map fun rest => (index, trimStart rest)

def looksLikeMarkdownish (text : List Char) : Bool :=
  let trimmed := trim text
  if trimmed = [] then false
  else if ["```", "**", "__", "~~", "`", "]("].any fun mark => contains trimmed mark.toList then true
  else
    (lines trimmed).any fun line =>
      let trimmed := trimStart line
      (headingText trimmed).isSome || (unorderedListText trimmed).isSome || (orderedListText trimmed).isSome ||
        startsWith trimmed "> ".toList

/-! Markers in a line. What is behind a marker stands for the count of what it takes up. -/

inductive MarkerKind where
  | image (url : List Char)
  | link (url : List Char)
  | code
  | bold
  | strike
  | emphasis

structure InlineMarker where
  kind : MarkerKind
  inner : List Char
  after : List Char

def consumeImageOrLink (image : Bool) (rest : List Char) : Option InlineMarker := do
  let tail ← (if image then ['!', '['] else ['[']).isPrefixOf? rest
  let (label, afterLabel) ← splitAtFirst [']'] tail
  let tail ← ['('].isPrefixOf? afterLabel
  let (url, after) ← splitAtFirst [')'] tail
  some ⟨if image then .image (trim url) else .link (trim url), label, after⟩

def consumeDelimited (kind : MarkerKind) (mark rest : List Char) : Option InlineMarker := do
  let tail ← mark.isPrefixOf? rest
  let (inner, after) ← splitAtFirst mark tail
  if inner = [] ∨ '\n' ∈ inner then none else some ⟨kind, inner, after⟩

def consumeEmphasis (rest : List Char) : Option InlineMarker :=
  if startsWith rest "**".toList || startsWith rest "__".toList then none
  else do
    let mark ← rest.head?.filter fun c => c = '*' ∨ c = '_'
    let (inner, after) ← splitAtFirst [mark] rest.tail
    if inner = [] ∨ '\n' ∈ inner ∨ inner.head?.any isWhitespace ∨ inner.getLast?.any isWhitespace then none
    else some ⟨.emphasis, inner, after⟩

/-- The markers in the order in which `consume_inline_marker_plain` and `consume_inline_marker_html` try them. -/
def consumeInlineMarker (rest : List Char) : Option InlineMarker :=
  consumeImageOrLink true rest <|> consumeImageOrLink false rest <|> consumeDelimited .code ['\x60'] rest <|>
    consumeDelimited .bold ['*', '*'] rest <|> consumeDelimited .bold ['_', '_'] rest <|>
    consumeDelimited .strike ['~', '~'] rest <|> consumeEmphasis rest

/-- The marker is longer than what is in it, and something of the text is used up. -/
def InlineMarker.Within (marker : InlineMarker) (rest : List Char) : Prop :=
  marker.inner.length < rest.length ∧ marker.after.length < rest.length

theorem length_splitAtFirst {pat l before after : List Char} (h : splitAtFirst pat l = some (before, after)) :
    before.length + pat.length + after.length = l.length := by
  rw [eq_of_splitAtFirst h]
  simp [Nat.add_assoc]

theorem length_isPrefixOf? {pat l after : List Char} (h : pat.isPrefixOf? l = some after) :
    pat.length + after.length = l.length := by
  rw [isPrefixOf?_eq_some_iff.mp h, List.length_append]

variable {marker : InlineMarker} {rest : List Char}

theorem consumeImageOrLink_within {image : Bool}
    (h : consumeImageOrLink image rest = some marker) : marker.Within rest := by
  simp only [consumeImageOrLink, Option.bind_eq_bind, Option.bind_eq_some_iff, Option.some.injEq, Prod.exists] at h
  obtain ⟨tail, htail, label, afterLabel, hlabel, urlTail, hurlTail, url, after, hurl, rfl⟩ := h
  have hlengthLabel := length_splitAtFirst hlabel
  have hlengthUrl := length_splitAtFirst hurl
  have hlengthTail := length_isPrefixOf? htail
  have hlengthUrlTail := length_isPrefixOf? hurlTail
  simp only [List.length_singleton] at hlengthLabel hlengthUrl hlengthUrlTail
  constructor
  · dsimp only
    omega
  · dsimp only
    omega

theorem consumeDelimited_within {kind : MarkerKind} {mark rest : List Char} (hmark : mark ≠ [])
    (h : consumeDelimited kind mark rest = some marker) : marker.Within rest := by
  simp only [consumeDelimited, Option.bind_eq_bind, Option.bind_eq_some_iff, Prod.exists,
    Option.ite_none_left_eq_some, Option.some.injEq] at h
  obtain ⟨tail, htail, inner, after, hinner, -, rfl⟩ := h
  have hpos := List.length_pos_iff.mpr hmark
  have hlength := length_splitAtFirst hinner
  have hlengthTail := length_isPrefixOf? htail
  constructor
  · dsimp only
    omega
  · dsimp only
    omega

theorem consumeEmphasis_within (h : consumeEmphasis rest = some marker) : marker.Within rest := by
  simp only [consumeEmphasis, Option.bind_eq_bind, Option.ite_none_left_eq_some, Option.bind_eq_some_iff,
    Prod.exists, Option.some.injEq] at h
  obtain ⟨-, mark, -, inner, after, hinner, -, rfl⟩ := h
  have hlength := length_splitAtFirst hinner
  have htail : rest.tail.length = rest.length - 1 := List.length_tail
  simp only [List.length_singleton] at hlength
  constructor
  · dsimp only
    omega
  · dsimp only
    omega

theorem consumeInlineMarker_within (h : consumeInlineMarker rest = some marker) : marker.Within rest := by
  simp only [consumeInlineMarker, Option.orElse_eq_orElse, Option.orElse_eq_or, Option.or_eq_some_iff] at h
  rcases h with h | ⟨-, h | ⟨-, h | ⟨-, h | ⟨-, h | ⟨-, h | ⟨-, h⟩⟩⟩⟩⟩⟩
  · exact consumeImageOrLink_within h
  · exact consumeImageOrLink_within h
  · exact consumeDelimited_within (List.cons_ne_nil _ _) h
  · exact consumeDelimited_within (List.cons_ne_nil _ _) h
  · exact consumeDelimited_within (List.cons_ne_nil _ _) h
  · exact consumeDelimited_within (List.cons_ne_nil _ _) h
  · exact consumeEmphasis_within h

/-- A line with its markers rendered, each from its kind, what is in it and how that is rendered. -/
def renderInline (char : Char → List Char) (marker : MarkerKind → List Char → List Char → List Char)
    (text : List Char) : List Char :=
  match _h : consumeInlineMarker text with
  | some found =>
    marker found.kind found.inner (renderInline char marker found.inner) ++ renderInline char marker found.after
  | none =>
    match text with
    | [] => []
    | c :: rest => char c ++ renderInline char marker rest
termination_by text.length
decreasing_by
  · exact (consumeInlineMarker_within _h).1
  · exact (consumeInlineMarker_within _h).2
  · simp

/-! To plain text. -/

def plainLinkText (label url : List Char) : List Char :=
  let label := trim label
  let url := trim url
  if label = [] then url else if url = [] ∨ label = url then label else label ++ " (".toList ++ url ++ [')']

def MarkerKind.plain (kind : MarkerKind) (inner rendered : List Char) : List Char :=
  match kind with
  | image url => plainLinkText inner url
  | link url => plainLinkText inner url
  | code => inner
  | bold => rendered
  | strike => rendered
  | emphasis => rendered

def renderInlineMarkdownishToPlain (text : List Char) : List Char := renderInline (fun c => [c]) MarkerKind.plain text

/-- A line outside the code blocks, as `render_markdownish_to_plain_text` writes it. -/
def plainLine (trimmed : List Char) : List Char :=
  match headingText trimmed with
  | some rest => renderInlineMarkdownishToPlain rest
  | none =>
    match "> ".toList.isPrefixOf? trimmed with
    | some rest => renderInlineMarkdownishToPlain rest
    | none =>
      match unorderedListText trimmed with
      | some rest => "• ".toList ++ renderInlineMarkdownishToPlain rest
      | none =>
        match orderedListText trimmed with
        | some (index, rest) => index ++ ". ".toList ++ renderInlineMarkdownishToPlain rest
        | none => renderInlineMarkdownishToPlain trimmed

def plainLines : Bool → List (List Char) → List (List Char)
  | _, [] => []
  | inCodeBlock, rawLine :: rest =>
    let line := trimEnd rawLine
    let trimmed := trimStart line
    if startsWith trimmed "```".toList then plainLines (!inCodeBlock) rest
    else if inCodeBlock then line :: plainLines inCodeBlock rest
    else if trimmed = [] then [] :: plainLines inCodeBlock rest
    else plainLine trimmed :: plainLines inCodeBlock rest

def renderMarkdownishToPlainText (text : List Char) : List Char :=
  joinLines (collapseBlankLines (plainLines false (lines text)))

/-- The loop of `render_html_to_plain_text`. -/
def stripHtml : Bool → Bool → List Char → List Char → List Char
  | _, _, out, [] => out
  | _, pendingNewline, out, '<' :: rest =>
    stripHtml true (pendingNewline || startsWith rest ['b', 'r'] || startsWith rest ['/', 'p']) out rest
  | _, pendingNewline, out, '>' :: rest =>
    stripHtml false false (if pendingNewline && out.getLast? != some '\n' then out ++ ['\n'] else out) rest
  | true, pendingNewline, out, _ :: rest => stripHtml true pendingNewline out rest
  | false, pendingNewline, out, '&' :: 'l' :: 't' :: ';' :: rest => stripHtml false pendingNewline (out ++ ['<']) rest
  | false, pendingNewline, out, '&' :: 'g' :: 't' :: ';' :: rest => stripHtml false pendingNewline (out ++ ['>']) rest
  | false, pendingNewline, out, '&' :: 'a' :: 'm' :: 'p' :: ';' :: rest =>
    stripHtml false pendingNewline (out ++ ['&']) rest
  | false, pendingNewline, out, '&' :: 'q' :: 'u' :: 'o' :: 't' :: ';' :: rest =>
    stripHtml false pendingNewline (out ++ ['"']) rest
  | false, pendingNewline, out, c :: rest => stripHtml false pendingNewline (out ++ [c]) rest

def renderHtmlToPlainText (text : List Char) : List Char :=
  joinLines (collapseBlankLines ((lines (stripHtml false false [] text)).map trimEnd))

/-! To the HTML of Telegram. -/

def pushEscapedHtmlChar (c : Char) : List Char :=
  if c = '&' then "&amp;".toList
  else if c = '<' then "&lt;".toList
  else if c = '>' then "&gt;".toList
  else if c = '"' then "&quot;".toList
  else [c]

def escapeHtmlText (text : List Char) : List Char := text.flatMap pushEscapedHtmlChar

def escapeHtmlAttr (text : List Char) : List Char := escapeHtmlText text

def htmlElement (opening closing inner : List Char) : List Char :=
  '<' :: (opening ++ ['>']) ++ inner ++ '<' :: (closing ++ ['>'])

def MarkerKind.html (kind : MarkerKind) (inner rendered : List Char) : List Char :=
  match kind with
  | image url => escapeHtmlText inner ++ " (".toList ++ escapeHtmlText url ++ [')']
  | link url => htmlElement ("a href=\"".toList ++ escapeHtmlAttr url ++ ['"']) "/a".toList rendered
  | code => htmlElement "code".toList "/code".toList (escapeHtmlText inner)
  | bold => htmlElement "b".toList "/b".toList rendered
  | strike => htmlElement "s".toList "/s".toList rendered
  | emphasis => htmlElement "i".toList "/i".toList rendered

def renderInlineMarkdownishToHtml (text : List Char) : List Char := renderInline pushEscapedHtmlChar MarkerKind.html text

/-- A line outside the code blocks, as `render_markdownish_to_telegram_html` writes it. -/
def htmlLine (trimmed : List Char) : List Char :=
  match headingText trimmed with
  | some rest => htmlElement "b".toList "/b".toList (renderInlineMarkdownishToHtml rest)
  | none =>
    match "> ".toList.isPrefixOf? trimmed with
    | some rest => "&gt; ".toList ++ renderInlineMarkdownishToHtml rest
    | none =>
      match unorderedListText trimmed with
      | some rest => "• ".toList ++ renderInlineMarkdownishToHtml rest
      | none =>
        match orderedListText trimmed with
        | some (index, rest) => index ++ ". ".toList ++ renderInlineMarkdownishToHtml rest
        | none => renderInlineMarkdownishToHtml trimmed

def preformatted (codeLines : List (List Char)) : List Char :=
  htmlElement "pre".toList "/pre".toList (escapeHtmlText (joinLines codeLines))

/-- The loop of `render_markdownish_to_telegram_html`, with what it does after the last line. -/
def htmlLines : Bool → List (List Char) → List (List Char) → List (List Char)
  | _, codeLines, [] => if codeLines = [] then [] else [preformatted codeLines]
  | inCodeBlock, codeLines, rawLine :: rest =>
    let line := trimEnd rawLine
    let trimmed := trimStart line
    if startsWith trimmed "```".toList then
      if inCodeBlock then preformatted codeLines :: htmlLines false [] rest
      else htmlLines true codeLines rest
    else if inCodeBlock then htmlLines inCodeBlock (codeLines ++ [line]) rest
    else if trimmed = [] then [] :: htmlLines inCodeBlock codeLines rest
    else htmlLine trimmed :: htmlLines inCodeBlock codeLines rest

def renderMarkdownishToTelegramHtml (text : List Char) : List Char :=
  joinLines (collapseBlankLines (htmlLines false [] (lines text)))

end Beetle.Channels
