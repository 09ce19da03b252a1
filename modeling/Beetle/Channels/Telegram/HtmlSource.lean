import Beetle.Channels.OutboundText

/-! What the HTML for Telegram is made of: text whose special characters are those of the source, and elements. -/
namespace Beetle.Channels
open Beetle.Lib

def isSpecial (c : Char) : Bool := c = '&' || c = '<' || c = '>' || c = '"'

def specials (text : List Char) : List Char := text.filter isSpecial

/-- Where text stands: outside of links, in a link, or where there are no elements. -/
inductive Context where
  | document
  | link
  | verbatim
  deriving DecidableEq

/-- Escaped text and nested elements, with the special characters that are escaped in it. -/
inductive Html : Context → List Char → List Char → Prop where
  | nil {ctx : Context} : Html ctx [] []
  | plain {ctx : Context} {c : Char} {html marks : List Char} : isSpecial c = false → Html ctx html marks →
      Html ctx (c :: html) marks
  | escaped {ctx : Context} {c : Char} {html marks : List Char} : isSpecial c = true → Html ctx html marks →
      Html ctx (pushEscapedHtmlChar c ++ html) (c :: marks)
  | styled {ctx : Context} {name : Char} {inner html marks more : List Char} : ctx ≠ .verbatim → name ∈ ['b', 'i', 's'] →
      Html ctx inner marks → Html ctx html more → Html ctx (htmlElement [name] ['/', name] inner ++ html) (marks ++ more)
  | verbatim {ctx : Context} {name inner html marks more : List Char} : ctx ≠ .verbatim →
      name ∈ ["code".toList, "pre".toList] → Html .verbatim inner marks → Html ctx html more →
      Html ctx (htmlElement name ('/' :: name) inner ++ html) (marks ++ more)
  | link {url inner html urlMarks marks more : List Char} : Html .verbatim url urlMarks → Html .link inner marks →
      Html .document html more →
      Html .document (htmlElement ("a href=\"".toList ++ url ++ ['"']) "/a".toList inner ++ html) (marks ++ (urlMarks ++ more))

variable {ctx : Context} {a b marks more text rest : List Char} {found : InlineMarker}

@[simp] theorem specials_append (a b : List Char) : specials (a ++ b) = specials a ++ specials b := List.filter_append a b

theorem Html.append (ha : Html ctx a marks) (hb : Html ctx b more) : Html ctx (a ++ b) (marks ++ more) := by
  induction ha with
  | nil => exact hb
  | plain hc _ ih => exact .plain hc (ih hb)
  | escaped hc _ ih =>
    rw [List.append_assoc, List.cons_append]
    exact .escaped hc (ih hb)
  | styled hctx hname hinner _ _ ih =>
    rw [List.append_assoc, List.append_assoc]
    exact .styled hctx hname hinner (ih hb)
  | verbatim hctx hname hinner _ _ ih =>
    rw [List.append_assoc, List.append_assoc]
    exact .verbatim hctx hname hinner (ih hb)
  | link hurl hinner _ _ _ ih =>
    have helement := Html.link hurl hinner (ih hb)
    simpa only [List.append_assoc] using helement

theorem html_char (c : Char) (h : Html ctx a marks) : Html ctx (pushEscapedHtmlChar c ++ a) (specials [c] ++ marks) := by
  rw [specials, List.filter_singleton]
  cases hc : isSpecial c with
  | true => exact .escaped hc h
  | false =>
    have hself : pushEscapedHtmlChar c = [c] := by
      simp only [isSpecial, Bool.or_eq_false_iff, decide_eq_false_iff_not] at hc
      rw [pushEscapedHtmlChar, if_neg hc.1.1.1, if_neg hc.1.1.2, if_neg hc.1.2, if_neg hc.2]
    rw [hself]
    exact .plain hc h

theorem html_escape (text : List Char) : Html ctx (escapeHtmlText text) (specials text) := by
  induction text with
  | nil => exact .nil
  | cons c text ih =>
    rw [← List.singleton_append, specials_append]
    exact html_char c ih

theorem html_plain (text : List Char) (h : specials text = []) : Html ctx text [] := by
  induction text with
  | nil => exact .nil
  | cons c text ih =>
    rw [specials, List.filter_eq_nil_iff, List.forall_mem_cons] at h
    exact .plain (Bool.eq_false_iff.mpr h.1) (ih (List.filter_eq_nil_iff.mpr h.2))

theorem Html.styledAlone {name : Char} (hctx : ctx ≠ .verbatim) (hname : name ∈ ['b', 'i', 's']) (h : Html ctx a marks) :
    Html ctx (htmlElement [name] ['/', name] a) marks := by
  have helement := Html.styled hctx hname h .nil
  rwa [List.append_nil, List.append_nil] at helement

theorem Html.verbatimAlone {name : List Char} (hctx : ctx ≠ .verbatim) (hname : name ∈ ["code".toList, "pre".toList])
    (h : Html .verbatim a marks) : Html ctx (htmlElement name ('/' :: name) a) marks := by
  have helement := Html.verbatim hctx hname h .nil
  rwa [List.append_nil, List.append_nil] at helement

theorem specials_dropWhile {p : Char → Bool} (h : ∀ c, p c = true → isSpecial c = false) (text : List Char) :
    specials (text.dropWhile p) = specials text := by
  have hfront : specials (text.takeWhile p) = [] :=
    List.filter_eq_nil_iff.mpr fun c hc => Bool.eq_false_iff.mp (h c (List.mem_takeWhile_imp hc))
  conv_rhs => rw [← List.takeWhile_append_dropWhile (p := p) (l := text), specials_append, hfront, List.nil_append]

theorem isSpecial_of_isWhitespace (c : Char) (h : isWhitespace c = true) : isSpecial c = false := by
  rw [Bool.eq_false_iff]
  intro hc
  simp only [isSpecial, Bool.or_eq_true, decide_eq_true_eq] at hc
  rcases hc with ((rfl | rfl) | rfl) | rfl <;> exact absurd h (by decide)

theorem specials_trimStart (text : List Char) : specials (trimStart text) = specials text :=
  specials_dropWhile isSpecial_of_isWhitespace text

theorem specials_rdropWhile (text : List Char) : specials (text.rdropWhile isWhitespace) = specials text := by
  have hreverse := specials_dropWhile isSpecial_of_isWhitespace text.reverse
  rw [specials, specials, List.filter_reverse] at hreverse
  rw [List.rdropWhile, specials, List.filter_reverse, hreverse, List.reverse_reverse]
  rfl

theorem specials_trim (text : List Char) : specials (trim text) = specials text :=
  (specials_rdropWhile _).trans (specials_trimStart text)

/-! Markers. -/

def MarkerKind.url : MarkerKind → List Char
  | image url => url
  | link url => url
  | _ => []

/-- The special characters around what is in a marker are those of its URL, and a link has no bracket in its label. -/
def InlineMarker.Parts (found : InlineMarker) (text : List Char) : Prop :=
  ∃ front mid, text = front ++ (found.inner ++ (mid ++ found.after)) ∧ specials front = [] ∧
    specials mid = specials found.kind.url ∧ ∀ url, found.kind = .link url → ']' ∉ found.inner ∧ ']' ∈ mid

theorem notMem_of_splitAtFirst {c : Char} (h : splitAtFirst [c] text = some (a, rest)) : c ∉ a := by
  intro hmem
  obtain ⟨front, back, rfl⟩ := List.append_of_mem hmem
  have htext : text = front ++ ([c] ++ (back ++ ([c] ++ rest))) := by
    rw [eq_of_splitAtFirst h]
    simp
  have hle := length_le_of_splitAtFirst (List.cons_ne_nil c []) h htext
  rw [List.length_append, List.length_cons] at hle
  omega

theorem parts_consumeImageOrLink {image : Bool} (h : consumeImageOrLink image text = some found) : found.Parts text := by
  simp only [consumeImageOrLink, Option.bind_eq_bind, Option.bind_eq_some_iff, Option.some.injEq, Prod.exists] at h
  obtain ⟨tail, htail, label, afterLabel, hlabel, urlTail, hurlTail, url, after, hurl, rfl⟩ := h
  rw [isPrefixOf?_eq_some_iff] at htail hurlTail
  have hlabelText := eq_of_splitAtFirst hlabel
  have hurlText := eq_of_splitAtFirst hurl
  refine ⟨if image then ['!', '['] else ['['], [']', '('] ++ (url ++ [')']), ?_, ?_, ?_, fun _ _ => ⟨notMem_of_splitAtFirst hlabel, by simp⟩⟩
  · rw [htail, hlabelText, hurlTail, hurlText]
    simp
  · cases image <;> decide
  · have hkind : specials (if image then MarkerKind.image (trim url) else .link (trim url)).url = specials url := by
      cases image <;> exact specials_trim url
    rw [hkind, specials_append, specials_append]
    exact List.append_nil _

theorem parts_consumeDelimited {kind : MarkerKind} {mark : List Char} (h : consumeDelimited kind mark text = some found)
    (hmark : specials mark = []) (hkind : kind.url = [] ∧ ∀ url, kind ≠ .link url) : found.Parts text := by
  simp only [consumeDelimited, Option.bind_eq_bind, Option.bind_eq_some_iff, Prod.exists,
    Option.ite_none_left_eq_some, Option.some.injEq] at h
  obtain ⟨tail, htail, inner, after, hinner, -, rfl⟩ := h
  refine ⟨mark, mark, ?_, hmark, ?_, fun url hlink => absurd hlink (hkind.2 url)⟩
  · rw [isPrefixOf?_eq_some_iff.mp htail, eq_of_splitAtFirst hinner]
  · rw [hmark, hkind.1]
    rfl

theorem parts_consumeEmphasis (h : consumeEmphasis text = some found) : found.Parts text := by
  simp only [consumeEmphasis, Option.bind_eq_bind, Option.ite_none_left_eq_some, Option.bind_eq_some_iff,
    Prod.exists, Option.some.injEq] at h
  obtain ⟨-, mark, hmark, inner, after, hinner, -, rfl⟩ := h
  obtain ⟨hhead, hchar⟩ := Option.filter_eq_some_iff.mp hmark
  obtain ⟨tail, rfl⟩ := List.head?_eq_some_iff.mp hhead
  have hplain : specials [mark] = [] := by
    rcases of_decide_eq_true hchar with rfl | rfl <;> decide
  refine ⟨[mark], [mark], ?_, hplain, hplain, fun _ hlink => by cases hlink⟩
  rw [List.singleton_append, ← eq_of_splitAtFirst hinner]
  rfl

theorem parts_consumeInlineMarker (h : consumeInlineMarker text = some found) : found.Parts text := by
  simp only [consumeInlineMarker, Option.orElse_eq_orElse, Option.orElse_eq_or, Option.or_eq_some_iff] at h
  rcases h with h | ⟨-, h | ⟨-, h | ⟨-, h | ⟨-, h | ⟨-, h | ⟨-, h⟩⟩⟩⟩⟩⟩
  · exact parts_consumeImageOrLink h
  · exact parts_consumeImageOrLink h
  · exact parts_consumeDelimited h (by decide) ⟨rfl, fun _ hlink => by cases hlink⟩
  · exact parts_consumeDelimited h (by decide) ⟨rfl, fun _ hlink => by cases hlink⟩
  · exact parts_consumeDelimited h (by decide) ⟨rfl, fun _ hlink => by cases hlink⟩
  · exact parts_consumeDelimited h (by decide) ⟨rfl, fun _ hlink => by cases hlink⟩
  · exact parts_consumeEmphasis h

/-- In a link there is no bracket that could close the label of another one. -/
theorem html_renderInline (text : List Char) : ∀ {ctx : Context}, ctx ≠ .verbatim → (ctx = .link → ']' ∉ text) →
    Html ctx (renderInlineMarkdownishToHtml text) (specials text) := by
  unfold renderInlineMarkdownishToHtml
  fun_induction renderInline pushEscapedHtmlChar MarkerKind.html text with
  | case1 text found hfound ihinner ihafter =>
    intro ctx hctx hlink
    obtain ⟨front, mid, rfl, hfront, hmid, hlabel⟩ := parts_consumeInlineMarker hfound
    simp only [List.mem_append, not_or] at hlink
    have hinner := ihinner hctx fun h => (hlink h).2.1
    have hafter := ihafter hctx fun h => (hlink h).2.2.2
    rw [specials_append, specials_append, specials_append, hfront, hmid, List.nil_append]
    cases hkind : found.kind with
    | image url =>
      have hurl : Html ctx (escapeHtmlText url ++ [')']) (specials url ++ []) := (html_escape url).append (html_plain [')'] rfl)
      rw [List.append_nil] at hurl
      have himage := (html_escape found.inner).append ((html_plain " (".toList rfl).append hurl)
      have hboth := himage.append hafter
      simp only [List.append_assoc, List.nil_append] at hboth ⊢
      simpa only [MarkerKind.html, MarkerKind.url, List.append_assoc] using hboth
    | link url =>
      obtain ⟨hbracket, hin⟩ := hlabel url hkind
      cases ctx with
      | document => exact .link (html_escape url) (ihinner nofun fun _ => hbracket) hafter
      | link => exact absurd hin (hlink rfl).2.2.1
      | verbatim => exact absurd rfl hctx
    | code => exact .verbatim hctx (by decide) (html_escape found.inner) hafter
    | bold => exact .styled hctx (by decide) hinner hafter
    | strike => exact .styled hctx (by decide) hinner hafter
    | emphasis => exact .styled hctx (by decide) hinner hafter
  | case2 => exact fun _ _ => .nil
  | case3 c rest _ ih =>
    intro ctx hctx hlink
    rw [← List.singleton_append, specials_append]
    exact html_char c (ih hctx fun h hmem => hlink h (List.mem_cons_of_mem c hmem))

/-! Lines. -/

theorem specials_headingText (h : headingText text = some rest) : specials rest = specials text := by
  simp only [headingText, Option.ite_none_left_eq_some, Option.some.injEq] at h
  obtain ⟨-, -, rfl⟩ := h
  have hhashes := @List.drop_left _ (text.takeWhile (· = '#')) (text.dropWhile (· = '#'))
  rw [List.takeWhile_append_dropWhile] at hhashes
  rw [specials_trimStart, hhashes]
  refine specials_dropWhile (fun c hc => ?_) text
  obtain rfl := of_decide_eq_true hc
  rfl

theorem specials_unorderedListText (h : unorderedListText text = some rest) : specials rest = specials text := by
  obtain ⟨after, hafter, rfl⟩ := Option.map_eq_some_iff.mp h
  obtain ⟨mark, hmark, hprefix⟩ := List.exists_of_findSome?_eq_some hafter
  have hplain : ∀ mark ∈ ["- ", "* ", "+ "], specials mark.toList = [] := by decide
  rw [specials_trimStart, isPrefixOf?_eq_some_iff.mp hprefix, specials_append, hplain mark hmark, List.nil_append]

theorem html_orderedListText {index : List Char} (h : orderedListText text = some (index, rest)) :
    Html .document (index ++ ". ".toList) [] ∧ specials rest = specials text := by
  rw [orderedListText, Option.ite_none_left_eq_some, Option.map_eq_some_iff] at h
  obtain ⟨-, after, hafter, heq⟩ := h
  obtain ⟨rfl, rfl⟩ := Prod.mk.inj heq
  have hindex : specials (text.takeWhile Char.isDigit) = [] := by
    refine List.filter_eq_nil_iff.mpr fun c hc hspecial => ?_
    have hdigit := List.mem_takeWhile_imp hc
    simp only [isSpecial, Bool.or_eq_true, decide_eq_true_eq] at hspecial
    rcases hspecial with ((rfl | rfl) | rfl) | rfl <;> exact absurd hdigit (by decide)
  have hdigits := @List.drop_left _ (text.takeWhile Char.isDigit) (text.dropWhile Char.isDigit)
  rw [List.takeWhile_append_dropWhile] at hdigits
  rw [hdigits, isPrefixOf?_eq_some_iff] at hafter
  refine ⟨html_plain _ (by rw [specials_append, hindex]; rfl), ?_⟩
  conv_rhs => rw [← List.takeWhile_append_dropWhile (p := Char.isDigit) (l := text), hafter]
  rw [specials_trimStart, specials_append, specials_append, hindex]
  rfl

theorem html_htmlLine (trimmed : List Char) : Html .document (htmlLine trimmed) (specials trimmed) := by
  have hinline (text : List Char) : Html .document (renderInlineMarkdownishToHtml text) (specials text) :=
    html_renderInline text nofun nofun
  unfold htmlLine
  split
  · rename_i rest hheading
    rw [← specials_headingText hheading]
    exact .styledAlone nofun (by decide) (hinline rest)
  split
  · rename_i rest hquote
    rw [isPrefixOf?_eq_some_iff.mp hquote, specials_append]
    exact (html_escape "> ".toList).append (hinline rest)
  split
  · rename_i rest hitem
    rw [← specials_unorderedListText hitem]
    exact (html_plain "• ".toList rfl).append (hinline rest)
  split
  · rename_i index rest hordered
    obtain ⟨hindex, hrest⟩ := html_orderedListText hordered
    rw [← hrest]
    exact hindex.append (hinline rest)
  · exact hinline trimmed

/-- Finished lines, with the special characters of all of them. -/
inductive HtmlLines : List (List Char) → List Char → Prop where
  | nil : HtmlLines [] []
  | cons {line marks more : List Char} {lines : List (List Char)} : Html .document line marks → HtmlLines lines more →
      HtmlLines (line :: lines) (marks ++ more)

variable {lines : List (List Char)}

theorem joinLines_cons_cons (line next : List Char) (lines : List (List Char)) :
    joinLines (line :: next :: lines) = line ++ (['\n'] ++ joinLines (next :: lines)) := by
  rw [joinLines, List.intercalate_cons_cons, List.append_assoc]
  rfl

theorem specials_joinLines (lines : List (List Char)) : specials (joinLines lines) = specials lines.flatten := by
  induction lines with
  | nil => rfl
  | cons line lines ih =>
    cases lines with
    | nil => simp [joinLines]
    | cons next lines =>
      rw [joinLines_cons_cons, specials_append, specials_append, ih]
      conv_rhs => rw [List.flatten_cons, specials_append]
      rfl

theorem html_preformatted (codeLines : List (List Char)) : Html .document (preformatted codeLines) (specials codeLines.flatten) := by
  rw [← specials_joinLines]
  exact .verbatimAlone nofun (by decide) (html_escape _)

theorem Html.marks_eq_nil (h : Html ctx a marks) (hplain : specials a = []) : marks = [] := by
  have habsurd {P : Prop} {opening closing inner html : List Char}
      (h : specials (htmlElement opening closing inner ++ html) = []) : P :=
    absurd rfl (List.filter_eq_nil_iff.mp h '<' (by simp [htmlElement]))
  induction h with
  | nil => rfl
  | plain hc _ ih => exact ih (List.filter_eq_nil_iff.mpr fun d hd => List.filter_eq_nil_iff.mp hplain d (List.mem_cons_of_mem _ hd))
  | @escaped _ c html _ hc =>
    have hamp : '&' ∈ pushEscapedHtmlChar c := by
      simp only [isSpecial, Bool.or_eq_true, decide_eq_true_eq] at hc
      rcases hc with ((rfl | rfl) | rfl) | rfl <;> decide
    exact absurd rfl (List.filter_eq_nil_iff.mp hplain '&' (List.mem_append_left html hamp))
  | styled => exact habsurd hplain
  | verbatim => exact habsurd hplain
  | link => exact habsurd hplain

theorem HtmlLines.drop {line : List Char} (h : HtmlLines (line :: lines) marks) (hblank : isBlank line = true) :
    HtmlLines lines marks := by
  cases h with
  | cons hline hlines =>
    have hspecials : specials line = [] := by
      rw [← specials_trim, of_decide_eq_true hblank]
      rfl
    rw [hline.marks_eq_nil hspecials]
    exact hlines

theorem HtmlLines.dropRepeatedBlanks {previousBlank : Bool} (h : HtmlLines lines marks) :
    HtmlLines (dropRepeatedBlanks previousBlank lines) marks := by
  induction lines generalizing previousBlank marks with
  | nil => exact h
  | cons line lines ih =>
    rw [Channels.dropRepeatedBlanks]
    split
    · rename_i hblank
      exact ih (h.drop (Bool.and_eq_true_iff.mp hblank).1)
    · cases h with
      | cons hline hlines => exact .cons hline (ih hlines)

theorem HtmlLines.dropWhile (h : HtmlLines lines marks) : HtmlLines (lines.dropWhile isBlank) marks := by
  induction lines with
  | nil => exact h
  | cons line lines ih =>
    rw [List.dropWhile_cons]
    split
    · rename_i hblank
      exact ih (h.drop hblank)
    · exact h

theorem HtmlLines.dropLast {line : List Char} (h : HtmlLines (lines ++ [line]) marks) (hblank : isBlank line = true) :
    HtmlLines lines marks := by
  induction lines generalizing marks with
  | nil => exact h.drop hblank
  | cons first lines ih =>
    cases h with
    | cons hfirst hlines => exact .cons hfirst (ih hlines)

section
variable (h : HtmlLines lines marks)
include h

theorem HtmlLines.rdropWhile : HtmlLines (lines.rdropWhile isBlank) marks := by
  induction lines using List.reverseRecOn with
  | nil => exact h
  | append_singleton lines line ih =>
    rw [List.rdropWhile_concat]
    split
    · rename_i hblank
      exact ih (h.dropLast hblank)
    · exact h

theorem HtmlLines.collapseBlankLines : HtmlLines (collapseBlankLines lines) marks :=
  h.dropRepeatedBlanks.dropWhile.rdropWhile

theorem HtmlLines.join : Html .document (joinLines lines) marks := by
  induction h with
  | nil => exact .nil
  | cons hline hlines ih =>
    cases hlines with
    | nil => simpa [joinLines] using hline
    | cons =>
      rw [joinLines_cons_cons]
      exact hline.append ((html_plain ['\n'] rfl).append ih)

end

/-- A line that begins or ends a code block. -/
def isFence (rawLine : List Char) : Bool := startsWith (trimStart (trimEnd rawLine)) "```".toList

theorem specials_line (rawLine : List Char) : specials (trimEnd rawLine) = specials rawLine := specials_rdropWhile rawLine

/-- The code that was collected comes before the lines that are left. -/
theorem htmlLines_lines (inCodeBlock : Bool) (codeLines rawLines : List (List Char))
    (hcode : inCodeBlock = false → codeLines = []) : HtmlLines (htmlLines inCodeBlock codeLines rawLines)
      (specials codeLines.flatten ++ specials (rawLines.filter fun line => !isFence line).flatten) := by
  fun_induction htmlLines inCodeBlock codeLines rawLines with
  | case1 => exact .nil
  | case2 _ codeLines => exact .cons (html_preformatted codeLines) .nil
  | case3 codeLines rawLine rest line trimmed hfence ih =>
    rw [List.filter_cons_of_neg (by simpa [isFence] using hfence)]
    exact .cons (html_preformatted codeLines) (ih fun _ => rfl)
  | case4 inCodeBlock codeLines rawLine rest line trimmed hfence hblock ih =>
    rw [List.filter_cons_of_neg (by simpa [isFence] using hfence)]
    exact ih nofun
  | case5 codeLines rawLine rest line trimmed hfence ih =>
    rw [List.filter_cons_of_pos (by simpa [isFence] using hfence), List.flatten_cons, specials_append, ← specials_line rawLine]
    simpa using ih nofun
  | case6 inCodeBlock codeLines rawLine rest line trimmed hfence hblock hempty ih =>
    obtain rfl := hcode (Bool.eq_false_iff.mpr hblock)
    have hline : specials rawLine = specials trimmed := (specials_line rawLine).symm.trans (specials_trimStart line).symm
    rw [List.filter_cons_of_pos (by simpa [isFence] using hfence), List.flatten_cons, specials_append, hline, hempty]
    exact .cons .nil (ih hcode)
  | case7 inCodeBlock codeLines rawLine rest line trimmed hfence hblock hempty ih =>
    obtain rfl := hcode (Bool.eq_false_iff.mpr hblock)
    have hline : specials rawLine = specials trimmed := (specials_line rawLine).symm.trans (specials_trimStart line).symm
    rw [List.filter_cons_of_pos (by simpa [isFence] using hfence), List.flatten_cons, specials_append, hline]
    change HtmlLines _ (specials trimmed ++ specials _)
    exact .cons (html_htmlLine trimmed) (ih hcode)

/-- For every text the HTML is escaped text and nested elements, and what is escaped in it are the special characters of
the text, in their order; only the lines of the fences are left out. -/
theorem html_renderMarkdownishToTelegramHtml (text : List Char) : Html .document (renderMarkdownishToTelegramHtml text)
    (specials ((Channels.lines text).filter fun line => !isFence line).flatten) :=
  (htmlLines_lines false [] (Channels.lines text) fun _ => rfl).collapseBlankLines.join

end Beetle.Channels
