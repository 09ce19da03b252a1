import Beetle.Channels.ChunkCuts
import Beetle.Channels.Telegram.HtmlSource
import Beetle.Channels.Telegram.Send

/-! The HTML that Markdown becomes for Telegram. -/
namespace Beetle.Channels.Telegram
open Beetle.Lib Beetle.Lib.Markup

def normalizeTextSource (text content : String) : List Char :=
  if trim text.toList = [] then trim content.toList else trim text.toList

/-- What a text body goes out as. -/
structure NormalizedOutboundBody where
  text : List Char
  format : TextFormat
  content : List Char

def NormalizedOutboundBody.same (text : List Char) (format : TextFormat) : NormalizedOutboundBody := ⟨text, format, text⟩

def normalizeRichText (formats : List TextFormat) (source : List Char) : NormalizedOutboundBody :=
  if .markdown ∈ formats ∧ looksLikeMarkdownish source then .same source .markdown
  else .same (renderMarkdownishToPlainText source) .plain

/-- `normalize_text_body_for_channel` on Telegram, with the text formats of its capability entry. -/
def normalizeTextBody (formats : List TextFormat) (text : String) (format : TextFormat) (content : String) :
    NormalizedOutboundBody :=
  let source := normalizeTextSource text content
  if source = [] then .same [] .plain
  else
    match format with
    | .plain => .same source .plain
    | .markdown =>
      if .markdown ∈ formats then .same source .markdown
      else if .html ∈ formats then ⟨renderMarkdownishToTelegramHtml source, .html, source⟩
      else .same (renderMarkdownishToPlainText source) .plain
    | .html =>
      if .html ∈ formats then ⟨source, .html, content.toList⟩ else .same (renderHtmlToPlainText source) .plain
    | .richText => normalizeRichText formats source

/-! The language of the requests. -/

inductive Element where
  | b
  | i
  | s
  | code
  | pre
  | a
  deriving DecidableEq

def elementOf (name : List Char) : Option Element :=
  [("b", Element.b), ("i", .i), ("s", .s), ("code", .code), ("pre", .pre), ("a", .a)].findSome? fun (known, element) =>
    if known.toList = name then some element else none

/-- What stands in the angle brackets, without spaces. -/
def readTag (tag : List Char) : Option (Tag Element) :=
  match ['/'].isPrefixOf? tag with
  | some name => (elementOf name).map .closing
  | none =>
    match "ahref=\"".toList.isPrefixOf? tag with
    | some value =>
      if value.getLast? = some '"' ∧ '"' ∉ value.dropLast ∧ '<' ∉ value then some (.opening .a) else none
    | none => ((elementOf tag).filter (· ≠ .a)).map .opening

def telegramHtml : Dialect Element where
  isSpace := isWhitespace
  readTag := readTag
  isEntity name := name ∈ ["amp", "lt", "gt", "quot"].map String.toList

/-! What the renderer writes may stand in any element. -/

theorem closed_pushEscapedHtmlChar (c : Char) : telegramHtml.Closed (pushEscapedHtmlChar c) := by
  unfold pushEscapedHtmlChar
  split
  · exact fun _ => rfl
  · rename_i hamp
    split
    · exact fun _ => rfl
    · rename_i hopen
      split
      · exact fun _ => rfl
      · rename_i hclose
        split
        · exact fun _ => rfl
        · exact Dialect.closed_char hopen hamp hclose

theorem forall_verbatim {ctx : Context} {url marks : List Char} (h : Html ctx url marks) (hctx : ctx = .verbatim) :
    ∀ c ∈ url, c ≠ '<' ∧ c ≠ '>' ∧ c ≠ '"' := by
  induction h with
  | nil => exact nofun
  | plain hc _ ih =>
    simp only [isSpecial, Bool.or_eq_false_iff, decide_eq_false_iff_not] at hc
    exact List.forall_mem_cons.mpr ⟨⟨hc.1.1.2, hc.1.2, hc.2⟩, ih hctx⟩
  | @escaped _ c _ _ hc _ ih =>
    simp only [isSpecial, Bool.or_eq_true, decide_eq_true_eq] at hc
    have hentity : ∀ d ∈ pushEscapedHtmlChar c, d ≠ '<' ∧ d ≠ '>' ∧ d ≠ '"' := by
      rcases hc with ((rfl | rfl) | rfl) | rfl <;> decide
    exact List.forall_mem_append.mpr ⟨hentity, ih hctx⟩
  | styled hne => exact absurd hctx hne
  | verbatim hne => exact absurd hctx hne
  | link => cases hctx

theorem closed_htmlElement {opening closing inner : List Char} {element : Element} (hfront : '>' ∉ opening)
    (hback : '>' ∉ closing) (hopening : readTag (visible opening) = some (.opening element))
    (hclosing : readTag (visible closing) = some (.closing element)) (hinner : telegramHtml.Closed inner) :
    telegramHtml.Closed (htmlElement opening closing inner) :=
  Dialect.closed_element (by decide) (by decide) hfront hback hopening hclosing hinner

theorem readTag_link {url : List Char} (hurl : ∀ c ∈ url, c ≠ '<' ∧ c ≠ '>' ∧ c ≠ '"') :
    readTag (visible ("a href=\"".toList ++ url ++ ['"'])) = some (.opening .a) := by
  have hfront : visible "a href=\"".toList = "ahref=\"".toList := by decide
  have hback : visible ['"'] = ['"'] := by decide
  have hopen : '<' ∉ visible url := fun hmem => (hurl _ (List.mem_filter.mp hmem).1).1 rfl
  have hquote : '"' ∉ visible url := fun hmem => (hurl _ (List.mem_filter.mp hmem).1).2.2 rfl
  have hslash (rest : List Char) : ['/'].isPrefixOf? ("ahref=\"".toList ++ rest) = none := rfl
  rw [visible_append, visible_append, hfront, hback, List.append_assoc, readTag, hslash]
  dsimp only
  rw [isPrefixOf?_append]
  dsimp only
  rw [if_pos]
  refine ⟨by simp, by simpa using hquote, ?_⟩
  simp [hopen]

theorem closed_of_html {ctx : Context} {html marks : List Char} (h : Html ctx html marks) : telegramHtml.Closed html := by
  induction h with
  | nil => exact Dialect.closed_nil
  | plain hc _ ih =>
    simp only [isSpecial, Bool.or_eq_false_iff, decide_eq_false_iff_not] at hc
    exact (Dialect.closed_char hc.1.1.2 hc.1.1.1 hc.1.2).append ih
  | @escaped _ c _ _ _ _ ih => exact (closed_pushEscapedHtmlChar c).append ih
  | styled _ hname _ _ ihinner ih =>
    simp only [List.mem_cons, List.not_mem_nil, or_false] at hname
    rcases hname with rfl | rfl | rfl <;> exact (closed_htmlElement (by decide) (by decide) rfl rfl ihinner).append ih
  | verbatim _ hname _ _ ihinner ih =>
    simp only [List.mem_cons, List.not_mem_nil, or_false] at hname
    rcases hname with rfl | rfl <;> exact (closed_htmlElement (by decide) (by decide) rfl rfl ihinner).append ih
  | link hurl _ _ _ ihinner ih =>
    have hurl := forall_verbatim hurl rfl
    refine (closed_htmlElement ?_ (by decide) (readTag_link hurl) (by decide) ihinner).append ih
    simpa using fun hmem => (hurl _ hmem).2.1 rfl

variable {line : List Char} {n : Nat}

/-- The whole text is well-formed, whatever the Markdown. -/
theorem closed_renderMarkdownishToTelegramHtml (text : List Char) :
    telegramHtml.Closed (renderMarkdownishToTelegramHtml text) :=
  closed_of_html (htmlLines_lines false [] (lines text) fun _ => rfl).collapseBlankLines.join

/-! What the requests carry of the HTML of a text. -/

/-- The answers of a server that accepts everything. -/
def acceptsAll : Outside where
  platformThreadId _ := ""
  body _ := .media
  createHttp _ := .ok ()
  sendPost _ := .ok ⟨200, none⟩
  sendOther _ _ := .ok ()

theorem texts_sendChunks_acceptsAll (chunks : List (List Char)) (place : Nat) (replyToMessageId : Option Int)
    (requests : Nat) :
    ((acceptsAll.sendChunks "1" "" .html place chunks replyToMessageId requests).accepted.map (·.2.text)) =
      chunks.map String.ofList := by
  induction chunks generalizing place replyToMessageId requests with
  | nil => rfl
  | cons chunk chunks ih =>
    have hpost : postTelegramMethod (acceptsAll.sendPost requests) Outside.telegramSend = .ok ⟨200, none⟩ := rfl
    have hthread : parseThreadId Outside.telegramSend "" = .ok none := rfl
    have hmode : parseModeForFormat Outside.telegramSend .html = .ok (some "HTML") := rfl
    simp only [Outside.sendChunks, hpost, hthread, hmode, List.map_cons, ih]

theorem texts_sendTextMessage_acceptsAll (text : String) :
    ((acceptsAll.sendTextMessage "1" "" text .html 0).accepted.map (·.2.text)) =
      (chunkTextByCharCount text.toList telegramMaxMessageLen).map String.ofList := by
  unfold Outside.sendTextMessage
  split
  · rename_i hempty
    simp [chunkTextByCharCount, chunkTextByCharCountWithSeparator, hempty]
  · exact texts_sendChunks_acceptsAll _ _ _ _

/-- What all requests for a text have is what all its chunks have: the text of a request does not depend on the
answers to those before it. -/
theorem forall_requests_iff (P : List Char → Prop) (text : String) :
    (∀ (o : Outside) (chatId platformThreadId : String) (requests : Nat),
      ∀ sent ∈ (o.sendTextMessage chatId platformThreadId text .html requests).accepted, P sent.2.text.toList) ↔
      ∀ chunk ∈ chunkTextByCharCount text.toList telegramMaxMessageLen, P chunk := by
  constructor
  · intro h chunk hchunk
    have hmem : String.ofList chunk ∈ (acceptsAll.sendTextMessage "1" "" text .html 0).accepted.map (·.2.text) := by
      rw [texts_sendTextMessage_acceptsAll]
      exact List.mem_map_of_mem hchunk
    obtain ⟨sent, hsent, htext⟩ := List.mem_map.mp hmem
    have hp := h acceptsAll "1" "" 0 sent hsent
    rwa [htext, String.toList_ofList] at hp
  · intro h o chatId platformThreadId requests sent hsent
    have hmem := List.mem_map_of_mem (f := fun sent : Nat × SendMessageRequest => sent.2.text) hsent
    rw [(sendTextMessage_sends text requests).texts] at hmem
    obtain ⟨chunk, hchunk, htext⟩ := List.mem_map.mp hmem
    rw [← htext, String.toList_ofList]
    exact h chunk (List.mem_of_mem_take hchunk)

/-- What is asked of the text of a request. -/
def Sendable (text : List Char) : Prop := text.length ≤ telegramMaxMessageLen ∧ telegramHtml.WellFormed text

theorem sendable_chunks_iff {html : List Char} (h : telegramHtml.WellFormed html) :
    (∀ chunk ∈ chunkTextByCharCount html telegramMaxMessageLen, Sendable chunk) ↔
      ∀ n ∈ cutPlaces html telegramMaxMessageLen, telegramHtml.ClosedAt html n := by
  obtain ⟨hlength, hvisible, hends⟩ := chunks_spec (show telegramMaxMessageLen ≠ 0 by decide) html
  have hchunks : (∀ chunk ∈ chunkTextByCharCount html telegramMaxMessageLen, Sendable chunk) ↔
      ∀ chunk ∈ chunkTextByCharCount html telegramMaxMessageLen, telegramHtml.WellFormed chunk :=
    ⟨fun hall chunk hchunk => (hall chunk hchunk).2, fun hall chunk hchunk => ⟨hlength chunk hchunk, hall chunk hchunk⟩⟩
  have hlast : telegramHtml.ClosedAt html (visible html).length := by
    rw [Dialect.ClosedAt, show telegramHtml.visible html = visible html from rfl, List.take_length]
    exact (Dialect.wellFormed_visible (g := telegramHtml) html).mpr h
  have hparts := Dialect.wellFormed_parts_iff (g := telegramHtml) hvisible
  rw [show telegramHtml.visible = visible from rfl] at hparts
  rw [hchunks, hparts]
  rcases hends with hends | hends
  · rw [hends]
  · rw [hends, List.forall_mem_append]
    exact and_iff_left (by simpa using hlast)

/-- Only Markdown is rendered to HTML. -/
theorem normalizeTextBody_html {formats : List TextFormat} {text content : String} {format : TextFormat}
    (hformat : format = .markdown ∨ format = .richText)
    (h : (normalizeTextBody formats text format content).format = .html) :
    (normalizeTextBody formats text format content).text =
      renderMarkdownishToTelegramHtml (normalizeTextSource text content) := by
  unfold normalizeTextBody at h ⊢
  dsimp only at h ⊢
  by_cases hsource : normalizeTextSource text content = []
  · rw [if_pos hsource] at h
    cases h
  · rw [if_neg hsource] at h ⊢
    rcases hformat with rfl | rfl
    · dsimp only at h ⊢
      split at h
      · cases h
      · rename_i hmarkdown
        rw [if_neg hmarkdown]
        split at h
        · rename_i hhtml
          rw [if_pos hhtml]
        · cases h
    · dsimp only [normalizeRichText] at h
      split at h
      · cases h
      · cases h

/-- The requests for a rendered text are short enough, and each is well-formed on its own exactly when no cut falls
into an element, a tag or an entity. -/
theorem requests_sendable_iff (formats : List TextFormat) (text content : String) (format : TextFormat)
    (hformat : format = .markdown ∨ format = .richText)
    (hhtml : (normalizeTextBody formats text format content).format = .html) :
    let html := (normalizeTextBody formats text format content).text
    (∀ (o : Outside) (chatId platformThreadId : String) (requests : Nat),
      ∀ sent ∈ (o.sendTextMessage chatId platformThreadId (String.ofList html) .html requests).accepted,
        Sendable sent.2.text.toList) ↔
      ∀ n ∈ cutPlaces html telegramMaxMessageLen, telegramHtml.ClosedAt html n := by
  dsimp only
  rw [forall_requests_iff, String.toList_ofList, normalizeTextBody_html hformat hhtml]
  exact sendable_chunks_iff (closed_renderMarkdownishToTelegramHtml _).wellFormed

theorem one_word_sendable :
    let html := (normalizeTextBody [.plain, .html] "a" .markdown "").text
    (∀ (o : Outside) (chatId platformThreadId : String) (requests : Nat),
      ∀ sent ∈ (o.sendTextMessage chatId platformThreadId (String.ofList html) .html requests).accepted,
        Sendable sent.2.text.toList) ↔
      ∀ n ∈ cutPlaces html telegramMaxMessageLen, telegramHtml.ClosedAt html n :=
  requests_sendable_iff [.plain, .html] "a" "" .markdown (.inl rfl) rfl

/-! A code block with two paragraphs of which only one fits into a request. -/

def fence : List Char := "```".toList

def codeBlock (n : Nat) : String :=
  String.ofList (fence ++ '\n' :: (List.replicate n 'a' ++ '\n' :: ([] ++ '\n' :: (List.replicate n 'b' ++ '\n' :: fence))))

theorem lines_codeBlock (n : Nat) :
    lines (codeBlock n).toList = [fence, List.replicate n 'a', [], List.replicate n 'b', fence] := by
  have hfence : '\n' ∉ fence := by decide
  have hsplit : (codeBlock n).toList.splitOn '\n' = [fence, List.replicate n 'a', [], List.replicate n 'b', fence] := by
    rw [codeBlock, String.toList_ofList, List.splitOn_append_cons_self_of_not_mem hfence,
      List.splitOn_append_cons_self_of_not_mem (by simp), List.splitOn_append_cons_self_of_not_mem (by simp),
      List.splitOn_append_cons_self_of_not_mem (by simp), List.splitOn_eq_singleton hfence]
  have hkeep {c : Char} (hc : c ≠ '\r') : dropCarriageReturn (List.replicate n c) = List.replicate n c := by
    have hlast : (List.replicate n c).getLast? ≠ some '\r' := by
      intro hlast
      exact hc (List.eq_of_mem_replicate (List.mem_of_getLast? hlast)).symm
    exact if_neg hlast
  have hfirst : dropCarriageReturn fence = fence := by decide
  have hempty : dropCarriageReturn [] = [] := rfl
  rw [lines, hsplit]
  simp [hkeep, hfirst, hempty]
  decide

/-- The text in front of the cut and the text behind it. -/
@[grind =] def firstHalf (n : Nat) : List Char := "<pre>".toList ++ List.replicate n 'a'

def secondHalf (n : Nat) : List Char := List.replicate n 'b' ++ "</pre>".toList

theorem escapeHtmlText_eq {text : List Char} (h : ∀ c ∈ text, c ≠ '&' ∧ c ≠ '<' ∧ c ≠ '>' ∧ c ≠ '"') :
    escapeHtmlText text = text := by
  induction text with
  | nil => rfl
  | cons c text ih =>
    obtain ⟨hamp, hopen, hclose, hquote⟩ := h c (by simp)
    rw [escapeHtmlText, List.flatMap_cons, ← escapeHtmlText, ih fun d hd => h d (by simp [hd])]
    simp [pushEscapedHtmlChar, hamp, hopen, hclose, hquote]

theorem preformatted_codeBlock (n : Nat) :
    preformatted [List.replicate n 'a', [], List.replicate n 'b'] = firstHalf n ++ (['\n', '\n'] ++ secondHalf n) := by
  have hjoin : joinLines [List.replicate n 'a', [], List.replicate n 'b'] =
      List.replicate n 'a' ++ (['\n', '\n'] ++ List.replicate n 'b') := by
    simp [joinLines, List.intercalate]
  have hescape : escapeHtmlText (List.replicate n 'a' ++ (['\n', '\n'] ++ List.replicate n 'b')) =
      List.replicate n 'a' ++ (['\n', '\n'] ++ List.replicate n 'b') := by
    apply escapeHtmlText_eq
    intro c hc
    simp only [List.mem_append, List.mem_replicate, List.mem_cons, List.not_mem_nil, or_false] at hc
    rcases hc with ⟨-, rfl⟩ | (rfl | rfl) | ⟨-, rfl⟩
    all_goals decide
  rw [preformatted, hjoin, hescape]
  simp [htmlElement, firstHalf, secondHalf]

theorem collapseBlankLines_singleton (h : isBlank line = false) : collapseBlankLines [line] = [line] := by
  simp [collapseBlankLines, dropRepeatedBlanks, List.rdropWhile, h]

theorem render_codeBlock (hn : n ≠ 0) :
    renderMarkdownishToTelegramHtml (codeBlock n).toList = firstHalf n ++ (['\n', '\n'] ++ secondHalf n) := by
  obtain ⟨n, rfl⟩ := Nat.exists_eq_succ_of_ne_zero hn
  have hkeep {c : Char} (hc : isWhitespace c = false) :
      trimEnd (List.replicate (n + 1) c) = List.replicate (n + 1) c ∧
        trimStart (List.replicate (n + 1) c) = List.replicate (n + 1) c := by
    constructor
    · apply rdropWhile_eq_self_of_last
      simpa [List.getLast?_replicate] using hc
    · apply dropWhile_eq_self_of_head
      simpa [List.replicate_succ] using hc
  obtain ⟨haEnd, haStart⟩ := hkeep (show isWhitespace 'a' = false by decide)
  obtain ⟨hbEnd, hbStart⟩ := hkeep (show isWhitespace 'b' = false by decide)
  have ha : startsWith (List.replicate (n + 1) 'a') "```".toList = false := rfl
  have hb : startsWith (List.replicate (n + 1) 'b') "```".toList = false := rfl
  have hfence : startsWith (trimStart (trimEnd fence)) "```".toList = true := by decide
  have hempty : startsWith (trimStart []) "```".toList = false := by decide
  have htrimEmpty : trimEnd [] = [] := rfl
  have hlines : htmlLines false [] (lines (codeBlock (n + 1)).toList) =
      [firstHalf (n + 1) ++ (['\n', '\n'] ++ secondHalf (n + 1))] := by
    rw [lines_codeBlock, ← preformatted_codeBlock]
    simp only [htmlLines, hfence, hempty, htrimEmpty, haEnd, haStart, hbEnd, hbStart, ha, hb, if_true, Bool.false_eq_true,
      if_false, List.nil_append, List.cons_append]
  have hblank : isBlank (firstHalf (n + 1) ++ (['\n', '\n'] ++ secondHalf (n + 1))) = false := by
    obtain ⟨rest, hrest, -⟩ := exists_trim_cons (show isWhitespace '<' = false by decide)
      ("pre>".toList ++ List.replicate (n + 1) 'a' ++ (['\n', '\n'] ++ secondHalf (n + 1)))
    have hcons : firstHalf (n + 1) ++ (['\n', '\n'] ++ secondHalf (n + 1)) =
        '<' :: ("pre>".toList ++ List.replicate (n + 1) 'a' ++ (['\n', '\n'] ++ secondHalf (n + 1))) := by
      simp [firstHalf]
    rw [isBlank, hcons, hrest]
    rfl
  rw [renderMarkdownishToTelegramHtml, hlines, collapseBlankLines_singleton hblank]
  exact List.flatten_singleton

theorem ends_firstHalf (hn : n ≠ 0) : (firstHalf n).head? = some '<' ∧ (firstHalf n).getLast? = some 'a' := by
  refine ⟨rfl, ?_⟩
  rw [firstHalf, List.getLast?_append, List.getLast?_replicate, if_neg hn]
  rfl

theorem ends_secondHalf (hn : n ≠ 0) : (secondHalf n).head? = some 'b' ∧ (secondHalf n).getLast? = some '>' := by
  obtain ⟨n, rfl⟩ := Nat.exists_eq_succ_of_ne_zero hn
  refine ⟨rfl, ?_⟩
  rw [secondHalf, List.getLast?_append]
  rfl

theorem trim_eq_self_of_ends {s : List Char} {first last : Char} (hhead : s.head? = some first)
    (hlast : s.getLast? = some last) (hfirst : isWhitespace first = false) (hend : isWhitespace last = false) :
    trim s = s := by
  apply trimEnds_eq_self
  · rw [hhead]
    simpa using hfirst
  · rw [hlast]
    simpa using hend

theorem chunks_codeBlock {n maxChars : Nat} (hn : n ≠ 0) (hle : n + 6 ≤ maxChars) (hlt : maxChars < n + n + 13) :
    chunkTextByCharCount (renderMarkdownishToTelegramHtml (codeBlock n).toList) maxChars = [firstHalf n, secondHalf n] := by
  obtain ⟨hopen, hacc⟩ := ends_firstHalf hn
  obtain ⟨hbcc, hclose⟩ := ends_secondHalf hn
  have hlast : (firstHalf n ++ (['\n', '\n'] ++ secondHalf n)).getLast? = some '>' := by
    rw [List.getLast?_append, List.getLast?_append, hclose]
    rfl
  rw [render_codeBlock hn]
  apply chunkTextByCharCount_pair
  · simp [firstHalf]
  · simp [secondHalf]
  · simp [firstHalf]
  · simp [secondHalf]
  · exact trim_eq_self_of_ends hopen hacc (by decide) (by decide)
  · exact trim_eq_self_of_ends hbcc hclose (by decide) (by decide)
  · have hhead : (firstHalf n ++ (['\n', '\n'] ++ secondHalf n)).head? = some '<' := rfl
    exact trim_eq_self_of_ends hhead hlast (by decide) (by decide)
  · simp only [firstHalf, List.length_append, List.length_replicate, show "<pre>".toList.length = 5 by decide]
    omega
  · simp only [secondHalf, List.length_append, List.length_replicate, show "</pre>".toList.length = 6 by decide]
    omega
  · simp only [firstHalf, secondHalf, List.length_append, List.length_replicate,
      show "<pre>".toList.length = 5 by decide, show "</pre>".toList.length = 6 by decide]
    omega

theorem not_wellFormed_firstHalf (n : Nat) : ¬ telegramHtml.WellFormed (firstHalf n) := by
  have hplain : telegramHtml.Closed (List.replicate n 'a') := by
    apply Dialect.closed_of_plain
    intro c hc
    rw [List.eq_of_mem_replicate hc]
    decide
  have hopen : telegramHtml.run ⟨[], .text⟩ "<pre>".toList = some ⟨[.pre], .text⟩ := rfl
  rw [Dialect.WellFormed, firstHalf, Dialect.run_append, hopen, Option.bind_some, hplain]
  decide

theorem normalizeTextBody_codeBlock (n : Nat) :
    let body := normalizeTextBody [.plain, .html] (codeBlock n) .markdown ""
    body.format = .html ∧ body.text = renderMarkdownishToTelegramHtml (codeBlock n).toList := by
  have hback : (codeBlock n).toList =
      fence ++ '\n' :: (List.replicate n 'a' ++ '\n' :: ([] ++ '\n' :: (List.replicate n 'b' ++ ['\n']))) ++ fence := by
    simp [codeBlock]
  have hhead : (codeBlock n).toList.head? = some '\x60' := by
    rw [hback]
    rfl
  have hlast : (codeBlock n).toList.getLast? = some '\x60' := by
    rw [hback, List.getLast?_append]
    rfl
  have htrim := trim_eq_self_of_ends hhead hlast (by decide) (by decide)
  have hnonempty : (codeBlock n).toList ≠ [] := by simp [codeBlock]
  have hsource : normalizeTextSource (codeBlock n) "" = (codeBlock n).toList := by
    rw [normalizeTextSource, htrim, if_neg hnonempty]
  simp [normalizeTextBody, hsource, hnonempty]

theorem code_block_cut_in_two :
    ¬ ∀ (formats : List TextFormat) (text content : String) (format : TextFormat),
      format = .markdown ∨ format = .richText → (normalizeTextBody formats text format content).format = .html →
      ∀ (o : Outside) (chatId platformThreadId : String) (requests : Nat),
        ∀ sent ∈ (o.sendTextMessage chatId platformThreadId
          (String.ofList (normalizeTextBody formats text format content).text) .html requests).accepted,
          Sendable sent.2.text.toList := by
  intro h
  obtain ⟨hformat, htext⟩ := normalizeTextBody_codeBlock 3000
  have hmax : telegramMaxMessageLen = 4096 := rfl
  have hchunks := @chunks_codeBlock 3000 telegramMaxMessageLen (by omega) (by omega) (by omega)
  have hall := (forall_requests_iff Sendable _).mp (h [.plain, .html] (codeBlock 3000) "" .markdown (.inl rfl) hformat)
  rw [String.toList_ofList, htext, hchunks] at hall
  exact not_wellFormed_firstHalf 3000 (hall (firstHalf 3000) List.mem_cons_self).2

end Beetle.Channels.Telegram
