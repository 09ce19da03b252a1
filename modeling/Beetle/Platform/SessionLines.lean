import Beetle.Platform.SessionFile

/-! The lines of session files, one a message. -/
namespace Beetle.Platform.Storage
open Beetle.Lib Beetle.Memory

theorem newline_notMem_escapeChar (c : Char) : '\n' ∉ escapeChar c := by
  have hdigit : ∀ d < 16, '\n' ≠ Nat.digitChar d := by decide
  have hhex (n : Nat) : '\n' ∉ hex 4 n := fun h => by
    obtain ⟨d, hd, hc⟩ := mem_hex h
    exact hdigit d hd hc
  unfold escapeChar
  split
  case h_8 n _ _ _ _ hne _ _ =>
    split
    · intro h
      rcases List.mem_cons.mp h with h | h
      · cases h
      · rcases List.mem_cons.mp h with h | h
        · cases h
        · exact hhex _ h
    · simpa [eq_comm] using fun h : c = '\n' => hne (by rw [h]; rfl)
  case h_1 h =>
    simpa using fun hc : '\n' = c => by
      rw [← hc] at h
      cases h
  case h_2 h =>
    simpa using fun hc : '\n' = c => by
      rw [← hc] at h
      cases h
  all_goals decide

namespace StoredSessionMessage

/-- Its line in the file, without the newline. -/
def line (message : StoredSessionMessage) : Bytes := utf8 message.toJson

def Blank (message : StoredSessionMessage) : Prop :=
  isBlank message.role = true ∧ isBlank message.content = true

/-- A message that a read of its line gives back. -/
structure WellFormed (message : StoredSessionMessage) : Prop where
  fits : message.line.length ≤ maxSessionMessageLen
  notBlank : ¬ message.Blank
  named : isBlank message.messageId = false

variable (message : StoredSessionMessage)

theorem newline_notMem_toJson : '\n' ∉ message.toJson := by
  have hescape (s : String) : '\n' ∉ escape s := fun h => by
    obtain ⟨c, -, hc⟩ := List.mem_flatMap.mp h
    exact newline_notMem_escapeChar c hc
  have hfield (name value : String) : '\n' ∉ jsonField name value := by
    simp [jsonField, jsonString, hescape]
  simp [toJson, hfield]

theorem lf_notMem_line : lf ∉ message.line :=
  lf_notMem_utf8 message.newline_notMem_toJson

theorem trim_toJson : trim message.toJson = message.toJson :=
  trim_eq_self rfl rfl

theorem parseChatIdHeader_toJson : parseChatIdHeader message.toJson = none := by
  have hprefix : chatIdHeaderPrefix.isPrefixOf? message.toJson = none := rfl
  simp [parseChatIdHeader, trim_toJson, hprefix]

theorem parseJsonlLine_toJson {message : StoredSessionMessage} (h : message.WellFormed) (json : SerdeJson)
    (freshId : String) : parseJsonlLine json freshId message.toJson = .message message := by
  have hother : ¬ (message.toJson = [] ∨ message.toJson.head? = some '#') := by
    simp [toJson]
  unfold parseJsonlLine
  simp only [trim_toJson, if_neg hother, json.fromStr_toJson]
  unfold normalizeParsedMessage
  rw [if_neg (show ¬ (isBlank message.role = true ∧ isBlank message.content = true) from h.notBlank),
    if_neg (by simp [h.named])]

end StoredSessionMessage

/-- A file as the store writes it. -/
def sessionBody (writeHeader : Bool) (chatId : String) (messages : List StoredSessionMessage) : Bytes :=
  (if writeHeader then chatIdHeader chatId else []) ++ unlines (messages.map StoredSessionMessage.line)

variable {messages : List StoredSessionMessage} {cfg : SessionConfig}

theorem mapM_sessionLine_of_fits (stage : String)
    (h : ∀ message ∈ messages, message.line.length ≤ maxSessionMessageLen) :
    messages.mapM (sessionLine stage) = .ok (messages.map StoredSessionMessage.line) := by
  induction messages with
  | nil => rfl
  | cons message messages ih =>
    obtain ⟨hmessage, hrest⟩ := List.forall_mem_cons.mp h
    have hline : sessionLine stage message = .ok message.line := if_neg (Nat.not_lt.mpr hmessage)
    rw [List.mapM_cons, hline, ih hrest]
    rfl

theorem mapM_sessionLine_of_long (stage : String)
    (h : ¬ ∀ message ∈ messages, message.line.length ≤ maxSessionMessageLen) :
    ∃ text, messages.mapM (sessionLine stage) = .error (.config text stage) := by
  induction messages with
  | nil => exact absurd (by simp) h
  | cons message messages ih =>
    by_cases hlong : message.line.length > maxSessionMessageLen
    · obtain ⟨text, hline⟩ : ∃ text, sessionLine stage message = .error (.config text stage) :=
        ⟨_, if_pos hlong⟩
      exact ⟨text, by rw [List.mapM_cons, hline]; rfl⟩
    · have hline : sessionLine stage message = .ok message.line := if_neg hlong
      have hrest : ¬ ∀ message ∈ messages, message.line.length ≤ maxSessionMessageLen := fun hrest =>
        h (List.forall_mem_cons.mpr ⟨Nat.not_lt.mp hlong, hrest⟩)
      obtain ⟨text, herror⟩ := ih hrest
      exact ⟨text, by rw [List.mapM_cons, hline, herror]; rfl⟩

theorem writeSessionMessages_of_fits (chatId : String) (writeHeader : Bool)
    (h : ∀ message ∈ messages, message.line.length ≤ maxSessionMessageLen) :
    writeSessionMessages chatId writeHeader messages =
      .ok (sessionBody writeHeader chatId messages, .fromWrittenMessages messages.length
        (sessionBody writeHeader chatId messages ≠ [])) := by
  simp only [writeSessionMessages, mapM_sessionLine_of_fits "session_write" h]
  rfl

/-! Message ids have no influence on the length of a line. -/

theorem length_utf8_flatMap_escapeChar {cs : List Char}
    (h : ∀ c ∈ cs, escapeChar c = [c] ∧ (String.utf8EncodeChar c).length = 1) :
    (utf8 (cs.flatMap escapeChar)).length = cs.length := by
  induction cs with
  | nil => rfl
  | cons c cs ih =>
    obtain ⟨⟨hescape, hlength⟩, hrest⟩ := List.forall_mem_cons.mp h
    rw [List.flatMap_cons, hescape, utf8_append, List.length_append, ih hrest]
    simp [hlength, Nat.add_comm]

theorem length_utf8_escape_id (clock : Nat → Nat) (counter : Nat) :
    (utf8 (escape (nextSessionMessageId clock counter))).length = 28 := by
  have hdigit : ∀ d < 16, escapeChar (Nat.digitChar d) = [Nat.digitChar d] ∧
      (String.utf8EncodeChar (Nat.digitChar d)).length = 1 := by decide
  have hhex {width n : Nat} {c : Char} (h : c ∈ hex width n) :
      escapeChar c = [c] ∧ (String.utf8EncodeChar c).length = 1 := by
    obtain ⟨d, hd, rfl⟩ := mem_hex h
    exact hdigit d hd
  have hprefix : ∀ c ∈ sessionMessageIdPrefix, escapeChar c = [c] ∧
      (String.utf8EncodeChar c).length = 1 := by decide
  rw [escape, length_utf8_flatMap_escapeChar]
  · simp [nextSessionMessageId, sessionMessageIdPrefix]
  · intro c hc
    rw [nextSessionMessageId, String.toList_ofList] at hc
    rcases List.mem_append.mp hc with h | h
    · rcases List.mem_append.mp h with h | h
      · exact hprefix c h
      · exact hhex h
    · exact hhex h

/-- The length of the line of a message, whatever id it gets. -/
def lineLength (message : SessionMessage) : Nat :=
  (StoredSessionMessage.line ⟨nextSessionMessageId (fun _ => 0) 0, message.role, message.content⟩).length

theorem length_line_fresh (clock : Nat → Nat) (counter : Nat) (message : SessionMessage) :
    (StoredSessionMessage.line ⟨nextSessionMessageId clock counter, message.role, message.content⟩).length =
      lineLength message := by
  simp [lineLength, StoredSessionMessage.line, StoredSessionMessage.toJson, jsonField, jsonString,
    length_utf8_escape_id]

theorem length_le_escape (s : String) : s.toList.length ≤ (escape s).length := by
  unfold escape
  induction s.toList with
  | nil => simp
  | cons c cs ih =>
    have hc : 0 < (escapeChar c).length := by
      unfold escapeChar
      split <;> try simp
      split <;> simp
    simp only [List.flatMap_cons, List.length_append, List.length_cons]
    omega

theorem length_content_le_lineLength (message : SessionMessage) :
    message.content.length ≤ lineLength message := by
  have hescape := length_le_escape message.content
  have hutf8 := length_le_utf8 (escape message.content)
  simp only [lineLength, StoredSessionMessage.line, StoredSessionMessage.toJson, jsonField, jsonString,
    utf8_append, utf8_cons, List.length_append, String.length_toList, List.cons_append] at hescape ⊢
  omega

theorem isBlank_id (clock : Nat → Nat) (counter : Nat) :
    isBlank (nextSessionMessageId clock counter) = false := by
  have hws : isWhitespace 'm' = false := rfl
  simp [isBlank, nextSessionMessageId, sessionMessageIdPrefix, trim, hws]

/-- A message that is stored and read back as it is. -/
def Storable (message : SessionMessage) : Prop :=
  lineLength message ≤ maxSessionMessageLen ∧
    ¬ (isBlank message.role = true ∧ isBlank message.content = true)

section
variable (clock : Nat → Nat) (counter : Nat) (messages : List SessionMessage)

@[simp] theorem map_toSessionMessage_from :
    (fromSessionMessages clock counter messages).map (·.toSessionMessage) = messages := by
  apply List.ext_getElem
  · simp [fromSessionMessages]
  · intro i h₁ h₂
    simp [fromSessionMessages, StoredSessionMessage.toSessionMessage]

@[simp] theorem length_fromSessionMessages :
    (fromSessionMessages clock counter messages).length = messages.length := by
  simp [fromSessionMessages]

theorem mem_fromSessionMessages {stored : StoredSessionMessage}
    (h : stored ∈ fromSessionMessages clock counter messages) :
    ∃ k, ∃ message ∈ messages, stored = ⟨nextSessionMessageId clock k, message.role, message.content⟩ := by
  obtain ⟨i, hi, rfl⟩ := List.mem_mapIdx.mp h
  exact ⟨counter + i, messages[i], List.getElem_mem hi, rfl⟩

theorem forall_fits_from :
    (∀ stored ∈ fromSessionMessages clock counter messages, stored.line.length ≤ maxSessionMessageLen) ↔
      ∀ message ∈ messages, lineLength message ≤ maxSessionMessageLen := by
  have hlength : ∀ stored ∈ fromSessionMessages clock counter messages,
      stored.line.length = lineLength stored.toSessionMessage := by
    intro stored hstored
    obtain ⟨k, message, -, rfl⟩ := mem_fromSessionMessages clock counter messages hstored
    exact length_line_fresh clock k message
  constructor
  · intro h message hmessage
    rw [← map_toSessionMessage_from clock counter messages] at hmessage
    obtain ⟨stored, hstored, rfl⟩ := List.mem_map.mp hmessage
    exact (hlength stored hstored).symm.trans_le (h stored hstored)
  · intro h stored hstored
    rw [hlength stored hstored]
    refine h _ ?_
    rw [← map_toSessionMessage_from clock counter messages]
    exact List.mem_map.mpr ⟨stored, hstored, rfl⟩

theorem wellFormed_from (h : ∀ message ∈ messages, Storable message) :
    ∀ stored ∈ fromSessionMessages clock counter messages, stored.WellFormed := by
  intro stored hstored
  obtain ⟨k, message, hmessage, rfl⟩ := mem_fromSessionMessages clock counter messages hstored
  obtain ⟨hfits, hblank⟩ := h message hmessage
  exact ⟨(length_line_fresh clock k message).trans_le hfits, hblank, isBlank_id clock k⟩

end

/-! What a read of a session file that the store has written gives. -/

theorem scanLine_message {message : StoredSessionMessage} (h : message.WellFormed) (cap : Nat) (s : Scan) :
    scanLine cfg cap s message.line = { s with first := false }.push cap message := by
  have hline : message.line ≠ [] := by simp [StoredSessionMessage.line, StoredSessionMessage.toJson]
  have htext : message.toJson ≠ [] := by simp [StoredSessionMessage.toJson]
  rw [scanLine, if_neg hline]
  simp only [StoredSessionMessage.line, fromUtf8_utf8, StoredSessionMessage.trim_toJson, if_neg htext,
    StoredSessionMessage.parseChatIdHeader_toJson, Option.isSome_none, Bool.and_false,
    Bool.false_eq_true, if_false, StoredSessionMessage.parseJsonlLine_toJson h]

/-- The loop over the lines of messages keeps the last `cap` of them. -/
theorem foldl_scanLine {cap : Nat} (hwf : ∀ message ∈ messages, message.WellFormed) (hcap : 0 < cap) (s : Scan)
    (hs : s.messages.length ≤ cap) (hcount : s.messageCount ≤ maxSessionEntries) :
    (messages.map StoredSessionMessage.line).foldl (scanLine cfg cap) s =
      { messages := (s.messages ++ messages).rtake cap
        messageCount := min (s.messageCount + messages.length) maxSessionEntries
        first := s.first && messages.isEmpty
        overflowed := s.overflowed || cap < s.messages.length + messages.length
        needsRepair := s.needsRepair
        counter := s.counter } := by
  induction messages generalizing s with
  | nil =>
    simp [rtake_of_length_le hs, Nat.min_eq_left hcount, Nat.not_lt.mpr hs]
  | cons message messages ih =>
    obtain ⟨hmessage, hwf⟩ := List.forall_mem_cons.mp hwf
    rw [List.map_cons, List.foldl_cons, scanLine_message hmessage, ih hwf]
    · simp only [Scan.push, rtake_concat_of_length_le hcap hs, rtake_rtake_append le_rfl, Scan.mk.injEq,
        List.append_assoc, List.singleton_append, List.length_cons, length_rtake, List.length_append,
        List.length_nil, true_and, and_true]
      refine ⟨by omega, by simp, ?_⟩
      rw [Bool.or_assoc, ← Bool.decide_or]
      congr 1
      exact decide_eq_decide.mpr (by omega)
    · simp only [Scan.push, rtake_concat_of_length_le hcap hs, length_rtake]
      exact min_le_left _ _
    · exact min_le_right _ _

theorem isWhitespace_of_isChatIdChar {c : Char} (h : isChatIdChar c = true) : isWhitespace c = false := by
  have hnat : c.toNat = c.val.toNat := rfl
  have hrange : 45 ≤ c.toNat ∧ c.toNat ≤ 122 := by
    delta isChatIdChar Char.isAlphanum Char.isAlpha Char.isUpper Char.isLower Char.isDigit at h
    simp only [Bool.or_eq_true, Bool.and_eq_true, decide_eq_true_eq, beq_iff_eq, ge_iff_le,
      UInt32.le_iff_toNat_le, ← Char.val_inj, ← UInt32.toNat_inj] at h
    simp at h
    omega
  simp [isWhitespace]
  omega

/-- A chat id that `session_path` accepts. -/
structure ChatIdOk (chatId : String) : Prop where
  nonempty : chatId.toList ≠ []
  chars : ∀ c ∈ chatId.toList, isWhitespace c = false

theorem chatIdOk_of_sessionPath {chatId path : String} {writeHeader : Bool}
    (h : sessionPath cfg chatId = .ok (path, writeHeader)) : ChatIdOk chatId := by
  unfold sessionPath at h
  split at h
  · cases h
  · rename_i hempty
    split at h
    · cases h
    · rename_i hchars
      have hall : chatId.toList.all isChatIdChar = true := by simpa using hchars
      exact ⟨by simpa using hempty,
        fun c hc => isWhitespace_of_isChatIdChar (List.all_eq_true.mp hall c hc)⟩

/-- The header of a file as a line of it. -/
@[grind =] def headerLines (writeHeader : Bool) (chatId : String) : List Bytes :=
  if writeHeader then [utf8 (chatIdHeaderPrefix ++ chatId.toList)] else []

theorem sessionBody_eq_unlines (writeHeader : Bool) (chatId : String)
    (messages : List StoredSessionMessage) :
    sessionBody writeHeader chatId messages =
      unlines (headerLines writeHeader chatId ++ messages.map StoredSessionMessage.line) := by
  cases writeHeader with
  | false => rfl
  | true => simp [sessionBody, headerLines, chatIdHeader]

section
variable {chatId : String} (hid : ChatIdOk chatId)
include hid

theorem ChatIdOk.exists_concat : ∃ front last, chatId.toList = front ++ [last] ∧
    isWhitespace last = false := by
  obtain h | ⟨front, last, h⟩ := List.eq_nil_or_concat chatId.toList
  · exact absurd h hid.nonempty
  · rw [List.concat_eq_append] at h
    exact ⟨front, last, h, hid.chars last (by simp [h])⟩

theorem ChatIdOk.trim_ne_nil : trim chatId.toList ≠ [] := by
  obtain ⟨front, last, h, hlast⟩ := hid.exists_concat
  cases hfront : front with
  | nil => simp [trim, h, hfront, hlast]
  | cons a front =>
    have ha := hid.chars a (by simp [h, hfront])
    rw [h, hfront, trim_eq_self ha hlast]
    simp

theorem ChatIdOk.trim_header :
    trim (chatIdHeaderPrefix ++ chatId.toList) = chatIdHeaderPrefix ++ chatId.toList := by
  obtain ⟨front, last, h, hlast⟩ := hid.exists_concat
  rw [h]
  have hsharp : isWhitespace '#' = false := rfl
  change trim ('#' :: (" chat_id: ".toList ++ front) ++ [last]) = '#' :: (" chat_id: ".toList ++ front) ++ [last]
  exact trim_eq_self hsharp hlast

theorem ChatIdOk.scanLine_header (cfg : SessionConfig) (cap : Nat) {s : Scan} (hs : s.first = true) :
    scanLine cfg cap s (utf8 (chatIdHeaderPrefix ++ chatId.toList)) = { s with first := false } := by
  have htext : chatIdHeaderPrefix ++ chatId.toList ≠ [] := by simp [hid.nonempty]
  have hline : utf8 (chatIdHeaderPrefix ++ chatId.toList) ≠ [] := fun h => by
    have hback := fromUtf8_utf8 (chatIdHeaderPrefix ++ chatId.toList)
    rw [h] at hback
    exact htext (Option.some.inj hback).symm
  have hheader : (parseChatIdHeader (chatIdHeaderPrefix ++ chatId.toList)).isSome = true := by
    simp [parseChatIdHeader, hid.trim_header, isPrefixOf?_append, hid.trim_ne_nil]
  rw [scanLine, if_neg hline, fromUtf8_utf8]
  simp only [hid.trim_header, if_neg htext, hs, hheader, Bool.and_self, if_true]

theorem ChatIdOk.lf_notMem_header : lf ∉ utf8 (chatIdHeaderPrefix ++ chatId.toList) := by
  refine lf_notMem_utf8 fun h => ?_
  rcases List.mem_append.mp h with h | h
  · exact absurd h (by decide)
  · exact absurd (hid.chars _ h) (by decide)

end

theorem endsWithNewline_unlines (lines : List Bytes) :
    endsWithNewline (unlines lines) = decide (unlines lines ≠ []) := by
  cases lines with
  | nil => rfl
  | cons line lines =>
    have hlast : (unlines (line :: lines)).getLast? = some lf := getLast?_unlines (by simp)
    rw [endsWithNewline, hlast]
    simp

theorem unfinished_unlines (lines : List Bytes) : unfinished (unlines lines) = false := by
  simp [unfinished, endsWithNewline_unlines]

/-- The loop over lines of messages and what follows the last newline. -/
theorem foldl_messages {cap : Nat}
    (hwf : ∀ message ∈ messages, message.WellFormed) (hcap : 0 < cap) (first needsRepair : Bool) (counter : Nat) :
    (messages.map StoredSessionMessage.line ++ [[]]).foldl (scanLine cfg cap)
        ⟨[], 0, first, false, needsRepair, counter⟩ =
      ⟨messages.rtake cap, min messages.length maxSessionEntries, first && messages.isEmpty,
        cap < messages.length, needsRepair, counter⟩ := by
  rw [List.foldl_append, foldl_scanLine hwf hcap _ (by simp) (by simp)]
  simp [scanLine]

section
variable {chatId : String} (hid : ChatIdOk chatId) {messages : List StoredSessionMessage}
  (hwf : ∀ message ∈ messages, message.WellFormed) (cfg : SessionConfig) (writeHeader : Bool)
include hid

theorem forall_mem_lines (messages : List StoredSessionMessage) (writeHeader : Bool) :
    ∀ line ∈ headerLines writeHeader chatId ++ messages.map StoredSessionMessage.line, lf ∉ line := by
  intro line hline
  rcases List.mem_append.mp hline with h | h
  · cases writeHeader with
    | false => cases h
    | true =>
      obtain rfl : line = utf8 (chatIdHeaderPrefix ++ chatId.toList) := by simpa [headerLines] using h
      exact hid.lf_notMem_header
  · obtain ⟨message, -, rfl⟩ := List.mem_map.mp h
    exact message.lf_notMem_line

theorem splitOn_sessionBody :
    (sessionBody writeHeader chatId messages).splitOn lf =
      headerLines writeHeader chatId ++ (messages.map StoredSessionMessage.line ++ [[]]) := by
  rw [sessionBody_eq_unlines, splitOn_unlines (forall_mem_lines hid messages writeHeader),
    List.append_assoc]

include hwf

theorem foldl_sessionBody {cap : Nat} (hcap : 0 < cap) (needsRepair : Bool) (counter : Nat) :
    ∃ first, ((sessionBody writeHeader chatId messages).splitOn lf).foldl (scanLine cfg cap)
        ⟨[], 0, true, false, needsRepair, counter⟩ =
      ⟨messages.rtake cap, min messages.length maxSessionEntries, first, cap < messages.length,
        needsRepair, counter⟩ := by
  rw [splitOn_sessionBody hid, List.foldl_append]
  refine ⟨!writeHeader && messages.isEmpty, ?_⟩
  cases writeHeader with
  | false => exact foldl_messages hwf hcap true needsRepair counter
  | true =>
    rw [headerLines, if_pos rfl, List.foldl_cons, List.foldl_nil, hid.scanLine_header cfg cap rfl]
    exact foldl_messages hwf hcap false needsRepair counter

theorem scanSessionFile_sessionBody (counter : Nat) :
    scanSessionFile cfg counter (sessionBody writeHeader chatId messages) =
      (⟨messages.rtake maxSessionEntries, min maxSessionEntries messages.length,
        sessionBody writeHeader chatId messages ≠ [], sessionBody writeHeader chatId messages ≠ [],
        maxSessionEntries < messages.length⟩, counter) := by
  have hends := endsWithNewline_unlines (headerLines writeHeader chatId ++
    messages.map StoredSessionMessage.line)
  have hfinished := unfinished_unlines (headerLines writeHeader chatId ++
    messages.map StoredSessionMessage.line)
  rw [← sessionBody_eq_unlines] at hends hfinished
  obtain ⟨first, hscan⟩ := foldl_sessionBody hid hwf cfg writeHeader
    (show 0 < maxSessionEntries by decide) false counter
  simp only [scanSessionFile, hfinished, hscan, hends, length_rtake, Bool.false_or]

end

/-- A read of the recent part of the file leaves something out. -/
def Truncated (cfg : SessionConfig) (file : Bytes) : Prop :=
  ∃ maxBytes, cfg.tailMaxBytes = some maxBytes ∧ max maxBytes 1 < file.length

def fileLines (file : Bytes) : List Bytes := (file.splitOn lf).dropLast

/-- It leaves out no byte of the last `need` lines, nor of the newline before them. -/
def TailCovers (cfg : SessionConfig) (file : Bytes) (need : Nat) : Prop :=
  ∀ maxBytes, cfg.tailMaxBytes = some maxBytes → max maxBytes 1 < file.length →
    (unlines ((fileLines file).rtake need)).length < max maxBytes 1

/-- What a read of the recent part of the file shows of the messages in it. -/
structure Shows (cfg : SessionConfig) (file : Bytes) (messages shown : List StoredSessionMessage)
    (count : Nat) : Prop where
  suffix : shown <:+ messages
  covers : ∀ need ≤ messages.length, TailCovers cfg file need → shown.rtake need = messages.rtake need
  count_whole : ¬ Truncated cfg file → count = min messages.length maxSessionEntries
  count_tail : Truncated cfg file → count = if shown = [] then 0 else maxSessionEntries

section
variable {chatId : String} (hid : ChatIdOk chatId) {messages : List StoredSessionMessage}
  (hwf : ∀ message ∈ messages, message.WellFormed) (cfg : SessionConfig) (writeHeader : Bool)
include hid

/-- Where the bytes left out end within a file, and the messages after it. -/
theorem drop_sessionBody {d : Nat} (hd : d < (sessionBody writeHeader chatId messages).length) :
    ∃ shown part line, shown <:+ messages ∧ part <:+ line ∧ lf ∉ part ∧
      line :: shown.map StoredSessionMessage.line <:+ fileLines (sessionBody writeHeader chatId messages) ∧
      (sessionBody writeHeader chatId messages).drop d =
        unlines (part :: shown.map StoredSessionMessage.line) := by
  have hlines : fileLines (sessionBody writeHeader chatId messages) =
      headerLines writeHeader chatId ++ messages.map StoredSessionMessage.line := by
    rw [fileLines, splitOn_sessionBody hid, ← List.append_assoc, List.dropLast_concat]
  have hclean : ∀ line ∈ headerLines writeHeader chatId ++ messages.map StoredSessionMessage.line,
      lf ∉ line := forall_mem_lines hid messages writeHeader
  rw [hlines]
  rw [sessionBody_eq_unlines] at hd ⊢
  obtain ⟨front, line, back, hsplit, part, hpart, hdrop⟩ := drop_unlines hd
  have hback : line :: back <:+ headerLines writeHeader chatId ++
      messages.map StoredSessionMessage.line := ⟨front, hsplit.symm⟩
  have hlength : (headerLines writeHeader chatId).length ≤ 1 := by cases writeHeader <;> simp [headerLines]
  have hshort : back.length ≤ (messages.map StoredSessionMessage.line).length := by
    have h := congrArg List.length hsplit
    simp only [List.length_append, List.length_cons] at h
    omega
  have hsuffix : back <:+ messages.map StoredSessionMessage.line :=
    List.suffix_of_suffix_length_le ((List.suffix_cons line back).trans hback)
      (List.suffix_append _ _) hshort
  obtain ⟨shown, hshown, rfl⟩ := List.suffix_map_iff.mp hsuffix
  refine ⟨shown, part, line, hshown, hpart, fun h => ?_, hback, by rw [hdrop, unlines_cons]⟩
  exact hclean line (by rw [hsplit]; simp) (hpart.subset h)

include hwf

theorem scanSessionTail_recent : ∃ shown count,
    Shows cfg (sessionBody writeHeader chatId messages) messages shown count ∧
    ∀ counter limit, scanSessionTail cfg counter
        (readSessionRecentBytes cfg (sessionBody writeHeader chatId messages)).1 limit
        (readSessionRecentBytes cfg (sessionBody writeHeader chatId messages)).2 =
      (⟨shown.rtake (max 1 (min limit maxSessionEntries)), count,
        sessionBody writeHeader chatId messages ≠ [], sessionBody writeHeader chatId messages ≠ [],
        false⟩, counter) := by
  have hcap (limit : Nat) : 0 < max 1 (min limit maxSessionEntries) := by omega
  by_cases htruncated : Truncated cfg (sessionBody writeHeader chatId messages)
  · obtain ⟨maxBytes, hmax, hlong⟩ := htruncated
    have hread : readSessionRecentBytes cfg (sessionBody writeHeader chatId messages) =
        ((sessionBody writeHeader chatId messages).drop
          ((sessionBody writeHeader chatId messages).length - max maxBytes 1), true) := by
      simp [readSessionRecentBytes, hmax, Nat.min_eq_right hlong.le, Nat.sub_pos_of_lt hlong]
    have hskip : (sessionBody writeHeader chatId messages).length - max maxBytes 1 <
        (sessionBody writeHeader chatId messages).length := by omega
    obtain ⟨shown, part, line, hshown, hpart, hclean, hlines, hdrop⟩ :=
      drop_sessionBody hid writeHeader hskip
    have hlength := congrArg List.length hdrop
    rw [List.length_drop] at hlength
    refine ⟨shown, if shown = [] then 0 else maxSessionEntries, ⟨hshown, fun need hneed hcovers => ?_,
      fun h => absurd ⟨maxBytes, hmax, hlong⟩ h, fun _ => rfl⟩, fun counter limit => ?_⟩
    · by_cases hshort : need ≤ shown.length
      · exact rtake_of_suffix hshown (by omega)
      · -- the line the read starts in would be one of the last `need`
        have hin : line :: shown.map StoredSessionMessage.line <:+
            (fileLines (sessionBody writeHeader chatId messages)).rtake need := by
          refine List.suffix_of_suffix_length_le hlines (rtake_suffix _ _) ?_
          have hle := hlines.length_le
          simp only [List.length_cons, List.length_map, length_rtake] at hle ⊢
          omega
        have hlong' := length_unlines_le_of_suffix hin
        have hcovered := hcovers maxBytes hmax hlong
        have hpartle := hpart.length_le
        simp only [unlines_cons, List.length_append, List.length_cons] at hlong' hlength
        omega
    · have hsplit : (unlines (part :: shown.map StoredSessionMessage.line)).splitOn lf =
          part :: (shown.map StoredSessionMessage.line ++ [[]]) := by
        refine splitOn_unlines fun l hl => ?_
        rcases List.mem_cons.mp hl with rfl | hl
        · exact hclean
        · obtain ⟨message, -, rfl⟩ := List.mem_map.mp hl
          exact message.lf_notMem_line
      have hwfShown : ∀ message ∈ shown, message.WellFormed := fun m hm => hwf m (hshown.subset hm)
      have hbody : sessionBody writeHeader chatId messages ≠ [] := fun h => by
        rw [h] at hlong
        exact absurd hlong (Nat.not_lt_zero _)
      have hends := endsWithNewline_unlines (part :: shown.map StoredSessionMessage.line)
      have hsome : unlines (part :: shown.map StoredSessionMessage.line) ≠ [] := by simp
      have hpos : (0 < min shown.length maxSessionEntries) = (shown ≠ []) := by
        rw [Nat.lt_min, List.length_pos_iff]
        simp [maxSessionEntries]
      simp only [hread, hdrop, scanSessionTail, unfinished_unlines, hsplit, List.tail_cons, if_true,
        Bool.not_true, foldl_messages hwfShown (hcap limit), hends, hsome, hbody, Bool.true_and,
        ne_eq, not_false_eq_true, decide_true, hpos, decide_not]
      by_cases hnone : shown = []
      · simp [hnone]
      · simp [hnone]
  · refine ⟨messages, min messages.length maxSessionEntries, ⟨List.suffix_rfl, fun _ _ _ => rfl,
      fun _ => rfl, fun h => absurd h htruncated⟩, fun counter limit => ?_⟩
    have hwhole : readSessionRecentBytes cfg (sessionBody writeHeader chatId messages) =
        (sessionBody writeHeader chatId messages, false) := by
      unfold readSessionRecentBytes
      split
      · rfl
      · rename_i maxBytes hmax
        have hshort : ¬ max maxBytes 1 < (sessionBody writeHeader chatId messages).length :=
          fun h => htruncated ⟨maxBytes, hmax, h⟩
        simp [Nat.min_eq_left (Nat.not_lt.mp hshort)]
    have hends := endsWithNewline_unlines (headerLines writeHeader chatId ++
      messages.map StoredSessionMessage.line)
    have hfinished := unfinished_unlines (headerLines writeHeader chatId ++
      messages.map StoredSessionMessage.line)
    rw [← sessionBody_eq_unlines] at hends hfinished
    obtain ⟨first, hscan⟩ := foldl_sessionBody hid hwf cfg writeHeader (hcap limit) false counter
    simp only [hwhole, scanSessionTail, hfinished, Bool.not_false, Bool.false_eq_true, if_false, hscan,
      hends, Bool.false_and]

end
end Beetle.Platform.Storage
