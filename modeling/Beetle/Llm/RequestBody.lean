import Beetle.Lib.JsonSpells
import Beetle.Llm.Streaming
import Beetle.Platform.ByteBuffer
import Beetle.Util

/-! Request bodies that are put together piece by piece, up to a length. -/
namespace Beetle.Llm
open Beetle.Lib Beetle.Platform

structure LlmRequestBody where
  bytes : ByteBuffer
  maxLen : Nat

namespace LlmRequestBody

def len (body : LlmRequestBody) : Nat := body.bytes.bytes.length

def tooLargeError (maxLen : Nat) : Error := .config ("request body exceeds " ++ toString maxLen ++ " bytes") "llm_request"

def withEstimatedCapacity (alloc : Nat → Bool) (estimatedCapacity maxLen : Nat) : LlmRequestBody :=
  ⟨.withCapacity alloc (min estimatedCapacity maxLen), maxLen⟩

def finish (maxLen : Nat) (body : LlmRequestBody) : Except Error LlmRequestBody :=
  if maxLen < body.len then .error (tooLargeError maxLen) else .ok body

section
variable (alloc : Nat → Bool)

def writeAll (bytes : Bytes) (body : LlmRequestBody) : Except Error LlmRequestBody :=
  if body.maxLen < body.len + bytes.length then .error (tooLargeError body.maxLen)
  else
    match body.bytes.writeAll alloc bytes with
    | .ok buffer => .ok { body with bytes := buffer }
    | .error e => .error (.io e "llm_request")

def pushStr (value : List Char) : LlmRequestBody → Except Error LlmRequestBody := writeAll alloc (utf8 value)

def pushByte (value : UInt8) : LlmRequestBody → Except Error LlmRequestBody := writeAll alloc [value]

def pushJsonChar (ch : Char) : LlmRequestBody → Except Error LlmRequestBody :=
  match ch with
  | '"' => pushStr alloc ['\\', '"']
  | '\\' => pushStr alloc ['\\', '\\']
  | '\n' => pushStr alloc ['\\', 'n']
  | '\r' => pushStr alloc ['\\', 'r']
  | '\t' => pushStr alloc ['\\', 't']
  | '\x08' => pushStr alloc ['\\', 'b']
  | '\x0c' => pushStr alloc ['\\', 'f']
  | c =>
    if c ≤ '\x1f' then
      pushStr alloc ['\\', 'u', '0', '0'] >=> pushByte alloc (hexDigit (c.toNat / 16)).toUInt8 >=>
        pushByte alloc (hexDigit (c.toNat % 16)).toUInt8
    else pushStr alloc [c]

/-- A `for` loop of pushes. -/
def pushAll {α : Type*} (push : α → LlmRequestBody → Except Error LlmRequestBody) :
    List α → LlmRequestBody → Except Error LlmRequestBody
  | [] => pure
  | a :: items => push a >=> pushAll push items

def pushJsonString (value : List Char) : LlmRequestBody → Except Error LlmRequestBody :=
  pushByte alloc '"'.toUInt8 >=> pushAll (pushJsonChar alloc) value >=> pushByte alloc '"'.toUInt8

def pushJsonStringField (key value : List Char) : LlmRequestBody → Except Error LlmRequestBody :=
  pushByte alloc '"'.toUInt8 >=> pushStr alloc key >=> pushStr alloc ['"', ':'] >=> pushJsonString alloc value

end

/-! What a piece of the assembly writes into a body of some greatest length, if there is room for it. -/

structure Writes (maxLen : Nat) (push : LlmRequestBody → Except Error LlmRequestBody) (text : List Char) : Prop where
  fits : ∀ body, body.maxLen = maxLen → body.len + (utf8 text).length ≤ maxLen →
    ∃ body', push body = .ok body' ∧ body'.bytes.bytes = body.bytes.bytes ++ utf8 text ∧ body'.maxLen = maxLen
  exceeds : ∀ body, body.maxLen = maxLen → body.len ≤ maxLen → maxLen < body.len + (utf8 text).length →
    push body = .error (tooLargeError maxLen)

variable {maxLen : Nat} {push push' : LlmRequestBody → Except Error LlmRequestBody} {text text' : List Char}

theorem writes_writeAll (alloc : Nat → Bool) {bs : Bytes} {text : List Char} (h : utf8 text = bs) :
    Writes maxLen (writeAll alloc bs) text where
  fits := by
    intro body hmax hroom
    obtain ⟨buffer, hwrite, hbytes⟩ := ByteBuffer.writeAll_ok alloc body.bytes bs
    rw [h] at hroom ⊢
    refine ⟨{ body with bytes := buffer }, ?_, hbytes, hmax⟩
    rw [writeAll, hmax, if_neg (Nat.not_lt.mpr hroom), hwrite]
  exceeds := by
    intro body hmax _ hover
    rw [h] at hover
    rw [writeAll, hmax, if_pos hover]

theorem writes_pure : Writes maxLen pure [] where
  fits := fun body hmax _ => ⟨body, rfl, (List.append_nil _).symm, hmax⟩
  exceeds := fun _ _ hlen hover => absurd hlen (Nat.not_le.mpr hover)

theorem writes_finish : Writes maxLen (finish maxLen) [] where
  fits := fun body hmax hroom => ⟨body, if_neg (Nat.not_lt.mpr hroom), (List.append_nil _).symm, hmax⟩
  exceeds := fun _ _ hlen hover => absurd hlen (Nat.not_le.mpr hover)

theorem Writes.comp
    (h : Writes maxLen push text) (h' : Writes maxLen push' text') : Writes maxLen (push >=> push') (text ++ text') where
  fits := by
    intro body hmax hroom
    rw [utf8_append, List.length_append] at hroom
    obtain ⟨body₁, hpush, hbytes, hmax₁⟩ := h.fits body hmax (by omega)
    have hlen : body₁.len = body.len + (utf8 text).length := by rw [len, hbytes, List.length_append, len]
    obtain ⟨body₂, hpush', hbytes', hmax₂⟩ := h'.fits body₁ hmax₁ (by omega)
    refine ⟨body₂, ?_, ?_, hmax₂⟩
    · change (push body >>= push') = _
      rw [hpush]
      exact hpush'
    · rw [hbytes', hbytes, utf8_append, List.append_assoc]
  exceeds := by
    intro body hmax hlen hover
    change (push body >>= push') = _
    by_cases hroom : body.len + (utf8 text).length ≤ maxLen
    · obtain ⟨body₁, hpush, hbytes, hmax₁⟩ := h.fits body hmax hroom
      have hlen₁ : body₁.len = body.len + (utf8 text).length := by rw [len, hbytes, List.length_append, len]
      rw [utf8_append, List.length_append] at hover
      rw [hpush]
      exact h'.exceeds body₁ hmax₁ (by omega) (by omega)
    · rw [h.exceeds body hmax hlen (Nat.not_le.mp hroom)]
      rfl

theorem Writes.ite {p : Prop} [Decidable p] (h : Writes maxLen push text) (h' : Writes maxLen push' text') :
    Writes maxLen (if p then push else push') (if p then text else text') := by
  by_cases hp : p
  · rwa [if_pos hp, if_pos hp]
  · rwa [if_neg hp, if_neg hp]

theorem writes_pushAll {α : Type*} {push : α → LlmRequestBody → Except Error LlmRequestBody} {text : α → List Char}
    (h : ∀ a, Writes maxLen (push a) (text a)) (items : List α) :
    Writes maxLen (pushAll push items) (items.flatMap text) := by
  induction items with
  | nil => exact writes_pure
  | cons a items ih => exact (h a).comp ih

/-- The body that is built is the text, where that is no longer than the limit. -/
structure Encodes (limit : Nat) (build : Except Error LlmRequestBody) (text : List Char) : Prop where
  body : ∀ body, build = .ok body → body.bytes.bytes = utf8 text ∧ body.len ≤ limit
  error : (∃ e, build = .error e) ↔ limit < (utf8 text).length

theorem Writes.encodes {alloc : Nat → Bool} {push : LlmRequestBody → Except Error LlmRequestBody} {text : List Char}
    (h : Writes maxLen push text) (estimate : Nat) :
    Encodes maxLen (push (withEstimatedCapacity alloc estimate maxLen)) text := by
  have hempty : (withEstimatedCapacity alloc estimate maxLen).bytes.bytes = [] := ByteBuffer.bytes_withCapacity alloc _
  have hlen : (withEstimatedCapacity alloc estimate maxLen).len = 0 := by rw [len, hempty, List.length_nil]
  by_cases hroom : (utf8 text).length ≤ maxLen
  · obtain ⟨body, hpush, hbytes, -⟩ := h.fits (withEstimatedCapacity alloc estimate maxLen) rfl (by omega)
    rw [hempty, List.nil_append] at hbytes
    rw [hpush]
    refine ⟨?_, ⟨fun ⟨e, he⟩ => (nomatch he), fun hover => absurd hroom (Nat.not_le.mpr hover)⟩⟩
    intro body' hbody
    obtain rfl := Except.ok.inj hbody
    rw [len, hbytes]
    exact ⟨rfl, hroom⟩
  · rw [h.exceeds (withEstimatedCapacity alloc estimate maxLen) rfl (by omega) (by omega)]
    exact ⟨fun body hbody => (nomatch hbody), fun _ => Nat.not_le.mp hroom, fun _ => ⟨_, rfl⟩⟩

section
variable (alloc : Nat → Bool)

theorem writes_pushStr (value : List Char) : Writes maxLen (pushStr alloc value) value := writes_writeAll alloc rfl

theorem utf8_ascii {c : Char} (h : c.toNat < 128) : utf8 [c] = [c.toUInt8] := by
  have hsize : c.utf8Size = 1 := by
    rw [Char.utf8Size_eq_one_iff, UInt32.le_iff_toNat_le]
    exact Nat.le_of_lt_succ h
  rw [utf8_cons, utf8_nil, List.append_nil, String.utf8EncodeChar_eq_singleton hsize]
  rfl

theorem writes_pushByte (c : Char) (h : c.toNat < 128) : Writes maxLen (pushByte alloc c.toUInt8) [c] :=
  writes_writeAll alloc (utf8_ascii h)

theorem ascii_hexDigit (n : Nat) : (hexDigit n).toNat < 128 := by
  have hdigits : ∀ c ∈ "0123456789abcdef".toList, c.toNat < 128 := by decide
  unfold hexDigit
  rw [List.getD_eq_getElem?_getD]
  cases hget : "0123456789abcdef".toList[n]? with
  | none => decide
  | some c => exact hdigits c (List.mem_of_getElem? hget)

theorem pushJsonChar_of_notMem {ch : Char} (h : ch ∉ shortEscaped) : pushJsonChar alloc ch =
    if ch ≤ '\x1f' then
      pushStr alloc ['\\', 'u', '0', '0'] >=> pushByte alloc (hexDigit (ch.toNat / 16)).toUInt8 >=>
        pushByte alloc (hexDigit (ch.toNat % 16)).toUInt8
    else pushStr alloc [ch] := by
  unfold pushJsonChar
  split
  case h_8 => rfl
  all_goals exact absurd (by decide) h

theorem writes_pushJsonChar (ch : Char) : Writes maxLen (pushJsonChar alloc ch) (Json.escapeChar ch) := by
  rw [← jsonEscapedChar_eq]
  by_cases hshort : ch ∈ shortEscaped
  · simp only [shortEscaped, List.mem_cons, List.not_mem_nil, or_false] at hshort
    rcases hshort with rfl | rfl | rfl | rfl | rfl | rfl | rfl
    all_goals exact writes_pushStr alloc _
  · rw [jsonEscapedChar_of_notMem hshort, pushJsonChar_of_notMem alloc hshort]
    split
    · exact (writes_pushStr alloc ['\\', 'u', '0', '0']).comp
        ((writes_pushByte alloc _ (ascii_hexDigit _)).comp (writes_pushByte alloc _ (ascii_hexDigit _)))
    · exact writes_pushStr alloc [ch]

/-- The literal that serde would write. -/
theorem writes_pushJsonString (value : List Char) : Writes maxLen (pushJsonString alloc value) (Json.printString value) :=
  (writes_pushByte alloc '"' (by decide)).comp ((writes_pushAll (writes_pushJsonChar alloc) value).comp
    (writes_pushByte alloc '"' (by decide)))

end

end LlmRequestBody

end Beetle.Llm

/-! The request bodies of both providers, and the JSON that they mean. -/
namespace Beetle.Llm
open Beetle.Lib Beetle.Lib.Json LlmRequestBody

/-- `MAX_REQUEST_BODY_LEN`. -/
def Target.maxRequestBodyLen : Target → Nat
  | esp => 512 * 1024
  | host => 2 * 1024 * 1024

def utf8Len (text : List Char) : Nat := (utf8 text).length

section
variable (alloc : Nat → Bool)

/-- A loop with a comma before each item but the first one; `wrote_any` is `idx > 0` where items are counted. -/
def pushSeparated {α : Type*} (push : α → LlmRequestBody → Except Error LlmRequestBody) :
    Bool → List α → LlmRequestBody → Except Error LlmRequestBody
  | _, [] => pure
  | wroteAny, a :: items =>
    (if wroteAny then pushByte alloc ','.toUInt8 else pure) >=> push a >=> pushSeparated push true items

def pushMessage (message : Message) : LlmRequestBody → Except Error LlmRequestBody :=
  pushByte alloc '\x7b'.toUInt8 >=> pushJsonStringField alloc "role".toList message.role >=>
    pushByte alloc ','.toUInt8 >=> pushJsonStringField alloc "content".toList message.content >=>
    pushByte alloc '\x7d'.toUInt8

/-- The estimate both providers make, with what each allows for a tool. -/
def estimatedCapacity (toolExtra : Nat) (model system : List Char) (messages : List Message)
    (tools : Option (List ToolSpec)) : Nat :=
  utf8Len model + utf8Len system + (messages.map fun m => utf8Len m.role + utf8Len m.content + 32).sum +
    (tools.map fun items => (items.map fun tool =>
      utf8Len tool.name + utf8Len tool.description + utf8Len tool.parametersJson + toolExtra).sum).getD 0 + 128

end

namespace OpenAi
variable (alloc : Nat → Bool)

def pushMessagesField (system : List Char) (messages : List Message) : LlmRequestBody → Except Error LlmRequestBody :=
  pushStr alloc "\"messages\":[".toList >=>
    (if system ≠ [] then pushMessage alloc ⟨"system".toList, system⟩ else pure) >=>
    pushSeparated alloc (pushMessage alloc) (system ≠ []) messages >=> pushByte alloc ']'.toUInt8

def pushTool (tool : ToolSpec) : LlmRequestBody → Except Error LlmRequestBody :=
  pushStr alloc "\x7b\"type\":\"function\",\"function\":\x7b".toList >=>
    pushJsonStringField alloc "name".toList tool.name >=> pushByte alloc ','.toUInt8 >=>
    pushJsonStringField alloc "description".toList tool.description >=>
    pushStr alloc ",\"parameters\":".toList >=> pushStr alloc tool.parametersJson >=> pushStr alloc "\x7d\x7d".toList

def pushToolsField (tools : List ToolSpec) : LlmRequestBody → Except Error LlmRequestBody :=
  pushStr alloc ",\"tools\":[".toList >=> pushSeparated alloc (pushTool alloc) false tools >=> pushByte alloc ']'.toUInt8

variable (target : Target) (model : List Char) (maxTokens : UInt32) (system : List Char) (messages : List Message)
  (tools : Option (List ToolSpec)) (toolChoice : ToolChoicePolicy) (stream : Bool)

def buildRequestBody : Except Error LlmRequestBody :=
  (pushByte alloc '\x7b'.toUInt8 >=> pushJsonStringField alloc "model".toList model >=>
    pushStr alloc ",\"max_tokens\":".toList >=> pushStr alloc (usizeToDecimalBuf 20 maxTokens.toNat) >=>
    pushByte alloc ','.toUInt8 >=> pushMessagesField alloc system messages >=>
    (if tools.getD [] ≠ [] then pushToolsField alloc (tools.getD []) else pure) >=>
    (if tools.getD [] ≠ [] ∧ toolChoice = .require then pushStr alloc ",\"tool_choice\":\"required\"".toList else pure) >=>
    (if stream then pushStr alloc ",\"stream\":true".toList else pure) >=> pushByte alloc '\x7d'.toUInt8 >=>
    finish target.maxRequestBodyLen)
  (.withEstimatedCapacity alloc (estimatedCapacity 64 model system messages tools) target.maxRequestBodyLen)

end OpenAi

namespace Anthropic
variable (alloc : Nat → Bool)

def pushMessagesField (messages : List Message) : LlmRequestBody → Except Error LlmRequestBody :=
  pushStr alloc "\"messages\":[".toList >=> pushSeparated alloc (pushMessage alloc) false messages >=>
    pushByte alloc ']'.toUInt8

def pushTool (tool : ToolSpec) : LlmRequestBody → Except Error LlmRequestBody :=
  pushByte alloc '\x7b'.toUInt8 >=> pushJsonStringField alloc "name".toList tool.name >=> pushByte alloc ','.toUInt8 >=>
    pushJsonStringField alloc "description".toList tool.description >=>
    pushStr alloc ",\"input_schema\":".toList >=> pushStr alloc tool.parametersJson >=> pushByte alloc '\x7d'.toUInt8

def pushToolsField (tools : List ToolSpec) : LlmRequestBody → Except Error LlmRequestBody :=
  pushStr alloc ",\"tools\":[".toList >=> pushSeparated alloc (pushTool alloc) false tools >=> pushByte alloc ']'.toUInt8

variable (target : Target) (model : List Char) (maxTokens : UInt32) (system : List Char) (messages : List Message)
  (tools : Option (List ToolSpec)) (toolChoice : ToolChoicePolicy) (stream : Bool)

def buildRequestBody : Except Error LlmRequestBody :=
  (pushByte alloc '\x7b'.toUInt8 >=> pushJsonStringField alloc "model".toList model >=>
    pushStr alloc ",\"max_tokens\":".toList >=> pushStr alloc (usizeToDecimalBuf 20 maxTokens.toNat) >=>
    (if system ≠ [] then pushByte alloc ','.toUInt8 >=> pushJsonStringField alloc "system".toList system else pure) >=>
    pushByte alloc ','.toUInt8 >=> pushMessagesField alloc messages >=>
    (if tools.getD [] ≠ [] then pushToolsField alloc (tools.getD []) else pure) >=>
    (if tools.getD [] ≠ [] ∧ toolChoice = .require then
      pushStr alloc ",\"tool_choice\":\x7b\"type\":\"any\"\x7d".toList else pure) >=>
    (if stream then pushStr alloc ",\"stream\":true".toList else pure) >=> pushByte alloc '\x7d'.toUInt8 >=>
    finish target.maxRequestBodyLen)
  (.withEstimatedCapacity alloc (estimatedCapacity 48 model system messages tools) target.maxRequestBodyLen)

end Anthropic

/-! What the bodies mean. -/

def Message.written (message : Message) : Written :=
  .object [("role".toList, .string message.role), ("content".toList, .string message.content)]

theorem Message.ok_written {depth : Nat} (message : Message) : (written message).Ok (depth + 1) := by
  refine Written.ok_object fun m hm => ?_
  simp only [List.mem_cons, List.not_mem_nil, or_false] at hm
  rcases hm with rfl | rfl
  · exact Written.ok_string _
  · exact Written.ok_string _

theorem memberText_eq {key keyText : List Char} (h : printString key ++ [':'] = keyText) (text : List Char) :
    memberText key text = keyText ++ text := by
  rw [← h, memberText, List.append_assoc, List.singleton_append]

section
variable {maxLen : Nat} (alloc : Nat → Bool)

theorem writes_field (key : List Char) (hkey : printString key ++ [':'] = '"' :: (key ++ ['"', ':'])) (value : List Char) :
    Writes maxLen (pushJsonStringField alloc key value) (memberText key (printString value)) := by
  rw [memberText_eq hkey, List.cons_append, List.append_assoc]
  exact (writes_pushByte alloc '"' (by decide)).comp ((writes_pushStr alloc key).comp
    ((writes_pushStr alloc _).comp (writes_pushJsonString alloc value)))

theorem writes_pushMessage (message : Message) : Writes maxLen (pushMessage alloc message) message.written.text := by
  have htext : message.written.text = ['\x7b'] ++ (memberText "role".toList (printString message.role) ++ ([','] ++
      (memberText "content".toList (printString message.content) ++ ['\x7d']))) := by
    simp [Message.written, Written.object, Written.membersText, Written.string]
  rw [htext]
  exact (writes_pushByte alloc '\x7b' (by decide)).comp ((writes_field alloc _ (by decide) message.role).comp
    ((writes_pushByte alloc ',' (by decide)).comp ((writes_field alloc _ (by decide) message.content).comp
      (writes_pushByte alloc '\x7d' (by decide)))))

theorem writes_pushSeparated {α : Type*} {push : α → LlmRequestBody → Except Error LlmRequestBody} {written : α → Written}
    (h : ∀ a, Writes maxLen (push a) (written a).text) (wroteAny : Bool) (items : List α) :
    Writes maxLen (pushSeparated alloc push wroteAny items)
      (if wroteAny then (items.map written).flatMap (',' :: ·.text) else Written.itemsText (items.map written)) := by
  induction items generalizing wroteAny with
  | nil =>
    cases wroteAny
    · exact writes_pure
    · exact writes_pure
  | cons a items ih =>
    have hrest := ih true
    rw [if_pos rfl] at hrest
    cases wroteAny with
    | false => exact writes_pure.comp ((h a).comp hrest)
    | true => exact (writes_pushByte alloc ',' (by decide)).comp ((h a).comp hrest)

end

theorem flatMap_option {α β : Type*} {p : Prop} [Decidable p] (a : α) (f : α → List β) :
    (if p then [a] else []).flatMap f = if p then f a else [] := by
  by_cases hp : p
  · rw [if_pos hp, if_pos hp, List.flatMap_singleton]
  · rw [if_neg hp, if_neg hp, List.flatMap_nil]

/-- The members of an object from the second one on. -/
@[grind =]
def moreText (members : List (List Char × Written)) : List Char := members.flatMap fun m => ',' :: memberText m.1 m.2.text

theorem text_object (member : List Char × Written) (members : List (List Char × Written)) :
    (Written.object (member :: members)).text =
      ['\x7b'] ++ (memberText member.1 member.2.text ++ (moreText members ++ ['\x7d'])) := by
  rw [Written.object, Written.membersText, moreText, List.cons_append, List.append_assoc]
  rfl

theorem moreText_append (a b : List (List Char × Written)) : moreText (a ++ b) = moreText a ++ moreText b :=
  List.flatMap_append

theorem text_messages (items : List Written) :
    memberText "messages".toList (Written.array items).text = "\"messages\":[".toList ++ (Written.itemsText items ++ [']']) := by
  have hopen : "\"messages\":[".toList = printString "messages".toList ++ [':'] ++ ['['] := by decide
  rw [hopen]
  simp [memberText, Written.array]

theorem text_maxTokens (maxTokens : UInt32) : ',' :: memberText "max_tokens".toList (Written.number maxTokens.toNat).text =
    ",\"max_tokens\":".toList ++ usizeToDecimalBuf 20 maxTokens.toNat := by
  have hopen : ",\"max_tokens\":".toList = ',' :: (printString "max_tokens".toList ++ [':']) := by decide
  rw [hopen, usizeToDecimalBuf_eq (maxTokens.toNat_lt.trans (by decide))]
  simp [memberText, Written.number]

section
variable {maxLen : Nat} (alloc : Nat → Bool) (tools : Option (List ToolSpec)) (toolChoice : ToolChoicePolicy)

theorem writes_stream (stream : Bool) : Writes maxLen (if stream then pushStr alloc ",\"stream\":true".toList else pure)
    (moreText (if stream then [("stream".toList, .true)] else [])) := by
  have htext : ',' :: memberText "stream".toList Written.true.text = ",\"stream\":true".toList := by decide
  rw [moreText, flatMap_option, htext]
  exact (writes_pushStr alloc _).ite writes_pure

theorem writes_toolChoice {text : List Char} {choice : Written} (h : ',' :: memberText "tool_choice".toList choice.text = text) :
    Writes maxLen (if tools.getD [] ≠ [] ∧ toolChoice = .require then pushStr alloc text else pure)
      (moreText (if tools.getD [] ≠ [] ∧ toolChoice = .require then [("tool_choice".toList, choice)] else [])) := by
  rw [moreText, flatMap_option, h]
  exact (writes_pushStr alloc _).ite writes_pure

theorem writes_tools {pushTool : ToolSpec → LlmRequestBody → Except Error LlmRequestBody} {written : ToolSpec → Written}
    (h : ∀ tool, Writes maxLen (pushTool tool) (written tool).text) : Writes maxLen
    (if tools.getD [] ≠ [] then pushStr alloc ",\"tools\":[".toList >=>
      pushSeparated alloc pushTool false (tools.getD []) >=> pushByte alloc ']'.toUInt8 else pure)
    (moreText (if tools.getD [] ≠ [] then [("tools".toList, .array ((tools.getD []).map written))] else [])) := by
  have hopen : ",\"tools\":[".toList = ',' :: (printString "tools".toList ++ [':'] ++ ['[']) := by decide
  have htext : ',' :: memberText "tools".toList (Written.array ((tools.getD []).map written)).text =
      ",\"tools\":[".toList ++ (Written.itemsText ((tools.getD []).map written) ++ [']']) := by
    rw [hopen]
    simp [memberText, Written.array]
  have hitems : Writes maxLen _ _ := writes_pushSeparated alloc h false (tools.getD [])
  rw [moreText, flatMap_option, htext]
  exact ((writes_pushStr alloc _).comp (hitems.comp (writes_pushByte alloc ']' (by decide)))).ite writes_pure

end

theorem ok_map {α : Type*} {written : α → Written} {items : List α} {depth : Nat}
    (h : ∀ a ∈ items, (written a).Ok depth) : (Written.array (items.map written)).Ok (depth + 1) := by
  refine Written.ok_array fun item hitem => ?_
  obtain ⟨a, ha, rfl⟩ := List.mem_map.mp hitem
  exact h a ha

namespace OpenAi

def writtenTool (schema : ToolSpec → Json) (tool : ToolSpec) : Written :=
  .object [("type".toList, .string "function".toList), ("function".toList, .object
    [("name".toList, .string tool.name), ("description".toList, .string tool.description),
      ("parameters".toList, ⟨tool.parametersJson, schema tool⟩)])]

def systemMessages (system : List Char) : List Message := if system ≠ [] then [⟨"system".toList, system⟩] else []

section
variable {maxLen : Nat} (alloc : Nat → Bool) (schema : ToolSpec → Json)

theorem writes_pushTool (tool : ToolSpec) : Writes maxLen (pushTool alloc tool) (writtenTool schema tool).text := by
  have htext : (writtenTool schema tool).text = "\x7b\"type\":\"function\",\"function\":\x7b".toList ++
      (memberText "name".toList (printString tool.name) ++ ([','] ++
        (memberText "description".toList (printString tool.description) ++ (",\"parameters\":".toList ++
          (tool.parametersJson ++ "\x7d\x7d".toList))))) := by
    have hopen : "\x7b\"type\":\"function\",\"function\":\x7b".toList =
        ['\x7b'] ++ (memberText "type".toList (printString "function".toList) ++
          (',' :: (printString "function".toList ++ [':'] ++ ['\x7b']))) := by decide
    have hparameters : ",\"parameters\":".toList = ',' :: (printString "parameters".toList ++ [':']) := by decide
    have hclose : "\x7d\x7d".toList = ['\x7d'] ++ ['\x7d'] := rfl
    rw [hopen, hparameters, hclose, writtenTool, text_object]
    simp [moreText, Written.object, Written.membersText, Written.string, memberText]
  rw [htext]
  exact (writes_pushStr alloc _).comp ((writes_field alloc _ (by decide) tool.name).comp
    ((writes_pushByte alloc ',' (by decide)).comp ((writes_field alloc _ (by decide) tool.description).comp
      ((writes_pushStr alloc _).comp ((writes_pushStr alloc tool.parametersJson).comp (writes_pushStr alloc _))))))

theorem writes_pushMessagesField (system : List Char) (messages : List Message) :
    Writes maxLen (pushMessagesField alloc system messages)
      (memberText "messages".toList (Written.array ((systemMessages system ++ messages).map Message.written)).text) := by
  rw [text_messages]
  unfold pushMessagesField systemMessages
  by_cases hsystem : system = []
  · have hitems : Writes maxLen _ _ := writes_pushSeparated alloc (writes_pushMessage alloc) false messages
    simp only [hsystem, ne_eq, not_true, if_false, decide_false]
    exact (writes_pushStr alloc _).comp (writes_pure.comp (hitems.comp (writes_pushByte alloc ']' (by decide))))
  · have hitems : Writes maxLen _ _ := writes_pushSeparated alloc (writes_pushMessage alloc) true messages
    simp only [hsystem, ne_eq, not_false_iff, if_true, decide_true, List.singleton_append, List.map_cons]
    rw [Written.itemsText, List.append_assoc]
    exact (writes_pushStr alloc _).comp ((writes_pushMessage alloc _).comp
      (hitems.comp (writes_pushByte alloc ']' (by decide))))

variable (target : Target) (model : List Char) (maxTokens : UInt32) (system : List Char) (messages : List Message)
  (tools : Option (List ToolSpec)) (toolChoice : ToolChoicePolicy) (stream : Bool)

/-- The request that the body says. -/
def request : Written := .object
  (("model".toList, .string model) :: ([("max_tokens".toList, .number maxTokens.toNat),
    ("messages".toList, .array ((systemMessages system ++ messages).map Message.written))] ++
    (if tools.getD [] ≠ [] then [("tools".toList, .array ((tools.getD []).map (writtenTool schema)))] else []) ++
    (if tools.getD [] ≠ [] ∧ toolChoice = .require then [("tool_choice".toList, .string "required".toList)] else []) ++
    (if stream then [("stream".toList, .true)] else [])))

theorem encodes_buildRequestBody : Encodes target.maxRequestBodyLen
    (buildRequestBody alloc target model maxTokens system messages tools toolChoice stream)
    (request schema model maxTokens system messages tools toolChoice stream).text := by
  have hrequired : moreText [("max_tokens".toList, .number maxTokens.toNat),
      ("messages".toList, .array ((systemMessages system ++ messages).map Message.written))] =
      ",\"max_tokens\":".toList ++ (usizeToDecimalBuf 20 maxTokens.toNat ++ ([','] ++ memberText "messages".toList
        (Written.array ((systemMessages system ++ messages).map Message.written)).text)) := by
    rw [← List.append_assoc, ← text_maxTokens]
    simp [moreText]
  refine Writes.encodes ?_ _
  rw [request, text_object, moreText_append, moreText_append, moreText_append, hrequired]
  simp only [List.append_assoc]
  exact (writes_pushByte alloc '\x7b' (by decide)).comp ((writes_field alloc _ (by decide) model).comp
    ((writes_pushStr alloc _).comp ((writes_pushStr alloc _).comp ((writes_pushByte alloc ',' (by decide)).comp
      ((writes_pushMessagesField alloc system messages).comp ((writes_tools alloc tools (writes_pushTool alloc schema)).comp
        ((writes_toolChoice alloc tools toolChoice (by decide)).comp ((writes_stream alloc stream).comp
          ((writes_pushByte alloc '\x7d' (by decide)).comp writes_finish)))))))))

theorem ok_request {depth : Nat} (h : ∀ tool ∈ tools.getD [], Json.fromStr depth tool.parametersJson = some (schema tool)) :
    (request schema model maxTokens system messages tools toolChoice stream).Ok (depth + 4) := by
  have htool (tool : ToolSpec) (htool : tool ∈ tools.getD []) : (writtenTool schema tool).Ok (depth + 2) := by
    refine Written.ok_object fun m hm => ?_
    simp only [List.mem_cons, List.not_mem_nil, or_false] at hm
    rcases hm with rfl | rfl
    · exact Written.ok_string _
    · refine Written.ok_object fun m hm => ?_
      simp only [List.mem_cons, List.not_mem_nil, or_false] at hm
      rcases hm with rfl | rfl | rfl
      · exact Written.ok_string _
      · exact Written.ok_string _
      · exact spells_of_fromStr (h tool htool)
  refine Written.ok_object fun m hm => ?_
  simp only [List.mem_cons, List.mem_append, List.mem_ite_nil_right, List.not_mem_nil, or_false] at hm
  rcases hm with rfl | (((rfl | rfl) | ⟨-, rfl⟩) | ⟨-, rfl⟩) | ⟨-, rfl⟩
  · exact Written.ok_string _
  · exact Written.ok_number _
  · exact ok_map fun message _ => message.ok_written
  · exact ok_map htool
  · exact Written.ok_string _
  · exact Written.ok_true

end

end OpenAi

namespace Anthropic

def writtenTool (schema : ToolSpec → Json) (tool : ToolSpec) : Written :=
  .object [("name".toList, .string tool.name), ("description".toList, .string tool.description),
    ("input_schema".toList, ⟨tool.parametersJson, schema tool⟩)]

section
variable {maxLen : Nat} (alloc : Nat → Bool) (schema : ToolSpec → Json)

theorem writes_pushTool (tool : ToolSpec) : Writes maxLen (pushTool alloc tool) (writtenTool schema tool).text := by
  have htext : (writtenTool schema tool).text = ['\x7b'] ++ (memberText "name".toList (printString tool.name) ++ ([','] ++
      (memberText "description".toList (printString tool.description) ++ (",\"input_schema\":".toList ++
        (tool.parametersJson ++ ['\x7d']))))) := by
    have hschema : ",\"input_schema\":".toList = ',' :: (printString "input_schema".toList ++ [':']) := by decide
    rw [hschema, writtenTool, text_object]
    simp [moreText, Written.string, memberText]
  rw [htext]
  exact (writes_pushByte alloc '\x7b' (by decide)).comp ((writes_field alloc _ (by decide) tool.name).comp
    ((writes_pushByte alloc ',' (by decide)).comp ((writes_field alloc _ (by decide) tool.description).comp
      ((writes_pushStr alloc _).comp ((writes_pushStr alloc tool.parametersJson).comp
        (writes_pushByte alloc '\x7d' (by decide)))))))

theorem writes_pushMessagesField (messages : List Message) : Writes maxLen (pushMessagesField alloc messages)
    (memberText "messages".toList (Written.array (messages.map Message.written)).text) := by
  have hitems : Writes maxLen _ _ := writes_pushSeparated alloc (writes_pushMessage alloc) false messages
  rw [text_messages]
  exact (writes_pushStr alloc _).comp (hitems.comp (writes_pushByte alloc ']' (by decide)))

theorem writes_system (system : List Char) : Writes maxLen
    (if system ≠ [] then pushByte alloc ','.toUInt8 >=> pushJsonStringField alloc "system".toList system else pure)
    (moreText (if system ≠ [] then [("system".toList, .string system)] else [])) := by
  rw [moreText, flatMap_option]
  exact ((writes_pushByte alloc ',' (by decide)).comp (writes_field alloc _ (by decide) system)).ite writes_pure

variable (target : Target) (model : List Char) (maxTokens : UInt32) (system : List Char) (messages : List Message)
  (tools : Option (List ToolSpec)) (toolChoice : ToolChoicePolicy) (stream : Bool)

/-- The request that the body says. -/
def request : Written := .object
  (("model".toList, .string model) :: ([("max_tokens".toList, .number maxTokens.toNat)] ++
    (if system ≠ [] then [("system".toList, .string system)] else []) ++
    [("messages".toList, .array (messages.map Message.written))] ++
    (if tools.getD [] ≠ [] then [("tools".toList, .array ((tools.getD []).map (writtenTool schema)))] else []) ++
    (if tools.getD [] ≠ [] ∧ toolChoice = .require then
      [("tool_choice".toList, .object [("type".toList, .string "any".toList)])] else []) ++
    (if stream then [("stream".toList, .true)] else [])))

theorem encodes_buildRequestBody : Encodes target.maxRequestBodyLen
    (buildRequestBody alloc target model maxTokens system messages tools toolChoice stream)
    (request schema model maxTokens system messages tools toolChoice stream).text := by
  have hmaxTokens : moreText [("max_tokens".toList, .number maxTokens.toNat)] =
      ",\"max_tokens\":".toList ++ usizeToDecimalBuf 20 maxTokens.toNat := by
    rw [← text_maxTokens, moreText, List.flatMap_singleton]
  have hmessages : moreText [("messages".toList, .array (messages.map Message.written))] =
      [','] ++ memberText "messages".toList (Written.array (messages.map Message.written)).text := by
    rw [moreText, List.flatMap_singleton]
    rfl
  refine Writes.encodes ?_ _
  simp only [request, text_object, moreText_append, hmaxTokens, hmessages, List.append_assoc]
  exact (writes_pushByte alloc '\x7b' (by decide)).comp ((writes_field alloc _ (by decide) model).comp
    ((writes_pushStr alloc _).comp ((writes_pushStr alloc _).comp ((writes_system alloc system).comp
      ((writes_pushByte alloc ',' (by decide)).comp ((writes_pushMessagesField alloc messages).comp
        ((writes_tools alloc tools (writes_pushTool alloc schema)).comp
          ((writes_toolChoice alloc tools toolChoice (by decide)).comp ((writes_stream alloc stream).comp
            ((writes_pushByte alloc '\x7d' (by decide)).comp writes_finish))))))))))

theorem ok_request {depth : Nat} (h : ∀ tool ∈ tools.getD [], Json.fromStr depth tool.parametersJson = some (schema tool)) :
    (request schema model maxTokens system messages tools toolChoice stream).Ok (depth + 3) := by
  have htool (tool : ToolSpec) (htool : tool ∈ tools.getD []) : (writtenTool schema tool).Ok (depth + 1) := by
    refine Written.ok_object fun m hm => ?_
    simp only [List.mem_cons, List.not_mem_nil, or_false] at hm
    rcases hm with rfl | rfl | rfl
    · exact Written.ok_string _
    · exact Written.ok_string _
    · exact spells_of_fromStr (h tool htool)
  refine Written.ok_object fun m hm => ?_
  simp only [List.mem_cons, List.mem_append, List.mem_ite_nil_right, List.not_mem_nil, or_false] at hm
  rcases hm with rfl | ((((rfl | ⟨-, rfl⟩) | rfl) | ⟨-, rfl⟩) | ⟨-, rfl⟩) | ⟨-, rfl⟩
  · exact Written.ok_string _
  · exact Written.ok_number _
  · exact Written.ok_string _
  · exact ok_map fun message _ => message.ok_written
  · exact ok_map htool
  · refine Written.ok_object fun m hm => ?_
    obtain rfl := List.mem_singleton.mp hm
    exact Written.ok_string _
  · exact Written.ok_true

end

end Anthropic

/-- What is built means the request and keeps the limit, and it fails only where the request is longer than that. -/
structure Means (limit depth : Nat) (build : Except Error LlmRequestBody) (request : Written) : Prop where
  body : ∀ body, build = .ok body →
    body.len ≤ limit ∧ (fromUtf8 body.bytes.bytes).bind (Json.fromStr depth) = some request.json
  error : (∃ e, build = .error e) ↔ limit < utf8Len request.text

theorem Encodes.means {limit depth : Nat} {build : Except Error LlmRequestBody} {request : Written}
    (h : Encodes limit build request.text) (hrequest : request.Ok depth) : Means limit depth build request where
  body := by
    intro body hbody
    obtain ⟨hbytes, hlen⟩ := h.body body hbody
    rw [hbytes, fromUtf8_utf8]
    exact ⟨hlen, hrequest.fromStr⟩
  error := h.error

/-- Every request body is the JSON of its request, where the parameters of each tool are JSON. -/
theorem request_bodies_mean_requests (alloc : Nat → Bool) (target : Target) (model : List Char) (maxTokens : UInt32)
    (system : List Char) (messages : List Message) (tools : Option (List ToolSpec)) (toolChoice : ToolChoicePolicy)
    (stream : Bool) {depth : Nat} {schema : ToolSpec → Json}
    (h : ∀ tool ∈ tools.getD [], Json.fromStr depth tool.parametersJson = some (schema tool)) :
    Means target.maxRequestBodyLen (depth + 4)
      (OpenAi.buildRequestBody alloc target model maxTokens system messages tools toolChoice stream)
      (OpenAi.request schema model maxTokens system messages tools toolChoice stream) ∧
    Means target.maxRequestBodyLen (depth + 3)
      (Anthropic.buildRequestBody alloc target model maxTokens system messages tools toolChoice stream)
      (Anthropic.request schema model maxTokens system messages tools toolChoice stream) :=
  ⟨Encodes.means (OpenAi.encodes_buildRequestBody alloc schema target model maxTokens system messages tools toolChoice stream)
      (OpenAi.ok_request schema model maxTokens system messages tools toolChoice stream h),
    Encodes.means
      (Anthropic.encodes_buildRequestBody alloc schema target model maxTokens system messages tools toolChoice stream)
      (Anthropic.ok_request schema model maxTokens system messages tools toolChoice stream h)⟩

def clockTool : ToolSpec := ⟨"clock".toList, "the \"time\"".toList, "\x7b\"type\":\"object\"\x7d".toList⟩
def clockSchema : Written := .object [("type".toList, .string "object".toList)]

theorem request_bodies_with_clock :
    Means Target.host.maxRequestBodyLen 5
      (OpenAi.buildRequestBody (fun _ => true) .host "m".toList 16 "be brief".toList [⟨"user".toList, "hi\n".toList⟩]
        (some [clockTool]) .require true)
      (OpenAi.request (fun _ => clockSchema.json) "m".toList 16 "be brief".toList [⟨"user".toList, "hi\n".toList⟩]
        (some [clockTool]) .require true) ∧
    Means Target.host.maxRequestBodyLen 4
      (Anthropic.buildRequestBody (fun _ => true) .host "m".toList 16 "be brief".toList [⟨"user".toList, "hi\n".toList⟩]
        (some [clockTool]) .require true)
      (Anthropic.request (fun _ => clockSchema.json) "m".toList 16 "be brief".toList [⟨"user".toList, "hi\n".toList⟩]
        (some [clockTool]) .require true) := by
  refine request_bodies_mean_requests (fun _ => true) .host "m".toList 16 "be brief".toList _ (some [clockTool]) .require true
    fun tool htool => ?_
  obtain rfl := List.mem_singleton.mp htool
  have htext : clockTool.parametersJson = clockSchema.text := by decide
  have hspells : clockSchema.Ok 1 := Written.ok_object fun m hm => by
    obtain rfl := List.mem_singleton.mp hm
    exact Written.ok_string _
  rw [htext]
  exact hspells.fromStr

end Beetle.Llm
