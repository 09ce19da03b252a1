import Beetle.Lib.JsonRead
import Beetle.Lib.JsonValue
import Beetle.Llm.Streaming
import Mathlib.Data.List.ModifyLast

/-! The Anthropic formats: one answer as a body, and as a stream of events. -/
namespace Beetle.Llm.Anthropic
open Beetle.Lib

/-! The body. -/

structure ContentBlock where
  blockType : List Char
  text : Option (List Char)
  id : Option (List Char)
  name : Option (List Char)
  input : Option Json
  deriving DecidableEq

structure Response where
  id : Option (List Char)
  content : List ContentBlock
  stopReason : Option StopReason
  deriving DecidableEq

def stopReasonOf (s : List Char) : StopReason :=
  if s = "end_turn".toList then .endTurn
  else if s = "tool_use".toList then .toolUse
  else if s = "max_tokens".toList then .maxTokens
  else .other

section
variable (N : Json.NumberFormat)

def readContentBlock : Json → Option ContentBlock :=
  Json.asObj fun members => do
    let blockType ← Json.requiredField Json.asString members "type"
    let text ← Json.optionalField Json.asString members "text"
    let id ← Json.optionalField Json.asString members "id"
    let name ← Json.optionalField Json.asString members "name"
    let input ← Json.optionalField (Json.value N) members "input"
    return ⟨blockType, text, id, name, input⟩

def readResponse : Json → Option Response :=
  Json.asObj fun members => do
    let id ← Json.optionalField Json.asString members "id"
    let content ← Json.requiredField (Json.asArr (readContentBlock N)) members "content"
    let stopReason ← Json.optionalField Json.asString members "stop_reason"
    return ⟨id, content, stopReason.map stopReasonOf⟩

/-- `serde_json::from_slice`. -/
def fromSlice (body : Bytes) : Option Response :=
  (fromUtf8 body).bind fun text => (Json.fromStr 127 text).bind (readResponse N)

end

/-- Text blocks are joined, with a newline after what is there already. -/
def addText (content text : List Char) : List Char := (if content ≠ [] then content ++ ['\n'] else content) ++ text

def addBlock (s : List Char × List ToolCall) (b : ContentBlock) : List Char × List ToolCall :=
  if b.blockType = "text".toList then
    match b.text with
    | some text => (addText s.1 text, s.2)
    | none => s
  else if b.blockType = "tool_use".toList then
    (s.1, s.2 ++ [⟨b.id.getD [], b.name.getD [], (b.input.map Json.toText).getD ['\x7b', '\x7d']⟩])
  else s

/-- `LlmResponse::from_anthropic`. -/
def fromAnthropic (r : Response) : LlmResponse :=
  let (content, toolCalls) := r.content.foldl addBlock ([], [])
  .assemble content (r.stopReason.getD .other) toolCalls

def doRequest (N : Json.NumberFormat) (post : Except Error (Nat × Bytes)) : Except Error LlmResponse :=
  match post with
  | .error e => .error (mapTransportError e "llm_request")
  | .ok (statusCode, body) =>
    if statusCode = 429 then .error (.http 429 "llm_request")
    else if statusCode ≥ 400 then .error (.http statusCode "llm_request")
    else
      match fromSlice N body with
      | none => .error (.other none "llm_parse")
      | some parsed => .ok (fromAnthropic parsed)

/-! The stream. -/

structure StartedBlock where
  blockType : List Char
  id : Option (List Char)
  name : Option (List Char)
  deriving DecidableEq

structure DeltaInner where
  deltaType : List Char
  text : Option (List Char)
  partialJson : Option (List Char)
  deriving DecidableEq

structure MessageDelta where
  stopReason : Option (List Char)
  deriving DecidableEq

/-- The events that are read; the others are passed over. -/
inductive StreamEvent where
  | contentBlockStart (contentBlock : Option StartedBlock)
  | contentBlockDelta (delta : Option DeltaInner)
  | messageDelta (delta : Option MessageDelta)
  deriving DecidableEq

section
variable (str : Json → Option (List Char))

def readContentBlockStart : Json → Option (Option StartedBlock) :=
  Json.asObj fun members => Json.optionalField (Json.asObj fun members => do
    let blockType ← Json.requiredField str members "type"
    let id ← Json.optionalField str members "id"
    let name ← Json.optionalField str members "name"
    return ⟨blockType, id, name⟩) members "content_block"

def readContentBlockDelta : Json → Option (Option DeltaInner) :=
  Json.asObj fun members => Json.optionalField (Json.asObj fun members => do
    let deltaType ← Json.requiredField str members "type"
    let text ← Json.optionalField str members "text"
    let partialJson ← Json.optionalField str members "partial_json"
    return ⟨deltaType, text, partialJson⟩) members "delta"

def readMessageDelta : Json → Option (Option MessageDelta) :=
  Json.asObj fun members => Json.optionalField (Json.asObj fun members => do
    let stopReason ← Json.optionalField str members "stop_reason"
    return ⟨stopReason⟩) members "delta"

/-- The event that a type and a text stand for, with strings that borrow from the text or with owned ones. -/
def readEvent (eventType data : List Char) : Option StreamEvent :=
  if eventType = "content_block_start".toList then
    ((Json.fromStr 127 data).bind (readContentBlockStart str)).map .contentBlockStart
  else if eventType = "content_block_delta".toList then
    ((Json.fromStr 127 data).bind (readContentBlockDelta str)).map .contentBlockDelta
  else if eventType = "message_delta".toList then
    ((Json.fromStr 127 data).bind (readMessageDelta str)).map .messageDelta
  else none

end

structure ToolCallBuilder where
  id : List Char
  name : List Char
  inputJson : List Char

structure StreamAccumulator where
  content : List Char
  stopReason : StopReason
  toolCalls : List ToolCallBuilder

def StreamAccumulator.new : StreamAccumulator := ⟨[], .other, []⟩

def StreamAccumulator.start (acc : StreamAccumulator) (block : StartedBlock) : StreamAccumulator :=
  if block.blockType = "tool_use".toList then
    { acc with toolCalls := acc.toolCalls ++ [⟨block.id.getD [], block.name.getD [], []⟩] }
  else acc

/-- A delta, and the text it adds. Partial JSON belongs to the last tool call. -/
def StreamAccumulator.delta (acc : StreamAccumulator) (delta : DeltaInner) : StreamAccumulator × Option (List Char) :=
  if delta.deltaType = "text_delta".toList then
    match delta.text with
    | some text => ({ acc with content := acc.content ++ text }, some text)
    | none => (acc, none)
  else if delta.deltaType = "input_json_delta".toList then
    match delta.partialJson with
    | some partialJson =>
      ({ acc with
          toolCalls := acc.toolCalls.modifyLast fun tc => { tc with inputJson := tc.inputJson ++ partialJson } }, none)
    | none => (acc, none)
  else (acc, none)

def StreamAccumulator.stop (acc : StreamAccumulator) (delta : MessageDelta) : StreamAccumulator :=
  match delta.stopReason with
  | some stopReason => { acc with stopReason := stopReasonOf stopReason }
  | none => acc

def StreamAccumulator.apply (acc : StreamAccumulator) : StreamEvent → StreamAccumulator × Option (List Char)
  | .contentBlockStart none => (acc, none)
  | .contentBlockStart (some block) => (acc.start block, none)
  | .contentBlockDelta none => (acc, none)
  | .contentBlockDelta (some delta) => acc.delta delta
  | .messageDelta none => (acc, none)
  | .messageDelta (some delta) => (acc.stop delta, none)

/-- `handle_event_value`. -/
def handleEvent (acc : StreamAccumulator) (event : Sse.SseEvent) : StreamAccumulator × Option (List Char) :=
  match fromUtf8 event.event, fromUtf8 event.data with
  | some eventType, some data =>
    match readEvent Json.asStr eventType data with
    | none => (acc, none)
    | some event => acc.apply event
  | _, _ => (acc, none)

def ToolCallBuilder.toToolCall (tc : ToolCallBuilder) : ToolCall := ⟨tc.id, tc.name, inputOf tc.inputJson⟩

def StreamAccumulator.finish (acc : StreamAccumulator) : LlmResponse :=
  .assemble acc.content acc.stopReason (acc.toolCalls.map ToolCallBuilder.toToolCall)

def doRequestStreaming (target : Target) (post : StreamedPost) : Except Error LlmResponse × List Progress :=
  let s := StreamState.run handleEvent StreamAccumulator.content target.sseLineBufSize .new post.chunks
  (checkStatus post.status s.accumulator.finish, s.progress)

end Beetle.Llm.Anthropic
