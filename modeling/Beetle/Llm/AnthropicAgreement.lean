import Beetle.Llm.AnthropicStream

/-! When an answer that is streamed is the same as the one in a body. -/
namespace Beetle.Llm.Anthropic
open Beetle.Lib

/-! Messages. -/

structure ToolUse where
  id : List Char
  name : List Char
  input : Json

inductive Block where
  | text (text : List Char)
  | toolUse (tool : ToolUse)

/-- A null stands for no input. -/
def ToolUse.input? (tool : ToolUse) : Option Json :=
  match tool.input with
  | .null => none
  | input => some input

/-- What the tool is called with. -/
def ToolUse.value (tool : ToolUse) : Json := tool.input?.getD (.obj [])

def Block.toContentBlock : Block → ContentBlock
  | .text content => ⟨"text".toList, some content, none, none, none⟩
  | .toolUse tool => ⟨"tool_use".toList, none, some tool.id, some tool.name, tool.input?⟩

/-! How a message is sent. -/

def StreamEvent.eventType : StreamEvent → List Char
  | .contentBlockStart _ => "content_block_start".toList
  | .contentBlockDelta _ => "content_block_delta".toList
  | .messageDelta _ => "message_delta".toList

/-- An event and a text that spells it, as the data of one event. Any use of escapes is allowed. -/
structure Sent (target : Target) where
  event : StreamEvent
  text : List Char
  spells : readEvent Json.asString event.eventType text = some event
  one_line : '\n' ∉ text ∧ '\r' ∉ text
  fits : (dataLine text).length ≤ target.sseLineBufSize

variable {target : Target}

/-- The event is parsed: none of the strings that are borrowed is written with an escape. -/
def Sent.kept (sent : Sent target) : Bool := (readEvent Json.asStr sent.event.eventType sent.text).isSome

/-- The part of a block that a delta carries. -/
def Sent.fragment (sent : Sent target) : List Char :=
  match sent.event with
  | .contentBlockDelta (some delta) => delta.text.getD [] ++ delta.partialJson.getD []
  | _ => []

/-- The start of a block. -/
def Block.IsStart : Block → StreamEvent → Prop
  | .text _, event => ∃ id name, event = .contentBlockStart (some ⟨"text".toList, id, name⟩)
  | .toolUse tool, event => event = .contentBlockStart (some ⟨"tool_use".toList, some tool.id, some tool.name⟩)

/-- A delta of a block. -/
def Block.delta : Block → List Char → StreamEvent
  | .text _, fragment => .contentBlockDelta (some ⟨"text_delta".toList, some fragment, none⟩)
  | .toolUse _, fragment => .contentBlockDelta (some ⟨"input_json_delta".toList, none, some fragment⟩)

/-- The parts of a block make the block. -/
def Block.IsWhole (N : Json.NumberFormat) : Block → List Char → Prop
  | .text content, whole => whole = content
  | .toolUse tool, whole => Json.valueOf N (inputOf whole) = some tool.value

/-- A block, its start and its deltas. -/
structure SentBlock (N : Json.NumberFormat) (target : Target) where
  block : Block
  start : Sent target
  deltas : List (Sent target)
  is_start : block.IsStart start.event
  is_delta : ∀ sent ∈ deltas, sent.event = block.delta sent.fragment
  is_whole : block.IsWhole N (deltas.flatMap (·.fragment))

structure SentMessage (N : Json.NumberFormat) (target : Target) where
  blocks : List (SentBlock N target)
  stopReason : Option (List Char)
  last : Sent target
  is_last : last.event = .messageDelta (some ⟨stopReason⟩)

variable {N : Json.NumberFormat} {blocks : List (SentBlock N target)}

def SentBlock.events (b : SentBlock N target) : List (Sent target) := b.start :: b.deltas

def SentMessage.events (m : SentMessage N target) : List (Sent target) := m.blocks.flatMap (·.events) ++ [m.last]

/-- The message as it is read from a body. -/
def SentMessage.response (m : SentMessage N target) (id : Option (List Char)) : Response :=
  ⟨id, m.blocks.map (·.block.toContentBlock), m.stopReason.map stopReasonOf⟩

/-! Agreement. -/

/-- The same tool call, where inputs count as JSON values. -/
structure SameCall (N : Json.NumberFormat) (a b : ToolCall) : Prop where
  id : a.id = b.id
  name : a.name = b.name
  input : Json.valueOf N a.input = Json.valueOf N b.input

structure Agrees (N : Json.NumberFormat) (streamed plain : LlmResponse) : Prop where
  content : streamed.content = plain.content
  stopReason : streamed.stopReason = plain.stopReason
  toolCalls : List.Forall₂ (SameCall N) (streamed.toolCalls.getD []) (plain.toolCalls.getD [])

def Block.text? : Block → Option (List Char)
  | .text content => some content
  | .toolUse _ => none

def Block.tool? : Block → Option ToolUse
  | .text _ => none
  | .toolUse tool => some tool

/-- The parts of a block that are read. -/
def SentBlock.keptParts (b : SentBlock N target) : List Char := (b.deltas.filter (·.kept)).flatMap (·.fragment)

/-- What has to hold so that the two answers agree. -/
structure Faithful (m : SentMessage N target) : Prop where
  /-- No text block with something in it is followed by another. -/
  one_text : ∀ text ∈ (m.blocks.filterMap (·.block.text?)).dropLast, text = []
  /-- No part of a text is passed over. -/
  texts : ∀ b ∈ m.blocks, b.block.text?.isSome = true → ∀ sent ∈ b.deltas, sent.kept = false → sent.fragment = []
  /-- Each tool call is started, and what is read of its input is its input. -/
  tools : ∀ b ∈ m.blocks, ∀ tool ∈ b.block.tool?,
    b.start.kept = true ∧ Json.valueOf N (inputOf b.keptParts) = some tool.value
  /-- The stop reason is read, or makes no difference. -/
  stop : m.last.kept = true ∨ (∃ b ∈ m.blocks, b.block.tool?.isSome = true) ∨
    (m.stopReason.map stopReasonOf).getD .other = .other

/-! Reading events. -/

theorem readEvent_asString {eventType data : List Char} {event : StreamEvent}
    (h : readEvent Json.asStr eventType data = some event) : readEvent Json.asString eventType data = some event := by
  have hstr := Json.extends_asStr
  have hstart : Json.Extends (readContentBlockStart Json.asStr) (readContentBlockStart Json.asString) := by
    apply Json.Extends.asObj
    intro members a hread
    refine Json.Extends.optionalField (Json.Extends.asObj ?_) hread
    intro members a hread
    simp only [Option.bind_eq_bind, Option.bind_eq_some_iff] at hread ⊢
    obtain ⟨blockType, htype, id, hid, name, hname, hread⟩ := hread
    exact ⟨blockType, hstr.requiredField htype, id, hstr.optionalField hid, name, hstr.optionalField hname, hread⟩
  have hdelta : Json.Extends (readContentBlockDelta Json.asStr) (readContentBlockDelta Json.asString) := by
    apply Json.Extends.asObj
    intro members a hread
    refine Json.Extends.optionalField (Json.Extends.asObj ?_) hread
    intro members a hread
    simp only [Option.bind_eq_bind, Option.bind_eq_some_iff] at hread ⊢
    obtain ⟨deltaType, htype, text, htext, partialJson, hpartial, hread⟩ := hread
    exact ⟨deltaType, hstr.requiredField htype, text, hstr.optionalField htext, partialJson,
      hstr.optionalField hpartial, hread⟩
  have hmessage : Json.Extends (readMessageDelta Json.asStr) (readMessageDelta Json.asString) := by
    apply Json.Extends.asObj
    intro members a hread
    refine Json.Extends.optionalField (Json.Extends.asObj ?_) hread
    intro members a hread
    simp only [Option.bind_eq_bind, Option.bind_eq_some_iff] at hread ⊢
    obtain ⟨stopReason, hstop, hread⟩ := hread
    exact ⟨stopReason, hstr.optionalField hstop, hread⟩
  have hread : ∀ {α : Type} {strict lenient : Json → Option α}, Json.Extends strict lenient → ∀ {f : α → StreamEvent},
      ((Json.fromStr 127 data).bind strict).map f = some event →
        ((Json.fromStr 127 data).bind lenient).map f = some event := by
    intro α strict lenient hextends f hmap
    obtain ⟨a, ha, rfl⟩ := Option.map_eq_some_iff.mp hmap
    obtain ⟨json, hjson, hstrict⟩ := Option.bind_eq_some_iff.mp ha
    rw [hjson, Option.bind_some, hextends json a hstrict]
    rfl
  unfold readEvent at h ⊢
  by_cases hstartType : eventType = "content_block_start".toList
  · rw [if_pos hstartType] at h ⊢
    exact hread hstart h
  rw [if_neg hstartType] at h ⊢
  by_cases hdeltaType : eventType = "content_block_delta".toList
  · rw [if_pos hdeltaType] at h ⊢
    exact hread hdelta h
  rw [if_neg hdeltaType] at h ⊢
  by_cases hmessageType : eventType = "message_delta".toList
  · rw [if_pos hmessageType] at h ⊢
    exact hread hmessage h
  · rw [if_neg hmessageType] at h
    cases h

@[grind =] def step (acc : StreamAccumulator) (sent : Sent target) : StreamAccumulator :=
  if sent.kept then (acc.apply sent.event).1 else acc

/-- An event that is parsed is the one that was sent. -/
theorem Sent.readEvent_asStr (sent : Sent target) :
    readEvent Json.asStr sent.event.eventType sent.text = if sent.kept then some sent.event else none := by
  unfold kept
  cases hread : readEvent Json.asStr sent.event.eventType sent.text with
  | none => rfl
  | some event =>
    have hlenient := readEvent_asString hread
    rw [sent.spells] at hlenient
    rw [← Option.some.inj hlenient]
    rfl

theorem Sent.handleEvent_eq (sent : Sent target) (acc : StreamAccumulator) :
    (handleEvent acc ⟨utf8 sent.event.eventType, utf8 sent.text⟩).1 = step acc sent := by
  simp only [handleEvent, fromUtf8_utf8, sent.readEvent_asStr, step]
  cases sent.kept with
  | true => rfl
  | false => rfl

theorem foldl_handleEvent_sent (sents : List (Sent target)) (acc : StreamAccumulator) :
    (sents.map fun sent => (⟨utf8 sent.event.eventType, utf8 sent.text⟩ : Sse.SseEvent)).foldl
      (fun acc event => (handleEvent acc event).1) acc = sents.foldl step acc := by
  induction sents generalizing acc with
  | nil => rfl
  | cons sent sents ih => rw [List.map_cons, List.foldl_cons, ih, sent.handleEvent_eq, List.foldl_cons]

/-! What a block does to the accumulator. -/

theorem foldl_text_deltas {content : List Char} {deltas : List (Sent target)}
    (hdeltas : ∀ sent ∈ deltas, sent.event = (Block.text content).delta sent.fragment) (acc : StreamAccumulator) :
    deltas.foldl step acc =
      { acc with content := acc.content ++ (deltas.filter (·.kept)).flatMap (·.fragment) } := by
  induction deltas generalizing acc with
  | nil => simp
  | cons sent deltas ih =>
    rw [List.forall_mem_cons] at hdeltas
    rw [List.foldl_cons, ih hdeltas.2]
    cases hkept : sent.kept with
    | true =>
      have hstep : step acc sent = { acc with content := acc.content ++ sent.fragment } := by
        rw [step, hkept, if_pos rfl, hdeltas.1]
        rfl
      rw [hstep, List.filter_cons_of_pos hkept, List.flatMap_cons, List.append_assoc]
    | false =>
      have hstep : step acc sent = acc := by rw [step, hkept]; rfl
      rw [hstep, List.filter_cons_of_neg (by simp [hkept])]

section
variable {tool : ToolUse} {deltas : List (Sent target)}
  (hdeltas : ∀ sent ∈ deltas, sent.event = (Block.toolUse tool).delta sent.fragment)
include hdeltas

theorem foldl_tool_deltas (content : List Char) (stopReason : StopReason) (toolCalls : List ToolCallBuilder)
    (tc : ToolCallBuilder) : deltas.foldl step ⟨content, stopReason, toolCalls ++ [tc]⟩ =
      ⟨content, stopReason,
        toolCalls ++ [{ tc with inputJson := tc.inputJson ++ (deltas.filter (·.kept)).flatMap (·.fragment) }]⟩ := by
  induction deltas generalizing tc with
  | nil => simp
  | cons sent deltas ih =>
    rw [List.forall_mem_cons] at hdeltas
    rw [List.foldl_cons]
    cases hkept : sent.kept with
    | true =>
      have hstep : step ⟨content, stopReason, toolCalls ++ [tc]⟩ sent =
          ⟨content, stopReason, toolCalls ++ [{ tc with inputJson := tc.inputJson ++ sent.fragment }]⟩ := by
        have hlast : (toolCalls ++ [tc]).modifyLast (fun tc => { tc with inputJson := tc.inputJson ++ sent.fragment }) =
            toolCalls ++ [{ tc with inputJson := tc.inputJson ++ sent.fragment }] := List.modifyLast_concat _ _ _
        rw [step, hkept, if_pos rfl, hdeltas.1]
        exact congrArg (StreamAccumulator.mk content stopReason) hlast
      rw [hstep, ih hdeltas.2, List.filter_cons_of_pos hkept, List.flatMap_cons, List.append_assoc]
    | false =>
      have hstep : step ⟨content, stopReason, toolCalls ++ [tc]⟩ sent = ⟨content, stopReason, toolCalls ++ [tc]⟩ := by
        rw [step, hkept]
        rfl
      rw [hstep, ih hdeltas.2, List.filter_cons_of_neg (by simp [hkept])]

/-- Partial JSON never changes how many calls there are. -/
theorem foldl_tool_deltas_length (acc : StreamAccumulator) :
    (deltas.foldl step acc).content = acc.content ∧ (deltas.foldl step acc).stopReason = acc.stopReason ∧
      (deltas.foldl step acc).toolCalls.length = acc.toolCalls.length := by
  obtain ⟨content, stopReason, toolCalls⟩ := acc
  rcases List.eq_nil_or_concat toolCalls with rfl | ⟨toolCalls, tc, rfl⟩
  · have hsame : deltas.foldl step ⟨content, stopReason, []⟩ = ⟨content, stopReason, []⟩ := by
      induction deltas with
      | nil => rfl
      | cons sent deltas ih =>
        rw [List.forall_mem_cons] at hdeltas
        have hstep : step ⟨content, stopReason, []⟩ sent = ⟨content, stopReason, []⟩ := by
          cases hkept : sent.kept with
          | true =>
            rw [step, hkept, if_pos rfl, hdeltas.1]
            rfl
          | false =>
            rw [step, hkept]
            rfl
        rw [List.foldl_cons, hstep, ih hdeltas.2]
    rw [hsame]
    exact ⟨rfl, rfl, rfl⟩
  · rw [List.concat_eq_append, foldl_tool_deltas hdeltas]
    simp

end

namespace SentBlock
variable (b : SentBlock N target)

def keptText : List Char := if b.block.text?.isSome then b.keptParts else []

/-- The block is a tool call that is started. -/
def isCall : Bool := b.block.tool?.isSome && b.start.kept

def builder? : Option ToolCallBuilder := b.block.tool?.map fun tool => ⟨tool.id, tool.name, b.keptParts⟩

/-- What the events of a block do. -/
structure Effect (acc acc' : StreamAccumulator) : Prop where
  content : acc'.content = acc.content ++ b.keptText
  stopReason : acc'.stopReason = acc.stopReason
  length : acc'.toolCalls.length = acc.toolCalls.length + b.isCall.toNat
  toolCalls : (b.block.tool?.isSome = true → b.start.kept = true) →
    acc'.toolCalls = acc.toolCalls ++ b.builder?.toList

theorem effect (acc : StreamAccumulator) : b.Effect acc (b.events.foldl step acc) := by
  obtain ⟨block, start, deltas, hstart, hdelta, hwhole⟩ := b
  cases block with
  | text content =>
    obtain ⟨id, name, hstart⟩ := hstart
    have hfirst : step acc start = acc := by
      cases hkept : start.kept with
      | true =>
        rw [step, hkept, if_pos rfl, hstart]
        rfl
      | false =>
        rw [step, hkept]
        rfl
    have hrun : (events ⟨.text content, start, deltas, ⟨id, name, hstart⟩, hdelta, hwhole⟩).foldl step acc =
        { acc with content := acc.content ++ (deltas.filter (·.kept)).flatMap (·.fragment) } := by
      rw [events, List.foldl_cons, hfirst, foldl_text_deltas hdelta]
    rw [hrun]
    exact ⟨rfl, rfl, rfl, fun _ => (List.append_nil _).symm⟩
  | toolUse tool =>
    cases hkept : start.kept with
    | true =>
      have hfirst : step acc start = { acc with toolCalls := acc.toolCalls ++ [⟨tool.id, tool.name, []⟩] } := by
        rw [step, hkept, if_pos rfl, hstart]
        rfl
      have hrun : (events ⟨.toolUse tool, start, deltas, hstart, hdelta, hwhole⟩).foldl step acc =
          { acc with
            toolCalls := acc.toolCalls ++ [⟨tool.id, tool.name, (deltas.filter (·.kept)).flatMap (·.fragment)⟩] } := by
        rw [events, List.foldl_cons, hfirst, foldl_tool_deltas hdelta, List.nil_append]
      rw [hrun]
      refine ⟨(List.append_nil _).symm, rfl, ?_, fun _ => rfl⟩
      simp [isCall, Block.tool?, hkept]
    | false =>
      have hfirst : step acc start = acc := by
        rw [step, hkept]
        rfl
      obtain ⟨hcontent, hstop, hlength⟩ := foldl_tool_deltas_length hdelta acc
      have hrun : (events ⟨.toolUse tool, start, deltas, hstart, hdelta, hwhole⟩).foldl step acc =
          deltas.foldl step acc := by
        rw [events, List.foldl_cons, hfirst]
      rw [hrun]
      refine ⟨?_, hstop, ?_, ?_⟩
      · rw [hcontent]
        exact (List.append_nil _).symm
      · rw [hlength]
        simp [isCall, hkept]
      · intro h
        have htrue : start.kept = true := h rfl
        rw [hkept] at htrue
        cases htrue

end SentBlock

/-- What the events of all blocks do. -/
theorem foldl_blocks (blocks : List (SentBlock N target)) (acc : StreamAccumulator) :
    let acc' := (blocks.flatMap (·.events)).foldl step acc
    acc'.content = acc.content ++ blocks.flatMap (·.keptText) ∧ acc'.stopReason = acc.stopReason ∧
      acc'.toolCalls.length = acc.toolCalls.length + (blocks.filter (·.isCall)).length ∧
      ((∀ b ∈ blocks, b.block.tool?.isSome = true → b.start.kept = true) →
        acc'.toolCalls = acc.toolCalls ++ blocks.filterMap (·.builder?)) := by
  induction blocks generalizing acc with
  | nil => simp
  | cons b blocks ih =>
    obtain ⟨hcontent, hstop, hlength, hcalls⟩ := b.effect acc
    obtain ⟨hcontents, hstops, hlengths, hcallss⟩ := ih (b.events.foldl step acc)
    rw [List.flatMap_cons, List.foldl_append]
    refine ⟨?_, ?_, ?_, ?_⟩
    · rw [hcontents, hcontent, List.flatMap_cons, List.append_assoc]
    · rw [hstops, hstop]
    · rw [hlengths, hlength, List.filter_cons]
      cases b.isCall with
      | true =>
        simp only [if_pos, List.length_cons, Bool.toNat_true]
        omega
      | false => simp
    · intro hkept
      rw [List.forall_mem_cons] at hkept
      rw [hcallss hkept.2, hcalls hkept.1, List.filterMap_cons, List.append_assoc]
      cases b.builder? with
      | none => rfl
      | some tc => rfl

/-! What the body says. -/

def ToolUse.plainCall (tool : ToolUse) : ToolCall :=
  ⟨tool.id, tool.name, (tool.input?.map Json.toText).getD ['\x7b', '\x7d']⟩

theorem foldl_addBlock (blocks : List Block) (s : List Char × List ToolCall) :
    (blocks.map Block.toContentBlock).foldl addBlock s =
      ((blocks.filterMap Block.text?).foldl addText s.1, s.2 ++ (blocks.filterMap Block.tool?).map ToolUse.plainCall) := by
  induction blocks generalizing s with
  | nil => simp
  | cons block blocks ih =>
    rw [List.map_cons, List.foldl_cons, ih]
    cases block with
    | text content => rfl
    | toolUse tool =>
      have hstep : addBlock s (Block.toContentBlock (.toolUse tool)) = (s.1, s.2 ++ [tool.plainCall]) := rfl
      rw [hstep, List.append_assoc]
      rfl

/-- Joining adds nothing only if no text comes after another one. -/
theorem foldl_addText (texts : List (List Char)) (content : List Char) :
    ((texts = [] ∨ content = [] ∧ ∀ t ∈ texts.dropLast, t = []) ∧
        texts.foldl addText content = content ++ texts.flatten) ∨
      (¬ (texts = [] ∨ content = [] ∧ ∀ t ∈ texts.dropLast, t = []) ∧
        (content ++ texts.flatten).length < (texts.foldl addText content).length) := by
  induction texts generalizing content with
  | nil => exact .inl ⟨.inl rfl, by simp⟩
  | cons text texts ih =>
    rw [List.foldl_cons, List.flatten_cons]
    by_cases hcontent : content = []
    · have hadd : addText content text = text := by simp [addText, hcontent]
      rw [hadd, hcontent, List.nil_append]
      have hcond : (text :: texts = [] ∨ ([] : List Char) = [] ∧ ∀ t ∈ (text :: texts).dropLast, t = []) ↔
          texts = [] ∨ text = [] ∧ ∀ t ∈ texts.dropLast, t = [] := by
        cases texts with
        | nil => simp
        | cons text' texts => simp
      rw [hcond]
      exact ih text
    · right
      have hadd : addText content text = content ++ ['\n'] ++ text := by simp [addText, hcontent]
      have hlong : (addText content text).length + texts.flatten.length ≤ (texts.foldl addText (addText content text)).length := by
        rcases ih (addText content text) with ⟨-, heq⟩ | ⟨-, hlt⟩
        · rw [heq, List.length_append]
        · rw [List.length_append] at hlt
          omega
      refine ⟨by simp [hcontent], ?_⟩
      rw [hadd] at hlong ⊢
      simp only [List.length_append, List.length_singleton] at hlong ⊢
      omega

/-- Inputs in a body are values. -/
theorem settled_input {body : Bytes} {response : Response} (h : fromSlice N body = some response) :
    ∀ b ∈ response.content, ∀ v ∈ b.input, Json.Settled N v := by
  intro b hb v hv
  obtain ⟨text, -, htext⟩ := Option.bind_eq_some_iff.mp h
  obtain ⟨json, -, hjson⟩ := Option.bind_eq_some_iff.mp htext
  obtain ⟨members, hmembers⟩ := Json.exists_of_asObj hjson
  simp only [Option.bind_eq_bind, Option.bind_eq_some_iff] at hmembers
  obtain ⟨id, -, content, hcontent, stopReason, -, hresponse⟩ := hmembers
  obtain rfl := Option.some.inj hresponse
  obtain ⟨items, hitems⟩ := Json.exists_of_requiredField hcontent
  obtain ⟨item, hitem⟩ := Json.exists_of_mem_asArr hitems hb
  obtain ⟨members, hmembers⟩ := Json.exists_of_asObj hitem
  simp only [Option.bind_eq_bind, Option.bind_eq_some_iff] at hmembers
  obtain ⟨blockType, -, text, -, id, -, name, -, input, hinput, hblock⟩ := hmembers
  obtain rfl := Option.some.inj hblock
  have hsome : input = some v := hv
  rw [hsome] at hinput
  obtain ⟨json, hvalue⟩ := Json.exists_of_optionalField hinput
  exact Json.settled_value json hvalue

theorem ToolUse.valueOf_plainCall {tool : ToolUse} (h : ∀ v ∈ tool.input?, Json.Settled N v) :
    Json.valueOf N tool.plainCall.input = some tool.value := by
  unfold plainCall value
  cases hinput : tool.input? with
  | none => rfl
  | some v => exact Json.valueOf_toText (h v hinput)

/-! The parts of the two answers. -/

def texts (blocks : List (SentBlock N target)) : List (List Char) := blocks.filterMap (·.block.text?)

def textDeltas (blocks : List (SentBlock N target)) : List (Sent target) :=
  blocks.flatMap fun b => if b.block.text?.isSome then b.deltas else []

theorem flatMap_keptText (blocks : List (SentBlock N target)) :
    blocks.flatMap (·.keptText) = ((textDeltas blocks).filter (·.kept)).flatMap (·.fragment) := by
  rw [textDeltas, List.filter_flatMap, List.flatMap_assoc]
  congr 1
  funext b
  rw [SentBlock.keptText]
  split
  · rfl
  · rfl

theorem flatten_texts (blocks : List (SentBlock N target)) :
    (texts blocks).flatten = (textDeltas blocks).flatMap (·.fragment) := by
  induction blocks with
  | nil => rfl
  | cons b blocks ih =>
    have hcons : textDeltas (b :: blocks) = (if b.block.text?.isSome then b.deltas else []) ++ textDeltas blocks := rfl
    rw [hcons, List.flatMap_append, ← ih, texts, List.filterMap_cons]
    have hwhole := b.is_whole
    cases hblock : b.block with
    | text content =>
      rw [hblock] at hwhole
      have hcontent : b.deltas.flatMap (·.fragment) = content := hwhole
      simp only [Block.text?, Option.isSome_some, if_pos, List.flatten_cons, hcontent]
      rfl
    | toolUse tool => rfl

theorem content_iff (blocks : List (SentBlock N target)) :
    blocks.flatMap (·.keptText) = (texts blocks).foldl addText [] ↔
      (∀ t ∈ (texts blocks).dropLast, t = []) ∧
        ∀ b ∈ blocks, b.block.text?.isSome = true → ∀ sent ∈ b.deltas, sent.kept = false → sent.fragment = [] := by
  have hdropped : blocks.flatMap (·.keptText) = (texts blocks).flatten ↔
      ∀ b ∈ blocks, b.block.text?.isSome = true → ∀ sent ∈ b.deltas, sent.kept = false → sent.fragment = [] := by
    rw [flatMap_keptText, flatten_texts, flatMap_filter_eq_iff]
    constructor
    · intro h b hb htext sent hsent
      apply h
      rw [textDeltas, List.mem_flatMap]
      exact ⟨b, hb, by rwa [if_pos htext]⟩
    · intro h sent hsent
      rw [textDeltas, List.mem_flatMap] at hsent
      obtain ⟨b, hb, hsent⟩ := hsent
      split at hsent
      · rename_i htext
        exact h b hb htext sent hsent
      · cases hsent
  have hle : (blocks.flatMap (·.keptText)).length ≤ (texts blocks).flatten.length := by
    rw [flatMap_keptText, flatten_texts]
    exact (List.filter_sublist.flatMap _).length_le
  rw [← hdropped]
  rcases foldl_addText (texts blocks) [] with ⟨hcond, heq⟩ | ⟨hcond, hlt⟩
  · rw [heq, List.nil_append]
    constructor
    · intro h
      refine ⟨?_, h⟩
      rcases hcond with hnil | ⟨-, hempty⟩
      · rw [hnil]
        exact List.forall_mem_nil _
      · exact hempty
    · exact And.right
  · constructor
    · intro h
      rw [h] at hle
      rw [List.nil_append] at hlt
      omega
    · rintro ⟨hempty, -⟩
      exact absurd (.inr ⟨rfl, hempty⟩) hcond

/-- As many calls as blocks means that each of them is started. -/
theorem started_of_length (h : (blocks.filter (·.isCall)).length = (blocks.filterMap (·.block.tool?)).length) :
    ∀ b ∈ blocks, b.block.tool?.isSome = true → b.start.kept = true := by
  have htools : (blocks.filterMap (·.block.tool?)).length = (blocks.filter (·.block.tool?.isSome)).length := by
    rw [List.length_filterMap_eq_countP, List.countP_eq_length_filter]
  have hunits : (blocks.filter (·.isCall)).map (fun _ => ()) = (blocks.filter (·.block.tool?.isSome)).map (fun _ => ()) := by
    rw [List.map_const', List.map_const', h, htools]
  have hcall : ∀ b ∈ blocks, b.isCall = true → b.block.tool?.isSome = true := by
    intro b _ hcall
    exact (Bool.and_eq_true_iff.mp hcall).1
  intro b hb htool
  have hboth := ((map_filter_eq_iff hcall).mp hunits b hb htool).1
  exact (Bool.and_eq_true_iff.mp hboth).2

theorem forall₂_calls_iff
    (hvalue : ∀ b ∈ blocks, ∀ tool ∈ b.block.tool?, Json.valueOf N tool.plainCall.input = some tool.value) :
    List.Forall₂ (SameCall N) ((blocks.filterMap (·.builder?)).map ToolCallBuilder.toToolCall)
        ((blocks.filterMap (·.block.tool?)).map ToolUse.plainCall) ↔
      ∀ b ∈ blocks, ∀ tool ∈ b.block.tool?, Json.valueOf N (inputOf b.keptParts) = some tool.value := by
  induction blocks with
  | nil => simp
  | cons b blocks ih =>
    rw [List.forall_mem_cons] at hvalue
    rw [List.forall_mem_cons, ← ih hvalue.2, List.filterMap_cons, List.filterMap_cons, SentBlock.builder?]
    cases htool : b.block.tool? with
    | none => simp
    | some tool =>
      rw [htool] at hvalue
      have hplain := hvalue.1 tool rfl
      simp only [Option.map_some, List.map_cons, List.forall₂_cons, Option.mem_some_iff, forall_eq']
      refine and_congr_left' ⟨?_, ?_⟩
      · intro hsame
        have hinput := hsame.input
        rwa [hplain] at hinput
      · intro hinput
        exact ⟨rfl, rfl, by rw [hplain]; exact hinput⟩

variable (m : SentMessage N target)

theorem foldl_events : m.events.foldl step .new = step ((m.blocks.flatMap (·.events)).foldl step .new) m.last := by
  rw [SentMessage.events, List.foldl_append]
  rfl

theorem SentMessage.step_last (acc : StreamAccumulator) :
    step acc m.last = { acc with
      stopReason := if m.last.kept then (m.stopReason.map stopReasonOf).getD acc.stopReason else acc.stopReason } := by
  cases hkept : m.last.kept with
  | true =>
    rw [step, hkept, if_pos rfl, m.is_last]
    cases m.stopReason with
    | none => rfl
    | some stopReason => rfl
  | false =>
    rw [step, hkept]
    rfl

/-- The bytes of the events. -/
def SentMessage.lines (m : SentMessage N target) : List Bytes :=
  typedEvents (m.events.map fun sent => (sent.event.eventType, sent.text))

theorem plain_eventType (target : Target) (event : StreamEvent) :
    Sse.PlainLine target.sseLineBufSize (eventLine event.eventType) ∧ event.eventType ≠ [] := by
  have hall : ∀ eventType ∈ ["content_block_start".toList, "content_block_delta".toList, "message_delta".toList],
      Sse.PlainLine target.sseLineBufSize (eventLine eventType) ∧ eventType ≠ [] := by
    cases target with
    | esp => decide +kernel
    | host => decide +kernel
  apply hall
  cases event with
  | contentBlockStart => exact List.mem_cons_self
  | contentBlockDelta => exact List.mem_cons_of_mem _ List.mem_cons_self
  | messageDelta => exact List.mem_cons_of_mem _ (List.mem_cons_of_mem _ List.mem_cons_self)

theorem accumulator_run {t : UInt8} (ht : t = cr ∨ t = lf) {chunks : List Bytes}
    (hchunks : chunks.flatten = Sse.terminated [t] m.lines) :
    (StreamState.run handleEvent StreamAccumulator.content target.sseLineBufSize .new chunks).accumulator =
      m.events.foldl step .new := by
  have hplain : ∀ event ∈ m.events.map fun sent => (sent.event.eventType, sent.text),
      Sse.PlainLine target.sseLineBufSize (eventLine event.1) ∧ Sse.PlainLine target.sseLineBufSize (dataLine event.2) ∧
        event.1 ≠ [] := by
    intro event hevent
    obtain ⟨sent, -, rfl⟩ := List.mem_map.mp hevent
    refine ⟨?_, ⟨cr_notMem_dataLine sent.one_line.2, lf_notMem_dataLine sent.one_line.1, sent.fits⟩, ?_⟩
    · exact (plain_eventType target sent.event).1
    · exact (plain_eventType target sent.event).2
  have hevents := readEvents_typedEvents ht (fun event h => ⟨(hplain event h).1, (hplain event h).2.1⟩)
    (fun event h => (hplain event h).2.2) hchunks
  rw [StreamState.run_eq, accumulator_foldl_handleEvent, hevents, List.map_map]
  exact foldl_handleEvent_sent m.events .new

/-- The inputs in the body are those of the message. -/
theorem SentMessage.valueOf_plainCall {id : Option (List Char)} {body : Bytes}
    (hbody : fromSlice N body = some (m.response id)) :
    ∀ b ∈ m.blocks, ∀ tool ∈ b.block.tool?, Json.valueOf N tool.plainCall.input = some tool.value := by
  intro b hb tool htool
  apply ToolUse.valueOf_plainCall
  have hblock : b.block = .toolUse tool := by
    cases hblock : b.block with
    | text content =>
      rw [hblock] at htool
      cases htool
    | toolUse tool' =>
      rw [hblock] at htool
      rw [Option.some.inj htool]
  have hsettled := settled_input hbody b.block.toContentBlock (List.mem_map_of_mem hb)
  rwa [hblock] at hsettled

theorem SentMessage.fromAnthropic_response (id : Option (List Char)) :
    fromAnthropic (m.response id) =
      .assemble ((texts m.blocks).foldl addText []) ((m.stopReason.map stopReasonOf).getD .other)
        ((m.blocks.filterMap (·.block.tool?)).map ToolUse.plainCall) := by
  have hblocks : (m.response id).content = (m.blocks.map (·.block)).map Block.toContentBlock := by
    rw [List.map_map]
    rfl
  have hfold := foldl_addBlock (m.blocks.map (·.block)) ([], [])
  rw [List.filterMap_map, List.filterMap_map] at hfold
  rw [fromAnthropic, hblocks, hfold]
  rfl

theorem stopReason_iff (content content' : List Char) {toolCalls toolCalls' : List ToolCall}
    (hlength : toolCalls.length = toolCalls'.length) (kept : Bool) (r : StopReason) :
    (LlmResponse.assemble content (if kept then r else .other) toolCalls).stopReason =
        (LlmResponse.assemble content' r toolCalls').stopReason ↔ kept = true ∨ toolCalls' ≠ [] ∨ r = .other := by
  rw [LlmResponse.stopReason_assemble, LlmResponse.stopReason_assemble]
  have hnil : toolCalls = [] ↔ toolCalls' = [] := by
    rw [← List.length_eq_zero_iff, ← List.length_eq_zero_iff, hlength]
  by_cases hcalls : toolCalls' = []
  · rw [if_pos (hnil.mpr hcalls), if_pos hcalls]
    cases kept with
    | true => simp
    | false => simp [hcalls, eq_comm]
  · rw [if_neg (fun h => hcalls (hnil.mp h)), if_neg hcalls]
    simp [hcalls]

/-- The streamed answer agrees with the plain one exactly when nothing that matters is passed over
and no newline is put between texts. -/
theorem anthropic_stream_agrees_iff (m : SentMessage N target) (id : Option (List Char)) {body : Bytes}
    (hbody : fromSlice N body = some (m.response id)) {t : UInt8} (ht : t = cr ∨ t = lf) {chunks : List Bytes}
    (hchunks : chunks.flatten = Sse.terminated [t] m.lines) : ∃ plain streamed,
    doRequest N (.ok (200, body)) = .ok plain ∧ (doRequestStreaming target ⟨chunks, .ok 200⟩).1 = .ok streamed ∧
      (Agrees N streamed plain ↔ Faithful m) := by
  have hplain : doRequest N (.ok (200, body)) = .ok (fromAnthropic (m.response id)) := by
    simp only [doRequest, hbody]
    rfl
  refine ⟨_, _, hplain, rfl, ?_⟩
  have hvalue := m.valueOf_plainCall hbody
  obtain ⟨hcontent, hstop, hlength, hcalls⟩ := foldl_blocks m.blocks .new
  rw [accumulator_run m ht hchunks, foldl_events, m.step_last, m.fromAnthropic_response]
  generalize (m.blocks.flatMap (·.events)).foldl step .new = acc at hcontent hstop hlength hcalls ⊢
  have htext := content_iff m.blocks
  have hkeptText : acc.content = m.blocks.flatMap (·.keptText) := hcontent
  rw [← hkeptText] at htext
  have hfinish : StreamAccumulator.finish { acc with
        stopReason := if m.last.kept then (m.stopReason.map stopReasonOf).getD acc.stopReason else acc.stopReason } =
      .assemble acc.content (if m.last.kept then (m.stopReason.map stopReasonOf).getD .other else .other)
        (acc.toolCalls.map ToolCallBuilder.toToolCall) := by
    rw [StreamAccumulator.finish, hstop]
    rfl
  have hexists : (m.blocks.filterMap (·.block.tool?)).map ToolUse.plainCall ≠ [] ↔
      ∃ b ∈ m.blocks, b.block.tool?.isSome = true := by
    rw [Ne, List.map_eq_nil_iff, List.filterMap_eq_nil_iff]
    simp [Option.isSome_iff_ne_none]
  have hsame : (acc.toolCalls.map ToolCallBuilder.toToolCall).length =
      ((m.blocks.filterMap (·.block.tool?)).map ToolUse.plainCall).length →
        ∀ b ∈ m.blocks, b.block.tool?.isSome = true → b.start.kept = true := by
    intro h
    rw [List.length_map, List.length_map, hlength] at h
    exact started_of_length ((Nat.zero_add _).symm.trans h)
  rw [hfinish]
  constructor
  · rintro ⟨hsameContent, hsameStop, hsameCalls⟩
    rw [LlmResponse.toolCalls_assemble, LlmResponse.toolCalls_assemble] at hsameCalls
    have hlengths := hsameCalls.length_eq
    have hstarted := hsame hlengths
    rw [hcalls hstarted] at hsameCalls
    have hinputs := (forall₂_calls_iff hvalue).mp hsameCalls
    obtain ⟨honeText, hparts⟩ := htext.mp hsameContent
    refine ⟨honeText, hparts, ?_, ?_⟩
    · intro b hb tool htool
      exact ⟨hstarted b hb (by rw [htool]; rfl), hinputs b hb tool htool⟩
    · rw [← hexists]
      exact (stopReason_iff _ _ hlengths _ _).mp hsameStop
  · rintro ⟨honeText, hparts, hkept, hlast⟩
    have hstarted : ∀ b ∈ m.blocks, b.block.tool?.isSome = true → b.start.kept = true := by
      intro b hb htool
      obtain ⟨tool, htool⟩ := Option.isSome_iff_exists.mp htool
      exact (hkept b hb tool htool).1
    have hsameCalls : List.Forall₂ (SameCall N) (acc.toolCalls.map ToolCallBuilder.toToolCall)
        ((m.blocks.filterMap (·.block.tool?)).map ToolUse.plainCall) := by
      rw [hcalls hstarted]
      exact (forall₂_calls_iff hvalue).mpr fun b hb tool htool => (hkept b hb tool htool).2
    refine ⟨htext.mpr ⟨honeText, hparts⟩, ?_, ?_⟩
    · rw [← hexists] at hlast
      exact (stopReason_iff _ _ hsameCalls.length_eq _ _).mpr hlast
    · rw [LlmResponse.toolCalls_assemble, LlmResponse.toolCalls_assemble]
      exact hsameCalls

def weatherTool : ToolUse := ⟨"t1".toList, "get".toList, .obj [(Json.string ['a'], .num ['1'])]⟩

def weatherStart : Sent .host where
  event := .contentBlockStart (some ⟨"tool_use".toList, some "t1".toList, some "get".toList⟩)
  text := "\x7b\"content_block\":\x7b\"type\":\"tool_use\",\"id\":\"t1\",\"name\":\"get\",\"input\":\x7b\x7d\x7d\x7d".toList
  spells := by decide +kernel
  one_line := by decide +kernel
  fits := by decide +kernel

/-- Partial JSON has quotes, which have to be written with escapes. -/
def weatherDelta : Sent .host where
  event := .contentBlockDelta (some ⟨"input_json_delta".toList, none, some "\x7b\"a\":1\x7d".toList⟩)
  text := "\x7b\"delta\":\x7b\"type\":\"input_json_delta\",\"partial_json\":\"\x7b\\\"a\\\":1\x7d\"\x7d\x7d".toList
  spells := by decide +kernel
  one_line := by decide +kernel
  fits := by decide +kernel

def toolStop : Sent .host where
  event := .messageDelta (some ⟨some "tool_use".toList⟩)
  text := "\x7b\"delta\":\x7b\"stop_reason\":\"tool_use\"\x7d\x7d".toList
  spells := by decide +kernel
  one_line := by decide +kernel
  fits := by decide +kernel

def weatherMessage : SentMessage .literal .host where
  blocks := [{
    block := .toolUse weatherTool
    start := weatherStart
    deltas := [weatherDelta]
    is_start := rfl
    is_delta := by
      intro sent hsent
      obtain rfl := List.mem_singleton.mp hsent
      rfl
    is_whole := by
      have hwhole : Json.valueOf .literal "\x7b\"a\":1\x7d".toList = some weatherTool.value := by decide +kernel
      exact hwhole }]
  stopReason := some "tool_use".toList
  last := toolStop
  is_last := rfl

def weatherBody : List Char :=
  "\x7b\"content\":[\x7b\"type\":\"tool_use\",\"id\":\"t1\",\"name\":\"get\",\"input\":\x7b\"a\":1\x7d\x7d],\"stop_reason\":\"tool_use\"\x7d".toList

theorem fromSlice_weatherBody : fromSlice .literal (utf8 weatherBody) = some (weatherMessage.response none) := by
  rw [fromSlice, fromUtf8_utf8]
  decide +kernel

theorem weather_agrees_iff : ∃ plain streamed, doRequest .literal (.ok (200, utf8 weatherBody)) = .ok plain ∧
    (doRequestStreaming .host ⟨[Sse.terminated [lf] weatherMessage.lines], .ok 200⟩).1 = .ok streamed ∧
      (Agrees .literal streamed plain ↔ Faithful weatherMessage) :=
  anthropic_stream_agrees_iff weatherMessage none fromSlice_weatherBody (.inr rfl) List.flatten_singleton

/-- The input of a tool call is lost in the stream. -/
theorem weather_input_lost : ∃ plain streamed, doRequest .literal (.ok (200, utf8 weatherBody)) = .ok plain ∧
    (doRequestStreaming .host ⟨[Sse.terminated [lf] weatherMessage.lines], .ok 200⟩).1 = .ok streamed ∧
      ¬ Agrees .literal streamed plain := by
  have hplain : doRequest .literal (.ok (200, utf8 weatherBody)) = .ok (fromAnthropic (weatherMessage.response none)) := by
    simp only [doRequest, fromSlice_weatherBody]
    rfl
  refine ⟨_, _, hplain, rfl, ?_⟩
  intro hagrees
  have hcalls := hagrees.toolCalls
  rw [accumulator_run weatherMessage (.inr rfl) List.flatten_singleton] at hcalls
  have hstreamed : ((weatherMessage.events.foldl step .new).finish.toolCalls.getD []) =
      [⟨"t1".toList, "get".toList, ['\x7b', '\x7d']⟩] := by decide +kernel
  have hbody : ((fromAnthropic (weatherMessage.response none)).toolCalls.getD []) =
      [⟨"t1".toList, "get".toList, "\x7b\"a\":1\x7d".toList⟩] := by decide +kernel
  rw [hstreamed, hbody] at hcalls
  have hinput := (List.forall₂_cons.mp hcalls).1.input
  revert hinput
  decide +kernel

end Beetle.Llm.Anthropic
