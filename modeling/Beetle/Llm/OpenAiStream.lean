import Beetle.Lib.JsonRead
import Beetle.Llm.Streaming

/-! The OpenAI streaming format: chunks, and the answer that is put together from them. -/
namespace Beetle.Llm
open Beetle.Lib

namespace OpenAi

structure StreamFunctionDelta where
  name : Option (List Char)
  arguments : Option (List Char)
  deriving DecidableEq

structure StreamToolCallDelta where
  index : Option Nat
  id : Option (List Char)
  function : Option StreamFunctionDelta
  deriving DecidableEq

structure StreamDelta where
  content : Option (List Char)
  toolCalls : Option (List StreamToolCallDelta)
  deriving DecidableEq

structure StreamChoice where
  finishReason : Option (List Char)
  delta : Option StreamDelta
  deriving DecidableEq

structure StreamChunk where
  choices : List StreamChoice
  deriving DecidableEq

/-! Deserialization, for a given way of reading the strings. -/
section
variable (str : Json → Option (List Char))

def readFunctionDelta : Json → Option StreamFunctionDelta :=
  Json.asObj fun members => do
    let name ← Json.optionalField str members "name"
    let arguments ← Json.optionalField str members "arguments"
    return ⟨name, arguments⟩

def readToolCallDelta : Json → Option StreamToolCallDelta :=
  Json.asObj fun members => do
    let index ← Json.optionalField Json.asU64 members "index"
    let id ← Json.optionalField str members "id"
    let function ← Json.optionalField (readFunctionDelta str) members "function"
    return ⟨index, id, function⟩

def readDelta : Json → Option StreamDelta :=
  Json.asObj fun members => do
    let content ← Json.optionalField str members "content"
    let toolCalls ← Json.optionalField (Json.asArr (readToolCallDelta str)) members "tool_calls"
    return ⟨content, toolCalls⟩

def readChoice : Json → Option StreamChoice :=
  Json.asObj fun members => do
    let finishReason ← Json.optionalField str members "finish_reason"
    let delta ← Json.optionalField (readDelta str) members "delta"
    return ⟨finishReason, delta⟩

def readChunk : Json → Option StreamChunk :=
  Json.asObj fun members => do
    let choices ← Json.defaultField (Json.asArr (readChoice str)) [] members "choices"
    return ⟨choices⟩

end

/-- `serde_json::from_str` of a chunk, with strings that borrow from the text or with owned ones. -/
def fromStr (str : Json → Option (List Char)) (text : List Char) : Option StreamChunk :=
  (Json.fromStr 127 text).bind (readChunk str)

/-! The accumulator. -/

def finishReasonToStopReason (s : Option (List Char)) : StopReason :=
  if s = some "stop".toList then .endTurn
  else if s = some "tool_calls".toList then .toolUse
  else if s = some "length".toList then .maxTokens
  else .other

structure ToolCallBuilder where
  id : List Char
  name : List Char
  arguments : List Char

def ToolCallBuilder.empty : ToolCallBuilder := ⟨[], [], []⟩

structure StreamAccumulator where
  content : List Char
  stopReason : StopReason
  toolCalls : List ToolCallBuilder

def StreamAccumulator.new : StreamAccumulator := ⟨[], .other, []⟩

def maxToolCallIndex : Nat := 128

def StreamToolCallDelta.nameText (tc : StreamToolCallDelta) : List Char := (tc.function.bind (·.name)).getD []
def StreamToolCallDelta.argumentsText (tc : StreamToolCallDelta) : List Char := (tc.function.bind (·.arguments)).getD []

def ToolCallBuilder.extend (builder : ToolCallBuilder) (tc : StreamToolCallDelta) : ToolCallBuilder where
  id := tc.id.getD builder.id
  name := builder.name ++ tc.nameText
  arguments := builder.arguments ++ tc.argumentsText

def handleToolCall (target : Target) (toolCalls : List ToolCallBuilder) (tc : StreamToolCallDelta) :
    List ToolCallBuilder :=
  let index := tc.index.getD 0 % 2 ^ target.usizeBits
  if index > maxToolCallIndex then toolCalls
  else (toolCalls ++ List.replicate (index + 1 - toolCalls.length) ToolCallBuilder.empty).modify index (·.extend tc)

/-- One choice, and the last text so far. -/
def handleChoice (target : Target) (s : StreamAccumulator × Option (List Char)) (choice : StreamChoice) :
    StreamAccumulator × Option (List Char) :=
  let stopReason :=
    if choice.finishReason = none then s.1.stopReason else finishReasonToStopReason choice.finishReason
  match choice.delta with
  | none => ({ s.1 with stopReason }, s.2)
  | some delta =>
    let content := s.1.content ++ delta.content.getD []
    let toolCalls := (delta.toolCalls.getD []).foldl (handleToolCall target) s.1.toolCalls
    (⟨content, stopReason, toolCalls⟩, delta.content.or s.2)

def handleChunk (target : Target) (acc : StreamAccumulator) (chunk : StreamChunk) :
    StreamAccumulator × Option (List Char) :=
  chunk.choices.foldl (handleChoice target) (acc, none)

def ToolCallBuilder.toToolCall (tc : ToolCallBuilder) : ToolCall := ⟨tc.id, tc.name, inputOf tc.arguments⟩

def StreamAccumulator.finish (acc : StreamAccumulator) : LlmResponse :=
  .assemble acc.content acc.stopReason ((acc.toolCalls.filter (·.name ≠ [])).map ToolCallBuilder.toToolCall)

/-- One event of the stream; what cannot be parsed is passed over. -/
def handleEvent (target : Target) (acc : StreamAccumulator) (event : Sse.SseEvent) :
    StreamAccumulator × Option (List Char) :=
  match fromUtf8 event.data with
  | none => (acc, none)
  | some data =>
    if data = "[DONE]".toList then (acc, none)
    else
      match fromStr Json.asStr data with
      | none => (acc, none)
      | some chunk => handleChunk target acc chunk

/-- The answer, and the calls of the callback. -/
def doRequestStreaming (target : Target) (post : StreamedPost) : Except Error LlmResponse × List Progress :=
  let s := StreamState.run (handleEvent target) StreamAccumulator.content target.sseLineBufSize .new post.chunks
  (checkStatus post.status s.accumulator.finish, s.progress)

/-! A reader that reads more texts reads the same from those that the other one reads. -/
section
variable {strict lenient : Json → Option (List Char)} (h : Json.Extends strict lenient)
include h

theorem extends_readFunctionDelta : Json.Extends (readFunctionDelta strict) (readFunctionDelta lenient) := by
  apply Json.Extends.asObj
  intro members a hread
  simp only [Option.bind_eq_bind, Option.bind_eq_some_iff] at hread ⊢
  obtain ⟨name, hname, arguments, harguments, hread⟩ := hread
  exact ⟨name, h.optionalField hname, arguments, h.optionalField harguments, hread⟩

theorem extends_readToolCallDelta : Json.Extends (readToolCallDelta strict) (readToolCallDelta lenient) := by
  apply Json.Extends.asObj
  intro members a hread
  simp only [Option.bind_eq_bind, Option.bind_eq_some_iff] at hread ⊢
  obtain ⟨index, hindex, id, hid, function, hfunction, hread⟩ := hread
  exact ⟨index, hindex, id, h.optionalField hid, function, (extends_readFunctionDelta h).optionalField hfunction, hread⟩

theorem extends_readDelta : Json.Extends (readDelta strict) (readDelta lenient) := by
  apply Json.Extends.asObj
  intro members a hread
  simp only [Option.bind_eq_bind, Option.bind_eq_some_iff] at hread ⊢
  obtain ⟨content, hcontent, toolCalls, htoolCalls, hread⟩ := hread
  exact ⟨content, h.optionalField hcontent, toolCalls, (extends_readToolCallDelta h).asArr.optionalField htoolCalls, hread⟩

theorem extends_readChoice : Json.Extends (readChoice strict) (readChoice lenient) := by
  apply Json.Extends.asObj
  intro members a hread
  simp only [Option.bind_eq_bind, Option.bind_eq_some_iff] at hread ⊢
  obtain ⟨finishReason, hreason, delta, hdelta, hread⟩ := hread
  exact ⟨finishReason, h.optionalField hreason, delta, (extends_readDelta h).optionalField hdelta, hread⟩

theorem extends_readChunk : Json.Extends (readChunk strict) (readChunk lenient) := by
  apply Json.Extends.asObj
  intro members a hread
  simp only [Option.bind_eq_bind, Option.bind_eq_some_iff] at hread ⊢
  obtain ⟨choices, hchoices, hread⟩ := hread
  exact ⟨choices, (extends_readChoice h).asArr.defaultField hchoices, hread⟩

end

theorem fromStr_asString {text : List Char} {chunk : StreamChunk} (h : fromStr Json.asStr text = some chunk) :
    fromStr Json.asString text = some chunk := by
  obtain ⟨json, hjson, hread⟩ := Option.bind_eq_some_iff.mp h
  rw [fromStr, hjson]
  exact extends_readChunk Json.extends_asStr json chunk hread

/-! What the accumulator holds. -/

def StreamChunk.text (chunk : StreamChunk) : List Char :=
  chunk.choices.flatMap fun choice => (choice.delta.bind (·.content)).getD []

def StreamChunk.fragments (chunk : StreamChunk) : List StreamToolCallDelta :=
  chunk.choices.flatMap fun choice => (choice.delta.bind (·.toolCalls)).getD []

def StreamToolCallDelta.isAt (i : Nat) (tc : StreamToolCallDelta) : Bool := tc.index.getD 0 = i

/-- The builder that some fragments make at an index. -/
def builderAt (i : Nat) (start : ToolCallBuilder) (fragments : List StreamToolCallDelta) : ToolCallBuilder :=
  (fragments.filter (·.isAt i)).foldl ToolCallBuilder.extend start

theorem foldl_extend (start : ToolCallBuilder) (fragments : List StreamToolCallDelta) :
    (fragments.foldl ToolCallBuilder.extend start).name = start.name ++ fragments.flatMap (·.nameText) ∧
      (fragments.foldl ToolCallBuilder.extend start).arguments =
        start.arguments ++ fragments.flatMap (·.argumentsText) := by
  induction fragments generalizing start with
  | nil => simp
  | cons tc fragments ih =>
    obtain ⟨hname, harguments⟩ := ih (start.extend tc)
    rw [List.foldl_cons, hname, harguments]
    simp [ToolCallBuilder.extend, List.append_assoc]

theorem getD_append_replicate (toolCalls : List ToolCallBuilder) (n i : Nat) :
    (toolCalls ++ List.replicate n ToolCallBuilder.empty).getD i ToolCallBuilder.empty =
      toolCalls.getD i ToolCallBuilder.empty := by
  rw [List.getD_eq_getElem?_getD, List.getD_eq_getElem?_getD]
  by_cases hi : i < toolCalls.length
  · rw [List.getElem?_append_left hi]
  · rw [List.getElem?_append_right (by omega), List.getElem?_replicate, List.getElem?_eq_none (by omega)]
    split
    · rfl
    · rfl

section
variable {target : Target} {tc : StreamToolCallDelta} (htc : tc.index.getD 0 ≤ maxToolCallIndex)
  (toolCalls : List ToolCallBuilder)
include htc

theorem handleToolCall_eq : handleToolCall target toolCalls tc =
    (toolCalls ++ List.replicate (tc.index.getD 0 + 1 - toolCalls.length) ToolCallBuilder.empty).modify
      (tc.index.getD 0) (·.extend tc) := by
  have hindex : tc.index.getD 0 % 2 ^ target.usizeBits = tc.index.getD 0 := by
    apply Nat.mod_eq_of_lt
    have hbits : maxToolCallIndex < 2 ^ target.usizeBits := by cases target <;> decide
    omega
  simp only [handleToolCall, hindex, if_neg (Nat.not_lt.mpr htc)]

/-- One fragment changes the builder at its index, and adds what is missing before it. -/
theorem getD_handleToolCall (i : Nat) : (handleToolCall target toolCalls tc).getD i ToolCallBuilder.empty =
    builderAt i (toolCalls.getD i ToolCallBuilder.empty) [tc] := by
  rw [handleToolCall_eq htc]
  generalize hlong : toolCalls ++ List.replicate (tc.index.getD 0 + 1 - toolCalls.length) ToolCallBuilder.empty = long
  have hgetD : long.getD i ToolCallBuilder.empty = toolCalls.getD i ToolCallBuilder.empty := by
    rw [← hlong, getD_append_replicate]
  have hlength : tc.index.getD 0 < long.length := by
    rw [← hlong, List.length_append, List.length_replicate]
    omega
  rw [← hgetD, List.getD_eq_getElem?_getD, List.getD_eq_getElem?_getD, List.getElem?_modify]
  by_cases hi : tc.index.getD 0 = i
  · have hat : tc.isAt i = true := decide_eq_true hi
    obtain ⟨builder, hbuilder⟩ : ∃ builder, long[i]? = some builder := ⟨_, List.getElem?_eq_getElem (hi ▸ hlength)⟩
    simp [hbuilder, hi, builderAt, hat]
  · have hat : tc.isAt i = false := decide_eq_false hi
    simp [hi, builderAt, hat]

theorem length_handleToolCall_le (hlength : toolCalls.length ≤ maxToolCallIndex + 1) :
    (handleToolCall target toolCalls tc).length ≤ maxToolCallIndex + 1 := by
  rw [handleToolCall_eq htc, List.length_modify, List.length_append, List.length_replicate]
  omega

end

variable {target : Target} {toolCalls : List ToolCallBuilder}

/-- The builders hold what the fragments at their indices make of them. -/
theorem foldl_handleToolCall (target : Target) {fragments : List StreamToolCallDelta}
    (hindex : ∀ tc ∈ fragments, tc.index.getD 0 ≤ maxToolCallIndex) (toolCalls : List ToolCallBuilder)
    (hlength : toolCalls.length ≤ maxToolCallIndex + 1) :
    (fragments.foldl (handleToolCall target) toolCalls).length ≤ maxToolCallIndex + 1 ∧
      ∀ i, (fragments.foldl (handleToolCall target) toolCalls).getD i ToolCallBuilder.empty =
        builderAt i (toolCalls.getD i ToolCallBuilder.empty) fragments := by
  induction fragments generalizing toolCalls with
  | nil => exact ⟨hlength, fun i => rfl⟩
  | cons tc fragments ih =>
    rw [List.forall_mem_cons] at hindex
    obtain ⟨hle, hgetD⟩ := ih hindex.2 _ (length_handleToolCall_le hindex.1 toolCalls hlength)
    refine ⟨hle, ?_⟩
    intro i
    rw [List.foldl_cons, hgetD, getD_handleToolCall hindex.1]
    have hcons : tc :: fragments = [tc] ++ fragments := rfl
    rw [hcons, builderAt, builderAt, builderAt, List.filter_append, List.foldl_append]

/-- A choice adds its text and its fragments. -/
theorem handleChoice_eq (target : Target) (s : StreamAccumulator × Option (List Char)) (choice : StreamChoice) :
    (handleChoice target s choice).1.content = s.1.content ++ (choice.delta.bind (·.content)).getD [] ∧
      (handleChoice target s choice).1.toolCalls =
        ((choice.delta.bind (·.toolCalls)).getD []).foldl (handleToolCall target) s.1.toolCalls := by
  unfold handleChoice
  cases choice.delta with
  | none => simp
  | some delta => simp

theorem foldl_handleChoice (target : Target) (s : StreamAccumulator × Option (List Char)) (choices : List StreamChoice) :
    (choices.foldl (handleChoice target) s).1.content = s.1.content ++ StreamChunk.text ⟨choices⟩ ∧
      (choices.foldl (handleChoice target) s).1.toolCalls =
        (StreamChunk.fragments ⟨choices⟩).foldl (handleToolCall target) s.1.toolCalls := by
  induction choices generalizing s with
  | nil => simp [StreamChunk.text, StreamChunk.fragments]
  | cons choice choices ih =>
    obtain ⟨hcontent, htoolCalls⟩ := handleChoice_eq target s choice
    obtain ⟨hcontents, htoolCallss⟩ := ih (handleChoice target s choice)
    rw [List.foldl_cons, hcontents, htoolCallss, hcontent, htoolCalls]
    simp [StreamChunk.text, StreamChunk.fragments, List.append_assoc]

/-- What the accumulator holds after some chunks. -/
theorem foldl_handleChunk (target : Target) (chunks : List StreamChunk) (acc : StreamAccumulator) :
    (chunks.foldl (fun acc chunk => (handleChunk target acc chunk).1) acc).content =
        acc.content ++ chunks.flatMap StreamChunk.text ∧
      (chunks.foldl (fun acc chunk => (handleChunk target acc chunk).1) acc).toolCalls =
        (chunks.flatMap StreamChunk.fragments).foldl (handleToolCall target) acc.toolCalls := by
  induction chunks generalizing acc with
  | nil => simp
  | cons chunk chunks ih =>
    obtain ⟨hcontent, htoolCalls⟩ := foldl_handleChoice target (acc, none) chunk.choices
    obtain ⟨hcontents, htoolCallss⟩ := ih (handleChunk target acc chunk).1
    rw [List.foldl_cons, hcontents, htoolCallss, handleChunk, hcontent, htoolCalls]
    simp [List.append_assoc]

theorem map_range_getD {n : Nat} (h : toolCalls.length ≤ n) :
    (List.range n).map (toolCalls.getD · ToolCallBuilder.empty) =
      toolCalls ++ List.replicate (n - toolCalls.length) ToolCallBuilder.empty := by
  apply List.ext_getElem
  · simp
    omega
  · intro i hi hi'
    rw [List.getElem_map, List.getElem_range, ← getD_append_replicate toolCalls (n - toolCalls.length) i,
      List.getD_eq_getElem?_getD, List.getElem?_eq_getElem hi', Option.getD_some]

/-- The builders with a name, by their indices. -/
theorem filter_name_eq {n : Nat} (h : toolCalls.length ≤ n) :
    toolCalls.filter (·.name ≠ []) =
      ((List.range n).filter fun i => (toolCalls.getD i ToolCallBuilder.empty).name ≠ []).map
        (toolCalls.getD · ToolCallBuilder.empty) := by
  have hempty : (List.replicate (n - toolCalls.length) ToolCallBuilder.empty).filter (·.name ≠ []) = [] := by
    simp [ToolCallBuilder.empty]
  calc toolCalls.filter (·.name ≠ [])
      = (toolCalls ++ List.replicate (n - toolCalls.length) ToolCallBuilder.empty).filter (·.name ≠ []) := by
        rw [List.filter_append, hempty, List.append_nil]
    _ = ((List.range n).map (toolCalls.getD · ToolCallBuilder.empty)).filter (·.name ≠ []) := by rw [map_range_getD h]
    _ = _ := by rw [List.filter_map]; rfl

/-! What is sent, and what of it comes into the answer. -/

/-- A chunk and a text that spells it, as the data of one event. Any use of escapes is allowed. -/
structure Sent (target : Target) where
  chunk : StreamChunk
  text : List Char
  spells : fromStr Json.asString text = some chunk
  one_line : '\n' ∉ text ∧ '\r' ∉ text
  fits : (dataLine text).length ≤ target.sseLineBufSize
  index_le : ∀ tc ∈ chunk.fragments, tc.index.getD 0 ≤ maxToolCallIndex

/-- The chunk is parsed: none of the strings that are borrowed is written with an escape. -/
def Sent.kept (sent : Sent target) : Bool := (fromStr Json.asStr sent.text).isSome

def Sent.nameAt (i : Nat) (sent : Sent target) : List Char :=
  (sent.chunk.fragments.filter (·.isAt i)).flatMap (·.nameText)

def Sent.argumentsAt (i : Nat) (sent : Sent target) : List Char :=
  (sent.chunk.fragments.filter (·.isAt i)).flatMap (·.argumentsText)

/-- An index that received a name. -/
def isNamed (sents : List (Sent target)) (i : Nat) : Bool := sents.any fun sent => sent.nameAt i ≠ []

/-- All of the text, and for each named index a tool call with all of its arguments. -/
def LosesNothing (sents : List (Sent target)) (response : LlmResponse) : Prop :=
  response.content = sents.flatMap (·.chunk.text) ∧
    (response.toolCalls.getD []).map (·.input) =
      ((List.range (maxToolCallIndex + 1)).filter (isNamed sents)).map fun i => inputOf (sents.flatMap (·.argumentsAt i))

/-- The events, each of one data line, and the mark at the end if there is one. -/
def eventTexts (sents : List (Sent target)) (done : Bool) : List (List Char) :=
  sents.map (·.text) ++ if done then ["[DONE]".toList] else []

/-- What has to hold so that nothing is lost: a chunk that is not parsed holds no text, and
nothing of a tool call that is not there anyway. -/
def NothingDropped (sents : List (Sent target)) : Prop :=
  (∀ sent ∈ sents, sent.kept = false → sent.chunk.text = []) ∧
    ∀ i ≤ maxToolCallIndex, isNamed sents i = true →
      (∃ sent ∈ sents, sent.kept = true ∧ sent.nameAt i ≠ []) ∧
        ((∀ sent ∈ sents, sent.kept = false → sent.argumentsAt i = []) ∨
          (∀ sent ∈ sents, sent.kept = true → sent.argumentsAt i = []) ∧
            sents.flatMap (·.argumentsAt i) = ['\x7b', '\x7d'])

theorem fromStr_nil (str : Json → Option (List Char)) : fromStr str [] = none := rfl

theorem fromStr_done (str : Json → Option (List Char)) : fromStr str "[DONE]".toList = none := by
  have hjson : (Json.fromStr 127 "[DONE]".toList).isNone = true := by decide +kernel
  rw [fromStr, Option.isNone_iff_eq_none.mp hjson]
  rfl

variable (sent : Sent target)

theorem Sent.text_ne : sent.text ≠ [] ∧ sent.text ≠ "[DONE]".toList := by
  constructor
  · intro htext
    have hspells := sent.spells
    rw [htext, fromStr_nil] at hspells
    cases hspells
  · intro htext
    have hspells := sent.spells
    rw [htext, fromStr_done] at hspells
    cases hspells

/-- A chunk that is parsed is the one that was sent. -/
theorem Sent.fromStr_asStr : fromStr Json.asStr sent.text = if sent.kept then some sent.chunk else none := by
  unfold kept
  cases hread : fromStr Json.asStr sent.text with
  | none => rfl
  | some chunk =>
    have hlenient := fromStr_asString hread
    rw [sent.spells] at hlenient
    rw [← Option.some.inj hlenient]
    rfl

theorem Sent.handleEvent_eq (acc : StreamAccumulator) :
    (handleEvent target acc ⟨[], utf8 sent.text⟩).1 =
      if sent.kept then (handleChunk target acc sent.chunk).1 else acc := by
  simp only [handleEvent, fromUtf8_utf8, if_neg sent.text_ne.2, sent.fromStr_asStr]
  cases sent.kept with
  | true => rfl
  | false => rfl

variable (sents : List (Sent target))

theorem foldl_handleEvent_sents (acc : StreamAccumulator) :
    (sents.map fun sent => (⟨[], utf8 sent.text⟩ : Sse.SseEvent)).foldl
        (fun acc event => (handleEvent target acc event).1) acc =
      ((sents.filter (·.kept)).map (·.chunk)).foldl (fun acc chunk => (handleChunk target acc chunk).1) acc := by
  induction sents generalizing acc with
  | nil => rfl
  | cons sent sents ih =>
    rw [List.map_cons, List.foldl_cons, ih, sent.handleEvent_eq]
    cases hkept : sent.kept with
    | true =>
      rw [List.filter_cons_of_pos hkept]
      rfl
    | false =>
      rw [List.filter_cons_of_neg (by simp [hkept])]
      rfl

theorem handleEvent_done (acc : StreamAccumulator) :
    (handleEvent target acc ⟨[], utf8 "[DONE]".toList⟩).1 = acc := by
  simp only [handleEvent, fromUtf8_utf8, if_pos]

/-- The bytes of the events, in any line ending. -/
theorem accumulator_run (done : Bool) {ending : Bytes} (hending : ending ∈ [[lf], [cr], [cr, lf]]) {chunks : List Bytes}
    (hchunks : chunks.flatten = Sse.terminated ending (dataEvents (eventTexts sents done))) :
    (StreamState.run (handleEvent target) StreamAccumulator.content target.sseLineBufSize .new chunks).accumulator =
      ((sents.filter (·.kept)).map (·.chunk)).foldl (fun acc chunk => (handleChunk target acc chunk).1) .new := by
  have htexts : ∀ text ∈ eventTexts sents done,
      Sse.PlainLine target.sseLineBufSize (dataLine text) ∧ text ≠ [] := by
    intro text htext
    rcases List.mem_append.mp htext with hsent | hdone
    · obtain ⟨sent, -, rfl⟩ := List.mem_map.mp hsent
      refine ⟨⟨?_, ?_, sent.fits⟩, sent.text_ne.1⟩
      · exact cr_notMem_dataLine sent.one_line.2
      · exact lf_notMem_dataLine sent.one_line.1
    · have hmark : Sse.PlainLine target.sseLineBufSize (dataLine "[DONE]".toList) := by cases target <;> decide +kernel
      cases done with
      | true =>
        obtain rfl := List.mem_singleton.mp hdone
        exact ⟨hmark, by decide⟩
      | false => cases hdone
  have hevents := readEvents_dataEvents hending (fun text h => (htexts text h).1) (fun text h => (htexts text h).2) hchunks
  rw [StreamState.run_eq, accumulator_foldl_handleEvent, hevents, eventTexts, List.map_append, List.foldl_append,
    List.map_map]
  have hsents := foldl_handleEvent_sents sents .new
  rw [← hsents]
  cases done with
  | true => exact handleEvent_done _
  | false => rfl

theorem isNamed_iff (i : Nat) : isNamed sents i = true ↔ sents.flatMap (·.nameAt i) ≠ [] := by
  rw [isNamed, List.any_eq_true, Ne, List.flatMap_eq_nil_iff]
  simp

theorem flatMap_fragments (i : Nat) (text : StreamToolCallDelta → List Char) :
    (((sents.map (·.chunk)).flatMap StreamChunk.fragments).filter (·.isAt i)).flatMap text =
      sents.flatMap fun sent => (sent.chunk.fragments.filter (·.isAt i)).flatMap text := by
  induction sents with
  | nil => rfl
  | cons sent sents ih =>
    rw [List.map_cons, List.flatMap_cons, List.filter_append, List.flatMap_append, ih, List.flatMap_cons]

/-- The answer, in terms of the chunks that are parsed. -/
theorem finish_kept (kept : List (Sent target)) {acc : StreamAccumulator}
    (hacc : acc = (kept.map (·.chunk)).foldl (fun acc chunk => (handleChunk target acc chunk).1) .new) :
    acc.finish.content = kept.flatMap (·.chunk.text) ∧
      (acc.finish.toolCalls.getD []).map (·.input) =
        ((List.range (maxToolCallIndex + 1)).filter (isNamed kept)).map fun i =>
          inputOf (kept.flatMap (·.argumentsAt i)) := by
  obtain ⟨hcontent, htoolCalls⟩ := foldl_handleChunk target (kept.map (·.chunk)) .new
  rw [← hacc] at hcontent htoolCalls
  have hindex : ∀ tc ∈ (kept.map (·.chunk)).flatMap StreamChunk.fragments, tc.index.getD 0 ≤ maxToolCallIndex := by
    intro tc htc
    obtain ⟨chunk, hchunk, htc⟩ := List.mem_flatMap.mp htc
    obtain ⟨sent, -, rfl⟩ := List.mem_map.mp hchunk
    exact sent.index_le tc htc
  obtain ⟨hlength, hbuilder⟩ := foldl_handleToolCall target hindex StreamAccumulator.new.toolCalls (Nat.zero_le _)
  rw [← htoolCalls] at hlength hbuilder
  have hparts : ∀ i, (acc.toolCalls.getD i ToolCallBuilder.empty).name = kept.flatMap (·.nameAt i) ∧
      (acc.toolCalls.getD i ToolCallBuilder.empty).arguments = kept.flatMap (·.argumentsAt i) := by
    intro i
    obtain ⟨hname, harguments⟩ := foldl_extend ToolCallBuilder.empty
      (((kept.map (·.chunk)).flatMap StreamChunk.fragments).filter (·.isAt i))
    rw [hbuilder]
    refine ⟨hname.trans ?_, harguments.trans ?_⟩
    · exact flatMap_fragments kept i (·.nameText)
    · exact flatMap_fragments kept i (·.argumentsText)
  constructor
  · rw [StreamAccumulator.finish, LlmResponse.content_assemble, hcontent, List.flatMap_map]
    rfl
  · have hnamed : (fun i => decide ((acc.toolCalls.getD i ToolCallBuilder.empty).name ≠ [])) = isNamed kept := by
      funext i
      rw [(hparts i).1, Bool.eq_iff_iff, isNamed_iff, decide_eq_true_eq]
    rw [StreamAccumulator.finish, LlmResponse.toolCalls_assemble, filter_name_eq hlength, List.map_map, List.map_map,
      hnamed]
    apply List.map_congr_left
    intro i _
    exact congrArg inputOf (hparts i).2

theorem inputOf_filter_eq_iff {α : Type} (p : α → Bool) (f : α → List Char) (l : List α) :
    inputOf ((l.filter p).flatMap f) = inputOf (l.flatMap f) ↔
      (∀ a ∈ l, p a = false → f a = []) ∨
        (∀ a ∈ l, p a = true → f a = []) ∧ l.flatMap f = ['\x7b', '\x7d'] := by
  rw [← flatMap_filter_eq_iff]
  have hnone : (l.filter p).flatMap f = [] ↔ ∀ a ∈ l, p a = true → f a = [] := by
    rw [List.flatMap_eq_nil_iff]
    simp
  rw [← hnone]
  have hall : l.flatMap f = [] → (l.filter p).flatMap f = [] := by
    rw [List.flatMap_eq_nil_iff, List.flatMap_eq_nil_iff]
    intro h a ha
    exact h a (List.mem_of_mem_filter ha)
  unfold inputOf
  by_cases hkept : (l.filter p).flatMap f = []
  · by_cases hsent : l.flatMap f = []
    · simp [hkept, hsent]
    · simp [hkept, hsent, eq_comm]
  · have hsent : l.flatMap f ≠ [] := fun h => hkept (hall h)
    simp [hkept, hsent]

theorem isNamed_filter_kept (i : Nat) :
    isNamed (sents.filter (·.kept)) i = true ↔ ∃ sent ∈ sents, sent.kept = true ∧ sent.nameAt i ≠ [] := by
  rw [isNamed, List.any_eq_true]
  simp [and_assoc]

/-- Nothing is lost exactly when no chunk that holds something is passed over. -/
theorem openai_stream_loses_nothing_iff (sents : List (Sent target)) (done : Bool) {ending : Bytes}
    (hending : ending ∈ [[lf], [cr], [cr, lf]]) {chunks : List Bytes}
    (hchunks : chunks.flatten = Sse.terminated ending (dataEvents (eventTexts sents done))) :
    ∃ response, (doRequestStreaming target ⟨chunks, .ok 200⟩).1 = .ok response ∧
      (LosesNothing sents response ↔ NothingDropped sents) := by
  refine ⟨_, rfl, ?_⟩
  obtain ⟨hcontent, hinputs⟩ := finish_kept (sents.filter (·.kept)) (accumulator_run sents done hending hchunks)
  rw [LosesNothing, hcontent, hinputs, NothingDropped]
  refine and_congr (flatMap_filter_eq_iff _ _ sents) ?_
  have hnamed : ∀ i ∈ List.range (maxToolCallIndex + 1),
      isNamed (sents.filter (·.kept)) i = true → isNamed sents i = true := by
    intro i _ h
    rw [isNamed, List.any_eq_true] at h ⊢
    obtain ⟨sent, hsent, hname⟩ := h
    exact ⟨sent, List.mem_of_mem_filter hsent, hname⟩
  rw [map_filter_eq_iff hnamed]
  simp only [List.mem_range, Nat.lt_succ_iff, isNamed_filter_kept, inputOf_filter_eq_iff]

def textChunk (text : List Char) : StreamChunk := ⟨[⟨none, some ⟨some text, none⟩⟩]⟩

/-- A text with a newline, which has to be written with an escape. -/
def newlineSent : Sent .host where
  chunk := textChunk "a\nb".toList
  text := "\x7b\"choices\":[\x7b\"delta\":\x7b\"content\":\"a\\nb\"\x7d\x7d]\x7d".toList
  spells := by decide +kernel
  one_line := by decide +kernel
  fits := by decide +kernel
  index_le := by decide

def plainSent : Sent .host where
  chunk := textChunk "ab".toList
  text := "\x7b\"choices\":[\x7b\"delta\":\x7b\"content\":\"ab\"\x7d\x7d]\x7d".toList
  spells := by decide +kernel
  one_line := by decide +kernel
  fits := by decide +kernel
  index_le := by decide

theorem plain_text_not_lost : ∃ response,
    (doRequestStreaming .host ⟨[Sse.terminated [lf] (dataEvents (eventTexts [plainSent] true))], .ok 200⟩).1 = .ok response ∧
      (LosesNothing [plainSent] response ↔ NothingDropped [plainSent]) :=
  openai_stream_loses_nothing_iff [plainSent] true (by decide) List.flatten_singleton

/-- The whole text of a chunk with an escape is lost. -/
theorem newline_text_lost : ∃ response,
    (doRequestStreaming .host ⟨[Sse.terminated [lf] (dataEvents (eventTexts [newlineSent] true))], .ok 200⟩).1 =
      .ok response ∧ ¬ LosesNothing [newlineSent] response := by
  refine ⟨_, rfl, ?_⟩
  rintro ⟨hcontent, -⟩
  revert hcontent
  decide +kernel

end OpenAi
end Beetle.Llm
