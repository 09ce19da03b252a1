import Beetle.Error
import Beetle.Lib.Text
import Beetle.Llm.Sse

/-! What the clients of language models are asked, and what they answer. -/
namespace Beetle.Llm

inductive ToolChoicePolicy where
  | auto
  | require
  deriving DecidableEq

structure Message where
  role : List Char
  content : List Char

/-- The parameters are a JSON text. -/
structure ToolSpec where
  name : List Char
  description : List Char
  parametersJson : List Char

inductive StopReason where
  | endTurn
  | toolUse
  | maxTokens
  | other
  deriving DecidableEq

/-- A call of a tool; the input is a JSON text. -/
structure ToolCall where
  id : List Char
  name : List Char
  input : List Char
  deriving DecidableEq

/-- The input that has arrived in parts; a call with none has an empty object. -/
def inputOf (arguments : List Char) : List Char := if arguments = [] then ['\x7b', '\x7d'] else arguments

structure LlmResponse where
  content : List Char
  stopReason : StopReason
  toolCalls : Option (List ToolCall)

/-- The end of each decoder: an answer with tool calls has stopped for them. -/
def LlmResponse.assemble (content : List Char) (stopReason : StopReason) (toolCalls : List ToolCall) : LlmResponse where
  content := content
  stopReason := if toolCalls ≠ [] ∧ stopReason ≠ .toolUse then .toolUse else stopReason
  toolCalls := if toolCalls = [] then none else some toolCalls

namespace LlmResponse
variable (content : List Char) (stopReason : StopReason) (toolCalls : List ToolCall)

@[simp] theorem content_assemble : (assemble content stopReason toolCalls).content = content := rfl

@[simp] theorem toolCalls_assemble : (assemble content stopReason toolCalls).toolCalls.getD [] = toolCalls := by
  unfold assemble
  by_cases h : toolCalls = []
  · simp [h]
  · simp [h]

theorem stopReason_assemble : (assemble content stopReason toolCalls).stopReason =
    if toolCalls = [] then stopReason else .toolUse := by
  unfold assemble
  by_cases h : toolCalls = []
  · simp [h]
  · by_cases hstop : stopReason = .toolUse
    · simp [h, hstop]
    · simp [h, hstop]

end LlmResponse
end Beetle.Llm

/-! Answers that arrive as server-sent events: what both streaming clients do with the bytes. -/
namespace Beetle.Llm
open Beetle.Lib Beetle.Llm.Sse

/-- What the code is built for. -/
inductive Target where
  | esp
  | host

def Target.usizeBits : Target → Nat
  | esp => 32
  | host => 64

def Target.sseLineBufSize : Target → Nat
  | esp => Sse.sseLineBufSizeEsp
  | host => Sse.sseLineBufSizeHost

/-- What the HTTP client does with one request: the chunks it hands over, and then the status. -/
structure StreamedPost where
  chunks : List Bytes
  status : Except Error Nat

/-- A call of the progress callback. -/
structure Progress where
  delta : List Char
  accumulated : List Char

def httpResponseTruncatedStage : String := "http_response_truncated"
def llmResponseTruncatedStage : String := "llm_response_truncated"

def llmResponseTruncatedError : Error := .other none llmResponseTruncatedStage

def mapTransportError (e : Error) (stage : String) : Error :=
  match e with
  | .http statusCode _ => .http statusCode stage
  | e => .other (some e) stage

def mapStreamingTransportError (e : Error) (stage : String) : Error :=
  if e.stage = httpResponseTruncatedStage ∨ e.stage = llmResponseTruncatedStage then llmResponseTruncatedError
  else mapTransportError e stage

/-- The status decides whether there is an answer. -/
def checkStatus (status : Except Error Nat) (response : LlmResponse) : Except Error LlmResponse :=
  match status with
  | .error e => .error (mapStreamingTransportError e "llm_request")
  | .ok statusCode =>
    if statusCode = 429 then .error (.http 429 "llm_request")
    else if statusCode ≥ 400 then .error (.http statusCode "llm_request")
    else .ok response

/-- The accumulator with the calls of the callback so far. -/
structure StreamState (σ : Type) where
  accumulator : σ
  progress : List Progress

section
variable {σ : Type} (handle : σ → SseEvent → σ × Option (List Char)) (content : σ → List Char)

/-- One event, and the callback if it added text. -/
def StreamState.handleEvent (s : StreamState σ) (event : SseEvent) : StreamState σ :=
  let (accumulator, delta) := handle s.accumulator event
  ⟨accumulator, s.progress ++ delta.toList.map fun delta => ⟨delta, content accumulator⟩⟩

/-- One chunk: feed the reader and handle the events that are finished. -/
def StreamState.onChunk (bufSize : Nat) (s : SseLineReader × StreamState σ) (chunk : Bytes) :
    SseLineReader × StreamState σ :=
  let (events, sseReader) := drain (feed bufSize s.1 chunk)
  (sseReader, events.foldl (StreamState.handleEvent handle content) s.2)

def StreamState.run (bufSize : Nat) (start : σ) (chunks : List Bytes) : StreamState σ :=
  (chunks.foldl (StreamState.onChunk handle content bufSize) (.new, ⟨start, []⟩)).2

theorem foldl_onChunk (bufSize : Nat) (r : SseLineReader) (hr : r.pending = []) (s : StreamState σ)
    (chunks : List Bytes) : (chunks.foldl (StreamState.onChunk handle content bufSize) (r, s)).2 =
      (readEvents bufSize r chunks).foldl (StreamState.handleEvent handle content) s := by
  induction chunks generalizing r s with
  | nil =>
    have hevents : readEvents bufSize r [] = [] := hr
    rw [hevents]
    rfl
  | cons chunk chunks ih =>
    have hevents : readEvents bufSize r (chunk :: chunks) =
        (drain (feed bufSize r chunk)).1 ++ readEvents bufSize (drain (feed bufSize r chunk)).2 chunks := rfl
    rw [hevents, List.foldl_append, List.foldl_cons]
    apply ih
    rfl

/-- What comes of a stream depends on its events, not on how the bytes are cut. -/
theorem StreamState.run_eq (bufSize : Nat) (start : σ) (chunks : List Bytes) :
    run handle content bufSize start chunks =
      (readEvents bufSize .new chunks).foldl (handleEvent handle content) ⟨start, []⟩ :=
  foldl_onChunk handle content bufSize .new rfl ⟨start, []⟩ chunks

theorem accumulator_foldl_handleEvent (s : StreamState σ) (events : List SseEvent) :
    (events.foldl (StreamState.handleEvent handle content) s).accumulator =
      events.foldl (fun accumulator event => (handle accumulator event).1) s.accumulator := by
  induction events generalizing s with
  | nil => rfl
  | cons event events ih =>
    rw [List.foldl_cons, ih]
    rfl

end

/-! The lines of a stream. -/

theorem isUtf8_utf8 (cs : List Char) : isUtf8 (utf8 cs) = true := by
  have hbytes : (⟨(utf8 cs).toArray⟩ : ByteArray) = cs.utf8Encode := by
    apply ByteArray.ext
    simp [utf8, List.utf8Encode]
  rw [isUtf8, hbytes, ByteArray.validateUTF8_eq_true_iff]
  exact ByteArray.isValidUTF8_utf8Encode

def eventLine (value : List Char) : Bytes := bytes "event: " ++ utf8 value
def dataLine (value : List Char) : Bytes := bytes "data: " ++ utf8 value

section
variable {field : List Char} (hfield : colon ∉ utf8 field) (hne : utf8 field ≠ []) (value : List Char)
include hfield hne

/-- A line of a field and a value is read as them. -/
theorem lineKind_field : lineKind (utf8 field ++ colon :: space :: utf8 value) =
    if utf8 field = bytes "event" then .event (utf8 value)
    else if utf8 field = bytes "data" then .data (utf8 value) else .ignored := by
  have hutf : isUtf8 (utf8 field ++ colon :: space :: utf8 value) = true := by
    have hline : utf8 field ++ colon :: space :: utf8 value = utf8 (field ++ ':' :: ' ' :: value) := by
      rw [utf8_append]
      rfl
    rw [hline, isUtf8_utf8]
  have hhead : (utf8 field ++ colon :: space :: utf8 value).head? ≠ some colon := by
    rw [List.head?_append_of_ne_nil _ hne]
    intro hhead
    exact hfield (List.mem_of_mem_head? hhead)
  have hnot : ∀ b ∈ utf8 field, decide (b ≠ colon) = true := fun b hb => decide_eq_true fun heq => hfield (heq ▸ hb)
  have htake : (utf8 field ++ colon :: space :: utf8 value).takeWhile (· ≠ colon) = utf8 field := by
    rw [List.takeWhile_append_of_pos hnot, List.takeWhile_cons_of_neg (by simp), List.append_nil]
  have hvalue : fieldValue (utf8 field ++ colon :: space :: utf8 value) = utf8 value := by
    rw [fieldValue, htake, List.drop_length_add_append]
    rfl
  have hplain : ¬ ((utf8 field ++ colon :: space :: utf8 value).head? = some colon ∨
      isUtf8 (utf8 field ++ colon :: space :: utf8 value) = false ∨
      colon ∉ utf8 field ++ colon :: space :: utf8 value) := by
    rintro (hcolon | hfalse | hnone)
    · exact hhead hcolon
    · rw [hutf] at hfalse
      cases hfalse
    · exact hnone (by simp)
  rw [lineKind, if_neg (by simp), if_neg hplain, htake, hvalue]

end

theorem lineKind_eventLine (value : List Char) : lineKind (eventLine value) = .event (utf8 value) := by
  have hline : eventLine value = utf8 "event".toList ++ colon :: space :: utf8 value := by
    have hfront : bytes "event: " = utf8 "event".toList ++ [colon, space] := by decide +kernel
    rw [eventLine, hfront, List.append_assoc]
    rfl
  rw [hline, lineKind_field (by decide +kernel) (by decide +kernel), if_pos (by decide +kernel)]

theorem lineKind_dataLine (value : List Char) : lineKind (dataLine value) = .data (utf8 value) := by
  have hline : dataLine value = utf8 "data".toList ++ colon :: space :: utf8 value := by
    have hfront : bytes "data: " = utf8 "data".toList ++ [colon, space] := by decide +kernel
    rw [dataLine, hfront, List.append_assoc]
    rfl
  rw [hline, lineKind_field (by decide +kernel) (by decide +kernel), if_neg (by decide +kernel),
    if_pos (by decide +kernel)]

theorem lf_notMem_dataLine {value : List Char} (h : '\n' ∉ value) : lf ∉ dataLine value := by
  rw [dataLine, List.mem_append, not_or]
  exact ⟨by decide +kernel, lf_notMem_utf8 h⟩

theorem cr_notMem_dataLine {value : List Char} (h : '\r' ∉ value) : cr ∉ dataLine value := by
  rw [dataLine, List.mem_append, not_or]
  exact ⟨by decide +kernel, cr_notMem_utf8 h⟩

/-! Streams of events that have only data. -/

def dataEvents (texts : List (List Char)) : List Bytes := texts.flatMap fun text => [dataLine text, []]

theorem events_data {v : Bytes} (hv : v ≠ []) (ks : List LineKind) :
    events [] [] (.data v :: .blank :: ks) = ⟨[], v⟩ :: events [] [] ks := by
  simp [events, joinData, hv]

theorem lineKind_nil : lineKind [] = .blank := rfl

/-- Each event is read as it was sent, under any line ending. -/
theorem readEvents_dataEvents {bufSize : Nat} {ending : Bytes} (hending : ending ∈ [[lf], [cr], [cr, lf]])
    {texts : List (List Char)} (hplain : ∀ text ∈ texts, PlainLine bufSize (dataLine text))
    (hne : ∀ text ∈ texts, text ≠ []) {chunks : List Bytes}
    (hchunks : chunks.flatten = terminated ending (dataEvents texts)) :
    readEvents bufSize .new chunks = texts.map fun text => ⟨[], utf8 text⟩ := by
  have hlines : ∀ line ∈ dataEvents texts, PlainLine bufSize line := by
    intro line hline
    obtain ⟨text, htext, hline⟩ := List.mem_flatMap.mp hline
    simp only [List.mem_cons, List.not_mem_nil, or_false] at hline
    rcases hline with rfl | rfl
    · exact hplain text htext
    · simp [PlainLine]
  have hutf : ∀ text ∈ texts, utf8 text ≠ [] := by
    intro text htext hnil
    have hlength := length_le_utf8 text
    rw [hnil, List.length_nil] at hlength
    exact hne text htext (List.eq_nil_of_length_eq_zero (by omega))
  rw [readEvents_eq, hchunks]
  simp only [List.mem_cons, List.not_mem_nil, or_false] at hending
  have hkinds : events [] [] ((dataEvents texts).map lineKind) = texts.map fun text => ⟨[], utf8 text⟩ := by
    clear hlines hplain hne hchunks
    induction texts with
    | nil => rfl
    | cons text texts ih =>
      rw [List.forall_mem_cons] at hutf
      have hcons : dataEvents (text :: texts) = dataLine text :: [] :: dataEvents texts := rfl
      rw [hcons, List.map_cons, List.map_cons, lineKind_dataLine, lineKind_nil, events_data hutf.1, ih hutf.2,
        List.map_cons]
  rcases hending with rfl | rfl | rfl
  · rw [pending_feed_lines hlines (.inr rfl), hkinds]
  · rw [pending_feed_lines hlines (.inl rfl), hkinds]
  · rw [pending_feed_crlf hlines]
    clear hlines hplain hne hchunks hkinds
    induction texts with
    | nil => rfl
    | cons text texts ih =>
      rw [List.forall_mem_cons] at hutf
      have hcons : dataEvents (text :: texts) = dataLine text :: [] :: dataEvents texts := rfl
      rw [hcons, List.flatMap_cons, List.flatMap_cons, lineKind_dataLine, lineKind_nil, List.cons_append,
        List.cons_append, events_data hutf.1, List.map_cons, ← ih hutf.2]
      simp [events]

/-! Streams of events that have a type and data. -/

def typedEvents (sent : List (List Char × List Char)) : List Bytes :=
  sent.flatMap fun event => [eventLine event.1, dataLine event.2, []]

/-- Each event is read as it was sent, under a line ending of one byte. -/
theorem readEvents_typedEvents {bufSize : Nat} {t : UInt8} (ht : t = cr ∨ t = lf) {sent : List (List Char × List Char)}
    (hplain : ∀ event ∈ sent, PlainLine bufSize (eventLine event.1) ∧ PlainLine bufSize (dataLine event.2))
    (hne : ∀ event ∈ sent, event.1 ≠ []) {chunks : List Bytes}
    (hchunks : chunks.flatten = terminated [t] (typedEvents sent)) :
    readEvents bufSize .new chunks = sent.map fun event => ⟨utf8 event.1, utf8 event.2⟩ := by
  have hlines : ∀ line ∈ typedEvents sent, PlainLine bufSize line := by
    intro line hline
    obtain ⟨event, hevent, hline⟩ := List.mem_flatMap.mp hline
    simp only [List.mem_cons, List.not_mem_nil, or_false] at hline
    rcases hline with rfl | rfl | rfl
    · exact (hplain event hevent).1
    · exact (hplain event hevent).2
    · simp [PlainLine]
  rw [readEvents_eq, hchunks, pending_feed_lines hlines ht]
  clear hlines hplain hchunks
  induction sent with
  | nil => rfl
  | cons event sent ih =>
    rw [List.forall_mem_cons] at hne
    have hutf : utf8 event.1 ≠ [] := by
      intro hnil
      have hlength := length_le_utf8 event.1
      rw [hnil, List.length_nil] at hlength
      exact hne.1 (List.eq_nil_of_length_eq_zero (by omega))
    have hcons : typedEvents (event :: sent) = eventLine event.1 :: dataLine event.2 :: [] :: typedEvents sent := rfl
    rw [hcons, List.map_cons, List.map_cons, List.map_cons, lineKind_eventLine, lineKind_dataLine, lineKind_nil,
      List.map_cons, ← ih hne.2]
    simp [events, joinData, hutf]

end Beetle.Llm
