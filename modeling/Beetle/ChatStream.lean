import Beetle.Lib.Run
import Beetle.Llm.Sse
import Beetle.Util

/-! The stream of one chat turn: a bounded queue of event frames between the agent, which sends them, and the
transport, which takes them. -/
namespace Beetle.ChatStream
open Beetle.Lib

/-- The limits of a target. -/
structure Limits where
  chatStreamQueueCapacity : Nat
  chatStreamFrameMaxBytes : Nat

def Limits.host : Limits := ⟨64, Llm.Sse.sseLineBufSizeHost⟩
def Limits.esp : Limits := ⟨16, Llm.Sse.sseLineBufSizeEsp⟩

def deltaSsePrefix : List Char := "event: delta\ndata: \x7b\"delta\":".toList
def deltaSseMessageIdPrefix : List Char := ",\"message_id\":".toList
def deltaSseSuffix : List Char := "\x7d\n\n".toList

/-- A frame, under its event name. The content of the final one is not sent with it. -/
inductive Frame where
  | queued (chatId : List Char)
  | delta (text : List Char)
  | final (content : List Char) (sessionAppended : Bool) (messageId : Option (List Char))
  | error (errorKey : List Char) (errorStage : Option (List Char))
  | done
  deriving DecidableEq

def jsonString (text : List Char) : Json := .str (Json.string text)
def jsonOption (text : Option (List Char)) : Json := (text.map jsonString).getD .null
def jsonKey (key : String) : JsonString := Json.string key.toList

def encodeSseEvent (event : String) (members : List (String × Json)) : List Char :=
  "event: ".toList ++ event.toList ++ "\ndata: ".toList ++
    Json.print .compact 0 (.obj (members.map fun m => (jsonKey m.1, m.2))) ++ "\n\n".toList

def encodeDeltaSseEvent (streamId delta : List Char) : List Char :=
  deltaSsePrefix ++ pushJsonStringEscaped delta ++ deltaSseMessageIdPrefix ++ pushJsonStringEscaped streamId ++ deltaSseSuffix

def Frame.text : Frame → List Char
  | .delta text => text
  | _ => []

/-- The frames of an end, and the one after it. -/
def Frame.isTerminal : Frame → Bool
  | .final _ _ _ => true
  | .error _ _ => true
  | .done => true
  | _ => false

def Frame.encode (streamId : List Char) : Frame → List Char
  | .queued chatId => encodeSseEvent "queued" [("chat_id", jsonString chatId), ("stream_id", jsonString streamId)]
  | .delta text => encodeDeltaSseEvent streamId text
  | .final _ sessionAppended messageId => encodeSseEvent "final"
      [("message_id", jsonOption messageId), ("session_appended", .bool sessionAppended), ("turn_id", jsonString streamId)]
  | .error errorKey errorStage => encodeSseEvent "error"
      [("error_key", jsonString errorKey), ("error_stage", jsonOption errorStage), ("meta", .obj [])]
  | .done => encodeSseEvent "done" []

def Frame.bytes (streamId : List Char) (frame : Frame) : Bytes := utf8 (frame.encode streamId)

/-! Deltas are cut into frames by the length that they will have. -/

def jsonEscapedCharLen (ch : Char) : Nat :=
  if ch ∈ shortEscaped then 2
  else if ch ≤ '\x1f' then 6
  else ch.utf8Size

def jsonStringLiteralLen (value : List Char) : Nat := 2 + (value.map jsonEscapedCharLen).sum

def deltaSseFrameLen (deltaJsonLen messageIdJsonLen : Nat) : Nat :=
  (utf8 deltaSsePrefix).length + deltaJsonLen + (utf8 deltaSseMessageIdPrefix).length + messageIdJsonLen +
    (utf8 deltaSseSuffix).length

/-- The chunks of a text of which `chunk` is still to be sent. -/
def deltaChunks (frameMax messageIdJsonLen : Nat) (chunk : List Char) (chunkEscapedLen : Nat) :
    List Char → List (List Char)
  | [] => if chunk = [] then [] else [chunk]
  | ch :: text =>
    let charEscapedLen := jsonEscapedCharLen ch
    if chunk ≠ [] ∧ frameMax < deltaSseFrameLen (2 + chunkEscapedLen + charEscapedLen) messageIdJsonLen then
      chunk :: deltaChunks frameMax messageIdJsonLen [ch] charEscapedLen text
    else deltaChunks frameMax messageIdJsonLen (chunk ++ [ch]) (chunkEscapedLen + charEscapedLen) text

/-- What `send_delta_chunks` sends, one frame after the other. -/
def sendDeltaChunks (frameMax : Nat) (streamId text : List Char) : List (List Char) :=
  if text = [] then [[]] else deltaChunks frameMax (jsonStringLiteralLen streamId) [] 0 text

/-- `str::get(start..)`. -/
def getFrom : List Char → Nat → Option (List Char)
  | text, 0 => some text
  | [], _ + 1 => none
  | ch :: text, start + 1 => if start + 1 < ch.utf8Size then none else getFrom text (start + 1 - ch.utf8Size)

/-- The chunks that are sent before the final frame. -/
def finalChunks (frameMax : Nat) (streamId : List Char) (sent : Nat) (content : List Char) : List (List Char) :=
  if sent = 0 then sendDeltaChunks frameMax streamId content
  else if sent < (utf8 content).length then
    match getFrom content sent with
    | some suffix => sendDeltaChunks frameMax streamId suffix
    | none => []
  else []

/-! The queue. -/

structure QueuedFrame where
  frame : Frame
  terminal : Bool

structure ChatStreamQueue where
  frames : List QueuedFrame
  closed : Bool
  sentContentBytes : Nat

namespace ChatStreamQueue

def new : ChatStreamQueue := ⟨[], false, 0⟩

def pushNonterminal (limits : Limits) (streamId : List Char) (queue : ChatStreamQueue) (frame : Frame) :
    ChatStreamQueue × Bool :=
  if limits.chatStreamFrameMaxBytes < (frame.bytes streamId).length then (queue, false)
  else if queue.closed then (queue, false)
  else if limits.chatStreamQueueCapacity ≤ queue.frames.length then (queue, false)
  else ({ queue with frames := queue.frames ++ [⟨frame, false⟩] }, true)

/-- So many frames that end nothing are removed, the first ones first. -/
def removeNonterminal : Nat → List QueuedFrame → List QueuedFrame
  | 0, frames => frames
  | excess + 1, frames =>
    match frames.findIdx? fun frame => !frame.terminal with
    | some index => removeNonterminal excess (frames.eraseIdx index)
    | none => frames

def pushTerminalPair (limits : Limits) (streamId : List Char) (queue : ChatStreamQueue) (terminal last : Frame) :
    ChatStreamQueue × Bool :=
  if limits.chatStreamFrameMaxBytes < (terminal.bytes streamId).length ∨
      limits.chatStreamFrameMaxBytes < (last.bytes streamId).length then (queue, false)
  else if queue.closed then (queue, false)
  else
    let frames := removeNonterminal (queue.frames.length + 2 - limits.chatStreamQueueCapacity) queue.frames
    ({ queue with frames := frames ++ [⟨terminal, true⟩, ⟨last, true⟩], closed := true }, true)

def markSentContentBytes (queue : ChatStreamQueue) (bytes : Nat) : ChatStreamQueue :=
  { queue with sentContentBytes := max queue.sentContentBytes bytes }

end ChatStreamQueue

/-! The broker and the stream. -/

/-- What follows when all chunks are in the queue. -/
inductive After where
  | delta (accumulated : Nat)
  | final (frame : Frame)

/-- Where the agent is within a call. -/
inductive Sending where
  | idle
  | event (frame : Frame)
  | chunks (rest : List (List Char)) (after : After)
  | backpressure

/-- `registered` while the broker has the entry; `terminal` when someone has taken the entry out and not yet
pushed his pair; `accumulated` are the deltas so far. -/
structure State where
  queue : ChatStreamQueue
  registered : Bool
  terminal : Option Frame
  sending : Sending
  accumulated : List Char
  received : List Frame

def State.opened : State := ⟨.new, true, none, .idle, [], []⟩

/-- One of the parties goes on: the agent begins a call or takes the next step of one, someone reports an error,
the pair is pushed, or the receiver takes a frame. -/
inductive Action where
  | emitQueued (chatId : List Char)
  | emitDelta (delta : List Char)
  | emitFinal (content : List Char) (sessionAppended : Bool) (messageId : Option (List Char))
  | emitError (errorKey : List Char) (errorStage : Option (List Char))
  | send
  | push
  | recv

/-- The entry is taken out of the broker, unless it is out. -/
def State.takeEntry (s : State) (terminal : Frame) : State :=
  if s.registered then { s with registered := false, terminal := some terminal } else s

def State.begin (s : State) (sending : Sending) : State := if s.registered then { s with sending } else s

/-- The next step of the call that the agent is in. -/
def State.next (limits : Limits) (streamId : List Char) (s : State) : Sending → Option State
  | .idle => none
  | .event frame => some { s with queue := (s.queue.pushNonterminal limits streamId frame).1, sending := .idle }
  | .backpressure => some ({ s with sending := .idle }.takeEntry (.error "chat.stream_backpressure".toList none))
  | .chunks [] (.delta accumulated) => some { s with queue := s.queue.markSentContentBytes accumulated, sending := .idle }
  | .chunks [] (.final frame) => some ({ s with sending := .idle }.takeEntry frame)
  | .chunks (chunk :: rest) after =>
    let (queue, sent) := s.queue.pushNonterminal limits streamId (.delta chunk)
    some { s with queue, sending := if sent then .chunks rest after else .backpressure }

/-- A content starts with the deltas before it. -/
def step (limits : Limits) (streamId : List Char) (s : State) : Action → Option State
  | .emitQueued chatId =>
    match s.sending with
    | .idle => some (s.begin (.event (.queued chatId)))
    | _ => none
  | .emitDelta delta =>
    match s.sending with
    | .idle =>
      let accumulated := s.accumulated ++ delta
      some ({ s with accumulated }.begin (.chunks (sendDeltaChunks limits.chatStreamFrameMaxBytes streamId delta)
        (.delta (utf8 accumulated).length)))
    | _ => none
  | .emitFinal content sessionAppended messageId =>
    match s.sending with
    | .idle =>
      if s.accumulated <+: content then
        some (s.begin (.chunks (finalChunks limits.chatStreamFrameMaxBytes streamId s.queue.sentContentBytes content)
          (.final (.final content sessionAppended messageId))))
      else none
    | _ => none
  | .emitError errorKey errorStage => some (s.takeEntry (.error errorKey errorStage))
  | .send => s.next limits streamId s.sending
  | .push => s.terminal.map fun terminal =>
      { s with queue := (s.queue.pushTerminalPair limits streamId terminal .done).1, terminal := none }
  | .recv =>
    match s.queue.frames with
    | [] => none
    | frame :: frames => some { s with queue := { s.queue with frames }, received := s.received ++ [frame.frame] }

end Beetle.ChatStream
