import Beetle.Audio.WavDecoder
import Beetle.Lib.Json

/-! A realtime voice session: local speech, server events and local interrupts, and the audio that is queued for playback. -/
namespace Beetle.Audio
open Beetle.Lib

def realtimePlaybackTargetBufferMs : Nat := 800
def realtimeLocalSpeechCommitMinMs : Nat := 160

inductive RealtimeProvider where
  | openAiCompatible
  | qwen
  | doubao

def RealtimeProvider.sessionCreatedIsReady : RealtimeProvider → Bool
  | doubao => true
  | _ => false

/-- Times are milliseconds. -/
structure RealtimeLoopState where
  awaitingResponse : Bool
  audioPlaying : Bool
  sessionReady : Bool
  suppressServerAudioUntilTurnEnd : Bool
  turnsCompleted : Nat
  outputSamples : Nat
  sessionReadyAt : Option Nat
  firstLocalSpeechAt : Option Nat
  lastLocalSpeechEndAt : Option Nat
  playbackFinishedAt : Option Nat
  currentTurnReceivedServerActivity : Bool
  currentLocalSpeechMs : Nat
  currentLocalTurnCommitted : Bool
  localTurnGeneration : UInt32
  serverResponseGeneration : UInt32
  lastActivity : Nat

/-- `saturating_add` of `u32`. -/
def saturatingAdd32 (a b : Nat) : Nat := min (a + b) (2 ^ 32 - 1)

def nextTurnGeneration (current : UInt32) : UInt32 :=
  let next := current + 1
  if next = 0 then 1 else next

namespace RealtimeLoopState

def new (now : Nat) : RealtimeLoopState where
  awaitingResponse := false
  audioPlaying := false
  sessionReady := false
  suppressServerAudioUntilTurnEnd := false
  turnsCompleted := 0
  outputSamples := 0
  sessionReadyAt := none
  firstLocalSpeechAt := none
  lastLocalSpeechEndAt := none
  playbackFinishedAt := none
  currentTurnReceivedServerActivity := false
  currentLocalSpeechMs := 0
  currentLocalTurnCommitted := false
  localTurnGeneration := 0
  serverResponseGeneration := 0
  lastActivity := now

def markSessionReady (now : Nat) (state : RealtimeLoopState) : RealtimeLoopState :=
  { state with sessionReady := true, sessionReadyAt := some now, lastActivity := now }

def beginLocalSpeechWindow (now frameMs : Nat) (state : RealtimeLoopState) : RealtimeLoopState :=
  { state with currentLocalSpeechMs := frameMs, currentLocalTurnCommitted := false, lastActivity := now }

def commitLocalTurn (now : Nat) (state : RealtimeLoopState) : RealtimeLoopState :=
  if state.currentLocalTurnCommitted then { state with lastActivity := now }
  else
    { state with
      currentLocalTurnCommitted := true
      localTurnGeneration := nextTurnGeneration state.localTurnGeneration
      serverResponseGeneration := 0
      firstLocalSpeechAt := state.firstLocalSpeechAt.or (some now)
      awaitingResponse := false
      currentTurnReceivedServerActivity := false
      lastLocalSpeechEndAt := none
      playbackFinishedAt := none
      lastActivity := now }

/-- `extend_local_speech_window` commits the turn. -/
def commits (frameMs : Nat) (state : RealtimeLoopState) : Bool :=
  !state.currentLocalTurnCommitted &&
    realtimeLocalSpeechCommitMinMs ≤ saturatingAdd32 state.currentLocalSpeechMs frameMs

def extendLocalSpeechWindow (now frameMs : Nat) (state : RealtimeLoopState) : RealtimeLoopState :=
  let extended := { state with currentLocalSpeechMs := saturatingAdd32 state.currentLocalSpeechMs frameMs }
  if state.commits frameMs then extended.commitLocalTurn now else { extended with lastActivity := now }

def markLocalTurnSubmitted (now : Nat) (state : RealtimeLoopState) : RealtimeLoopState :=
  { state with awaitingResponse := true, currentTurnReceivedServerActivity := false,
               lastLocalSpeechEndAt := some now, lastActivity := now }

/-- The second part says whether the turn is to be submitted. -/
def finishLocalSpeechWindow (now : Nat) (state : RealtimeLoopState) : RealtimeLoopState × Bool :=
  let submitted := if state.currentLocalTurnCommitted then state.markLocalTurnSubmitted now else state
  ({ submitted with currentLocalSpeechMs := 0, currentLocalTurnCommitted := false, lastActivity := now },
    state.currentLocalTurnCommitted)

def resetLocalSpeechWindow (state : RealtimeLoopState) : RealtimeLoopState :=
  { state with currentLocalSpeechMs := 0, currentLocalTurnCommitted := false }

def markServerResponseActivity (now : Nat) (state : RealtimeLoopState) : RealtimeLoopState :=
  { state with currentTurnReceivedServerActivity := true, lastActivity := now }

def markServerResponseCreated (now : Nat) (state : RealtimeLoopState) : RealtimeLoopState :=
  { state with awaitingResponse := true,
               serverResponseGeneration := state.localTurnGeneration }.markServerResponseActivity now

def shouldAcceptServerAudio (state : RealtimeLoopState) : Bool :=
  state.serverResponseGeneration = state.localTurnGeneration

def hasCommittedLocalTurn (state : RealtimeLoopState) : Bool :=
  state.localTurnGeneration ≠ 0 || state.firstLocalSpeechAt.isSome

def startAudioPlayback (state : RealtimeLoopState) : RealtimeLoopState :=
  if state.audioPlaying then state else { state with audioPlaying := true, playbackFinishedAt := none }

def finishAudioPlayback (now : Nat) (state : RealtimeLoopState) : RealtimeLoopState :=
  if !state.audioPlaying then state else { state with audioPlaying := false, playbackFinishedAt := some now }

end RealtimeLoopState

/-! Server events. -/

inductive ServerEvent where
  | session (created updated : Bool)
  | responseCreated
  | speechStarted
  | speechStopped
  | audioDelta
  | audioDone
  | responseDone
  | error
  | other

/-- The arms of the match on the type of an event. -/
def serverEvent (eventType : String) : ServerEvent :=
  if eventType = "session.created" then .session true false
  else if eventType = "session.updated" then .session false true
  else if eventType = "input_audio_buffer.committed" then .session false false
  else if eventType = "response.created" then .responseCreated
  else if eventType = "input_audio_buffer.speech_started" then .speechStarted
  else if eventType = "input_audio_buffer.speech_stopped" then .speechStopped
  else if eventType = "response.output_audio.delta" ∨ eventType = "response.audio.delta" then .audioDelta
  else if eventType = "response.output_audio.done" ∨ eventType = "response.audio.done" then .audioDone
  else if eventType = "response.done" then .responseDone
  else if eventType = "error" then .error
  else .other

/-- `Value::get`. -/
def jsonGet (value : Json) (key : String) : Option Json :=
  match value with
  | .obj members => Json.get members key.toList
  | _ => none

def eventOf (value : Json) : ServerEvent :=
  serverEvent (String.ofList (((jsonGet value "type").bind Json.asString).getD []))

/-- What the speaker answers to the calls of one step. -/
structure SpeakerState where
  pushStaging : Except Error Nat
  tryWrite : Except Error Nat
  clearBuffer : Except Error Unit
  bufferedSamples : Nat
  stagingSamples : Nat

/-- A state, the samples passed to the speaker on the way to it, and how the call ended. -/
structure Handled where
  state : RealtimeLoopState
  queued : Option (List Int16)
  result : Except Error Unit

def playbackTargetBufferSamples (sampleRateHz : Nat) : Nat :=
  max (max sampleRateHz 1 * realtimePlaybackTargetBufferMs / 1000) 1024

section
variable (decodeBase64 : List Char → Except String Bytes)

def parseError (message : String) : Error := .config message "realtime_voice_parse"

def decodePcm16Delta (delta : List Char) : Except Error (List Int16) :=
  match decodeBase64 delta with
  | .error message => .error (parseError ("audio base64 decode failed: " ++ message))
  | .ok bytes =>
    if bytes.length % 2 = 1 then .error (parseError "pcm16 payload length must be even") else .ok (samples bytes)

/-- Playback starts when enough is buffered. -/
def startWhenBuffered (speaker : SpeakerState) (sampleRateHz : Nat) (state : RealtimeLoopState) : RealtimeLoopState :=
  if playbackTargetBufferSamples sampleRateHz ≤ speaker.bufferedSamples + speaker.stagingSamples then
    state.startAudioPlayback
  else state

def queueOutputAudio (speaker : SpeakerState) (sampleRateHz : Nat) (pcm : List Int16) (state : RealtimeLoopState) :
    Handled :=
  if pcm = [] then ⟨state, none, .ok ()⟩
  else
    let counted := { state with outputSamples := state.outputSamples + pcm.length }
    match speaker.pushStaging with
    | .error e => ⟨counted, some pcm, .error e⟩
    | .ok written =>
      match if written < pcm.length then speaker.tryWrite else .ok 0 with
      | .error e => ⟨counted, some pcm, .error e⟩
      | .ok _ => ⟨if counted.audioPlaying then counted else startWhenBuffered speaker sampleRateHz counted, some pcm, .ok ()⟩

/-- The arm for a delta that is accepted. -/
def acceptDelta (speaker : SpeakerState) (sampleRateHz now : Nat) (value : Json) (state : RealtimeLoopState) : Handled :=
  match (jsonGet value "delta").bind Json.asString with
  | none => ⟨state, none, .error (parseError "audio delta missing")⟩
  | some delta =>
    match decodePcm16Delta decodeBase64 delta with
    | .error e => ⟨state, none, .error e⟩
    | .ok pcm =>
      if pcm = [] then ⟨state, none, .ok ()⟩
      else
        let handled := queueOutputAudio speaker sampleRateHz pcm state
        match handled.result with
        | .error _ => handled
        | .ok () => { handled with state := { handled.state with awaitingResponse := true }.markServerResponseActivity now }

def responseDone (now : Nat) (state : RealtimeLoopState) : RealtimeLoopState :=
  if state.suppressServerAudioUntilTurnEnd then
    { state with suppressServerAudioUntilTurnEnd := false, lastActivity := now }
  else
    let counted :=
      if state.awaitingResponse then
        { state with awaitingResponse := false, turnsCompleted := saturatingAdd32 state.turnsCompleted 1 }
      else state
    let finished := if counted.audioPlaying then counted else { counted with playbackFinishedAt := some now }
    { finished with lastActivity := now }

def errorMessage (value : Json) : List Char :=
  (((jsonGet value "error").bind fun error => jsonGet error "message").bind Json.asString).getD
    "realtime websocket error".toList

def handleJsonServerMessage (provider : RealtimeProvider) (speaker : SpeakerState) (sampleRateHz now : Nat) (value : Json)
    (state : RealtimeLoopState) : Handled :=
  let active := { state with lastActivity := now }
  match eventOf value with
  | .session created updated =>
    if (updated || provider.sessionCreatedIsReady && created) && !state.sessionReady then
      ⟨state.markSessionReady now, none, .ok ()⟩
    else ⟨active, none, .ok ()⟩
  | .responseCreated =>
    if state.suppressServerAudioUntilTurnEnd then ⟨active, none, .ok ()⟩
    else if !state.hasCommittedLocalTurn then ⟨state, none, .ok ()⟩
    else ⟨state.markServerResponseCreated now, none, .ok ()⟩
  | .speechStarted =>
    ⟨if state.hasCommittedLocalTurn then { active with awaitingResponse := false } else active, none, .ok ()⟩
  | .speechStopped =>
    ⟨if state.hasCommittedLocalTurn then { active with awaitingResponse := true } else active, none, .ok ()⟩
  | .audioDelta =>
    if state.suppressServerAudioUntilTurnEnd then ⟨state, none, .ok ()⟩
    else if !state.hasCommittedLocalTurn || !state.shouldAcceptServerAudio then ⟨state, none, .ok ()⟩
    else acceptDelta decodeBase64 speaker sampleRateHz now value state
  | .audioDone => ⟨active, none, .ok ()⟩
  | .responseDone => ⟨responseDone now state, none, .ok ()⟩
  | .error => ⟨state, none, .error (.config (String.ofList (errorMessage value)) "realtime_voice_ws")⟩
  | .other => ⟨state, none, .ok ()⟩

/-! Playback and interrupts. -/

def updatePlaybackState (speaker : SpeakerState) (sampleRateHz now : Nat) (state : RealtimeLoopState) : RealtimeLoopState :=
  if !state.audioPlaying then startWhenBuffered speaker sampleRateHz state
  else if speaker.stagingSamples = 0 && speaker.bufferedSamples = 0 then state.finishAudioPlayback now
  else state

/-- There is something to interrupt. -/
def interruptible (speaker : SpeakerState) (state : RealtimeLoopState) : Bool :=
  state.audioPlaying || speaker.stagingSamples ≠ 0 || speaker.bufferedSamples ≠ 0 || state.awaitingResponse

/-- The request to cancel is sent on the way; that it cannot be sent is only logged. -/
def handleLocalInterrupt (speaker : SpeakerState) (now : Nat) (state : RealtimeLoopState) : Handled :=
  if !interruptible speaker state then ⟨state, none, .ok ()⟩
  else
    let dropped := { state with
      localTurnGeneration := nextTurnGeneration state.localTurnGeneration
      serverResponseGeneration := 0
      suppressServerAudioUntilTurnEnd := true
      awaitingResponse := false
      currentTurnReceivedServerActivity := false
      playbackFinishedAt := some now }
    match speaker.clearBuffer with
    | .error e => ⟨dropped, none, .error e⟩
    | .ok () => ⟨{ dropped.finishAudioPlayback now with lastActivity := now }, none, .ok ()⟩

end
end Beetle.Audio
