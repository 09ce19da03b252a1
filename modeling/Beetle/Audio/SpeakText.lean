import Beetle.Audio.WavDecoder
import Beetle.Lib.JsonValue

/-! Speaking a text: a synthesis is streamed to the speaker, and another one is fetched whole where that was no good WAV. -/
namespace Beetle.Audio
open Beetle.Lib

def voiceLocalInterruptStage : String := "voice_local_interrupt"
def audioTtsWriteChunkSamples : Nat := 1024
def audioSpeakerDrainGraceMs : Nat := 1500
def ttsErrorPreviewMaxBytes : Nat := 1024
def ttsStreamTimeoutSecs : Nat := 90

def requestError (message : String) : Error := .config message "tts_baidu_request"

/-- How errors are displayed, and which numbers `serde_json` reads. -/
structure TextRules where
  errorText : Error → String
  numbers : Json.NumberFormat

/-! The synthesis. -/

def extractTtsErrorMessage (rules : TextRules) (bytes : Bytes) : String :=
  let parsed := (fromUtf8 bytes).bind fun text => (Json.fromStr 127 text).bind (Json.value rules.numbers)
  let member (key : String) : Option (List Char) :=
    match parsed with
    | some (.obj members) => (Json.get members key.toList).bind Json.asString
    | _ => none
  match member "err_msg" with
  | some message => String.ofList message
  | none =>
    match member "message" with
    | some message => String.ofList message
    | none => ((fromUtf8 bytes).map String.ofList).getD "unknown tts error"

def appendPreview (dst src : Bytes) (max : Nat) : Bytes :=
  if dst.length ≥ max then dst else dst ++ src.take (min src.length (max - dst.length))

/-- What the server answers to a streamed request: the token is there or not, the pieces of the body come some seconds
after the request, and then the status is known or the transport has failed. -/
structure StreamedReply where
  token : Except Error Unit
  pieces : List (Nat × Bytes)
  status : Except Error Nat

/-- What the server answers to a request for the whole body. -/
structure WholeReply where
  token : Except Error Unit
  response : Except Error (Nat × Bytes)

def synthesizeWav (rules : TextRules) (reply : WholeReply) : Except Error Bytes :=
  match reply.token with
  | .error e => .error e
  | .ok () =>
    match reply.response with
    | .error e => .error (requestError (rules.errorText e))
    | .ok (status, bytes) =>
      if status ≠ 200 then .error (requestError ("tts http status " ++ toString status))
      else if bytes.head? = some 123 then .error (requestError (extractTtsErrorMessage rules bytes))
      else .ok bytes

structure WavStream where
  decoder : WavPcmStreamDecoder
  textPreview : Bytes
  textResponse : Bool
  firstByteSeen : Bool

def WavStream.new (chunkSamples : Nat) : WavStream := ⟨.new (max chunkSamples 1), [], false, false⟩

/-- The first byte tells an error text, in JSON or HTML, from a WAV. -/
def WavStream.look (stream : WavStream) (b : UInt8) : WavStream :=
  if stream.firstByteSeen then stream else { stream with firstByteSeen := true, textResponse := b = 123 || b = 60 }

section
variable {σ : Type} (sink : PcmSink σ)

/-- The callback of `stream_wav_pcm16le`. -/
def WavStream.onPiece (s : σ) (stream : WavStream) (elapsedSecs : Nat) (piece : Bytes) : σ × Except Error WavStream :=
  if elapsedSecs > ttsStreamTimeoutSecs then (s, .error (.config "stream timeout" "tts_baidu_timeout"))
  else
    match piece with
    | [] => (s, .ok stream)
    | b :: rest =>
      let stream := stream.look b
      if stream.textResponse then
        (s, .ok { stream with textPreview := appendPreview stream.textPreview (b :: rest) ttsErrorPreviewMaxBytes })
      else
        match stream.decoder.feed sink s (b :: rest) with
        | (s, .error e) => (s, .error e)
        | (s, .ok decoder) => (s, .ok { stream with decoder })

def WavStream.onPieces (s : σ) (stream : WavStream) : List (Nat × Bytes) → σ × Except Error WavStream
  | [] => (s, .ok stream)
  | (elapsedSecs, piece) :: pieces =>
    match stream.onPiece sink s elapsedSecs piece with
    | (s, .error e) => (s, .error e)
    | (s, .ok stream) => WavStream.onPieces s stream pieces

end

/-- What `stream_wav_pcm16le` makes of the stream when the transport is done with it. -/
def WavStream.finish (rules : TextRules) (stream : WavStream) (status : Except Error Nat) : Except Error Nat :=
  match status with
  | .error e => .error (requestError (rules.errorText e))
  | .ok status =>
    if stream.textResponse then
      .error (requestError
        ("tts http status " ++ toString status ++ ": " ++ extractTtsErrorMessage rules stream.textPreview))
    else if status ≠ 200 then .error (requestError ("tts http status " ++ toString status))
    else stream.decoder.finish.map fun () => stream.decoder.playedSamples

/-- An error of the callback comes back from the transport and is displayed in an error of the request. -/
def streamWavPcm16le {σ : Type} (rules : TextRules) (sink : PcmSink σ) (chunkSamples : Nat) (s : σ)
    (reply : StreamedReply) : σ × Except Error Nat :=
  match reply.token with
  | .error e => (s, .error e)
  | .ok () =>
    match (WavStream.new chunkSamples).onPieces sink s reply.pieces with
    | (s, .error e) => (s, .error (requestError (rules.errorText e)))
    | (s, .ok stream) => (s, stream.finish rules reply.status)

/-! The speaker. -/

/-- Which of the two requests a sample comes from. -/
inductive Synthesis where
  | streamed
  | whole
  deriving DecidableEq

inductive SpeakerEvent where
  /-- Samples are passed to `write_speaker_pcm_i16`. -/
  | written (synthesis : Synthesis) (chunk : List Int16)
  | interruptAccepted
  | cleared

/-- What the platform answers: whether a request to interrupt is there at the n-th look, how the clear made at that look
ends, and how the n-th write ends. -/
structure SpeakerAnswers where
  interruptArmed : Bool
  takeAudioInterruptRequest : Nat → Bool
  clearSpeakerBuffer : Nat → Except Error Unit
  writeSpeakerPcm : Nat → Except Error Unit
  stage_clear : ∀ n e, clearSpeakerBuffer n = .error e → e.stage = "audio_speaker"

/-- `looks` and `writes` are the numbers of calls made. -/
structure Playback where
  looks : Nat
  writes : Nat
  events : List SpeakerEvent
  playedSamples : Nat
  interrupted : Bool

def Playback.start : Playback := ⟨0, 0, [], 0, false⟩

section
variable (answers : SpeakerAnswers)

def acceptLocalInterrupt (playback : Playback) : Playback × Except Error Bool :=
  let looked := { playback with looks := playback.looks + 1 }
  if !answers.interruptArmed || !answers.takeAudioInterruptRequest playback.looks then (looked, .ok false)
  else
    let accepted := { looked with events := playback.events ++ [.interruptAccepted, .cleared] }
    match answers.clearSpeakerBuffer playback.looks with
    | .error e => (accepted, .error e)
    | .ok () => (accepted, .ok true)

def writePlaybackChunk (synthesis : Synthesis) : PcmSink Playback := fun playback chunk =>
  match acceptLocalInterrupt answers playback with
  | (playback, .error e) => (playback, .error e)
  | (playback, .ok true) =>
    ({ playback with interrupted := true },
      .error (.config "local interrupt accepted during playback" voiceLocalInterruptStage))
  | (playback, .ok false) =>
    let passed := { playback with writes := playback.writes + 1,
                                  events := playback.events ++ [.written synthesis chunk] }
    match answers.writeSpeakerPcm playback.writes with
    | .error e => (passed, .error e)
    | .ok () => ({ passed with playedSamples := playback.playedSamples + chunk.length }, .ok ())

/-- Whether the speaker is ready, and how many samples it has yet to play; the last reading is the one at which the wait
is over. -/
structure DrainReadings where
  readings : List (Bool × Nat)
  last : Bool × Nat

def speakerUnavailable : Error := .config "speaker became unavailable during playback" "audio_speaker"

def drainTimeout (timeoutMs pending : Nat) : Error :=
  .config ("speaker playback drain timeout after " ++ toString timeoutMs ++ " ms (pending_samples=" ++
    toString pending ++ ")") "audio_speaker"

/-- What a turn of the wait makes of a reading: the wait ends, or it goes on. -/
def drainTurn (sawPendingSamples : Bool) : Bool × Nat → Option (Except Error Bool)
  | (ready, pendingSamples) =>
    let sawPendingSamples := sawPendingSamples || pendingSamples > 0
    if pendingSamples = 0 then some (if sawPendingSamples && !ready then .error speakerUnavailable else .ok false)
    else if !ready then some (.error speakerUnavailable)
    else none

def waitForPlaybackDrain (timeoutMs : Nat) (last : Bool × Nat) (playback : Playback) (sawPendingSamples : Bool) :
    List (Bool × Nat) → Playback × Except Error Bool
  | [] =>
    match acceptLocalInterrupt answers playback with
    | (playback, .error e) => (playback, .error e)
    | (playback, .ok true) => (playback, .ok true)
    | (playback, .ok false) => (playback, (drainTurn sawPendingSamples last).getD (.error (drainTimeout timeoutMs last.2)))
  | reading :: readings =>
    match acceptLocalInterrupt answers playback with
    | (playback, .error e) => (playback, .error e)
    | (playback, .ok true) => (playback, .ok true)
    | (playback, .ok false) =>
      match drainTurn sawPendingSamples reading with
      | some result => (playback, result)
      | none => waitForPlaybackDrain timeoutMs last playback (sawPendingSamples || reading.2 > 0) readings

def playbackTimeoutMs (sampleRate playedSamples : Nat) : Nat :=
  let sampleRate := max sampleRate 8000
  min ((playedSamples * 1000 + (sampleRate - 1)) / sampleRate + audioSpeakerDrainGraceMs) (2 ^ 64 - 1)

def waitForPlatformPlaybackDrain (sampleRate : Nat) (drain : DrainReadings) (playback : Playback) :
    Playback × Except Error Bool :=
  if playback.playedSamples = 0 then (playback, .ok false)
  else
    waitForPlaybackDrain answers (playbackTimeoutMs sampleRate playback.playedSamples) drain.last playback false
      drain.readings

/-- What `speak_text` meets, in the order in which it meets it. -/
structure SpeakInput where
  lease : Except Error Unit
  streamed : StreamedReply
  whole : WholeReply
  sampleRate : Nat
  drain : DrainReadings

/-- An interrupt is no failure of the reply. -/
def forgiveInterrupt : Except Error Nat → Except Error Unit
  | .ok _ => .ok ()
  | .error e => if e.stage = voiceLocalInterruptStage then .ok () else .error e

/-- The second request, and its samples from the first one on. -/
def playWholeReply (rules : TextRules) (reply : WholeReply) (playback : Playback) : Playback × Except Error Unit :=
  match synthesizeWav rules reply with
  | .error e => (playback, .error e)
  | .ok wav =>
    match playWavPcm16leChunks (writePlaybackChunk answers .whole) wav audioTtsWriteChunkSamples playback with
    | (playback, result) => (playback, forgiveInterrupt result)

def playReply (rules : TextRules) (input : SpeakInput) (playback : Playback) : Playback × Except Error Unit :=
  match streamWavPcm16le rules (writePlaybackChunk answers .streamed) audioTtsWriteChunkSamples playback input.streamed with
  | (playback, .ok _) => (playback, .ok ())
  | (playback, .error e) =>
    if e.stage = voiceLocalInterruptStage then (playback, .ok ())
    else if e.stage = "tts_baidu_wav" then playWholeReply answers rules input.whole playback
    else (playback, .error e)

structure VoicePlaybackStats where
  playedSamples : Nat
  interrupted : Bool

/-- After the samples are all written, an interrupt is accepted until the speaker has played them. -/
def drainReply (input : SpeakInput) (playback : Playback) : Playback × Except Error VoicePlaybackStats :=
  match acceptLocalInterrupt answers playback with
  | (playback, .error e) => (playback, .error e)
  | (playback, .ok accepted) =>
    let playback := { playback with interrupted := playback.interrupted || accepted }
    if playback.interrupted then (playback, .ok ⟨playback.playedSamples, playback.interrupted⟩)
    else
      match waitForPlatformPlaybackDrain answers input.sampleRate input.drain playback with
      | (playback, .error e) => (playback, .error e)
      | (playback, .ok accepted) =>
        let playback := { playback with interrupted := playback.interrupted || accepted }
        (playback, .ok ⟨playback.playedSamples, playback.interrupted⟩)

def speakText (rules : TextRules) (input : SpeakInput) : Playback × Except Error VoicePlaybackStats :=
  match input.lease with
  | .error e => (.start, .error e)
  | .ok () =>
    match playReply answers rules input .start with
    | (playback, .error e) => ({ playback with events := playback.events ++ [.cleared] }, .error e)
    | (playback, .ok ()) => drainReply answers input playback

end
end Beetle.Audio
