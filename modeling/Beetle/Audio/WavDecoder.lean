import Beetle.Error
import Beetle.Lib.Bytes

/-! PCM samples in a WAV file, read as a whole and from a stream. -/
namespace Beetle.Audio
open Beetle.Lib

def maxTtsSamples : Nat := 16000 * 300

def wavError (message : String) : Error := .config message "tts_baidu_wav"

/-- What is called with the samples, with a state of its own; it can fail. -/
abbrev PcmSink (σ : Type) := σ → List Int16 → σ × Except Error Unit

/-- `from_le_bytes` of an unsigned number. -/
def fromLeBytes (bs : Bytes) : Nat := bs.foldr (fun b n => b.toNat + 256 * n) 0

def i16FromLeBytes (low high : UInt8) : Int16 := Int16.ofBitVec (high.toBitVec ++ low.toBitVec)

/-- The samples of the pairs of bytes; one more byte at the end is none. -/
def samples : Bytes → List Int16
  | low :: high :: rest => i16FromLeBytes low high :: samples rest
  | _ => []

def riffId : Bytes := [82, 73, 70, 70]
def waveId : Bytes := [87, 65, 86, 69]
def dataId : Bytes := [100, 97, 116, 97]

def slice (wav : Bytes) (start stop : Nat) : Bytes := (wav.drop start).take (stop - start)

def hasWavHeader (wav : Bytes) : Bool := slice wav 0 4 = riffId && slice wav 8 12 = waveId

/-! The whole file. -/

/-- The loop of `wav_data_chunk`. -/
def wavDataLoop (wav : Bytes) (cursor : Nat) : Except Error (Option (Nat × Nat)) :=
  if _h : cursor + 8 ≤ wav.length then
    let chunkLen := fromLeBytes (slice wav (cursor + 4) (cursor + 8))
    if wav.length < cursor + 8 + chunkLen then .error (wavError "corrupted WAV chunks")
    else if slice wav cursor (cursor + 4) = dataId then .ok (some (cursor + 8, chunkLen))
    else wavDataLoop wav (cursor + 8 + chunkLen)
  else .ok none
termination_by wav.length - cursor

def wavDataChunk (wav : Bytes) : Except Error (Nat × Nat) :=
  if wav.length < 44 ∨ !hasWavHeader wav then .error (wavError "invalid WAV header")
  else do
    match ← wavDataLoop wav 12 with
    | none => .error (wavError "missing data chunk")
    | some (start, dataLen) =>
      if dataLen % 2 = 0 then .ok (start, dataLen) else .error (wavError "PCM data length must be even")

section
variable {σ : Type} (sink : PcmSink σ)

/-- The loop of `play_wav_pcm16le_chunks`. -/
def playLoop (bytes : Bytes) (chunkLen stop : Nat) (s : σ) (idx played : Nat) : σ × Except Error Nat :=
  if _h : idx < stop then
    let takeSamples := min ((stop - idx) / 2) chunkLen
    if _htake : takeSamples = 0 then (s, .ok played)
    else
      match sink s (samples (slice bytes idx (idx + takeSamples * 2))) with
      | (s, .error e) => (s, .error e)
      | (s, .ok ()) => playLoop bytes chunkLen stop s (idx + takeSamples * 2) (played + takeSamples)
  else (s, .ok played)
termination_by stop - idx

def playWavPcm16leChunks (wav : Bytes) (chunkSamples : Nat) (s : σ) : σ × Except Error Nat :=
  match wavDataChunk wav with
  | .error e => (s, .error e)
  | .ok (start, dataLen) => playLoop sink wav (max chunkSamples 1) (start + dataLen) s start 0

end

/-! The stream. -/

/-- The loop of `try_parse_wav_data_chunk_prefix`; a chunk of odd length has a byte more behind it. -/
@[grind =] def wavPrefixLoop (wav : Bytes) (cursor : Nat) : Except Error (Option (Nat × Nat)) :=
  if _h : cursor + 8 ≤ wav.length then
    let chunkLen := fromLeBytes (slice wav (cursor + 4) (cursor + 8))
    if slice wav cursor (cursor + 4) = dataId then
      if chunkLen % 2 = 0 then .ok (some (cursor + 8, chunkLen)) else .error (wavError "PCM data length must be even")
    else
      let padded := chunkLen + chunkLen % 2
      if wav.length < cursor + 8 + padded then .ok none else wavPrefixLoop wav (cursor + 8 + padded)
  else .ok none
termination_by wav.length - cursor

def tryParseWavDataChunkPrefix (wav : Bytes) : Except Error (Option (Nat × Nat)) :=
  if wav.length < 12 then .ok none
  else if !hasWavHeader wav then .error (wavError "invalid WAV header")
  else wavPrefixLoop wav 12

/-- `chunk` is the filled part of the buffer, which has room for `chunkSamples` samples. -/
structure WavPcmStreamDecoder where
  pending : Bytes
  chunkSamples : Nat
  chunk : List Int16
  dataBytesRemaining : Option Nat
  playedSamples : Nat

namespace WavPcmStreamDecoder

def new (chunkSamples : Nat) : WavPcmStreamDecoder := ⟨[], chunkSamples, [], none, 0⟩

section
variable {σ : Type} (sink : PcmSink σ)

/-- The loop of `consume_pcm_even_prefix`. -/
def consume (s : σ) (d : WavPcmStreamDecoder) : List Int16 → σ × Except Error WavPcmStreamDecoder
  | [] => (s, .ok d)
  | sample :: rest =>
    let chunk := d.chunk ++ [sample]
    if chunk.length = d.chunkSamples then
      match sink s chunk with
      | (s, .error e) => (s, .error e)
      | (s, .ok ()) => consume s { d with chunk := [], playedSamples := d.playedSamples + chunk.length } rest
    else consume s { d with chunk } rest

def flushChunk (s : σ) (d : WavPcmStreamDecoder) : σ × Except Error WavPcmStreamDecoder :=
  if d.chunk = [] then (s, .ok d)
  else
    match sink s d.chunk with
    | (s, .error e) => (s, .error e)
    | (s, .ok ()) => (s, .ok { d with chunk := [], playedSamples := d.playedSamples + d.chunk.length })

/-- The beginning of a turn: the header is read, once it is there. -/
def readHeader (d : WavPcmStreamDecoder) : Except Error (Option WavPcmStreamDecoder) :=
  match d.dataBytesRemaining with
  | some _ => .ok (some d)
  | none =>
    match tryParseWavDataChunkPrefix d.pending with
    | .error e => .error e
    | .ok none => .ok none
    | .ok (some (dataStart, dataLen)) =>
      .ok (some { d with pending := d.pending.drop dataStart, dataBytesRemaining := some dataLen })

theorem length_readHeader {d d' : WavPcmStreamDecoder} (h : readHeader d = .ok (some d')) :
    d'.pending.length ≤ d.pending.length := by
  unfold readHeader at h
  split at h
  · obtain rfl := Option.some.inj (Except.ok.inj h)
    exact Nat.le_refl _
  · split at h
    · cases h
    · cases h
    · obtain rfl := Option.some.inj (Except.ok.inj h)
      rw [List.length_drop]
      exact Nat.sub_le _ _

/-- The loop of `feed`. -/
def feedLoop (s : σ) (d : WavPcmStreamDecoder) : σ × Except Error WavPcmStreamDecoder :=
  match _h : readHeader d with
  | .error e => (s, .error e)
  | .ok none => (s, .ok d)
  | .ok (some d) =>
    let rem := d.dataBytesRemaining.getD 0
    let even := min d.pending.length rem / 2 * 2
    if rem = 0 then (s, .ok d)
    else if _heven : even = 0 then (s, .ok d)
    else
      match consume sink s d (samples (d.pending.take even)) with
      | (s, .error e) => (s, .error e)
      | (s, .ok d') =>
        if d'.playedSamples > maxTtsSamples then (s, .error (wavError "audio too long (max 5 min)"))
        else
          let d' := { d' with pending := d.pending.drop even, dataBytesRemaining := some (rem - even) }
          if rem = even then flushChunk sink s d' else feedLoop s d'
termination_by d.pending.length
decreasing_by
  have := length_readHeader _h
  simp only [List.length_drop]
  omega

def feed (s : σ) (d : WavPcmStreamDecoder) (bytes : Bytes) : σ × Except Error WavPcmStreamDecoder :=
  if bytes = [] then (s, .ok d) else feedLoop sink s { d with pending := d.pending ++ bytes }

/-- The pieces of a stream, up to the first that fails. -/
def feedAll (s : σ) (d : WavPcmStreamDecoder) : List Bytes → σ × Except Error WavPcmStreamDecoder
  | [] => (s, .ok d)
  | piece :: pieces =>
    match feed sink s d piece with
    | (s, .error e) => (s, .error e)
    | (s, .ok d) => feedAll s d pieces

end

def finish (d : WavPcmStreamDecoder) : Except Error Unit :=
  match d.dataBytesRemaining with
  | none => .error (wavError "missing data chunk")
  | some 0 => .ok ()
  | some (_ + 1) => .error (wavError "truncated WAV stream")

end WavPcmStreamDecoder
end Beetle.Audio
