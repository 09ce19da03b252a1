import Mathlib.Data.List.Infix
import Beetle.Audio.WavDecoder

/-! The samples of a well-formed WAV file, as the stream decoder and the plain one deliver them. -/
namespace Beetle.Audio
open Beetle.Lib

/-- `to_le_bytes` of a `u32`. -/
def le32 (n : Nat) : Bytes :=
  [UInt8.ofNat n, UInt8.ofNat (n / 256), UInt8.ofNat (n / 65536), UInt8.ofNat (n / 16777216)]

theorem fromLeBytes_le32 {n : Nat} (h : n < 2 ^ 32) : fromLeBytes (le32 n) = n := by
  simp only [fromLeBytes, le32, List.foldr_cons, List.foldr_nil, UInt8.toNat_ofNat']
  omega

@[simp] theorem length_le32 (n : Nat) : (le32 n).length = 4 := rfl

/-- A chunk before the data; the pad byte is written where the body has an odd length. -/
structure RiffChunk where
  id : Bytes
  body : Bytes
  pad : UInt8
  length_id : id.length = 4
  id_ne : id ≠ dataId
  length_body : body.length < 2 ^ 32

def RiffChunk.padded (c : RiffChunk) : Bytes := c.body ++ if c.body.length % 2 = 1 then [c.pad] else []

def RiffChunk.bytes (c : RiffChunk) : Bytes := c.id ++ (le32 c.body.length ++ c.padded)

/-- A WAV file with its chunks before the data, the data, and what is behind it. -/
structure WavFile where
  riffSize : Bytes
  chunks : List RiffChunk
  data : Bytes
  trailing : Bytes
  length_riffSize : riffSize.length = 4
  even_data : data.length % 2 = 0
  length_data : data.length ≤ 2 * maxTtsSamples

namespace WavFile
variable (file : WavFile)

def riffHeader : Bytes := riffId ++ (file.riffSize ++ waveId)

def dataHeader : Bytes := dataId ++ le32 file.data.length

def chunkBytes : Bytes := file.chunks.flatMap RiffChunk.bytes

/-- What is before the data. -/
def header : Bytes := file.riffHeader ++ (file.chunkBytes ++ file.dataHeader)

def bytes : Bytes := file.header ++ (file.data ++ file.trailing)

end WavFile

/-- The sink that keeps the chunks. -/
def keepChunks : PcmSink (List (List Int16)) := fun chunks chunk => (chunks ++ [chunk], .ok ())

/-! Parts of a text of bytes. -/

theorem slice_append (front part back : Bytes) {start stop : Nat} (hstart : front.length = start)
    (hstop : start + part.length = stop) : slice (front ++ (part ++ back)) start stop = part := by
  subst hstart hstop
  rw [slice, List.drop_left, Nat.add_sub_cancel_left, List.take_left]

/-- A beginning that is long enough has the first part whole. -/
theorem exists_append_of_prefix {p front back : Bytes} (h : p <+: front ++ back) (hlength : front.length ≤ p.length) :
    ∃ rest, p = front ++ rest ∧ rest <+: back := by
  obtain ⟨rest, rfl⟩ := List.prefix_of_prefix_length_le (List.prefix_append front back) h hlength
  exact ⟨rest, rfl, (List.prefix_append_right_inj front).mp h⟩

theorem samples_append {a : Bytes} (h : a.length % 2 = 0) (b : Bytes) : samples (a ++ b) = samples a ++ samples b := by
  fun_induction samples a with
  | case1 low high rest ih =>
    rw [List.cons_append, List.cons_append, samples, List.cons_append]
    rw [List.length_cons, List.length_cons] at h
    rw [ih (by omega)]
  | case2 a hshort =>
    match a with
    | [] => rfl
    | [_] => cases h
    | low :: high :: rest => exact absurd rfl (hshort low high rest)

theorem length_samples (a : Bytes) : (samples a).length = a.length / 2 := by
  fun_induction samples a with
  | case1 low high rest ih =>
    rw [List.length_cons, List.length_cons, List.length_cons, ih]
    omega
  | case2 a hshort =>
    match a with
    | [] => rfl
    | [_] =>
      rw [List.length_singleton]
      rfl
    | low :: high :: rest => exact absurd rfl (hshort low high rest)

/-! The header of a stream. -/

theorem RiffChunk.length_padded (c : RiffChunk) : c.padded.length = c.body.length + c.body.length % 2 := by
  rw [padded, List.length_append]
  split
  · rename_i hodd
    rw [hodd, List.length_singleton]
  · rename_i heven
    rw [List.length_nil]
    omega

variable (c : RiffChunk)

theorem RiffChunk.length_bytes : c.bytes.length = 8 + c.padded.length := by
  rw [bytes, List.length_append, List.length_append, c.length_id, length_le32]
  omega

theorem length_dataHeader (file : WavFile) : file.dataHeader.length = 8 := rfl

/-- The header of a chunk at the cursor. -/
theorem slices_of_chunkHeader {front id rest : Bytes} {n : Nat} (hid : id.length = 4) (hn : n < 2 ^ 32) :
    slice (front ++ (id ++ (le32 n ++ rest))) front.length (front.length + 4) = id ∧
      fromLeBytes (slice (front ++ (id ++ (le32 n ++ rest))) (front.length + 4) (front.length + 8)) = n := by
  constructor
  · exact slice_append front id _ rfl (by rw [hid])
  · have hsize : slice (front ++ id ++ (le32 n ++ rest)) (front.length + 4) (front.length + 8) = le32 n :=
      slice_append (front ++ id) (le32 n) rest (by rw [List.length_append, hid]) (by rw [length_le32])
    rw [← List.append_assoc, hsize, fromLeBytes_le32 hn]

theorem length_chunkHeader {front id rest : Bytes} {n : Nat} (hid : id.length = 4) :
    (front ++ (id ++ (le32 n ++ rest))).length = front.length + 8 + rest.length := by
  simp only [List.length_append, hid, length_le32]
  omega

theorem length_chunk (rest : Bytes) : (c.id ++ (le32 c.body.length ++ rest)).length = 8 + rest.length := by
  simp only [List.length_append, c.length_id, length_le32]
  omega

theorem wavPrefixLoop_short {front p : Bytes} (h : p.length < 8) : wavPrefixLoop (front ++ p) front.length = .ok none := by
  rw [wavPrefixLoop, dif_neg (by rw [List.length_append]; omega)]

theorem wavPrefixLoop_data (front rest : Bytes) {n : Nat} (heven : n % 2 = 0) (hn : n < 2 ^ 32) :
    wavPrefixLoop (front ++ (dataId ++ (le32 n ++ rest))) front.length = .ok (some (front.length + 8, n)) := by
  obtain ⟨hid, hlen⟩ := @slices_of_chunkHeader front dataId rest n rfl hn
  rw [wavPrefixLoop, dif_pos (by rw [length_chunkHeader rfl]; omega)]
  simp only [hid, hlen, heven, if_true]

theorem wavPrefixLoop_skip (front rest : Bytes) :
    wavPrefixLoop (front ++ (c.id ++ (le32 c.body.length ++ rest))) front.length =
      if rest.length < c.padded.length then .ok none
      else wavPrefixLoop (front ++ (c.id ++ (le32 c.body.length ++ rest))) (front.length + (8 + c.padded.length)) := by
  obtain ⟨hid, hlen⟩ := @slices_of_chunkHeader front c.id rest c.body.length c.length_id c.length_body
  rw [wavPrefixLoop, dif_pos (by rw [length_chunkHeader c.length_id]; omega)]
  simp only [hid, hlen, if_neg c.id_ne, length_chunkHeader c.length_id, ← c.length_padded, Nat.add_assoc]
  simp only [Nat.add_lt_add_iff_left]

/-- From a cursor on, a stream that has come to `p` is read up to the data, or is waited for. -/
theorem wavPrefixLoop_eq {data more : Bytes} (heven : data.length % 2 = 0) (hdata : data.length < 2 ^ 32)
    (chunks : List RiffChunk) (front p : Bytes)
    (hp : p <+: chunks.flatMap RiffChunk.bytes ++ (dataId ++ (le32 data.length ++ more))) :
    wavPrefixLoop (front ++ p) front.length =
      if p.length < (chunks.flatMap RiffChunk.bytes).length + 8 then .ok none
      else .ok (some (front.length + (chunks.flatMap RiffChunk.bytes).length + 8, data.length)) := by
  induction chunks generalizing front p with
  | nil =>
    rw [List.flatMap_nil, List.nil_append, ← List.append_assoc] at hp
    rw [List.flatMap_nil, List.length_nil]
    by_cases hshort : p.length < 8
    · rw [wavPrefixLoop_short hshort, if_pos (by omega)]
    · obtain ⟨rest, rfl, -⟩ := exists_append_of_prefix hp (Nat.le_of_not_lt hshort)
      rw [if_neg (by omega), List.append_assoc dataId, wavPrefixLoop_data front rest heven hdata]
  | cons c chunks ih =>
    have hlength := c.length_bytes
    rw [List.flatMap_cons, List.length_append]
    by_cases hshort : p.length < 8
    · rw [wavPrefixLoop_short hshort, if_pos (by omega)]
    have hchunk : p <+: (c.id ++ le32 c.body.length) ++
        (c.padded ++ (chunks.flatMap RiffChunk.bytes ++ (dataId ++ (le32 data.length ++ more)))) := by
      simpa only [List.flatMap_cons, RiffChunk.bytes, List.append_assoc] using hp
    have hheader : (c.id ++ le32 c.body.length).length = 8 := by rw [List.length_append, c.length_id, length_le32]
    obtain ⟨rest, rfl, hrest⟩ := exists_append_of_prefix hchunk (by omega)
    rw [List.append_assoc c.id, wavPrefixLoop_skip, length_chunk]
    by_cases hwait : rest.length < c.padded.length
    · rw [if_pos hwait, if_pos (by omega)]
    · obtain ⟨rest, rfl, hnext⟩ := exists_append_of_prefix hrest (Nat.le_of_not_lt hwait)
      have hloop := ih (front ++ c.bytes) rest hnext
      have hsame : front ++ (c.id ++ (le32 c.body.length ++ (c.padded ++ rest))) = front ++ c.bytes ++ rest := by
        simp only [RiffChunk.bytes, List.append_assoc]
      rw [if_neg hwait, hsame, ← hlength, ← List.length_append, hloop]
      simp only [List.length_append]
      by_cases hmore : rest.length < (chunks.flatMap RiffChunk.bytes).length + 8
      · rw [if_pos hmore, if_pos (by omega)]
      · rw [if_neg hmore, if_neg (by omega)]
        simp only [Nat.add_assoc]

/-! The stream. -/

namespace WavFile

section
variable (file : WavFile)
include file

theorem length_data_lt : file.data.length < 2 ^ 32 := by
  have h := file.length_data
  unfold maxTtsSamples at h
  omega

theorem hasWavHeader_riffHeader (rest : Bytes) : hasWavHeader (file.riffHeader ++ rest) = true := by
  have hid : slice (file.riffHeader ++ rest) 0 4 = riffId := by
    rw [riffHeader, List.append_assoc]
    exact slice_append [] riffId _ rfl rfl
  have hwave : slice (file.riffHeader ++ rest) 8 12 = waveId := by
    have hassoc : file.riffHeader ++ rest = (riffId ++ file.riffSize) ++ (waveId ++ rest) := by
      simp only [riffHeader, List.append_assoc]
    rw [hassoc]
    exact slice_append _ waveId rest (by rw [List.length_append, file.length_riffSize]; rfl) rfl
  rw [hasWavHeader, hid, hwave]
  rfl

theorem length_riffHeader : file.riffHeader.length = 12 := by
  rw [riffHeader, List.length_append, List.length_append, file.length_riffSize]
  rfl

/-- The header is read from any beginning of the file that has the whole of it. -/
theorem tryParse_prefix {p : Bytes} (h : p <+: file.bytes) : tryParseWavDataChunkPrefix p =
    if p.length < file.header.length then .ok none else .ok (some (file.header.length, file.data.length)) := by
  have hriff := file.length_riffHeader
  have hlength : file.header.length = 12 + (file.chunks.flatMap RiffChunk.bytes).length + 8 := by
    rw [header, List.length_append, List.length_append, hriff, length_dataHeader, chunkBytes]
    omega
  unfold tryParseWavDataChunkPrefix
  by_cases hshort : p.length < 12
  · rw [if_pos hshort, if_pos (by omega)]
  · have hsplit : p <+: file.riffHeader ++
        (file.chunks.flatMap RiffChunk.bytes ++ (dataId ++ (le32 file.data.length ++ (file.data ++ file.trailing)))) := by
      simpa only [bytes, header, chunkBytes, dataHeader, List.append_assoc] using h
    obtain ⟨rest, rfl, hrest⟩ := exists_append_of_prefix hsplit (by omega)
    have hmagic := file.hasWavHeader_riffHeader rest
    have hloop := wavPrefixLoop_eq file.even_data file.length_data_lt file.chunks file.riffHeader rest hrest
    rw [hriff] at hloop
    rw [if_neg hshort, hmagic, Bool.not_true, if_neg Bool.false_ne_true, hloop, hlength, List.length_append, hriff]
    by_cases hmore : rest.length < (file.chunks.flatMap RiffChunk.bytes).length + 8
    · rw [if_pos hmore, if_pos (by omega)]
    · rw [if_neg hmore, if_neg (by omega)]

end

end WavFile

namespace WavPcmStreamDecoder

/-- Samples are kept until the buffer is full; what is delivered and what is kept is what came in. -/
theorem consume_keepChunks (xs : List Int16) (chunks : List (List Int16)) (d : WavPcmStreamDecoder)
    (hshort : d.chunk.length < d.chunkSamples) :
    ∃ chunks' d', consume keepChunks chunks d xs = (chunks', .ok d') ∧
      chunks'.flatten ++ d'.chunk = chunks.flatten ++ d.chunk ++ xs ∧
      d'.playedSamples + d'.chunk.length = d.playedSamples + d.chunk.length + xs.length ∧
      d'.chunk.length < d'.chunkSamples ∧ d'.chunkSamples = d.chunkSamples := by
  induction xs generalizing chunks d with
  | nil => exact ⟨chunks, d, rfl, by simp, by simp, hshort, rfl⟩
  | cons x xs ih =>
    rw [consume]
    by_cases hfull : (d.chunk ++ [x]).length = d.chunkSamples
    · obtain ⟨chunks', d', hconsume, hflatten, hplayed, hshort', hsize⟩ := ih (chunks ++ [d.chunk ++ [x]])
        { d with chunk := [], playedSamples := d.playedSamples + (d.chunk ++ [x]).length } (Nat.zero_lt_of_lt hshort)
      refine ⟨chunks', d', ?_, ?_, ?_, hshort', hsize⟩
      · rw [if_pos hfull]
        exact hconsume
      · simpa using hflatten
      · simp only [List.length_append, List.length_nil, List.length_cons] at hplayed ⊢
        omega
    · have hroom : (d.chunk ++ [x]).length < d.chunkSamples := by
        rw [List.length_append, List.length_singleton] at hfull ⊢
        omega
      obtain ⟨chunks', d', hconsume, hflatten, hplayed, hshort', hsize⟩ := ih chunks { d with chunk := d.chunk ++ [x] } hroom
      refine ⟨chunks', d', ?_, ?_, ?_, hshort', hsize⟩
      · rw [if_neg hfull]
        exact hconsume
      · simpa using hflatten
      · simp only [List.length_append, List.length_nil, List.length_cons] at hplayed ⊢
        omega

/-- Where the decoder is in the data: `used` bytes of it are consumed. -/
structure InData (file : WavFile) (n used : Nat) (chunks : List (List Int16)) (d : WavPcmStreamDecoder) : Prop where
  size : d.chunkSamples = n
  short : d.chunk.length < n
  even : used % 2 = 0
  le : used ≤ file.data.length
  remaining : d.dataBytesRemaining = some (file.data.length - used)
  delivered : chunks.flatten ++ d.chunk = samples (file.data.take used)
  played : d.playedSamples + d.chunk.length = used / 2
  done : used = file.data.length → d.chunk = []

/-- What is pending is the part of the stream behind the consumed bytes. -/
def Follows (file : WavFile) (used : Nat) (pending : Bytes) : Prop := pending <+: file.data.drop used ++ file.trailing

/-- What the decoder has made of the beginning `p` of a file. -/
inductive Decoded (file : WavFile) (n : Nat) (p : Bytes) (chunks : List (List Int16)) (d : WavPcmStreamDecoder) : Prop
  | waiting (hshort : p.length < file.header.length) (hstart : d = { new n with pending := p }) (hnone : chunks = [])
  | reading (used : Nat) (h : InData file n used chunks d) (hp : p = file.header ++ (file.data.take used ++ d.pending))
      (hcaught : used = file.data.length ∨ d.pending.length ≤ 1)

section
variable {σ : Type} {sink : PcmSink σ} {s : σ} {d d₁ : WavPcmStreamDecoder}

/-- A turn of the loop once the header is read. -/
def dataTurn (sink : PcmSink σ) (s : σ) (d : WavPcmStreamDecoder) : σ × Except Error WavPcmStreamDecoder :=
  let rem := d.dataBytesRemaining.getD 0
  let even := min d.pending.length rem / 2 * 2
  if rem = 0 then (s, .ok d)
  else if even = 0 then (s, .ok d)
  else
    match consume sink s d (samples (d.pending.take even)) with
    | (s, .error e) => (s, .error e)
    | (s, .ok d') =>
      if d'.playedSamples > maxTtsSamples then (s, .error (wavError "audio too long (max 5 min)"))
      else
        let d' := { d' with pending := d.pending.drop even, dataBytesRemaining := some (rem - even) }
        if rem = even then flushChunk sink s d' else feedLoop sink s d'

theorem feedLoop_of_header (h : readHeader d = .ok (some d₁)) : feedLoop sink s d = dataTurn sink s d₁ := by
  rw [feedLoop]
  split
  · rename_i heq
    rw [h] at heq
    cases heq
  · rename_i heq
    rw [h] at heq
    cases heq
  · rename_i d₂ heq
    rw [h] at heq
    obtain rfl := Option.some.inj (Except.ok.inj heq)
    rfl

theorem feedLoop_of_wait (h : readHeader d = .ok none) : feedLoop sink s d = (s, .ok d) := by
  rw [feedLoop]
  split
  · rename_i heq
    rw [h] at heq
    cases heq
  · rfl
  · rename_i d₂ heq
    rw [h] at heq
    cases heq

theorem readHeader_of_remaining {rem : Nat} (h : d.dataBytesRemaining = some rem) : readHeader d = .ok (some d) := by
  rw [readHeader, h]

end

theorem InData.flush {file : WavFile} {n : Nat} {chunks : List (List Int16)} {d : WavPcmStreamDecoder} (hn : 0 < n)
    (hsize : d.chunkSamples = n) (hremaining : d.dataBytesRemaining = some 0)
    (hdelivered : chunks.flatten ++ d.chunk = samples file.data)
    (hplayed : d.playedSamples + d.chunk.length = file.data.length / 2) :
    ∃ chunks' d', flushChunk keepChunks chunks d = (chunks', .ok d') ∧ d'.pending = d.pending ∧
      InData file n file.data.length chunks' d' := by
  unfold flushChunk
  by_cases hempty : d.chunk = []
  · refine ⟨chunks, d, if_pos hempty, rfl, hsize, ?_, file.even_data, Nat.le_refl _, ?_, ?_, hplayed, fun _ => hempty⟩
    · rw [hempty]
      exact hn
    · rw [hremaining, Nat.sub_self]
    · rw [hdelivered, List.take_length]
  · refine ⟨chunks ++ [d.chunk], { d with chunk := [], playedSamples := d.playedSamples + d.chunk.length }, if_neg hempty,
      rfl, hsize, hn, file.even_data, Nat.le_refl _, ?_, ?_, hplayed, fun _ => rfl⟩
    · rw [hremaining, Nat.sub_self]
    · rw [List.take_length, ← hdelivered]
      simp

variable {chunks : List (List Int16)} {d : WavPcmStreamDecoder} {file : WavFile} {n : Nat}

/-- With less than a sample pending, nothing is done. -/
theorem dataTurn_stop {n used : Nat}
    (h : InData file n used chunks d) (hlast : used = file.data.length ∨ d.pending.length ≤ 1) :
    dataTurn keepChunks chunks d = (chunks, .ok d) := by
  simp only [dataTurn, h.remaining, Option.getD_some]
  rcases hlast with hlast | hlast
  · rw [if_pos (by omega)]
  · by_cases hrem : file.data.length - used = 0
    · rw [if_pos hrem]
    · rw [if_neg hrem, if_pos (by omega)]

theorem dataTurn_inData (file : WavFile) {n used : Nat}
    (hn : 0 < n) (h : InData file n used chunks d) (hpending : Follows file used d.pending) :
    ∃ chunks' d' used', dataTurn keepChunks chunks d = (chunks', .ok d') ∧ InData file n used' chunks' d' ∧
      file.data.take used' ++ d'.pending = file.data.take used ++ d.pending ∧
      (used' = file.data.length ∨ d'.pending.length ≤ 1) := by
  have hle := h.le
  have heven := h.even
  have hdata := file.even_data
  by_cases hlast : used = file.data.length ∨ d.pending.length ≤ 1
  · exact ⟨chunks, d, used, dataTurn_stop h hlast, h, rfl, hlast⟩
  rw [not_or] at hlast
  obtain ⟨hnotDone, hsome⟩ := hlast
  -- The bytes that are taken now are the next ones of the data.
  generalize hevenBytes : min d.pending.length (file.data.length - used) / 2 * 2 = even
  have hroom : even ≤ file.data.length - used ∧ even ≤ d.pending.length := by omega
  have htake : d.pending.take even = (file.data.drop used).take even := by
    obtain ⟨more, hmore⟩ := hpending
    have hlength : even ≤ (file.data.drop used).length := by
      rw [List.length_drop]
      exact hroom.1
    rw [← List.take_append_of_le_length hroom.2, hmore, List.take_append_of_le_length hlength]
  have hparts : file.data.take (used + even) = file.data.take used ++ d.pending.take even := by
    rw [htake, List.take_add]
  have hsamples : samples (file.data.take (used + even)) =
      samples (file.data.take used) ++ samples (d.pending.take even) := by
    rw [hparts, samples_append]
    rw [List.length_take, Nat.min_eq_left hle]
    exact heven
  have hlengthTaken : (samples (d.pending.take even)).length = even / 2 := by
    rw [length_samples, List.length_take, Nat.min_eq_left hroom.2]
  obtain ⟨chunks', d', hconsume, hflatten, hplayed, hshort, hsize⟩ :=
    consume_keepChunks (samples (d.pending.take even)) chunks d (by rw [h.size]; exact h.short)
  have hplayed' : d'.playedSamples + d'.chunk.length = (used + even) / 2 := by
    rw [hplayed, h.played, hlengthTaken]
    omega
  have hdelivered : chunks'.flatten ++ d'.chunk = samples (file.data.take (used + even)) := by
    rw [hflatten, h.delivered, hsamples]
  have hmax : ¬ d'.playedSamples > maxTtsSamples := by
    have := file.length_data
    omega
  have hkept : file.data.take (used + even) ++ d.pending.drop even = file.data.take used ++ d.pending := by
    rw [hparts, List.append_assoc, List.take_append_drop]
  simp only [dataTurn, h.remaining, Option.getD_some, hevenBytes, hconsume]
  rw [if_neg (by omega), if_neg (by omega), if_neg hmax]
  by_cases hdone : file.data.length - used = even
  · have hused : used + even = file.data.length := by omega
    rw [hused, List.take_length] at hdelivered
    rw [hused] at hplayed' hkept
    obtain ⟨chunks'', d'', hflush, hpending', hin⟩ := @InData.flush file n chunks'
      { d' with pending := d.pending.drop even, dataBytesRemaining := some (file.data.length - used - even) } hn
      (hsize.trans h.size) (by rw [hdone, Nat.sub_self]) hdelivered hplayed'
    refine ⟨chunks'', d'', file.data.length, ?_, hin, ?_, .inl rfl⟩
    · rw [if_pos hdone]
      exact hflush
    · rw [hpending']
      exact hkept
  · have hin : InData file n (used + even) chunks'
        { d' with pending := d.pending.drop even, dataBytesRemaining := some (file.data.length - used - even) } := by
      refine ⟨hsize.trans h.size, ?_, by omega, by omega, ?_, hdelivered, hplayed', fun heq => by omega⟩
      · rw [← h.size, ← hsize]
        exact hshort
      · rw [Nat.sub_sub]
    have hcaught : (d.pending.drop even).length ≤ 1 := by
      rw [List.length_drop]
      omega
    refine ⟨chunks', _, used + even, ?_, hin, hkept, .inr hcaught⟩
    rw [if_neg hdone, feedLoop_of_header (readHeader_of_remaining rfl), dataTurn_stop hin (.inr hcaught)]

theorem follows_of_begins {used : Nat} {rest : Bytes}
    (hrest : file.header ++ (file.data.take used ++ rest) <+: file.bytes) : Follows file used rest := by
  rw [WavFile.bytes, List.prefix_append_right_inj] at hrest
  have hsplit : file.data ++ file.trailing = file.data.take used ++ (file.data.drop used ++ file.trailing) := by
    rw [← List.append_assoc, List.take_append_drop]
  rw [hsplit, List.prefix_append_right_inj] at hrest
  exact hrest

/-- The turns after a piece, from what was made of the beginning before it. -/
theorem Decoded.feedLoop {p piece : Bytes}
    (hn : 0 < n) (h : Decoded file n p chunks d) (hbegins : p ++ piece <+: file.bytes) :
    ∃ chunks' d', feedLoop keepChunks chunks { d with pending := d.pending ++ piece } = (chunks', .ok d') ∧
      Decoded file n (p ++ piece) chunks' d' := by
  cases h with
  | waiting hshort hstart hnone =>
    subst hstart hnone
    have hparse := file.tryParse_prefix hbegins
    by_cases hwait : (p ++ piece).length < file.header.length
    · rw [if_pos hwait] at hparse
      refine ⟨[], _, feedLoop_of_wait ?_, .waiting hwait rfl rfl⟩
      simp only [readHeader, new, hparse]
    · rw [if_neg hwait] at hparse
      obtain ⟨rest, hrest, hfollows⟩ := exists_append_of_prefix hbegins (Nat.le_of_not_lt hwait)
      have hpending : (p ++ piece).drop file.header.length = rest := by
        rw [hrest, List.drop_left]
      have hin : InData file n 0 [] { new n with pending := rest, dataBytesRemaining := some file.data.length } :=
        ⟨rfl, hn, rfl, Nat.zero_le _, rfl, rfl, rfl, fun _ => rfl⟩
      obtain ⟨chunks', d', used', hturn, hin', hkept, hcaught⟩ := dataTurn_inData file hn hin hfollows
      refine ⟨chunks', d', ?_, .reading used' hin' ?_ hcaught⟩
      · rw [feedLoop_of_header, hturn]
        simp only [readHeader, new, hparse, hpending]
      · rw [hrest, hkept]
        rfl
  | reading used h hp _ =>
    subst hp
    rw [List.append_assoc, List.append_assoc] at hbegins
    have hin : InData file n used chunks { d with pending := d.pending ++ piece } :=
      ⟨h.size, h.short, h.even, h.le, h.remaining, h.delivered, h.played, h.done⟩
    obtain ⟨chunks', d', used', hturn, hin', hkept, hcaught⟩ := dataTurn_inData file hn hin (follows_of_begins hbegins)
    refine ⟨chunks', d', ?_, .reading used' hin' ?_ hcaught⟩
    · rw [feedLoop_of_header (readHeader_of_remaining hin.remaining), hturn]
    · rw [List.append_assoc, List.append_assoc, hkept]

/-- One more piece of the file. -/
theorem Decoded.feed {p piece : Bytes}
    (hn : 0 < n) (h : Decoded file n p chunks d) (hbegins : p ++ piece <+: file.bytes) :
    ∃ chunks' d', feed keepChunks chunks d piece = (chunks', .ok d') ∧ Decoded file n (p ++ piece) chunks' d' := by
  by_cases hempty : piece = []
  · refine ⟨chunks, d, ?_, ?_⟩
    · rw [WavPcmStreamDecoder.feed, if_pos hempty]
    · rw [hempty, List.append_nil]
      exact h
  · rw [WavPcmStreamDecoder.feed, if_neg hempty]
    exact h.feedLoop hn hbegins

theorem Decoded.feedAll {p : Bytes}
    (hn : 0 < n) (h : Decoded file n p chunks d) (pieces : List Bytes) (hbegins : p ++ pieces.flatten <+: file.bytes) :
    ∃ chunks' d', feedAll keepChunks chunks d pieces = (chunks', .ok d') ∧
      Decoded file n (p ++ pieces.flatten) chunks' d' := by
  induction pieces generalizing p chunks d with
  | nil =>
    refine ⟨chunks, d, rfl, ?_⟩
    rw [List.flatten_nil, List.append_nil]
    exact h
  | cons piece pieces ih =>
    rw [List.flatten_cons, ← List.append_assoc] at hbegins ⊢
    obtain ⟨chunks₁, d₁, hfeed, hdecoded⟩ := h.feed hn ((List.prefix_append _ _).trans hbegins)
    obtain ⟨chunks₂, d₂, hfeedAll, hdecoded'⟩ := ih hdecoded hbegins
    refine ⟨chunks₂, d₂, ?_, hdecoded'⟩
    rw [WavPcmStreamDecoder.feedAll, hfeed]
    exact hfeedAll

/-- The whole file has been decoded. -/
theorem Decoded.complete
    (h : Decoded file n file.bytes chunks d) : chunks.flatten = samples file.data ∧ d.finish = .ok () := by
  cases h with
  | waiting hshort =>
    rw [WavFile.bytes, List.length_append] at hshort
    omega
  | reading used h hp hcaught =>
    rw [WavFile.bytes, List.append_cancel_left_eq] at hp
    have hused : used = file.data.length := by
      rcases hcaught with hused | hone
      · exact hused
      · have hlength := congrArg List.length hp
        rw [List.length_append, List.length_append, List.length_take, Nat.min_eq_left h.le] at hlength
        have := h.even
        have := h.le
        have := file.even_data
        omega
    have hdelivered := h.delivered
    rw [h.done hused, List.append_nil, hused, List.take_length] at hdelivered
    refine ⟨hdelivered, ?_⟩
    rw [finish, h.remaining, hused, Nat.sub_self]

/-- A file is decoded from a stream, however it is cut into pieces. -/
theorem feedAll_complete (file : WavFile) (hn : 0 < n) {pieces : List Bytes} (hpieces : pieces.flatten = file.bytes) :
    ∃ chunks d, feedAll keepChunks [] (new n) pieces = (chunks, .ok d) ∧ chunks.flatten = samples file.data ∧
      d.finish = .ok () := by
  have hheader : 0 < file.header.length := by
    simp only [WavFile.header, WavFile.riffHeader, riffId, List.length_append, List.length_cons]
    omega
  have hstart : Decoded file n [] [] (new n) := .waiting hheader rfl rfl
  obtain ⟨chunks, d, hfeed, hdecoded⟩ := hstart.feedAll hn pieces (by rw [List.nil_append, hpieces])
  rw [List.nil_append, hpieces] at hdecoded
  exact ⟨chunks, d, hfeed, hdecoded.complete⟩

end WavPcmStreamDecoder

/-! The whole file. -/

/-- The chunks are followed from a cursor on, each as long as it says it is, up to the data. -/
inductive Walks (wav : Bytes) : Nat → Nat → Nat → Prop
  | data {cursor len : Nat} (hheader : cursor + 8 ≤ wav.length) (hid : slice wav cursor (cursor + 4) = dataId)
      (hlen : fromLeBytes (slice wav (cursor + 4) (cursor + 8)) = len) (hfits : cursor + 8 + len ≤ wav.length) :
      Walks wav cursor (cursor + 8) len
  | skip {cursor chunkLen start len : Nat} (hheader : cursor + 8 ≤ wav.length)
      (hid : slice wav cursor (cursor + 4) ≠ dataId) (hlen : fromLeBytes (slice wav (cursor + 4) (cursor + 8)) = chunkLen)
      (hfits : cursor + 8 + chunkLen ≤ wav.length) (h : Walks wav (cursor + 8 + chunkLen) start len) :
      Walks wav cursor start len

variable {wav : Bytes} {cursor start len : Nat}

theorem wavDataLoop_iff : wavDataLoop wav cursor = .ok (some (start, len)) ↔ Walks wav cursor start len := by
  constructor
  · intro h
    fun_induction wavDataLoop wav cursor with
    | case1 => cases h
    | case2 cursor hheader chunkLen hfits hid =>
      obtain ⟨rfl, rfl⟩ := Prod.mk.inj (Option.some.inj (Except.ok.inj h))
      exact .data hheader hid rfl (Nat.le_of_not_lt hfits)
    | case3 cursor hheader chunkLen hfits hid ih => exact .skip hheader hid rfl (Nat.le_of_not_lt hfits) (ih h)
    | case4 => cases h
  · intro h
    induction h with
    | data hheader hid hlen hfits =>
      rw [wavDataLoop, dif_pos hheader]
      simp only [hlen, hid, if_true]
      rw [if_neg (Nat.not_lt.mpr hfits)]
    | skip hheader hid hlen hfits _ ih =>
      rw [wavDataLoop, dif_pos hheader]
      simp only [hlen, if_neg hid]
      rw [if_neg (Nat.not_lt.mpr hfits), ih]

theorem slice_split (wav : Bytes) {a b c : Nat} (hab : a ≤ b) (hbc : b ≤ c) :
    slice wav a c = slice wav a b ++ slice wav b c := by
  have hsum : c - a = (b - a) + (c - b) := by omega
  unfold slice
  rw [hsum, List.take_add, List.drop_drop, Nat.add_sub_cancel' hab]

theorem length_slice (wav : Bytes) (a : Nat) {b : Nat} (hb : b ≤ wav.length) : (slice wav a b).length = b - a := by
  rw [slice, List.length_take, List.length_drop]
  omega

theorem samples_of_short {a : Bytes} (h : a.length ≤ 1) : samples a = [] := by
  apply List.eq_nil_of_length_eq_zero
  rw [length_samples]
  omega

/-- The plain decoder delivers the samples from its place in the file on. -/
theorem playLoop_keepChunks {bytes : Bytes} {chunkLen stop : Nat} (hlen : 0 < chunkLen) (hstop : stop ≤ bytes.length)
    (chunks : List (List Int16)) (idx played : Nat) : ∃ chunks' k,
      playLoop keepChunks bytes chunkLen stop chunks idx played = (chunks', .ok k) ∧
        chunks'.flatten = chunks.flatten ++ samples (slice bytes idx stop) := by
  fun_induction playLoop keepChunks bytes chunkLen stop chunks idx played with
  | case1 chunks idx played hlt takeSamples htake =>
    refine ⟨chunks, played, rfl, ?_⟩
    have hshort : samples (slice bytes idx stop) = [] := by
      apply samples_of_short
      rw [length_slice bytes idx hstop]
      omega
    rw [hshort, List.append_nil]
  | case2 chunks idx played hlt takeSamples htake s e herror => cases herror
  | case3 chunks idx played hlt takeSamples htake s hok ih =>
    obtain ⟨chunks', k, hplay, hflatten⟩ := ih
    refine ⟨chunks', k, hplay, ?_⟩
    obtain ⟨rfl, -⟩ := Prod.mk.inj hok
    have hle : idx + takeSamples * 2 ≤ stop := by omega
    rw [hflatten, slice_split bytes (Nat.le_add_right idx (takeSamples * 2)) hle, samples_append]
    · simp
    · rw [length_slice bytes idx (hle.trans hstop)]
      omega
  | case4 chunks idx played hnot =>
    refine ⟨chunks, played, rfl, ?_⟩
    have hempty : slice bytes idx stop = [] := by
      rw [slice, Nat.sub_eq_zero_of_le (Nat.le_of_not_lt hnot), List.take_zero]
    rw [hempty]
    exact (List.append_nil _).symm

theorem Walks.fits (h : Walks wav cursor start len) : start + len ≤ wav.length := by
  induction h with
  | data _ _ _ hfits => exact hfits
  | skip _ _ _ _ _ ih => exact ih

/-- The plain decoder delivers what the walk over the chunks comes to. -/
theorem playWavPcm16leChunks_iff (hlength : 44 ≤ wav.length) (hheader : hasWavHeader wav = true) (n : Nat)
    (xs : List Int16) :
    (∃ chunks k, playWavPcm16leChunks keepChunks wav n [] = (chunks, .ok k) ∧ chunks.flatten = xs) ↔
      ∃ start len, Walks wav 12 start len ∧ len % 2 = 0 ∧ samples (slice wav start (start + len)) = xs := by
  have hn : 0 < max n 1 := Nat.lt_of_lt_of_le Nat.one_pos (Nat.le_max_right n 1)
  have hmagic : ¬ (wav.length < 44 ∨ (!hasWavHeader wav) = true) := by
    rw [hheader]
    simpa using hlength
  constructor
  · rintro ⟨chunks, k, hplay, hflatten⟩
    unfold playWavPcm16leChunks at hplay
    split at hplay
    · cases hplay
    · rename_i start dataLen hchunk
      rw [wavDataChunk, if_neg hmagic] at hchunk
      obtain ⟨found, hloop, hfound⟩ := except_bind_ok hchunk
      split at hfound
      · cases hfound
      · rename_i start' dataLen'
        by_cases heven : dataLen' % 2 = 0
        · rw [if_pos heven] at hfound
          obtain ⟨rfl, rfl⟩ := Prod.mk.inj (Except.ok.inj hfound)
          have hwalks := wavDataLoop_iff.mp hloop
          obtain ⟨chunks', k', hplay', hflatten'⟩ := playLoop_keepChunks hn hwalks.fits [] start' 0
          obtain ⟨rfl, -⟩ := Prod.mk.inj (hplay'.symm.trans hplay)
          exact ⟨start', dataLen', hwalks, heven, hflatten'.symm.trans hflatten⟩
        · rw [if_neg heven] at hfound
          cases hfound
  · rintro ⟨start, len, hwalks, heven, hsamples⟩
    have hchunk : wavDataChunk wav = .ok (start, len) := by
      rw [wavDataChunk, if_neg hmagic, wavDataLoop_iff.mpr hwalks]
      exact if_pos heven
    obtain ⟨chunks, k, hplay, hflatten⟩ := playLoop_keepChunks hn hwalks.fits [] start 0
    refine ⟨chunks, k, ?_, ?_⟩
    · rw [playWavPcm16leChunks, hchunk]
      exact hplay
    · rw [hflatten]
      exact hsamples

namespace WavFile

theorem bytes_eq (file : WavFile) : file.bytes = file.riffHeader ++
    (file.chunkBytes ++ (dataId ++ (le32 file.data.length ++ (file.data ++ file.trailing)))) := by
  simp only [bytes, header, dataHeader, List.append_assoc]

end WavFile

theorem walks_data (front rest : Bytes) {data : Bytes} (hdata : data.length < 2 ^ 32) :
    Walks (front ++ (dataId ++ (le32 data.length ++ (data ++ rest)))) front.length (front.length + 8) data.length := by
  obtain ⟨hid, hlen⟩ := @slices_of_chunkHeader front dataId (data ++ rest) data.length rfl hdata
  have hlength := @length_chunkHeader front dataId (data ++ rest) data.length rfl
  have hrest : (data ++ rest).length = data.length + rest.length := List.length_append
  exact .data (by omega) hid hlen (by omega)

theorem walks_skip {c : RiffChunk} (heven : c.body.length % 2 = 0) {front rest : Bytes} {start len : Nat}
    (h : Walks (front ++ c.bytes ++ rest) (front ++ c.bytes).length start len) :
    Walks (front ++ (c.bytes ++ rest)) front.length start len := by
  have hbody : c.padded.length = c.body.length := by
    rw [c.length_padded, heven, Nat.add_zero]
  have hnext : (front ++ c.bytes).length = front.length + 8 + c.body.length := by
    rw [List.length_append, c.length_bytes, hbody, Nat.add_assoc]
  rw [hnext, List.append_assoc] at h
  have hbytes : c.bytes ++ rest = c.id ++ (le32 c.body.length ++ (c.padded ++ rest)) := by
    simp only [RiffChunk.bytes, List.append_assoc]
  rw [hbytes] at h ⊢
  obtain ⟨hid, hlen⟩ := @slices_of_chunkHeader front c.id (c.padded ++ rest) c.body.length c.length_id c.length_body
  have hlength := @length_chunkHeader front c.id (c.padded ++ rest) c.body.length c.length_id
  have hrest : (c.padded ++ rest).length = c.padded.length + rest.length := List.length_append
  refine .skip (by omega) ?_ hlen (by omega) h
  rw [hid]
  exact c.id_ne

/-- Without a chunk of odd length, the walk comes to the data. -/
theorem walks_of_even {data rest : Bytes} (hdata : data.length < 2 ^ 32) (chunks : List RiffChunk)
    (heven : ∀ c ∈ chunks, c.body.length % 2 = 0) (front : Bytes) :
    Walks (front ++ (chunks.flatMap RiffChunk.bytes ++ (dataId ++ (le32 data.length ++ (data ++ rest))))) front.length
      (front.length + (chunks.flatMap RiffChunk.bytes).length + 8) data.length := by
  induction chunks generalizing front with
  | nil => exact walks_data front rest hdata
  | cons c chunks ih =>
    have hwalks := ih (fun c' hc' => heven c' (List.mem_cons_of_mem c hc')) (front ++ c.bytes)
    have hstart : (front ++ c.bytes).length + (chunks.flatMap RiffChunk.bytes).length =
        front.length + ((c :: chunks).flatMap RiffChunk.bytes).length := by
      rw [List.flatMap_cons, List.length_append, List.length_append, Nat.add_assoc]
    rw [hstart] at hwalks
    rw [List.flatMap_cons, List.append_assoc]
    exact walks_skip (heven c List.mem_cons_self) hwalks

/-- The walk that skips no pad byte comes to a data chunk with the same samples. -/
def WalksToSamples (file : WavFile) : Prop :=
  ∃ start len, Walks file.bytes 12 start len ∧ len % 2 = 0 ∧
    samples (slice file.bytes start (start + len)) = samples file.data

theorem walksToSamples_of_even {file : WavFile} (heven : ∀ c ∈ file.chunks, c.body.length % 2 = 0) :
    WalksToSamples file := by
  have hwalks := @walks_of_even file.data file.trailing file.length_data_lt file.chunks heven file.riffHeader
  have hriff := file.length_riffHeader
  have hslice : slice file.bytes (file.riffHeader.length + (file.chunks.flatMap RiffChunk.bytes).length + 8)
      (file.riffHeader.length + (file.chunks.flatMap RiffChunk.bytes).length + 8 + file.data.length) = file.data := by
    rw [WavFile.bytes]
    apply slice_append file.header file.data file.trailing
    · simp only [WavFile.header, WavFile.chunkBytes, List.length_append, length_dataHeader]
      omega
    · rfl
  rw [hriff] at hwalks hslice
  refine ⟨12 + (file.chunks.flatMap RiffChunk.bytes).length + 8, file.data.length, ?_, file.even_data, ?_⟩
  · rw [WavFile.bytes_eq]
    exact hwalks
  · rw [hslice]

/-- Both decoders deliver the samples of the data. -/
def Agrees (file : WavFile) (chunkSamples : Nat) (pieces : List Bytes) : Prop :=
  ∃ streamed d played k,
    WavPcmStreamDecoder.feedAll keepChunks [] (.new chunkSamples) pieces = (streamed, .ok d) ∧ d.finish = .ok () ∧
    playWavPcm16leChunks keepChunks file.bytes chunkSamples [] = (played, .ok k) ∧
    streamed.flatten = played.flatten ∧ played.flatten = samples file.data

theorem hasWavHeader_bytes (file : WavFile) : hasWavHeader file.bytes = true := by
  rw [WavFile.bytes_eq]
  exact file.hasWavHeader_riffHeader _

/-- The decoders agree on a file, however it is cut, exactly when its chunks before the data are of even lengths, or the
walk over them comes by chance to the same samples. -/
theorem agrees_iff (file : WavFile) (hlength : 44 ≤ file.bytes.length) {chunkSamples : Nat} (hchunk : 1 ≤ chunkSamples)
    {pieces : List Bytes} (hpieces : pieces.flatten = file.bytes) : Agrees file chunkSamples pieces ↔
      (∀ c ∈ file.chunks, c.body.length % 2 = 0) ∨ WalksToSamples file := by
  obtain ⟨streamed, d, hfeed, hflatten, hfinish⟩ := WavPcmStreamDecoder.feedAll_complete file hchunk hpieces
  have hplay := playWavPcm16leChunks_iff hlength (hasWavHeader_bytes file) chunkSamples (samples file.data)
  constructor
  · rintro ⟨-, -, played, k, -, -, hok, -, hsamples⟩
    exact .inr (hplay.mp ⟨played, k, hok, hsamples⟩)
  · intro hcondition
    have hwalks : WalksToSamples file := hcondition.elim walksToSamples_of_even id
    obtain ⟨played, k, hok, hsamples⟩ := hplay.mpr hwalks
    exact ⟨streamed, d, played, k, hfeed, hfinish, hok, hflatten.trans hsamples.symm, hsamples⟩

/-- A format chunk of even length before two samples. -/
def shortWav : WavFile where
  riffSize := [40, 0, 0, 0]
  chunks := [⟨[102, 109, 116, 32], List.replicate 16 0, 0, rfl, by decide, by decide⟩]
  data := [1, 0, 2, 0]
  trailing := []
  length_riffSize := rfl
  even_data := rfl
  length_data := by decide

theorem agrees_shortWav : 44 ≤ shortWav.bytes.length ∧ 1 ≤ 1 ∧ [shortWav.bytes].flatten = shortWav.bytes ∧
    (Agrees shortWav 1 [shortWav.bytes] ↔ (∀ c ∈ shortWav.chunks, c.body.length % 2 = 0) ∨ WalksToSamples shortWav) :=
  ⟨by decide, by decide, rfl, agrees_iff shortWav (by decide) (by decide) rfl⟩

/-- A chunk of thirteen bytes, which is padded, before two samples. -/
def oddWav : WavFile where
  riffSize := [38, 0, 0, 0]
  chunks := [⟨[76, 73, 83, 84], List.replicate 13 0, 0, rfl, by decide, by decide⟩]
  data := [1, 0, 2, 0]
  trailing := []
  length_riffSize := rfl
  even_data := rfl
  length_data := by decide

/-- The plain decoder takes the pad byte for the beginning of the next header. -/
theorem oddWav_disagrees : 44 ≤ oddWav.bytes.length ∧ ¬ Agrees oddWav 1 [oddWav.bytes] := by
  refine ⟨by decide, ?_⟩
  rintro ⟨-, -, played, k, -, -, hplay, -⟩
  have hfirst : wavDataLoop oddWav.bytes 12 = wavDataLoop oddWav.bytes 33 := by
    rw [wavDataLoop, dif_pos (by decide)]
    rfl
  have hsecond : wavDataLoop oddWav.bytes 33 = .error (wavError "corrupted WAV chunks") := by
    rw [wavDataLoop, dif_pos (by decide)]
    rfl
  have hcorrupted : wavDataChunk oddWav.bytes = .error (wavError "corrupted WAV chunks") := by
    rw [wavDataChunk, if_neg (by decide), hfirst, hsecond]
    rfl
  rw [playWavPcm16leChunks, hcorrupted] at hplay
  cases hplay

end Beetle.Audio
