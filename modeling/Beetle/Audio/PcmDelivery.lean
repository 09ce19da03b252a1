import Beetle.Audio.SpeakText
import Beetle.Audio.WavAgreement

/-! What a decoder delivers does not depend on what it is delivered to. -/
namespace Beetle.Audio
open Beetle.Lib

section
variable {σ : Type} (sink : PcmSink σ)

/-- The chunks in their order, up to the first at which the sink fails. -/
def deliver (s : σ) : List (List Int16) → σ × Except Error Unit
  | [] => (s, .ok ())
  | chunk :: chunks =>
    match sink s chunk with
    | (s, .error e) => (s, .error e)
    | (s, .ok ()) => deliver s chunks

/-- The chunks are delivered, and then there is a result. -/
@[grind =] def afterDelivery {α : Type} (s : σ) (out : List (List Int16) × Except Error α) : σ × Except Error α :=
  match deliver sink s out.1 with
  | (s, .error e) => (s, .error e)
  | (s, .ok ()) => (s, out.2)

theorem deliver_append (s : σ) (front back : List (List Int16)) : deliver sink s (front ++ back) =
    match deliver sink s front with
    | (s, .error e) => (s, .error e)
    | (s, .ok ()) => deliver sink s back := by
  induction front generalizing s with
  | nil => rfl
  | cons chunk front ih =>
    rw [List.cons_append, deliver, deliver]
    rcases sink s chunk with ⟨s', e | ⟨⟩⟩
    · rfl
    · exact ih s'

end

theorem deliver_keepChunks (kept chunks : List (List Int16)) : deliver keepChunks kept chunks = (kept ++ chunks, .ok ()) := by
  induction chunks generalizing kept with
  | nil => rw [deliver, List.append_nil]
  | cons chunk chunks ih =>
    rw [deliver]
    simp only [keepChunks]
    rw [ih, List.append_assoc]
    rfl

theorem afterDelivery_keepChunks {α : Type} (kept : List (List Int16)) (out : List (List Int16) × Except Error α) :
    afterDelivery keepChunks kept out = (kept ++ out.1, out.2) := by
  rw [afterDelivery, deliver_keepChunks]

/-- What does something with a sink. -/
abbrev PcmSource (α : Type) := ∀ σ : Type, PcmSink σ → σ → σ × Except Error α

/-- The sink only ever sees the chunks that a sink without failures gets, up to its own failure; none is empty. -/
structure Delivers {α : Type} (source : PcmSource α) : Prop where
  eq : ∀ (σ : Type) (sink : PcmSink σ) (s : σ), source σ sink s = afterDelivery sink s (source _ keepChunks [])
  ne_nil : ∀ chunk ∈ (source _ keepChunks []).1, chunk ≠ []

namespace Delivers
variable {α β : Type}

theorem result (r : Except Error α) : Delivers fun _ _ s => (s, r) where
  eq _ _ _ := rfl
  ne_nil _ h := by cases h

theorem keepChunks_eq {source : PcmSource α} (h : Delivers source) (kept : List (List Int16)) :
    source _ keepChunks kept = (kept ++ (source _ keepChunks []).1, (source _ keepChunks []).2) := by
  rw [h.eq _ keepChunks kept, afterDelivery_keepChunks]

theorem chunk {chunk : List Int16} (h : chunk ≠ []) : Delivers fun _ sink s => sink s chunk where
  eq σ sink s := by
    simp only [keepChunks, afterDelivery, List.nil_append, deliver]
    rcases sink s chunk with ⟨s', e | ⟨⟩⟩ <;> rfl
  ne_nil c hc := by
    obtain rfl := List.mem_singleton.mp hc
    exact h

theorem andThen {source : PcmSource β} {first : PcmSource α} (next : α → PcmSource β) (hfirst : Delivers first)
    (hnext : ∀ a, Delivers (next a))
    (hsource : ∀ (σ : Type) (sink : PcmSink σ) (s : σ), source σ sink s =
      match first σ sink s with
      | (s, .error e) => (s, .error e)
      | (s, .ok a) => next a σ sink s) : Delivers source where
  eq σ sink s := by
    rw [hsource σ sink s, hsource _ keepChunks [], hfirst.eq σ sink s]
    rcases first _ keepChunks [] with ⟨chunks, e | a⟩
    · simp only [afterDelivery]
      rcases deliver sink s chunks with ⟨s', e' | ⟨⟩⟩ <;> rfl
    · simp only [afterDelivery]
      rw [(hnext a).keepChunks_eq chunks, deliver_append]
      rcases deliver sink s chunks with ⟨s', e' | ⟨⟩⟩
      · rfl
      · exact (hnext a).eq σ sink s'
  ne_nil chunk hchunk := by
    have hne := hfirst.ne_nil
    rw [hsource _ keepChunks []] at hchunk
    rcases hrun : first _ keepChunks [] with ⟨chunks, e | a⟩
    · simp only [hrun] at hchunk hne
      exact hne chunk hchunk
    · simp only [hrun, (hnext a).keepChunks_eq chunks] at hchunk hne
      exact (List.mem_append.mp hchunk).elim (hne chunk) ((hnext a).ne_nil chunk)

end Delivers

namespace WavPcmStreamDecoder

variable (d : WavPcmStreamDecoder)

theorem consume_delivers (xs : List Int16) : Delivers fun _ sink s => consume sink s d xs := by
  induction xs generalizing d with
  | nil => exact Delivers.result _
  | cons x xs ih =>
    by_cases hfull : (d.chunk ++ [x]).length = d.chunkSamples
    · refine .andThen (fun _ _ sink s => consume sink s
        { d with chunk := [], playedSamples := d.playedSamples + (d.chunk ++ [x]).length } xs)
        (.chunk (List.append_ne_nil_of_right_ne_nil d.chunk (List.cons_ne_nil x []))) (fun _ => ih _) fun σ sink s => ?_
      rw [consume, if_pos hfull]
      rcases sink s (d.chunk ++ [x]) with ⟨s', e | ⟨⟩⟩ <;> rfl
    · simp only [consume, if_neg hfull]
      exact ih _

theorem flushChunk_delivers : Delivers fun _ sink s => flushChunk sink s d := by
  by_cases hempty : d.chunk = []
  · simp only [flushChunk, if_pos hempty]
    exact Delivers.result _
  · refine .andThen (fun _ _ _ s => (s, .ok { d with chunk := [], playedSamples := d.playedSamples + d.chunk.length }))
      (.chunk hempty) (fun _ => .result _) fun σ sink s => ?_
    rw [flushChunk, if_neg hempty]
    rcases sink s d.chunk with ⟨s', e | ⟨⟩⟩ <;> rfl

/-- A turn on data, where the next turn is on less of it. -/
theorem dataTurn_delivers {d : WavPcmStreamDecoder}
    (hnext : ∀ d', d'.pending.length < d.pending.length → Delivers fun _ sink s => feedLoop sink s d') :
    Delivers fun _ sink s => dataTurn sink s d := by
  simp only [dataTurn]
  generalize hrem : d.dataBytesRemaining.getD 0 = rem
  generalize heven : min d.pending.length rem / 2 * 2 = even
  by_cases hdone : rem = 0
  · simp only [if_pos hdone]
    exact Delivers.result _
  by_cases hwait : even = 0
  · simp only [if_neg hdone, if_pos hwait]
    exact Delivers.result _
  refine .andThen (fun d' _ sink s =>
      if d'.playedSamples > maxTtsSamples then (s, .error (wavError "audio too long (max 5 min)"))
      else if rem = even then
        flushChunk sink s { d' with pending := d.pending.drop even, dataBytesRemaining := some (rem - even) }
      else feedLoop sink s { d' with pending := d.pending.drop even, dataBytesRemaining := some (rem - even) })
    (consume_delivers d (samples (d.pending.take even))) (fun d' => ?_) fun σ sink s => ?_
  · by_cases hlong : d'.playedSamples > maxTtsSamples
    · simp only [if_pos hlong]
      exact .result _
    by_cases hlast : rem = even
    · simp only [if_neg hlong, if_pos hlast]
      exact flushChunk_delivers _
    · simp only [if_neg hlong, if_neg hlast]
      apply hnext
      rw [List.length_drop]
      omega
  · rw [if_neg hdone, if_neg hwait]
    rcases consume sink s d (samples (d.pending.take even)) with ⟨s', e | d'⟩ <;> rfl

theorem feedLoop_delivers : Delivers fun _ sink s => feedLoop sink s d := by
  induction hn : d.pending.length using Nat.strong_induction_on generalizing d with
  | _ n ih =>
    cases hheader : readHeader d with
    | error e =>
      have hstop : ∀ (σ : Type) (sink : PcmSink σ) (s : σ), feedLoop sink s d = (s, .error e) := by
        intro σ sink s
        rw [feedLoop]
        split <;> simp_all
      simp only [hstop]
      exact Delivers.result _
    | ok read =>
      cases read with
      | none =>
        simp only [feedLoop_of_wait hheader]
        exact Delivers.result _
      | some d₁ =>
        simp only [feedLoop_of_header hheader]
        have hle := length_readHeader hheader
        exact dataTurn_delivers fun d' hd' => ih d'.pending.length (by omega) d' rfl

theorem feed_delivers (bytes : Bytes) : Delivers fun _ sink s => feed sink s d bytes := by
  by_cases hempty : bytes = []
  · simp only [feed, if_pos hempty]
    exact Delivers.result _
  · simp only [feed, if_neg hempty]
    exact feedLoop_delivers _

end WavPcmStreamDecoder

namespace WavStream

theorem onPiece_delivers (stream : WavStream) (elapsedSecs : Nat) (piece : Bytes) :
    Delivers fun _ sink s => stream.onPiece sink s elapsedSecs piece := by
  by_cases hlate : elapsedSecs > ttsStreamTimeoutSecs
  · simp only [onPiece, if_pos hlate]
    exact Delivers.result _
  cases piece with
  | nil =>
    simp only [onPiece, if_neg hlate]
    exact Delivers.result _
  | cons b rest =>
    simp only [onPiece, if_neg hlate]
    cases htext : (stream.look b).textResponse with
    | true =>
      simp only [if_true]
      exact Delivers.result _
    | false =>
      refine .andThen (fun decoder _ _ s => (s, .ok { stream.look b with decoder }))
        ((stream.look b).decoder.feed_delivers (b :: rest)) (fun _ => .result _) fun σ sink s => ?_
      simp only [htext, Bool.false_eq_true, if_false]
      rcases (stream.look b).decoder.feed sink s (b :: rest) with ⟨s', e | decoder⟩ <;> rfl

theorem onPieces_delivers (stream : WavStream) (pieces : List (Nat × Bytes)) :
    Delivers fun _ sink s => stream.onPieces sink s pieces := by
  induction pieces generalizing stream with
  | nil => exact Delivers.result _
  | cons piece pieces ih =>
    refine .andThen (fun stream _ sink s => stream.onPieces sink s pieces) (stream.onPiece_delivers piece.1 piece.2)
      (fun stream => ih stream) fun σ sink s => ?_
    rw [onPieces]
    rcases stream.onPiece sink s piece.1 piece.2 with ⟨s', e | stream'⟩ <;> rfl

end WavStream

/-- An error of the sink comes back as an error of the request. -/
theorem streamWavPcm16le_eq {σ : Type} (rules : TextRules) (sink : PcmSink σ) (chunkSamples : Nat) (s : σ)
    (reply : StreamedReply) : streamWavPcm16le rules sink chunkSamples s reply =
      match deliver sink s (streamWavPcm16le rules keepChunks chunkSamples [] reply).1 with
      | (s, .error e) => (s, .error (requestError (rules.errorText e)))
      | (s, .ok ()) => (s, (streamWavPcm16le rules keepChunks chunkSamples [] reply).2) := by
  unfold streamWavPcm16le
  cases reply.token with
  | error e => rfl
  | ok _ =>
    have hpieces : (WavStream.new chunkSamples).onPieces sink s reply.pieces =
        afterDelivery sink s ((WavStream.new chunkSamples).onPieces keepChunks [] reply.pieces) :=
      (WavStream.onPieces_delivers _ _).eq σ sink s
    simp only [hpieces]
    rcases (WavStream.new chunkSamples).onPieces keepChunks [] reply.pieces with ⟨chunks, e | stream⟩
    · simp only [afterDelivery]
      rcases deliver sink s chunks with ⟨s', e' | ⟨⟩⟩ <;> rfl
    · simp only [afterDelivery]
      rcases deliver sink s chunks with ⟨s', e' | ⟨⟩⟩ <;> rfl

theorem ne_nil_of_mem_streamWavPcm16le {rules : TextRules} {chunkSamples : Nat} {reply : StreamedReply} {chunk : List Int16}
    (h : chunk ∈ (streamWavPcm16le rules keepChunks chunkSamples [] reply).1) : chunk ≠ [] := by
  have hne := ((WavStream.new chunkSamples).onPieces_delivers reply.pieces).ne_nil
  unfold streamWavPcm16le at h
  cases htoken : reply.token with
  | error e =>
    simp only [htoken] at h
    cases h
  | ok _ =>
    simp only [htoken] at h
    rcases hpieces : (WavStream.new chunkSamples).onPieces keepChunks [] reply.pieces with ⟨chunks, e | stream⟩
    · simp only [hpieces] at h hne
      exact hne chunk h
    · simp only [hpieces] at h hne
      exact hne chunk h

theorem playLoop_delivers {bytes : Bytes} (chunkLen : Nat) {stop : Nat} (hstop : stop ≤ bytes.length) (idx played : Nat) :
    Delivers fun _ sink s => playLoop sink bytes chunkLen stop s idx played := by
  induction hn : stop - idx using Nat.strong_induction_on generalizing idx played with
  | _ n ih =>
    by_cases hlt : idx < stop
    swap
    · have hend : ∀ (σ : Type) (sink : PcmSink σ) (s : σ), playLoop sink bytes chunkLen stop s idx played = (s, .ok played) := by
        intro σ sink s
        rw [playLoop, dif_neg hlt]
      simp only [hend]
      exact .result _
    generalize htake : min ((stop - idx) / 2) chunkLen = takeSamples
    by_cases hzero : takeSamples = 0
    · have hend : ∀ (σ : Type) (sink : PcmSink σ) (s : σ), playLoop sink bytes chunkLen stop s idx played = (s, .ok played) := by
        intro σ sink s
        rw [playLoop, dif_pos hlt]
        simp only [htake, dif_pos hzero]
      simp only [hend]
      exact .result _
    have hsamples : samples (slice bytes idx (idx + takeSamples * 2)) ≠ [] := by
      apply List.length_pos_iff.mp
      rw [length_samples, length_slice bytes idx (by omega)]
      omega
    refine .andThen (fun _ _ sink s => playLoop sink bytes chunkLen stop s (idx + takeSamples * 2) (played + takeSamples))
      (.chunk hsamples) (fun _ => ih _ (by omega) _ _ rfl) fun σ sink s => ?_
    rw [playLoop, dif_pos hlt]
    simp only [htake, dif_neg hzero]
    rcases sink s (samples (slice bytes idx (idx + takeSamples * 2))) with ⟨s', e | ⟨⟩⟩ <;> rfl

theorem wavDataChunk_fits {wav : Bytes} {start dataLen : Nat} (h : wavDataChunk wav = .ok (start, dataLen)) :
    start + dataLen ≤ wav.length := by
  unfold wavDataChunk at h
  split at h
  · cases h
  · obtain ⟨found, hloop, hfound⟩ := except_bind_ok h
    split at hfound
    · cases hfound
    · split at hfound
      · obtain ⟨rfl, rfl⟩ := Prod.mk.inj (Except.ok.inj hfound)
        exact (wavDataLoop_iff.mp hloop).fits
      · cases hfound

theorem playWavPcm16leChunks_delivers (wav : Bytes) (chunkSamples : Nat) :
    Delivers fun _ sink s => playWavPcm16leChunks sink wav chunkSamples s := by
  unfold playWavPcm16leChunks
  cases hchunk : wavDataChunk wav with
  | error e => exact .result _
  | ok found => exact playLoop_delivers _ (wavDataChunk_fits hchunk) _ _

end Beetle.Audio
