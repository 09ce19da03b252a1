import Beetle.Audio.SpeakerWaits

/-! A reply is spoken at most once and can be interrupted: where `speak_text` keeps to that. -/
namespace Beetle.Audio
open Beetle.Lib

section
variable (rules : TextRules) (answers : SpeakerAnswers) (input : SpeakInput)

/-- The chunks that the stream has for a speaker that takes them all, and how it ends. -/
def streamed : List (List Int16) × Except Error Nat :=
  streamWavPcm16le rules keepChunks audioTtsWriteChunkSamples [] input.streamed

/-- The same of the whole response. -/
def whole : List (List Int16) × Except Error Nat :=
  match synthesizeWav rules input.whole with
  | .error e => ([], .error e)
  | .ok wav => playWavPcm16leChunks keepChunks wav audioTtsWriteChunkSamples []

def synthesisSamples : Synthesis → List Int16
  | .streamed => (streamed rules input).1.flatten
  | .whole => (whole rules input).1.flatten

def SpeakerEvent.samplesOf (synthesis : Synthesis) : SpeakerEvent → List Int16
  | .written of chunk => if of = synthesis then chunk else []
  | _ => []

/-- The samples of a synthesis that were passed to the speaker. -/
def spoken (synthesis : Synthesis) (events : List SpeakerEvent) : List Int16 := events.flatMap (·.samplesOf synthesis)

/-- The samples are the first ones of one synthesis. -/
def SpokenOnce (events : List SpeakerEvent) : Prop :=
  ∃ synthesis, (∀ other, other ≠ synthesis → spoken other events = []) ∧
    spoken synthesis events <+: synthesisSamples rules input synthesis

/-- After an interrupt is accepted nothing is written, and it is reported. -/
def Interruptible (run : Playback × Except Error VoicePlaybackStats) : Prop :=
  ∀ before after, run.1.events = before ++ .interruptAccepted :: after →
    (∀ synthesis chunk, .written synthesis chunk ∉ after) ∧ ReportsInterrupted run.2

/-- The stream breaks off after samples of it were written, and the whole response is played up to its first samples. -/
def SpeaksAgain : Prop :=
  input.lease = .ok () ∧ (streamed rules input).1 ≠ [] ∧
    (∃ e, (streamed rules input).2 = .error e ∧ e.stage = "tts_baidu_wav") ∧
    (whole rules input).1 ≠ [] ∧ NoRequest answers 0 ((streamed rules input).1.length + 1)

/-- A request is taken at a chunk of the stream. -/
def InterruptedInStream : Prop :=
  input.lease = .ok () ∧ ∃ n, n < (streamed rules input).1.length ∧ answers.requested n = true

/-- The speaker buffer can be cleared whenever the run takes a request. -/
def ClearsSucceed (run : Playback × Except Error VoicePlaybackStats) : Prop :=
  ∀ n, n < run.1.looks → answers.requested n = true → answers.clearSpeakerBuffer n = .ok ()

/-- The chunks written, the first `j` of the stream and the first `k` of the whole response. -/
@[grind =] def chunksWritten (j k : Nat) : List SpeakerEvent :=
  ((streamed rules input).1.take j).map (.written .streamed) ++ ((whole rules input).1.take k).map (.written .whole)

/-- Of both syntheses there is a chunk. -/
def BothPlayed (j k : Nat) : Prop := 0 < min j (streamed rules input).1.length ∧ 0 < min k (whole rules input).1.length

/-- What has happened when the reply is played, as far as it is. -/
inductive Played (j k : Nat) : Playback × Except Error Unit → Prop
  | inStream {after : Playback} {e : Error} (hstream : InterruptedInStream rules answers input)
      (hevents : after.events = chunksWritten rules input j k ++ [.interruptAccepted, .cleared]) : Played j k (after, .error e)
  | quiet {after : Playback} {r : Except Error Unit} (hstream : ¬ InterruptedInStream rules answers input)
      (hlooks : NoRequest answers 0 after.looks) (hevents : after.events = chunksWritten rules input j k) :
      Played j k (after, r)
  | stopped {after : Playback} {n : Nat} (hstream : ¬ InterruptedInStream rules answers input)
      (hinterrupted : after.interrupted = true) (hlooks : NoRequest answers 0 n) (hn : after.looks = n + 1)
      (hclear : answers.clearSpeakerBuffer n = .ok ())
      (hevents : after.events = chunksWritten rules input j k ++ [.interruptAccepted, .cleared]) : Played j k (after, .ok ())
  | failed {after : Playback} {n : Nat} {e : Error} (hn : after.looks = n + 1) (hrequested : answers.requested n = true)
      (hclear : answers.clearSpeakerBuffer n = .error e)
      (hevents : after.events = chunksWritten rules input j k ++ [.interruptAccepted, .cleared]) :
      Played j k (after, .error e)

variable {rules answers input} {e : Error} {n : Nat} {j k : Nat}

theorem forgiveInterrupt_eq (message : String) :
    forgiveInterrupt (.error (.config message voiceLocalInterruptStage)) = .ok () := by
  rw [forgiveInterrupt]
  exact if_pos rfl

theorem forgiveInterrupt_clear (h : answers.clearSpeakerBuffer n = .error e) :
    forgiveInterrupt (.error e) = .error e := by
  have hstage : e.stage ≠ voiceLocalInterruptStage := by
    rw [answers.stage_clear n e h]
    decide
  rw [forgiveInterrupt, if_neg hstage]

/-- The whole response, after a stream that no request has stopped. -/
theorem playWholeReply_played (hwrites : ∀ n, answers.writeSpeakerPcm n = .ok ()) (hlease : input.lease = .ok ())
    (hend : (streamed rules input).2 = .error e) (hwav : e.stage = "tts_baidu_wav")
    (hquiet : NoRequest answers 0 (streamed rules input).1.length) :
    ∃ k, (BothPlayed rules input (streamed rules input).1.length k ↔ SpeaksAgain rules answers input) ∧
      Played rules answers input (streamed rules input).1.length k
        (playWholeReply answers rules input.whole (Playback.start.afterWrites .streamed (streamed rules input).1)) := by
  have hstream : ¬ InterruptedInStream rules answers input := by
    rintro ⟨-, n, hn, hrequested⟩
    rw [hquiet n (Nat.zero_le n) hn] at hrequested
    cases hrequested
  generalize hplayback : Playback.start.afterWrites .streamed (streamed rules input).1 = playback
  have hlooks : playback.looks = (streamed rules input).1.length := by
    rw [← hplayback]
    exact Nat.zero_add _
  have hevents : playback.events = (streamed rules input).1.map (.written .streamed) := by
    rw [← hplayback]
    rfl
  have hwritten (k : Nat) : playback.events ++ ((whole rules input).1.take k).map (.written .whole) =
      chunksWritten rules input (streamed rules input).1.length k := by
    rw [hevents, chunksWritten, List.take_length]
  unfold playWholeReply
  cases hsynthesis : synthesizeWav rules input.whole with
  | error e' =>
    have hwhole : whole rules input = ([], .error e') := by rw [whole, hsynthesis]
    refine ⟨0, ⟨fun h => absurd h.2 (by simp), fun h => absurd (congrArg Prod.fst hwhole) h.2.2.2.1⟩,
      .quiet hstream (hlooks ▸ hquiet) ?_⟩
    rw [← hwritten 0, List.take_zero, List.map_nil, List.append_nil]
  | ok wav =>
    have hwhole : whole rules input = playWavPcm16leChunks keepChunks wav audioTtsWriteChunkSamples [] := by
      rw [whole, hsynthesis]
    have hplay : playWavPcm16leChunks (writePlaybackChunk answers .whole) wav audioTtsWriteChunkSamples playback =
        afterDelivery (writePlaybackChunk answers .whole) playback (whole rules input) := by
      rw [hwhole]
      exact (playWavPcm16leChunks_delivers wav _).eq _ _ playback
    simp only [hplay, afterDelivery]
    rcases noRequest_or_first answers playback.looks (whole rules input).1.length with hnone | ⟨k, hk, hbefore, hfirst⟩
    · have hall := hquiet.trans (hlooks ▸ hnone)
      rw [deliver_quiet hwrites .whole _ hnone]
      refine ⟨(whole rules input).1.length, ⟨?_, ?_⟩, .quiet hstream ?_ ?_⟩
      · rintro ⟨hj, hk⟩
        rw [Nat.min_self] at hj hk
        refine ⟨hlease, List.length_pos_iff.mp hj, ⟨e, hend, hwav⟩, List.length_pos_iff.mp hk, fun n _ hn => ?_⟩
        exact hall n (Nat.zero_le n) (by omega)
      · rintro ⟨-, hj, -, hk, -⟩
        rw [BothPlayed, Nat.min_self, Nat.min_self]
        exact ⟨List.length_pos_iff.mpr hj, List.length_pos_iff.mpr hk⟩
      · rw [Playback.afterWrites, hlooks]
        exact hall
      · rw [← hwritten, List.take_length]
        rfl
    · have hlength : ((whole rules input).1.take k).length = k := by rw [List.length_take, Nat.min_eq_left hk.le]
      have hagain : BothPlayed rules input (streamed rules input).1.length k ↔ SpeaksAgain rules answers input := by
        rw [BothPlayed, Nat.min_self, Nat.min_eq_left hk.le]
        constructor
        · rintro ⟨hj, hpos⟩
          refine ⟨hlease, List.length_pos_iff.mp hj, ⟨e, hend, hwav⟩, List.length_pos_iff.mp (by omega), ?_⟩
          exact hquiet.extend (hlooks ▸ hbefore _ (Nat.le_refl _) (by omega))
        · rintro ⟨-, hj, -, -, hnone⟩
          refine ⟨List.length_pos_iff.mpr hj, Nat.pos_of_ne_zero fun hzero => ?_⟩
          subst hzero
          rw [Nat.add_zero, hlooks, hnone _ (Nat.zero_le _) (Nat.lt_succ_self _)] at hfirst
          cases hfirst
      have hlooks' : (playback.afterWrites .whole ((whole rules input).1.take k)).accepted.looks = playback.looks + k + 1 := by
        simp only [Playback.accepted, Playback.afterWrites, hlength]
      have hevents' : (playback.afterWrites .whole ((whole rules input).1.take k)).accepted.events =
          chunksWritten rules input (streamed rules input).1.length k ++ [.interruptAccepted, .cleared] := by
        rw [← hwritten k]
        rfl
      rw [deliver_requested hwrites .whole _ hk hbefore hfirst]
      refine ⟨k, hagain, ?_⟩
      cases hclear : answers.clearSpeakerBuffer (playback.looks + k) with
      | error e' =>
        simp only [forgiveInterrupt_clear hclear]
        exact .failed hlooks' hfirst hclear hevents'
      | ok _ =>
        simp only [forgiveInterrupt_eq]
        exact .stopped hstream rfl (hquiet.trans (hlooks ▸ hbefore)) hlooks' hclear hevents'

theorem not_bothPlayed_zero (j : Nat) : ¬ BothPlayed rules input j 0 := by
  rintro ⟨-, hk⟩
  rw [Nat.zero_min] at hk
  cases hk

section
variable (hwrites : ∀ n, answers.writeSpeakerPcm n = .ok ())
include hwrites

/-- The stream, where no request has stopped it, and what follows it. -/
theorem afterStream_played (hlease : input.lease = .ok ())
    (hnone : NoRequest answers 0 (streamed rules input).1.length) {run : Playback × Except Error Unit}
    (hrun : run = match (streamed rules input).2 with
      | .ok _ => (Playback.start.afterWrites .streamed (streamed rules input).1, .ok ())
      | .error e =>
        if e.stage = voiceLocalInterruptStage then (Playback.start.afterWrites .streamed (streamed rules input).1, .ok ())
        else if e.stage = "tts_baidu_wav" then
          playWholeReply answers rules input.whole (Playback.start.afterWrites .streamed (streamed rules input).1)
        else (Playback.start.afterWrites .streamed (streamed rules input).1, .error e)) :
    ∃ j k, (BothPlayed rules input j k ↔ SpeaksAgain rules answers input) ∧ Played rules answers input j k run := by
  have hquiet (r : Except Error Unit) : Played rules answers input (streamed rules input).1.length 0
      (Playback.start.afterWrites .streamed (streamed rules input).1, r) := by
    refine .quiet ?_ ?_ ?_
    · rintro ⟨-, n, hn, hrequested⟩
      rw [hnone n (Nat.zero_le n) hn] at hrequested
      cases hrequested
    · rw [Playback.afterWrites, Playback.start, Nat.zero_add]
      exact hnone
    · rw [chunksWritten, List.take_length, List.take_zero, List.map_nil, List.append_nil]
      rfl
  have hagain (hwav : ¬ ∃ e, (streamed rules input).2 = .error e ∧ e.stage = "tts_baidu_wav") :
      BothPlayed rules input (streamed rules input).1.length 0 ↔ SpeaksAgain rules answers input :=
    iff_of_false (not_bothPlayed_zero _) fun h => hwav h.2.2.1
  subst hrun
  cases hend : (streamed rules input).2 with
  | ok played => exact ⟨_, 0, hagain (by rintro ⟨e, he, -⟩; rw [hend] at he; cases he), hquiet _⟩
  | error e =>
    by_cases hwav : e.stage = "tts_baidu_wav"
    · obtain ⟨k, hk, hplayed⟩ := playWholeReply_played hwrites hlease hend hwav hnone
      have hother : e.stage ≠ voiceLocalInterruptStage := by
        rw [hwav]
        decide
      simp only [if_neg hother, if_pos hwav]
      exact ⟨_, k, hk, hplayed⟩
    · refine ⟨_, 0, hagain ?_, ?_⟩
      · rintro ⟨e', he', hwav'⟩
        rw [hend] at he'
        obtain rfl := Except.error.inj he'
        exact hwav hwav'
      · by_cases hlocal : e.stage = voiceLocalInterruptStage
        · simp only [if_pos hlocal]
          exact hquiet _
        · simp only [if_neg hlocal, if_neg hwav]
          exact hquiet _

/-- The reply, played up to its end or to a request. -/
theorem playReply_played (hlease : input.lease = .ok ()) :
    ∃ j k, (BothPlayed rules input j k ↔ SpeaksAgain rules answers input) ∧
      Played rules answers input j k (playReply answers rules input .start) := by
  rw [playReply, streamWavPcm16le_eq, ← streamed]
  rcases noRequest_or_first answers Playback.start.looks (streamed rules input).1.length with hnone | ⟨k, hk, hbefore, hfirst⟩
  · rw [deliver_quiet hwrites .streamed _ hnone]
    apply afterStream_played hwrites hlease
    · simpa [Playback.start] using hnone
    · cases (streamed rules input).2 <;> rfl
  · have hstream : InterruptedInStream rules answers input :=
      ⟨hlease, k, hk, by simpa [Playback.start] using hfirst⟩
    have hagain : BothPlayed rules input k 0 ↔ SpeaksAgain rules answers input := by
      refine iff_of_false (not_bothPlayed_zero k) fun h => ?_
      obtain ⟨-, n, hn, hrequested⟩ := hstream
      rw [h.2.2.2.2 n (Nat.zero_le n) (by omega)] at hrequested
      cases hrequested
    have hevents : (Playback.start.afterWrites .streamed ((streamed rules input).1.take k)).accepted.events =
        chunksWritten rules input k 0 ++ [.interruptAccepted, .cleared] := by
      rw [chunksWritten, List.take_zero, List.map_nil, List.append_nil]
      rfl
    have hrequest (message : String) : (requestError message).stage ≠ voiceLocalInterruptStage ∧
        (requestError message).stage ≠ "tts_baidu_wav" := ⟨by simp [requestError, Error.stage, voiceLocalInterruptStage],
      by simp [requestError, Error.stage]⟩
    rw [deliver_requested hwrites .streamed _ hk hbefore hfirst]
    refine ⟨k, 0, hagain, ?_⟩
    cases answers.clearSpeakerBuffer (Playback.start.looks + k) with
    | error e =>
      simp only [if_neg (hrequest _).1, if_neg (hrequest _).2]
      exact .inStream hstream hevents
    | ok _ =>
      simp only [if_neg (hrequest _).1, if_neg (hrequest _).2]
      exact .inStream hstream hevents

end

theorem spoken_append (synthesis : Synthesis) (a b : List SpeakerEvent) :
    spoken synthesis (a ++ b) = spoken synthesis a ++ spoken synthesis b := List.flatMap_append

theorem spoken_written (synthesis of : Synthesis) (chunks : List (List Int16)) :
    spoken synthesis (chunks.map (.written of)) = if of = synthesis then chunks.flatten else [] := by
  induction chunks with
  | nil => exact (ite_self []).symm
  | cons chunk chunks ih =>
    rw [List.map_cons, spoken, List.flatMap_cons, ← spoken, ih, SpeakerEvent.samplesOf]
    by_cases h : of = synthesis
    · simp only [if_pos h, List.flatten_cons]
    · simp only [if_neg h, List.append_nil]

/-- What is not written has no samples. -/
theorem spoken_of_not_written (synthesis : Synthesis) {events : List SpeakerEvent}
    (h : ∀ of chunk, .written of chunk ∉ events) : spoken synthesis events = [] := by
  apply List.flatMap_eq_nil_iff.mpr
  intro event hevent
  cases event with
  | written of chunk => exact absurd hevent (h of chunk)
  | interruptAccepted => rfl
  | cleared => rfl

theorem flatten_take_eq_nil_iff {chunks : List (List Int16)} (hne : ∀ chunk ∈ chunks, chunk ≠ []) (j : Nat) :
    (chunks.take j).flatten = [] ↔ ¬ 0 < min j chunks.length := by
  rw [List.flatten_eq_nil_iff, ← List.length_take, List.length_pos_iff, not_not]
  constructor
  · intro h
    apply List.eq_nil_iff_forall_not_mem.mpr
    exact fun chunk hchunk => hne chunk (List.mem_of_mem_take hchunk) (h chunk hchunk)
  · rintro h chunk hchunk
    rw [h] at hchunk
    cases hchunk

theorem ne_nil_of_mem_whole {chunk : List Int16} (h : chunk ∈ (whole rules input).1) : chunk ≠ [] := by
  rw [whole] at h
  cases hsynthesis : synthesizeWav rules input.whole with
  | error e =>
    simp only [hsynthesis] at h
    cases h
  | ok wav =>
    simp only [hsynthesis] at h
    exact (playWavPcm16leChunks_delivers wav audioTtsWriteChunkSamples).ne_nil chunk h

theorem prefix_flatten_take (chunks : List (List Int16)) (j : Nat) : (chunks.take j).flatten <+: chunks.flatten := by
  conv_rhs => rw [← List.take_append_drop j chunks, List.flatten_append]
  exact List.prefix_append _ _

/-- Samples of both syntheses are spoken, or the samples are the first ones of one. -/
theorem spokenOnce_iff {events tail : List SpeakerEvent} (hevents : events = chunksWritten rules input j k ++ tail)
    (htail : ∀ of chunk, .written of chunk ∉ tail) : SpokenOnce rules input events ↔ ¬ BothPlayed rules input j k := by
  have hspoken (synthesis : Synthesis) : spoken synthesis events = spoken synthesis (chunksWritten rules input j k) := by
    rw [hevents, spoken_append, spoken_of_not_written synthesis htail, List.append_nil]
  have hstreamed : spoken .streamed events = ((streamed rules input).1.take j).flatten := by
    rw [hspoken, chunksWritten, spoken_append, spoken_written, spoken_written, if_pos rfl, if_neg (by decide),
      List.append_nil]
  have hwhole : spoken .whole events = ((whole rules input).1.take k).flatten := by
    rw [hspoken, chunksWritten, spoken_append, spoken_written, spoken_written, if_pos rfl, if_neg (by decide),
      List.nil_append]
  have hnoStream := flatten_take_eq_nil_iff (fun chunk => @ne_nil_of_mem_streamWavPcm16le rules audioTtsWriteChunkSamples
    input.streamed chunk) j
  have hnoWhole := flatten_take_eq_nil_iff (fun chunk => @ne_nil_of_mem_whole rules input chunk) k
  rw [← streamed, ← hstreamed] at hnoStream
  rw [← hwhole] at hnoWhole
  constructor
  · rintro ⟨synthesis, hothers, -⟩ ⟨hj, hk⟩
    cases synthesis with
    | streamed => exact hnoWhole.mp (hothers .whole (by decide)) hk
    | whole => exact hnoStream.mp (hothers .streamed (by decide)) hj
  · intro h
    by_cases hj : 0 < min j (streamed rules input).1.length
    · refine ⟨.streamed, fun other hother => ?_, ?_⟩
      · cases other with
        | streamed => exact absurd rfl hother
        | whole => exact hnoWhole.mpr fun hk => h ⟨hj, hk⟩
      · rw [hstreamed]
        exact prefix_flatten_take _ j
    · refine ⟨.whole, fun other hother => ?_, ?_⟩
      · cases other with
        | streamed => exact hnoStream.mpr hj
        | whole => exact absurd rfl hother
      · rw [hwhole]
        exact prefix_flatten_take _ k

theorem interruptAccepted_not_mem_chunksWritten (j k : Nat) : .interruptAccepted ∉ chunksWritten rules input j k := by
  intro h
  rcases List.mem_append.mp h with h | h
  · obtain ⟨_, _, heq⟩ := List.mem_map.mp h
    cases heq
  · obtain ⟨_, _, heq⟩ := List.mem_map.mp h
    cases heq

theorem interruptible_iff {tail : List SpeakerEvent} {run : Playback × Except Error VoicePlaybackStats}
    (hevents : run.1.events = chunksWritten rules input j k ++ tail) (htail : ∀ of chunk, .written of chunk ∉ tail) :
    Interruptible run ↔ (.interruptAccepted ∈ tail → ReportsInterrupted run.2) := by
  constructor
  · intro h hmem
    obtain ⟨before, after, rfl⟩ := List.append_of_mem hmem
    exact (h (chunksWritten rules input j k ++ before) after (by rw [hevents, List.append_assoc])).2
  · intro h before after hsplit
    have hin : ∃ front, tail = front ++ .interruptAccepted :: after := by
      rw [hevents] at hsplit
      rcases List.append_eq_append_iff.mp hsplit with ⟨front, -, heq⟩ | ⟨front, hwritten, heq⟩
      · exact ⟨front, heq⟩
      · cases front with
        | nil => exact ⟨[], heq.symm⟩
        | cons event front =>
          obtain ⟨rfl, -⟩ := List.cons.inj heq
          refine absurd ?_ (@interruptAccepted_not_mem_chunksWritten rules input j k)
          rw [hwritten]
          exact List.mem_append_right _ List.mem_cons_self
    obtain ⟨front, rfl⟩ := hin
    refine ⟨fun synthesis chunk hchunk => ?_, h (List.mem_append_right _ List.mem_cons_self)⟩
    exact htail synthesis chunk (List.mem_append_right _ (List.mem_cons_of_mem _ hchunk))

variable (rules answers input) in
/-- How the run is written down: what was written, and the rest, from which the interrupts are judged. -/
structure Ending (run : Playback × Except Error VoicePlaybackStats) (j k : Nat) (tail : List SpeakerEvent) : Prop where
  events_eq : run.1.events = chunksWritten rules input j k ++ tail
  not_written : ∀ of chunk, .written of chunk ∉ tail
  judged : (.interruptAccepted ∈ tail → ReportsInterrupted run.2) ↔
    ¬ InterruptedInStream rules answers input ∧ ClearsSucceed answers run

variable (rules answers input) in
def Ends (run : Playback × Except Error VoicePlaybackStats) (j k : Nat) : Prop :=
  ∃ tail, Ending rules answers input run j k tail

section
variable {j k : Nat} {after : Playback} {r : Except Error VoicePlaybackStats} {tail : List SpeakerEvent}

section
variable (hstream : ¬ InterruptedInStream rules answers input)
include hstream

theorem ends_quiet (hlooks : NoRequest answers 0 after.looks) (htail : ∀ event ∈ tail, event = .cleared)
    (hevents : after.events = chunksWritten rules input j k ++ tail) : Ends rules answers input (after, r) j k := by
  refine ⟨tail, hevents, fun of chunk h => ?_, iff_of_true (fun h => ?_) ⟨hstream, ?_⟩⟩
  · cases htail _ h
  · cases htail _ h
  intro n hn hrequested
  rw [hlooks n (Nat.zero_le n) hn] at hrequested
  cases hrequested

theorem ends_reported (htail : ∀ of chunk, .written of chunk ∉ tail) (hclears : ClearsSucceed answers (after, r))
    (hr : ReportsInterrupted r) (hevents : after.events = chunksWritten rules input j k ++ tail) :
    Ends rules answers input (after, r) j k :=
  ⟨tail, hevents, htail, iff_of_true (fun _ => hr) ⟨hstream, hclears⟩⟩

end

theorem ends_broken (htail : ∀ of chunk, .written of chunk ∉ tail) (haccepted : .interruptAccepted ∈ tail) {e : Error}
    (h : ¬ InterruptedInStream rules answers input → ¬ ClearsSucceed answers (after, .error e))
    (hevents : after.events = chunksWritten rules input j k ++ tail) : Ends rules answers input (after, .error e) j k :=
  ⟨tail, hevents, htail, iff_of_false (fun hall => not_reportsInterrupted_error e (hall haccepted))
    fun hgood => h hgood.1 hgood.2⟩

end

/-- Up to a request that is the only one, the buffer was cleared where that was. -/
theorem clearsSucceed_of_accepted {before after : Playback} {r : Except Error VoicePlaybackStats}
    (hbefore : ∀ m, m < before.looks → answers.requested m = true → answers.clearSpeakerBuffer m = .ok ())
    (h : Accepted answers before after n) (hclear : answers.clearSpeakerBuffer n = .ok ()) :
    ClearsSucceed answers (after, r) := by
  intro m hm hrequested
  simp only [h.looks] at hm
  by_cases hearly : m < before.looks
  · exact hbefore m hearly hrequested
  by_cases hlast : m = n
  · rw [hlast]
    exact hclear
  · rw [h.noRequest m (Nat.le_of_not_lt hearly) (by omega)] at hrequested
    cases hrequested

theorem not_clearsSucceed {after : Playback} {r : Except Error VoicePlaybackStats}
    (hn : after.looks = n + 1) (hrequested : answers.requested n = true)
    (hclear : answers.clearSpeakerBuffer n = .error e) : ¬ ClearsSucceed answers (after, r) := by
  intro h
  have := h n (by simp only [hn]; omega) hrequested
  rw [hclear] at this
  cases this

/-- The wait for the speaker, after a reply that was played to its end or stopped. -/
theorem drainReply_ends {before : Playback} (hplayed : Played rules answers input j k (before, .ok ())) :
    Ends rules answers input (drainReply answers input before) j k := by
  have hwaited := @drainReply_waited answers input before
  generalize drainReply answers input before = run at hwaited
  have hpair (of : Synthesis) (chunk : List Int16) : .written of chunk ∉ [.interruptAccepted, SpeakerEvent.cleared] := by
    simp
  cases hplayed with
  | quiet hstream hlooks hevents =>
    have hnone : ∀ m, m < before.looks → answers.requested m = true → answers.clearSpeakerBuffer m = .ok () := by
      intro m hm hrequested
      rw [hlooks m (Nat.zero_le m) hm] at hrequested
      cases hrequested
    cases hwaited with
    | quiet h hr =>
      exact ends_quiet hstream (hlooks.trans h.noRequest) (List.forall_mem_nil _) (by rw [h.events, hevents, List.append_nil])
    | accepted h hclear hr =>
      exact ends_reported hstream hpair (clearsSucceed_of_accepted hnone h hclear) hr (by rw [h.events, hevents])
    | failed h hclear =>
      exact ends_broken hpair List.mem_cons_self (fun _ => not_clearsSucceed h.looks h.requested hclear)
        (by rw [h.events, hevents])
  | stopped hstream hinterrupted hlooks hn hclear hevents =>
    rename_i stop
    have hone : ∀ m, m < before.looks → answers.requested m = true → answers.clearSpeakerBuffer m = .ok () := by
      intro m hm hrequested
      by_cases hlast : m = stop
      · rw [hlast]
        exact hclear
      · rw [hlooks m (Nat.zero_le m) (by omega)] at hrequested
        cases hrequested
    have htwice (of : Synthesis) (chunk : List Int16) : .written of chunk ∉
        [.interruptAccepted, .cleared] ++ [.interruptAccepted, SpeakerEvent.cleared] := by simp
    cases hwaited with
    | quiet h hr =>
      refine ends_reported hstream hpair (fun m hm hrequested => ?_) (hr hinterrupted) (by rw [h.events, hevents])
      by_cases hearly : m < before.looks
      · exact hone m hearly hrequested
      · rw [h.noRequest m (Nat.le_of_not_lt hearly) hm] at hrequested
        cases hrequested
    | accepted h hclear' hr =>
      exact ends_reported hstream htwice (clearsSucceed_of_accepted hone h hclear') hr
        (by rw [h.events, hevents, List.append_assoc])
    | failed h hclear' =>
      exact ends_broken htwice List.mem_cons_self (fun _ => not_clearsSucceed h.looks h.requested hclear')
        (by rw [h.events, hevents, List.append_assoc])

/-- A reply that has failed: the speaker buffer is cleared once more. -/
theorem aborted_ends {after : Playback} (hplayed : Played rules answers input j k (after, .error e)) :
    Ends rules answers input ({ after with events := after.events ++ [.cleared] }, .error e) j k := by
  have hthree (of : Synthesis) (chunk : List Int16) : .written of chunk ∉
      [.interruptAccepted, .cleared] ++ [SpeakerEvent.cleared] := by simp
  cases hplayed with
  | inStream hstream hevents =>
    refine ends_broken hthree List.mem_cons_self (fun hno => absurd hstream hno) ?_
    simp only [hevents, List.append_assoc]
  | quiet hstream hlooks hevents =>
    refine ends_quiet hstream hlooks (List.forall_mem_singleton.mpr rfl) ?_
    simp only [hevents]
  | failed hn hrequested hclear hevents =>
    refine ends_broken hthree List.mem_cons_self (fun _ => not_clearsSucceed hn hrequested hclear) ?_
    simp only [hevents, List.append_assoc]

theorem speakText_ends (hwrites : ∀ n, answers.writeSpeakerPcm n = .ok ()) :
    ∃ j k, (BothPlayed rules input j k ↔ SpeaksAgain rules answers input) ∧
      Ends rules answers input (speakText answers rules input) j k := by
  rw [speakText]
  cases hlease : input.lease with
  | error e =>
    have hno (h : input.lease = .ok ()) : False := by
      rw [hlease] at h
      cases h
    refine ⟨0, 0, iff_of_false (not_bothPlayed_zero 0) fun h => hno h.1, ?_⟩
    refine ends_quiet (fun h => hno h.1) (fun n _ hn => absurd hn (Nat.not_lt_zero n)) (List.forall_mem_nil _) ?_
    rw [chunksWritten, List.take_zero, List.take_zero]
    rfl
  | ok _ =>
    obtain ⟨j, k, hagain, hplayed⟩ := playReply_played hwrites hlease
    refine ⟨j, k, hagain, ?_⟩
    simp only
    generalize playReply answers rules input .start = run at hplayed
    rcases run with ⟨after, e | ⟨⟩⟩
    · exact aborted_ends hplayed
    · exact drainReply_ends hplayed

/-- A reply is spoken once and can be interrupted exactly when the stream does not break off after samples of it were
written (so that the reply begins again), no request is taken at a chunk of the stream, and the speaker buffer can be
cleared whenever a request is taken. -/
theorem speaksWell_iff (rules : TextRules) (answers : SpeakerAnswers) (input : SpeakInput)
    (hwrites : ∀ n, answers.writeSpeakerPcm n = .ok ()) :
    SpokenOnce rules input (speakText answers rules input).1.events ∧ Interruptible (speakText answers rules input) ↔
      ¬ SpeaksAgain rules answers input ∧ ¬ InterruptedInStream rules answers input ∧
        ClearsSucceed answers (speakText answers rules input) := by
  obtain ⟨j, k, hagain, tail, hending⟩ := @speakText_ends rules answers input hwrites
  rw [spokenOnce_iff hending.events_eq hending.not_written, interruptible_iff hending.events_eq hending.not_written,
    hending.judged, hagain]

end

/-! A WAV that breaks off. -/

/-- The buffer was full once, and the decoder still waits for samples. -/
theorem WavPcmStreamDecoder.Decoded.truncated {file : WavFile} {n m : Nat} {chunks : List (List Int16)}
    {d : WavPcmStreamDecoder} (h : Decoded file n (file.header ++ file.data.take m) chunks d) (hm : 2 * n ≤ m)
    (hlt : m < file.data.length) : chunks ≠ [] ∧ d.finish = .error (wavError "truncated WAV stream") := by
  have hlength : (file.data.take m).length = m := by rw [List.length_take, Nat.min_eq_left hlt.le]
  cases h with
  | waiting hshort =>
    rw [List.length_append] at hshort
    omega
  | reading used h hp hcaught =>
    rw [List.append_cancel_left_eq] at hp
    have hparts := congrArg List.length hp
    rw [hlength, List.length_append, List.length_take, Nat.min_eq_left h.le] at hparts
    have heven := h.even
    have hused : 2 * n ≤ used ∧ used < file.data.length := by omega
    constructor
    · intro hnone
      have hdelivered := congrArg List.length h.delivered
      rw [hnone, List.flatten_nil, List.nil_append, length_samples, List.length_take, Nat.min_eq_left h.le] at hdelivered
      have hshort := h.short
      omega
    · rw [finish, h.remaining]
      obtain ⟨rest, hrest⟩ := Nat.exists_eq_succ_of_ne_zero (Nat.sub_ne_zero_of_lt hused.2)
      rw [hrest]

/-- Where the buffer was full once before the stream broke off, the reply begins again. -/
theorem speaksAgain_of_truncated {rules : TextRules} {answers : SpeakerAnswers} {input : SpeakInput} (file : WavFile) {m : Nat}
    (hm : 2 * audioTtsWriteChunkSamples ≤ m) (hlt : m < file.data.length) (heven : ∀ c ∈ file.chunks, c.body.length % 2 = 0)
    (hlease : input.lease = .ok ())
    (hstreamed : input.streamed = ⟨.ok (), [(0, file.header ++ file.data.take m)], .ok 200⟩)
    (hwhole : input.whole = ⟨.ok (), .ok (200, file.bytes)⟩) (hquiet : ∀ n, answers.requested n = false) :
    SpeaksAgain rules answers input := by
  have hpos : 0 < audioTtsWriteChunkSamples := by decide
  have hriff : ∃ rest, file.header = 82 :: rest := ⟨_, rfl⟩
  obtain ⟨rest, hrest⟩ := hriff
  have hprefix : [] ++ (file.header ++ file.data.take m) <+: file.bytes := by
    rw [List.nil_append, WavFile.bytes, List.prefix_append_right_inj]
    exact (List.take_prefix m file.data).trans (List.prefix_append _ _)
  have hstart : WavPcmStreamDecoder.Decoded file audioTtsWriteChunkSamples [] [] (.new audioTtsWriteChunkSamples) :=
    .waiting (by rw [hrest]; exact Nat.succ_pos _) rfl rfl
  obtain ⟨chunks, d, hfeed, hdecoded⟩ := hstart.feed hpos hprefix
  obtain ⟨hchunks, hfinish⟩ := hdecoded.truncated hm hlt
  have hstream : streamed rules input = (chunks, .error (wavError "truncated WAV stream")) := by
    have hmax : max audioTtsWriteChunkSamples 1 = audioTtsWriteChunkSamples := rfl
    have hbyte : ((82 : UInt8) = 123 || (82 : UInt8) = 60) = false := rfl
    rw [hrest, List.cons_append] at hfeed
    rw [streamed, hstreamed, streamWavPcm16le, hrest, List.cons_append]
    simp only [WavStream.onPieces, WavStream.onPiece, WavStream.look, WavStream.new, hmax, hbyte, hfeed,
      Bool.false_eq_true, if_false, Nat.not_lt_zero, gt_iff_lt, WavStream.finish, hfinish]
    rfl
  have hlength : 44 ≤ file.bytes.length := by
    rw [WavFile.bytes, List.length_append, List.length_append]
    rw [audioTtsWriteChunkSamples] at hm
    omega
  obtain ⟨played, k, hplay, hflatten⟩ := (playWavPcm16leChunks_iff hlength (hasWavHeader_bytes file) audioTtsWriteChunkSamples
    (samples file.data)).mpr (walksToSamples_of_even heven)
  have hplayed : whole rules input = (played, .ok k) := by
    rw [whole, hwhole, synthesizeWav]
    have hhead : file.bytes.head? ≠ some 123 := by
      rw [WavFile.bytes, hrest, List.cons_append, List.head?_cons]
      intro h
      cases Option.some.inj h
    simp only [hhead, hplay, if_false, ne_eq, not_true]
  refine ⟨hlease, ?_, ⟨_, congrArg Prod.snd hstream, rfl⟩, ?_, fun n _ _ => hquiet n⟩
  · rw [hstream]
    exact hchunks
  · rw [hplayed]
    rintro rfl
    have hsamples := congrArg List.length hflatten
    rw [length_samples] at hsamples
    simp only [List.flatten_nil, List.length_nil] at hsamples
    omega

/-- A reply of 1025 samples. -/
def longWav : WavFile where
  riffSize := [30, 8, 0, 0]
  chunks := []
  data := List.replicate 2050 1
  trailing := []
  length_riffSize := rfl
  even_data := by rw [List.length_replicate]
  length_data := by
    rw [List.length_replicate, maxTtsSamples]
    decide

def plainRules : TextRules := ⟨Error.stage, .literal⟩

/-- A speaker without failures, and nobody interrupts. -/
def quietSpeaker : SpeakerAnswers where
  interruptArmed := true
  takeAudioInterruptRequest _ := false
  clearSpeakerBuffer _ := .ok ()
  writeSpeakerPcm _ := .ok ()
  stage_clear _ _ h := by cases h

/-- The last sample does not come with the stream. -/
def brokenReply : SpeakInput where
  lease := .ok ()
  streamed := ⟨.ok (), [(0, longWav.header ++ longWav.data.take 2048)], .ok 200⟩
  whole := ⟨.ok (), .ok (200, longWav.bytes)⟩
  sampleRate := 16000
  drain := ⟨[], true, 0⟩

theorem speaksWell_brokenReply : (∀ n, quietSpeaker.writeSpeakerPcm n = .ok ()) ∧
    (SpokenOnce plainRules brokenReply (speakText quietSpeaker plainRules brokenReply).1.events ∧
        Interruptible (speakText quietSpeaker plainRules brokenReply) ↔
      ¬ SpeaksAgain plainRules quietSpeaker brokenReply ∧ ¬ InterruptedInStream plainRules quietSpeaker brokenReply ∧
        ClearsSucceed quietSpeaker (speakText quietSpeaker plainRules brokenReply)) :=
  ⟨fun _ => rfl, speaksWell_iff plainRules quietSpeaker brokenReply fun _ => rfl⟩

/-- The first 1024 samples are spoken, and then all 1025. -/
theorem brokenReply_spoken_again : (∀ n, quietSpeaker.writeSpeakerPcm n = .ok ()) ∧
    ¬ SpokenOnce plainRules brokenReply (speakText quietSpeaker plainRules brokenReply).1.events := by
  have hwrites : ∀ n, quietSpeaker.writeSpeakerPcm n = .ok () := fun _ => rfl
  have hagain : SpeaksAgain plainRules quietSpeaker brokenReply := by
    apply speaksAgain_of_truncated longWav (Nat.le_refl 2048)
    · simp only [longWav, List.length_replicate]
      decide
    · exact fun c hc => nomatch hc
    · rfl
    · rfl
    · rfl
    · exact fun _ => rfl
  refine ⟨hwrites, ?_⟩
  obtain ⟨j, k, hiff, tail, hending⟩ := @speakText_ends plainRules quietSpeaker brokenReply hwrites
  rw [spokenOnce_iff hending.events_eq hending.not_written, not_not]
  exact hiff.mpr hagain

end Beetle.Audio
