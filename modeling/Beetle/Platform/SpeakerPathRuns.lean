import Beetle.Platform.SpeakerPath

/-! Runs of the way to the speaker: when it is a queue, and when a clear drops what it should. -/
namespace Beetle.Platform
open Beetle.Lib

theorem length_passed (n : Nat) (pcm : List Int16) : (passed n pcm).length = pcm.length := by
  rw [passed, List.length_map, List.length_zipIdx]

/-- The places of the first samples go on from those accepted before. -/
theorem place_of_mem_take_passed {n k : Nat} {pcm : List Int16} {x : Sample} (h : x ∈ (passed n pcm).take k) :
    n ≤ x.place ∧ x.place < n + ((passed n pcm).take k).length := by
  rw [passed, ← List.map_take] at h ⊢
  obtain ⟨⟨value, place⟩, hmem, rfl⟩ := List.mem_map.mp h
  obtain ⟨i, hi, hget⟩ := List.mem_iff_getElem.mp hmem
  rw [List.length_map]
  rw [List.getElem_take, List.getElem_zipIdx] at hget
  obtain ⟨-, rfl⟩ := Prod.mk.inj hget
  exact ⟨Nat.le_add_right _ _, Nat.add_lt_add_left hi n⟩

namespace SpeakerPath
variable {s t : SpeakerPath} {i : Nat} {a : SpeakerAction}

/-! Each step, with what it finds. -/

theorem pushStaging_cases {pcm : List Int16} (h : stepPushStaging s pcm = some t) : ∃ samples staging producer,
    t = { s with staging, accepted := s.accepted ++ samples, producer } ∧
      staging.contents = s.staging.contents ++ samples ∧ (∀ remaining, producer = .overflow remaining → remaining ≠ []) ∧
      ∀ x ∈ samples, s.accepted.length ≤ x.place ∧ x.place < s.accepted.length + samples.length := by
  unfold stepPushStaging at h
  split at h
  · cases h
  · split at h
    · cases h
    · obtain rfl := Option.some.inj h
      refine ⟨_, _, _, rfl, s.staging.contents_pushSliceBlocking _, fun remaining hover => ?_, fun x hx =>
        place_of_mem_take_passed hx⟩
      split at hover
      · rename_i hshort
        obtain rfl := Producer.overflow.inj hover
        exact List.ne_nil_of_length_pos (by rw [List.length_drop]; omega)
      · cases hover

theorem tryWriteSpeaker_cases (h : stepTryWriteSpeaker s = some t) : ∃ remaining samples speaker,
    s.producer = .overflow remaining ∧ t = { s with speaker, accepted := s.accepted ++ samples, producer := .idle } ∧
      speaker.contents = s.speaker.contents ++ samples ∧
      samples.length = min remaining.length s.speaker.available ∧
      ∀ x ∈ samples, s.accepted.length ≤ x.place ∧ x.place < s.accepted.length + samples.length := by
  unfold stepTryWriteSpeaker at h
  split at h
  · cases h
  · rename_i remaining hproducer
    obtain rfl := Option.some.inj h
    refine ⟨remaining, _, _, hproducer, rfl, s.speaker.contents_pushSliceBlocking _, ?_, fun x hx =>
      place_of_mem_take_passed hx⟩
    rw [List.length_take, length_passed]
    omega

theorem popStaging_cases (h : stepPopStaging s = some t) : s.worker = .turn ∧
    ∃ staging worker, t = { s with staging, worker } ∧ worker.incoming ++ staging.contents = s.staging.contents ∧
      worker.outgoing = [] ∧ (worker = .transferred ∨ ∃ frame, worker = .staged frame) := by
  unfold stepPopStaging at h
  split at h
  · rename_i hworker
    obtain rfl := Option.some.inj h
    refine ⟨hworker, (s.staging.popInto audioSpeakerFrameSamples).2,
      if (s.staging.popInto audioSpeakerFrameSamples).1 = [] then .transferred
      else .staged (s.staging.popInto audioSpeakerFrameSamples).1, rfl, ?_⟩
    rw [AudioRingBuffer.contents_popInto]
    split
    · rename_i hnone
      rw [AudioRingBuffer.popInto_fst] at hnone
      have hall := List.take_append_drop audioSpeakerFrameSamples s.staging.contents
      rw [hnone] at hall
      exact ⟨hall, rfl, .inl rfl⟩
    · refine ⟨?_, rfl, .inr ⟨_, rfl⟩⟩
      rw [AudioWorker.incoming, AudioRingBuffer.popInto_fst, List.take_append_drop]
  · cases h

theorem pushSpeaker_cases (h : stepPushSpeaker s = some t) : ∃ frame, s.worker = .staged frame ∧
    t = { s with speaker := (s.speaker.pushSliceBlocking frame).2, worker := .transferred } ∧
      t.speaker.contents = s.speaker.contents ++ frame.take (min frame.length s.speaker.available) := by
  unfold stepPushSpeaker at h
  split at h
  · rename_i frame hworker
    obtain rfl := Option.some.inj h
    exact ⟨frame, hworker, rfl, s.speaker.contents_pushSliceBlocking frame⟩
  · cases h

theorem popSpeaker_cases (h : stepPopSpeaker s = some t) : s.worker = .transferred ∧
    ∃ speaker worker, t = { s with speaker, worker } ∧ worker.outgoing ++ speaker.contents = s.speaker.contents ∧
      worker.incoming = [] ∧
      (worker = .turn ∨ ∃ frame, worker = .popped frame s.speakerGeneration s.clears.length) := by
  unfold stepPopSpeaker at h
  split at h
  · rename_i hworker
    obtain rfl := Option.some.inj h
    refine ⟨hworker, (s.speaker.popInto audioSpeakerFrameSamples).2,
      if (s.speaker.popInto audioSpeakerFrameSamples).1 = [] then .turn
      else .popped (s.speaker.popInto audioSpeakerFrameSamples).1 s.speakerGeneration s.clears.length, rfl, ?_⟩
    rw [AudioRingBuffer.contents_popInto]
    split
    · rename_i hnone
      rw [AudioRingBuffer.popInto_fst] at hnone
      have hall := List.take_append_drop audioSpeakerFrameSamples s.speaker.contents
      rw [hnone] at hall
      exact ⟨hall, rfl, .inl rfl⟩
    · refine ⟨?_, rfl, .inr ⟨_, rfl⟩⟩
      rw [AudioWorker.outgoing, AudioRingBuffer.popInto_fst, List.take_append_drop]
  · cases h

theorem checkGeneration_cases (h : stepCheckGeneration s = some t) : ∃ frame generation clears,
    s.worker = .popped frame generation clears ∧
      ((generation ≠ s.speakerGeneration ∧ t = { s with worker := .turn }) ∨
        (generation = s.speakerGeneration ∧ t = { s with worker := .checked frame s.clears.length })) := by
  unfold stepCheckGeneration at h
  split at h
  · rename_i frame generation clears hworker
    obtain rfl := Option.some.inj h
    refine ⟨frame, generation, clears, hworker, ?_⟩
    by_cases hsame : generation = s.speakerGeneration
    · exact .inr ⟨hsame, by rw [if_neg (not_not.mpr hsame)]⟩
    · exact .inl ⟨hsame, by rw [if_pos hsame]⟩
  · cases h

theorem writeFrame_cases (h : stepWriteFrame s = some t) : ∃ frame clears, s.worker = .checked frame clears ∧
    t = { s with worker := .turn, writes := s.writes ++ [⟨frame, s.returned⟩] } := by
  unfold stepWriteFrame at h
  split at h
  · rename_i frame clears hworker
    exact ⟨frame, clears, hworker, (Option.some.inj h).symm⟩
  · cases h

theorem clearStaging_cases (h : stepClearStaging s i = some t) : ∃ start, s.calls[i]? = some ⟨start, .called⟩ ∧
    t = { s with staging := s.staging.clear, calls := s.calls.set i ⟨start, .stagingCleared⟩ } := by
  unfold stepClearStaging at h
  split at h
  · rename_i start hcall
    exact ⟨start, hcall, (Option.some.inj h).symm⟩
  · cases h

theorem clearSpeaker_cases (h : stepClearSpeaker s i = some t) :
    ∃ start, s.calls[i]? = some ⟨start, .stagingCleared⟩ ∧
      t = { s with speaker := s.speaker.clear, speakerGeneration := s.speakerGeneration + 1
                   clears := s.clears ++ [start], calls := s.calls.set i ⟨start, .speakerCleared s.clears.length⟩ } := by
  unfold stepClearSpeaker at h
  split at h
  · rename_i start hcall
    exact ⟨start, hcall, (Option.some.inj h).symm⟩
  · cases h

theorem returnClear_cases (h : stepReturnClear s i = some t) :
    ∃ start number, s.calls[i]? = some ⟨start, .speakerCleared number⟩ ∧
      t = { s with calls := s.calls.eraseIdx i, returned := s.returned ++ [⟨start, .speakerCleared number⟩] } := by
  unfold stepReturnClear at h
  split at h
  · rename_i start number hcall
    exact ⟨start, number, hcall, (Option.some.inj h).symm⟩
  · cases h

/-! The queue. -/

/-- What a run without a clear keeps. -/
structure FifoInv (s : SpeakerPath) : Prop where
  fifo : s.Fifo
  calls : s.begun = false → s.calls = []
  generation : s.begun = false → ∀ frame generation clears, s.worker = .popped frame generation clears →
    generation = s.speakerGeneration
  places : ∀ x ∈ s.accepted, x.place < s.accepted.length
  overflow : ∀ remaining, s.producer = .overflow remaining → remaining ≠ []

theorem FifoInv.no_call (h : FifoInv s) {call : ClearCall} (hcall : s.calls[i]? = some call) : s.begun = true := by
  cases hbegun : s.begun with
  | true => rfl
  | false =>
    rw [h.calls hbegun] at hcall
    cases hcall

/-- Once a clear was called, the order is not judged any more. -/
theorem FifoInv.of_begun (hbegun : s.begun = true) (hplaces : ∀ x ∈ s.accepted, x.place < s.accepted.length)
    (hover : ∀ remaining, s.producer = .overflow remaining → remaining ≠ []) : FifoInv s := by
  have hnot (h : s.begun = false) : False := by
    rw [hbegun] at h
    cases h
  exact ⟨fun h => (hnot h).elim, fun h => (hnot h).elim, fun h => (hnot h).elim, hplaces, hover⟩

theorem places_append {accepted samples : List Sample} (h : ∀ x ∈ accepted, x.place < accepted.length)
    (hsamples : ∀ x ∈ samples, accepted.length ≤ x.place ∧ x.place < accepted.length + samples.length) :
    ∀ x ∈ accepted ++ samples, x.place < (accepted ++ samples).length := by
  intro x hx
  rw [List.length_append]
  rcases List.mem_append.mp hx with hx | hx
  · exact Nat.lt_add_right _ (h x hx)
  · exact (hsamples x hx).2

/-- A step in order keeps the queue. -/
theorem FifoInv.keep (h : FifoInv s) (horder : s.InOrder a) (hstep : s.step a = some t) : FifoInv t := by
  cases a with
  | pushStaging pcm =>
    obtain ⟨samples, staging, producer, rfl, hcontents, hover, hplaces⟩ := pushStaging_cases hstep
    refine ⟨fun hbegun => ?_, h.calls, h.generation, places_append h.places hplaces, hover⟩
    have hfifo := h.fifo hbegun
    simp only [written, waiting, hcontents] at hfifo ⊢
    simp only [hfifo, List.append_assoc]
  | tryWriteSpeaker =>
    obtain ⟨remaining, samples, speaker, hproducer, rfl, hcontents, hlength, hplaces⟩ := tryWriteSpeaker_cases hstep
    refine ⟨fun hbegun => ?_, h.calls, h.generation, places_append h.places hplaces, fun _ hover => (by cases hover)⟩
    have hfifo := h.fifo hbegun
    simp only [written, waiting, hcontents] at hfifo ⊢
    rcases horder hbegun with hfull | ⟨hincoming, hstaging⟩
    · have hnone : samples = [] := List.eq_nil_of_length_eq_zero (by rw [hlength, hfull, Nat.min_zero])
      simp only [hnone, hfifo, List.append_nil]
    · simp only [hincoming, hstaging, List.append_nil] at hfifo ⊢
      simp only [hfifo, List.append_assoc]
  | popStaging =>
    obtain ⟨hworker, staging, worker, rfl, hcontents, houtgoing, hworker'⟩ := popStaging_cases hstep
    refine ⟨fun hbegun => ?_, h.calls, fun hbegun frame generation clears hpopped => ?_, h.places, h.overflow⟩
    · have hfifo := h.fifo hbegun
      simp only [written, waiting, hcontents, houtgoing] at hfifo ⊢
      rw [hfifo, hworker]
      rfl
    · rcases hworker' with rfl | ⟨_, rfl⟩ <;> cases hpopped
  | pushSpeaker =>
    obtain ⟨frame, hworker, rfl, hcontents⟩ := pushSpeaker_cases hstep
    refine ⟨fun hbegun => ?_, h.calls, fun hbegun _ _ _ hpopped => (by cases hpopped), h.places, h.overflow⟩
    have hfifo := h.fifo hbegun
    have hfits := horder hbegun
    rw [hworker, AudioWorker.incoming] at hfits
    simp only [Nat.min_eq_left hfits, List.take_length] at hcontents
    simp only [written, waiting, hcontents] at hfifo ⊢
    rw [hfifo, hworker]
    simp only [AudioWorker.incoming, AudioWorker.outgoing, List.append_assoc, List.nil_append]
  | popSpeaker =>
    obtain ⟨hworker, speaker, worker, rfl, hcontents, hincoming, hworker'⟩ := popSpeaker_cases hstep
    refine ⟨fun hbegun => ?_, h.calls, fun hbegun frame generation clears hpopped => ?_, h.places, h.overflow⟩
    · have hfifo := h.fifo hbegun
      simp only [written, waiting, hincoming] at hfifo ⊢
      rw [hfifo, hworker, ← List.append_assoc worker.outgoing, hcontents]
      rfl
    · rcases hworker' with rfl | ⟨_, rfl⟩
      · cases hpopped
      · cases hpopped
        rfl
  | checkGeneration =>
    obtain ⟨frame, generation, clears, hworker, hcheck⟩ := checkGeneration_cases hstep
    rcases hcheck with ⟨hdiffer, rfl⟩ | ⟨hsame, rfl⟩
    · refine ⟨fun hbegun => ?_, h.calls, fun hbegun _ _ _ hpopped => (by cases hpopped), h.places, h.overflow⟩
      exact absurd (h.generation hbegun frame generation clears hworker) hdiffer
    · refine ⟨fun hbegun => ?_, h.calls, fun hbegun _ _ _ hpopped => (by cases hpopped), h.places, h.overflow⟩
      have hfifo := h.fifo hbegun
      simp only [written, waiting] at hfifo ⊢
      rw [hfifo, hworker]
      rfl
  | writeFrame =>
    obtain ⟨frame, clears, hworker, rfl⟩ := writeFrame_cases hstep
    refine ⟨fun hbegun => ?_, h.calls, fun hbegun _ _ _ hpopped => (by cases hpopped), h.places, h.overflow⟩
    have hfifo := h.fifo hbegun
    simp only [written, waiting] at hfifo ⊢
    rw [hfifo, hworker, List.flatMap_append]
    simp only [AudioWorker.incoming, AudioWorker.outgoing, List.append_assoc, List.nil_append, List.flatMap_cons,
      List.flatMap_nil]
  | callClear =>
    obtain rfl := Option.some.inj hstep
    exact .of_begun rfl h.places h.overflow
  | clearStaging i =>
    obtain ⟨start, hcall, rfl⟩ := clearStaging_cases hstep
    exact .of_begun (h.no_call hcall) h.places h.overflow
  | clearSpeaker i =>
    obtain ⟨start, hcall, rfl⟩ := clearSpeaker_cases hstep
    exact .of_begun (h.no_call hcall) h.places h.overflow
  | returnClear i =>
    obtain ⟨start, number, hcall, rfl⟩ := returnClear_cases hstep
    exact .of_begun (h.no_call hcall) h.places h.overflow

/-- A step out of order breaks the queue at once. -/
theorem FifoInv.break_ (h : FifoInv s) (hstep : s.step a = some t) (horder : ¬ s.InOrder a) : ¬ t.Fifo := by
  cases a with
  | pushSpeaker =>
    obtain ⟨frame, hworker, rfl, hcontents⟩ := pushSpeaker_cases hstep
    simp only [InOrder, hworker, AudioWorker.incoming] at horder
    obtain ⟨hbegun, hshort⟩ := Classical.not_imp.mp horder
    intro hafter
    -- Fewer samples wait than before, and no more were accepted.
    have hbefore' := congrArg List.length (h.fifo hbegun)
    have hafter' := congrArg List.length (hafter hbegun)
    simp only [written, waiting, hcontents, hworker, AudioWorker.incoming, AudioWorker.outgoing, List.length_append,
      List.length_nil, List.length_take] at hbefore' hafter'
    omega
  | tryWriteSpeaker =>
    obtain ⟨remaining, samples, speaker, hproducer, rfl, hcontents, hlength, hplaces⟩ := tryWriteSpeaker_cases hstep
    obtain ⟨hbegun, hovertakes⟩ := Classical.not_imp.mp horder
    rw [not_or] at hovertakes
    obtain ⟨hroom, hbehind⟩ := hovertakes
    have hremaining := List.length_pos_iff.mpr (h.overflow remaining hproducer)
    obtain ⟨x, samples, rfl⟩ := List.exists_cons_of_ne_nil (List.ne_nil_of_length_pos (l := samples) (by omega))
    obtain ⟨y, behind, hy⟩ := List.exists_cons_of_ne_nil (l := s.worker.incoming ++ s.staging.contents) fun hnone =>
      hbehind (List.append_eq_nil_iff.mp hnone)
    intro hafter
    have hbefore := h.fifo hbegun
    have hafter := hafter hbegun
    simp only [written, waiting, hcontents, hy] at hbefore hafter
    -- What overtakes would have to begin with a sample that was accepted before.
    have hsame : y :: behind ++ x :: samples = x :: samples ++ y :: behind := by
      refine (List.append_right_inj (s.writes.flatMap I2sWrite.frame ++ s.worker.outgoing ++ s.speaker.contents)).mp ?_
      rw [hbefore] at hafter
      simpa only [List.append_assoc] using hafter
    obtain ⟨rfl, -⟩ := List.cons.inj hsame
    have hold : y.place < s.accepted.length := by
      apply h.places
      rw [hbefore]
      simp only [List.mem_append, List.mem_cons, true_or, or_true]
    exact absurd (hplaces y (.head _)).1 (Nat.not_le.mpr hold)
  | _ => exact absurd trivial horder

variable (sampleRate : Nat)

theorem fifoInv_new : FifoInv (.new sampleRate) where
  fifo _ := rfl
  calls _ := rfl
  generation _ _ _ _ hpopped := by cases hpopped
  places _ hx := (List.not_mem_nil hx).elim
  overflow _ hover := by cases hover

/-- The speaker path is a queue in every state of a run without a clear exactly when every step of it is in order. -/
theorem fifo_iff (actions : List SpeakerAction) :
    Always step Fifo actions (.new sampleRate) ↔ Meets step InOrder actions (.new sampleRate) :=
  always_iff_meets (fun _ _ _ h horder hstep => h.keep horder hstep) (fun _ h => h.fifo)
    (fun _ _ _ h hstep horder => h.break_ hstep horder) actions _ (fifoInv_new sampleRate)

/-! The clears. -/

/-- No sample of these was accepted before one of the starts. -/
def Since (starts : List Nat) (samples : List Sample) : Prop := ∀ start ∈ starts, ∀ x ∈ samples, start ≤ x.place

/-- What a run keeps whose worker does not carry samples over a clear. -/
structure ClearsInv (s : SpeakerPath) : Prop where
  starts : ∀ start ∈ s.clears, start ≤ s.accepted.length
  callStarts : ∀ call ∈ s.calls, call.start ≤ s.accepted.length
  speaker : Since s.clears s.speaker.contents
  generation : s.speakerGeneration = 1 + UInt32.ofNat s.clears.length
  popped : ∀ frame generation clears, s.worker = .popped frame generation clears →
    generation = 1 + UInt32.ofNat clears ∧ clears ≤ s.clears.length ∧ Since (s.clears.take clears) frame
  checked : ∀ frame clears, s.worker = .checked frame clears → clears ≤ s.clears.length ∧ Since (s.clears.take clears) frame
  numbered : ∀ call ∈ s.calls ++ s.returned, ∀ number, call.stage = .speakerCleared number →
    s.clears[number]? = some call.start
  drops : s.DropsCleared

theorem Since.append {starts : List Nat} {before samples : List Sample} (h : Since starts before)
    (hsamples : Since starts samples) : Since starts (before ++ samples) := fun start hstart x hx =>
  (List.mem_append.mp hx).elim (h start hstart x) (hsamples start hstart x)

theorem Since.mono {starts : List Nat} {samples some : List Sample} (h : Since starts samples)
    (hsome : ∀ x ∈ some, x ∈ samples) : Since starts some := fun start hstart x hx => h start hstart x (hsome x hx)

/-- Samples that are accepted now are accepted since every clear so far. -/
theorem ClearsInv.since_new (h : ClearsInv s) {samples : List Sample}
    (hsamples : ∀ x ∈ samples, s.accepted.length ≤ x.place ∧ x.place < s.accepted.length + samples.length) :
    Since s.clears samples := fun start hstart x hx => (h.starts start hstart).trans (hsamples x hx).1

/-- Up to 2^32 clears the generation tells how many there were. -/
theorem clears_eq_of_generation {before now : Nat} (hle : before ≤ now) (hround : now < before + 2 ^ 32)
    (h : (1 : UInt32) + UInt32.ofNat before = 1 + UInt32.ofNat now) : before = now := by
  have hmod := congrArg UInt32.toNat h
  simp only [UInt32.toNat_add, UInt32.toNat_ofNat', UInt32.toNat_one] at hmod
  omega

theorem ClearsInv.keep (h : ClearsInv s) (hapart : s.ApartFromClears a) (hstep : s.step a = some t) : ClearsInv t := by
  cases a with
  | pushStaging pcm =>
    obtain ⟨samples, staging, producer, rfl, hcontents, hover, hplaces⟩ := pushStaging_cases hstep
    have hmore : s.accepted.length ≤ (s.accepted ++ samples).length := by
      rw [List.length_append]
      exact Nat.le_add_right _ _
    exact { h with
      starts := fun start hstart => (h.starts start hstart).trans hmore
      callStarts := fun call hcall => (h.callStarts call hcall).trans hmore }
  | tryWriteSpeaker =>
    obtain ⟨remaining, samples, speaker, hproducer, rfl, hcontents, hlength, hplaces⟩ := tryWriteSpeaker_cases hstep
    have hmore : s.accepted.length ≤ (s.accepted ++ samples).length := by
      rw [List.length_append]
      exact Nat.le_add_right _ _
    have hspeaker : Since s.clears speaker.contents := by
      rw [hcontents]
      exact h.speaker.append (h.since_new hplaces)
    exact { h with
      starts := fun start hstart => (h.starts start hstart).trans hmore
      callStarts := fun call hcall => (h.callStarts call hcall).trans hmore
      speaker := hspeaker }
  | popStaging =>
    obtain ⟨hworker, staging, worker, rfl, hcontents, houtgoing, hworker'⟩ := popStaging_cases hstep
    refine { h with popped := fun frame generation clears hpopped => ?_, checked := fun frame clears hchecked => ?_ }
    · rcases hworker' with rfl | ⟨_, rfl⟩ <;> cases hpopped
    · rcases hworker' with rfl | ⟨_, rfl⟩ <;> cases hchecked
  | pushSpeaker =>
    obtain ⟨frame, hworker, rfl, hcontents⟩ := pushSpeaker_cases hstep
    have hframe : Since s.clears frame := by
      simp only [ApartFromClears, hworker, AudioWorker.incoming] at hapart
      exact hapart
    have hspeaker : Since s.clears (s.speaker.pushSliceBlocking frame).2.contents := by
      rw [hcontents]
      exact h.speaker.append (hframe.mono fun x hx => List.mem_of_mem_take hx)
    exact { h with
      speaker := hspeaker
      popped := fun _ _ _ hpopped => by cases hpopped
      checked := fun _ _ hchecked => by cases hchecked }
  | popSpeaker =>
    obtain ⟨hworker, speaker, worker, rfl, hcontents, hincoming, hworker'⟩ := popSpeaker_cases hstep
    have hparts := h.speaker
    rw [← hcontents] at hparts
    refine { h with
      speaker := hparts.mono fun x hx => List.mem_append_right _ hx
      popped := fun frame generation clears hpopped => ?_
      checked := fun frame clears hchecked => ?_ }
    · rcases hworker' with rfl | ⟨_, rfl⟩
      · cases hpopped
      · cases hpopped
        refine ⟨h.generation, le_refl _, ?_⟩
        rw [List.take_length]
        exact hparts.mono fun x hx => List.mem_append_left _ hx
    · rcases hworker' with rfl | ⟨_, rfl⟩ <;> cases hchecked
  | checkGeneration =>
    obtain ⟨frame, generation, clears, hworker, hcheck⟩ := checkGeneration_cases hstep
    obtain ⟨hgeneration, hle, hframe⟩ := h.popped frame generation clears hworker
    rcases hcheck with ⟨hdiffer, rfl⟩ | ⟨hsame, rfl⟩
    · exact { h with
        popped := fun _ _ _ hpopped => by cases hpopped
        checked := fun _ _ hchecked => by cases hchecked }
    · have hnow : clears = s.clears.length := by
        apply clears_eq_of_generation hle (hapart frame generation clears hworker)
        rw [← hgeneration, hsame, h.generation]
      refine { h with popped := fun _ _ _ hpopped => (by cases hpopped), checked := fun _ _ hchecked => ?_ }
      cases hchecked
      rw [hnow] at hframe
      exact ⟨le_refl _, hframe⟩
  | writeFrame =>
    obtain ⟨frame, clears, hworker, rfl⟩ := writeFrame_cases hstep
    obtain ⟨hle, hframe⟩ := h.checked frame clears hworker
    refine { h with
      popped := fun _ _ _ hpopped => (by cases hpopped)
      checked := fun _ _ hchecked => (by cases hchecked)
      drops := fun w hw call hcall x hx => ?_ }
    rcases List.mem_append.mp hw with hw | hw
    · exact h.drops w hw call hcall x hx
    · obtain rfl := List.mem_singleton.mp hw
      -- The call had cleared the speaker queue before the worker checked the generation.
      obtain ⟨number, hstage, hnumber⟩ := hapart frame clears hworker call hcall
      have hstart := h.numbered call (List.mem_append_right _ hcall) number hstage
      apply hframe call.start _ x hx
      refine List.mem_of_getElem? (i := number) ?_
      rw [List.getElem?_take, if_pos hnumber, hstart]
  | callClear =>
    obtain rfl := Option.some.inj hstep
    refine { h with callStarts := fun call hcall => ?_, numbered := fun call hcall number hstage => ?_ }
    · rcases List.mem_append.mp hcall with hcall | hcall
      · exact h.callStarts call hcall
      · obtain rfl := List.mem_singleton.mp hcall
        exact le_refl _
    · simp only [stepCallClear, List.mem_append, List.mem_singleton] at hcall
      rcases hcall with (hcall | rfl) | hcall
      · exact h.numbered call (List.mem_append_left _ hcall) number hstage
      · cases hstage
      · exact h.numbered call (List.mem_append_right _ hcall) number hstage
  | clearStaging i =>
    obtain ⟨start, hcall, rfl⟩ := clearStaging_cases hstep
    refine { h with callStarts := fun call hset => ?_, numbered := fun call hset number hstage => ?_ }
    · rcases List.mem_or_eq_of_mem_set hset with hmem | rfl
      · exact h.callStarts call hmem
      · exact h.callStarts ⟨start, .called⟩ (List.mem_of_getElem? hcall)
    · rcases List.mem_append.mp hset with hset | hmem
      · rcases List.mem_or_eq_of_mem_set hset with hmem | rfl
        · exact h.numbered call (List.mem_append_left _ hmem) number hstage
        · cases hstage
      · exact h.numbered call (List.mem_append_right _ hmem) number hstage
  | clearSpeaker i =>
    obtain ⟨start, hcall, rfl⟩ := clearSpeaker_cases hstep
    have hstart : start ≤ s.accepted.length := h.callStarts _ (List.mem_of_getElem? hcall)
    have htake {clears : Nat} (hle : clears ≤ s.clears.length) : (s.clears ++ [start]).take clears = s.clears.take clears :=
      List.take_append_of_le_length hle
    have hlonger {clears : Nat} (hle : clears ≤ s.clears.length) : clears ≤ (s.clears ++ [start]).length := by
      rw [List.length_append]
      exact Nat.le_add_right_of_le hle
    have hnumbered {number before : Nat} (hget : s.clears[number]? = some before) :
        (s.clears ++ [start])[number]? = some before := by
      obtain ⟨hlt, -⟩ := List.getElem?_eq_some_iff.mp hget
      rw [List.getElem?_append_left hlt, hget]
    refine ⟨fun before hbefore => ?_, fun call hset => ?_, fun before _ x hx => ?_, ?_, fun frame generation clears hpopped => ?_,
      fun frame clears hchecked => ?_, fun call hset number hstage => ?_, h.drops⟩
    · rcases List.mem_append.mp hbefore with hbefore | hbefore
      · exact h.starts before hbefore
      · obtain rfl := List.mem_singleton.mp hbefore
        exact hstart
    · rcases List.mem_or_eq_of_mem_set hset with hmem | rfl
      · exact h.callStarts call hmem
      · exact hstart
    · rw [AudioRingBuffer.contents_clear] at hx
      exact (List.not_mem_nil hx).elim
    · rw [List.length_append, List.length_singleton, UInt32.ofNat_add, h.generation, UInt32.add_assoc]
      rfl
    · obtain ⟨hgeneration, hle, hframe⟩ := h.popped frame generation clears hpopped
      exact ⟨hgeneration, hlonger hle, (htake hle).symm ▸ hframe⟩
    · obtain ⟨hle, hframe⟩ := h.checked frame clears hchecked
      exact ⟨hlonger hle, (htake hle).symm ▸ hframe⟩
    · rcases List.mem_append.mp hset with hset | hmem
      · rcases List.mem_or_eq_of_mem_set hset with hmem | rfl
        · exact hnumbered (h.numbered call (List.mem_append_left _ hmem) number hstage)
        · obtain rfl := ClearStage.speakerCleared.inj hstage
          exact List.getElem?_concat_length
      · exact hnumbered (h.numbered call (List.mem_append_right _ hmem) number hstage)
  | returnClear i =>
    obtain ⟨start, number, hcall, rfl⟩ := returnClear_cases hstep
    refine { h with
      callStarts := fun call herase => h.callStarts call (List.mem_of_mem_eraseIdx herase)
      numbered := fun call hmem number' hstage => ?_
      drops := h.drops }
    simp only [List.mem_append, List.mem_singleton] at hmem
    rcases hmem with herase | hmem | rfl
    · exact h.numbered call (List.mem_append_left _ (List.mem_of_mem_eraseIdx herase)) number' hstage
    · exact h.numbered call (List.mem_append_right _ hmem) number' hstage
    · exact h.numbered _ (List.mem_append_left _ (List.mem_of_getElem? hcall)) number' hstage

theorem clearsInv_new : ClearsInv (.new sampleRate) where
  starts _ hstart := (List.not_mem_nil hstart).elim
  callStarts _ hcall := (List.not_mem_nil hcall).elim
  speaker _ hstart := (List.not_mem_nil hstart).elim
  generation := rfl
  popped _ _ _ hpopped := by cases hpopped
  checked _ _ hchecked := by cases hchecked
  numbered _ hcall := (List.not_mem_nil hcall).elim
  drops _ hw := (List.not_mem_nil hw).elim

theorem dropsCleared_of_apart (actions : List SpeakerAction)
    (h : Meets step ApartFromClears actions (.new sampleRate)) : Always step DropsCleared actions (.new sampleRate) :=
  always_of_meets (fun _ _ _ h hapart hstep => h.keep hapart hstep) (fun _ h => h.drops) actions _
    (clearsInv_new sampleRate) h

/-- The speaker path is a queue while no clear was called exactly when every step is in order, and a clear drops what was
accepted before it when the worker does not carry samples over it. -/
theorem fifo_iff_and_dropsCleared_of_apart (sampleRate : Nat) (actions : List SpeakerAction) :
    (Always step Fifo actions (.new sampleRate) ↔ Meets step InOrder actions (.new sampleRate)) ∧
      (Meets step ApartFromClears actions (.new sampleRate) → Always step DropsCleared actions (.new sampleRate)) :=
  ⟨fifo_iff sampleRate actions, dropsCleared_of_apart sampleRate actions⟩

/-- One sample was taken from the staging queue, and a clear has returned since. -/
def heldOver (staging : AudioRingBuffer Sample) (room : Nat) : SpeakerPath :=
  { new 0 with staging, speaker := .zeroed ⟨0, 0⟩ (room + 1), speakerGeneration := 2, worker := .staged [⟨7, 0⟩],
               returned := [⟨1, .speakerCleared 0⟩], accepted := [⟨7, 0⟩], begun := true, clears := [1] }

theorem exec_heldOver (staging : AudioRingBuffer Sample) (room : Nat) :
    ∃ t, exec step [.pushSpeaker, .popSpeaker, .checkGeneration, .writeFrame] (heldOver staging room) = some t ∧
      t.writes = [⟨[⟨7, 0⟩], [⟨1, .speakerCleared 0⟩]⟩] := ⟨_, rfl, rfl⟩

theorem exec_clear_between : ∃ staging room, exec step
    [.pushStaging [7], .popStaging, .callClear, .clearStaging 0, .clearSpeaker 0, .returnClear 0] (new sampleRate) =
      some (heldOver staging room) := by
  have hrate : 8000 ≤ max sampleRate 8000 := le_max_right _ _
  obtain ⟨stagingRoom, hstaging⟩ : ∃ n, max sampleRate 8000 * audioStagingCapacitySecs = n + 1 :=
    Nat.exists_eq_succ_of_ne_zero (by unfold audioStagingCapacitySecs; omega)
  obtain ⟨room, hspeaker⟩ : ∃ n, max sampleRate 8000 * 2 = n + 1 := Nat.exists_eq_succ_of_ne_zero (by omega)
  rw [new, hstaging, hspeaker]
  exact ⟨_, room, rfl⟩

theorem held_over_clear_is_written : ¬ ∀ (sampleRate : Nat) (actions : List SpeakerAction),
    Always step (fun s => s.Fifo ∧ s.DropsCleared) actions (.new sampleRate) := by
  intro h
  obtain ⟨staging, room, hclear⟩ := exec_clear_between 16000
  obtain ⟨t, hrest, hwrites⟩ := exec_heldOver staging room
  have hrun := h 16000 ([.pushStaging [7], .popStaging, .callClear, .clearStaging 0, .clearSpeaker 0, .returnClear 0] ++
    [.pushSpeaker, .popSpeaker, .checkGeneration, .writeFrame])
  have hdrops := (hrun.last (by rw [exec_append, hclear]; exact hrest)).2
  rw [DropsCleared, hwrites] at hdrops
  exact absurd (hdrops _ (.head _) _ (.head _) _ (.head _)) (by decide)

end SpeakerPath
end Beetle.Platform
