import Beetle.Audio.PcmDelivery

/-! What the speaker answers while a reply is played: the writes, the looks for an interrupt and the waits. -/
namespace Beetle.Audio
open Beetle.Lib

section
variable {answers : SpeakerAnswers} {playback : Playback}

/-- A request is there at the n-th look, and it is taken. -/
def SpeakerAnswers.requested (answers : SpeakerAnswers) (n : Nat) : Bool :=
  answers.interruptArmed && answers.takeAudioInterruptRequest n

def NoRequest (answers : SpeakerAnswers) (start stop : Nat) : Prop :=
  ∀ n, start ≤ n → n < stop → answers.requested n = false

theorem NoRequest.extend {start stop : Nat} (h : NoRequest answers start stop) (hstop : answers.requested stop = false) :
    NoRequest answers start (stop + 1) := by
  intro n hstart hn
  rcases Nat.lt_succ_iff_lt_or_eq.mp hn with hlt | rfl
  · exact h n hstart hlt
  · exact hstop

theorem NoRequest.trans {start middle stop : Nat} (h : NoRequest answers start middle) (h' : NoRequest answers middle stop) :
    NoRequest answers start stop := by
  intro n hstart hn
  by_cases hlt : n < middle
  · exact h n hstart hlt
  · exact h' n (Nat.le_of_not_lt hlt) hn

/-- At a number of looks there is no request, or there is a first one. -/
theorem noRequest_or_first (answers : SpeakerAnswers) (start count : Nat) : NoRequest answers start (start + count) ∨
    ∃ k, k < count ∧ NoRequest answers start (start + k) ∧ answers.requested (start + k) = true := by
  induction count with
  | zero => exact .inl fun n hstart hn => absurd hn (Nat.not_lt.mpr hstart)
  | succ count ih =>
    rcases ih with hquiet | ⟨k, hk, hquiet, hfirst⟩
    · cases hlast : answers.requested (start + count) with
      | false => exact .inl (hquiet.extend hlast)
      | true => exact .inr ⟨count, Nat.lt_succ_self count, hquiet, hlast⟩
    · exact .inr ⟨k, Nat.lt_succ_of_lt hk, hquiet, hfirst⟩

def Playback.looked (playback : Playback) : Playback := { playback with looks := playback.looks + 1 }

def Playback.accepted (playback : Playback) : Playback :=
  { playback with looks := playback.looks + 1, events := playback.events ++ [.interruptAccepted, .cleared] }

/-- The chunks are all passed to the speaker. -/
def Playback.afterWrites (synthesis : Synthesis) (chunks : List (List Int16)) (playback : Playback) : Playback where
  looks := playback.looks + chunks.length
  writes := playback.writes + chunks.length
  events := playback.events ++ chunks.map (.written synthesis)
  playedSamples := playback.playedSamples + chunks.flatten.length
  interrupted := playback.interrupted

theorem acceptLocalInterrupt_quiet (h : answers.requested playback.looks = false) :
    acceptLocalInterrupt answers playback = (playback.looked, .ok false) := by
  have hnot : (!answers.interruptArmed || !answers.takeAudioInterruptRequest playback.looks) = true := by
    rw [← Bool.not_and, ← SpeakerAnswers.requested, h]
    rfl
  rw [acceptLocalInterrupt, if_pos hnot]
  rfl

theorem acceptLocalInterrupt_requested (h : answers.requested playback.looks = true) :
    acceptLocalInterrupt answers playback =
      (playback.accepted, (answers.clearSpeakerBuffer playback.looks).map fun () => true) := by
  have hnot : ¬ (!answers.interruptArmed || !answers.takeAudioInterruptRequest playback.looks) = true := by
    rw [← Bool.not_and, ← SpeakerAnswers.requested, h]
    decide
  rw [acceptLocalInterrupt, if_neg hnot]
  cases answers.clearSpeakerBuffer playback.looks <;> rfl

theorem deliver_quiet (hwrites : ∀ n, answers.writeSpeakerPcm n = .ok ()) (synthesis : Synthesis)
    (chunks : List (List Int16)) {playback : Playback}
    (hquiet : NoRequest answers playback.looks (playback.looks + chunks.length)) :
    deliver (writePlaybackChunk answers synthesis) playback chunks = (playback.afterWrites synthesis chunks, .ok ()) := by
  induction chunks generalizing playback with
  | nil => simp [deliver, Playback.afterWrites]
  | cons chunk chunks ih =>
    rw [List.length_cons] at hquiet
    have hnow : answers.requested playback.looks = false := hquiet _ (Nat.le_refl _) (by omega)
    have hwrite : writePlaybackChunk answers synthesis playback chunk = (playback.afterWrites synthesis [chunk], .ok ()) := by
      rw [writePlaybackChunk, acceptLocalInterrupt_quiet hnow]
      simp [hwrites, Playback.looked, Playback.afterWrites]
    rw [deliver, hwrite]
    simp only
    rw [ih]
    · simp [Playback.afterWrites, Nat.add_assoc, Nat.add_comm, Nat.add_left_comm]
    · intro n hstart hn
      simp only [Playback.afterWrites, List.length_singleton] at hstart hn
      exact hquiet n (by omega) (by omega)

/-- The chunk at which a request is taken is not written. -/
theorem deliver_requested (hwrites : ∀ n, answers.writeSpeakerPcm n = .ok ()) (synthesis : Synthesis)
    (chunks : List (List Int16)) {k : Nat} (hk : k < chunks.length)
    (hquiet : NoRequest answers playback.looks (playback.looks + k))
    (hfirst : answers.requested (playback.looks + k) = true) :
    deliver (writePlaybackChunk answers synthesis) playback chunks =
      match answers.clearSpeakerBuffer (playback.looks + k) with
      | .error e => ((playback.afterWrites synthesis (chunks.take k)).accepted, .error e)
      | .ok () => ({ (playback.afterWrites synthesis (chunks.take k)).accepted with interrupted := true },
          .error (.config "local interrupt accepted during playback" voiceLocalInterruptStage)) := by
  have hlength : (chunks.take k).length = k := by rw [List.length_take, Nat.min_eq_left hk.le]
  have hlooks : (playback.afterWrites synthesis (chunks.take k)).looks = playback.looks + k := by
    rw [Playback.afterWrites, hlength]
  have hfront := @deliver_quiet answers hwrites synthesis (chunks.take k) playback (by rw [hlength]; exact hquiet)
  obtain ⟨chunk, back, hback⟩ := List.exists_cons_of_ne_nil (List.drop_eq_nil_iff.not.mpr (Nat.not_le.mpr hk))
  rw [← List.take_append_drop k chunks, deliver_append, List.take_append_drop, hfront, hback]
  simp only [deliver, writePlaybackChunk]
  rw [acceptLocalInterrupt_requested (by rw [hlooks]; exact hfirst), hlooks]
  cases answers.clearSpeakerBuffer (playback.looks + k) <;> rfl

/-- A stretch of the run in which the events stay, and no look takes a request. -/
structure Quiet (answers : SpeakerAnswers) (before after : Playback) : Prop where
  le : before.looks ≤ after.looks
  noRequest : NoRequest answers before.looks after.looks
  events : after.events = before.events

/-- A stretch of the run whose last look, the n-th, takes a request. -/
structure Accepted (answers : SpeakerAnswers) (before after : Playback) (n : Nat) : Prop where
  le : before.looks ≤ n
  noRequest : NoRequest answers before.looks n
  requested : answers.requested n = true
  looks : after.looks = n + 1
  events : after.events = before.events ++ [.interruptAccepted, .cleared]

/-- What a stretch after the writes comes to: with no request the result is as `no` says; after a request it is as `yes`
says, or it is the failure of the clear. -/
inductive Waited {α : Type} (answers : SpeakerAnswers) (before : Playback) (no yes : Except Error α → Prop) :
    Playback × Except Error α → Prop
  | quiet {after : Playback} {r : Except Error α} (h : Quiet answers before after) (hr : no r) : Waited answers before no yes (after, r)
  | accepted {after : Playback} {r : Except Error α} {n : Nat} (h : Accepted answers before after n)
      (hclear : answers.clearSpeakerBuffer n = .ok ()) (hr : yes r) : Waited answers before no yes (after, r)
  | failed {after : Playback} {n : Nat} {e : Error} (h : Accepted answers before after n)
      (hclear : answers.clearSpeakerBuffer n = .error e) : Waited answers before no yes (after, .error e)

theorem Quiet.looked (h : answers.requested playback.looks = false) : Quiet answers playback playback.looked := by
  refine ⟨Nat.le_succ _, fun n hstart hn => ?_, rfl⟩
  rw [Nat.le_antisymm (Nat.lt_succ_iff.mp hn) hstart]
  exact h

theorem Accepted.now (h : answers.requested playback.looks = true) :
    Accepted answers playback playback.accepted playback.looks :=
  ⟨Nat.le_refl _, fun _ hstart hn => absurd hn (Nat.not_lt.mpr hstart), h, rfl, rfl⟩

theorem Quiet.trans {p q r : Playback} (h : Quiet answers p q) (h' : Quiet answers q r) : Quiet answers p r :=
  ⟨h.le.trans h'.le, h.noRequest.trans h'.noRequest, h'.events.trans h.events⟩

theorem Quiet.accepted {p q r : Playback} {n : Nat} (h : Quiet answers p q) (h' : Accepted answers q r n) :
    Accepted answers p r n :=
  ⟨h.le.trans h'.le, h.noRequest.trans h'.noRequest, h'.requested, h'.looks, h.events ▸ h'.events⟩

theorem Waited.after {α : Type} {no yes : Except Error α → Prop} {p q : Playback} {run : Playback × Except Error α}
    (h : Quiet answers p q) (hrun : Waited answers q no yes run) : Waited answers p no yes run := by
  cases hrun with
  | quiet h' hr => exact .quiet (h.trans h') hr
  | accepted h' hclear hr => exact .accepted (h.accepted h') hclear hr
  | failed h' hclear => exact .failed (h.accepted h') hclear

theorem waitForPlaybackDrain_waited (timeoutMs : Nat) (last : Bool × Nat) (readings : List (Bool × Nat))
    (playback : Playback) (saw : Bool) : Waited answers playback (fun _ => True) (fun r => r = .ok true)
      (waitForPlaybackDrain answers timeoutMs last playback saw readings) := by
  induction readings generalizing playback saw with
  | nil =>
    rw [waitForPlaybackDrain]
    cases hlook : answers.requested playback.looks with
    | false =>
      rw [acceptLocalInterrupt_quiet hlook]
      exact .quiet (.looked hlook) trivial
    | true =>
      rw [acceptLocalInterrupt_requested hlook]
      cases hclear : answers.clearSpeakerBuffer playback.looks with
      | error e => exact .failed (.now hlook) hclear
      | ok _ => exact .accepted (.now hlook) hclear rfl
  | cons reading readings ih =>
    rw [waitForPlaybackDrain]
    cases hlook : answers.requested playback.looks with
    | false =>
      rw [acceptLocalInterrupt_quiet hlook]
      cases hturn : drainTurn saw reading with
      | some result => exact .quiet (.looked hlook) trivial
      | none => exact (ih _ _).after (.looked hlook)
    | true =>
      rw [acceptLocalInterrupt_requested hlook]
      cases hclear : answers.clearSpeakerBuffer playback.looks with
      | error e => exact .failed (.now hlook) hclear
      | ok _ => exact .accepted (.now hlook) hclear rfl

theorem Quiet.refl (playback : Playback) : Quiet answers playback playback :=
  ⟨Nat.le_refl _, fun _ hstart hn => absurd hn (Nat.not_lt.mpr hstart), rfl⟩

theorem waitForPlatformPlaybackDrain_waited (sampleRate : Nat) (drain : DrainReadings) (playback : Playback) :
    Waited answers playback (fun _ => True) (fun r => r = .ok true)
      (waitForPlatformPlaybackDrain answers sampleRate drain playback) := by
  rw [waitForPlatformPlaybackDrain]
  by_cases hplayed : playback.playedSamples = 0
  · rw [if_pos hplayed]
    exact .quiet (.refl playback) trivial
  · rw [if_neg hplayed]
    exact waitForPlaybackDrain_waited _ _ _ _ _

/-- The reply is reported as interrupted. -/
def ReportsInterrupted (r : Except Error VoicePlaybackStats) : Prop := ∃ stats, r = .ok stats ∧ stats.interrupted = true

theorem reportsInterrupted_ok (n : Nat) : ReportsInterrupted (.ok ⟨n, true⟩) := ⟨⟨n, true⟩, rfl, rfl⟩

theorem not_reportsInterrupted_error (e : Error) : ¬ ReportsInterrupted (.error e) := by
  rintro ⟨stats, h, -⟩
  cases h

theorem drainReply_waited (input : SpeakInput) (playback : Playback) : Waited answers playback
    (fun r => playback.interrupted = true → ReportsInterrupted r) ReportsInterrupted (drainReply answers input playback) := by
  rw [drainReply]
  cases hlook : answers.requested playback.looks with
  | true =>
    rw [acceptLocalInterrupt_requested hlook]
    cases hclear : answers.clearSpeakerBuffer playback.looks with
    | error e => exact .failed (.now hlook) hclear
    | ok _ =>
      simp only [Except.map, Bool.or_true, if_true]
      exact .accepted ⟨Nat.le_refl _, (Accepted.now hlook).noRequest, hlook, rfl, rfl⟩ hclear (reportsInterrupted_ok _)
  | false =>
    rw [acceptLocalInterrupt_quiet hlook]
    have hlooked : Quiet answers playback playback.looked := .looked hlook
    obtain ⟨looks, writes, events, playedSamples, interrupted⟩ := playback
    cases interrupted with
    | true => exact .quiet ⟨hlooked.le, hlooked.noRequest, rfl⟩ fun _ => reportsInterrupted_ok _
    | false =>
      simp only [Playback.looked, Bool.or_false, Bool.false_eq_true, if_false]
      have hwait := (@waitForPlatformPlaybackDrain_waited answers input.sampleRate input.drain
        ⟨looks + 1, writes, events, playedSamples, false⟩).after hlooked
      generalize waitForPlatformPlaybackDrain answers input.sampleRate input.drain
        ⟨looks + 1, writes, events, playedSamples, false⟩ = run at hwait
      cases hwait with
      | @quiet after r h _ =>
        cases r with
        | error e => exact .quiet h fun h => by cases h
        | ok accepted => exact .quiet ⟨h.le, h.noRequest, h.events⟩ fun h => by cases h
      | @accepted after r n h hclear hr =>
        subst hr
        refine .accepted ⟨h.le, h.noRequest, h.requested, h.looks, h.events⟩ hclear ?_
        rw [Bool.or_true]
        exact reportsInterrupted_ok _
      | failed h hclear => exact .failed h hclear

end

end Beetle.Audio
