import Beetle.Audio.Realtime

/-! Runs of a realtime session: which answers of the server are played after local turns and interrupts. -/
namespace Beetle.Audio
open Beetle.Lib

/-- What happens in a session. A delta is one with samples, and it is queued for playback or not. -/
inductive Happening where
  | localTurn
  | interrupt
  | responseCreated
  | delta (pcm : List Int16) (queued : Bool)
  | responseDone
  deriving DecidableEq

/-- What the session is made to do, at a time. -/
inductive RealtimeAction where
  | beginSpeech (now frameMs : Nat)
  | extendSpeech (now frameMs : Nat)
  | finishSpeech (now : Nat)
  | resetSpeech
  | message (now : Nat) (value : Json) (speaker : SpeakerState)
  | updatePlayback (now : Nat) (speaker : SpeakerState)
  | localInterrupt (now : Nat) (speaker : SpeakerState)

/-- The happenings, the last one first; an error ends the session. -/
structure RealtimeSession where
  state : RealtimeLoopState
  history : List Happening
  ended : Bool

def RealtimeSession.start (now : Nat) : RealtimeSession := ⟨(RealtimeLoopState.new now).markSessionReady now, [], false⟩

section
variable (decodeBase64 : List Char → Except String Bytes) (provider : RealtimeProvider) (sampleRateHz : Nat)

/-- The samples of a delta, where it has some. -/
def deltaSamples (value : Json) : Option (List Int16) :=
  match (jsonGet value "delta").bind Json.asString with
  | none => none
  | some delta =>
    match decodePcm16Delta decodeBase64 delta with
    | .error _ => none
    | .ok pcm => if pcm = [] then none else some pcm

/-- How a message is written down. -/
def happeningsOf (value : Json) (handled : Handled) : List Happening :=
  match eventOf value with
  | .responseCreated => [.responseCreated]
  | .responseDone => [.responseDone]
  | .audioDelta =>
    match deltaSamples decodeBase64 value with
    | none => []
    | some pcm => [.delta pcm (handled.queued = some pcm)]
  | _ => []

def RealtimeSession.after (session : RealtimeSession) (handled : Handled) (happenings : List Happening) : RealtimeSession where
  state := handled.state
  history := happenings ++ session.history
  ended := !handled.result.isOk

def RealtimeSession.step (session : RealtimeSession) (action : RealtimeAction) : RealtimeSession :=
  if session.ended then session
  else
    match action with
    | .beginSpeech now frameMs => { session with state := session.state.beginLocalSpeechWindow now frameMs }
    | .extendSpeech now frameMs =>
      { session with state := session.state.extendLocalSpeechWindow now frameMs
                     history := (if session.state.commits frameMs then [.localTurn] else []) ++ session.history }
    | .finishSpeech now => { session with state := (session.state.finishLocalSpeechWindow now).1 }
    | .resetSpeech => { session with state := session.state.resetLocalSpeechWindow }
    | .message now value speaker =>
      let handled := handleJsonServerMessage decodeBase64 provider speaker sampleRateHz now value session.state
      session.after handled (happeningsOf decodeBase64 value handled)
    | .updatePlayback now speaker => { session with state := updatePlaybackState speaker sampleRateHz now session.state }
    | .localInterrupt now speaker =>
      session.after (handleLocalInterrupt speaker now session.state)
        (if interruptible speaker session.state then [.interrupt] else [])

def runRealtime (now : Nat) (actions : List RealtimeAction) : RealtimeSession :=
  actions.foldl (RealtimeSession.step decodeBase64 provider sampleRateHz) (.start now)

end

/-! Histories. -/

/-- The last response was created after the last local turn and the last interrupt; `before` is what happened before its
creation. -/
inductive Current : List Happening → List Happening → Prop
  | created (before : List Happening) : Current (.responseCreated :: before) before
  | delta {history before : List Happening} (pcm : List Int16) (queued : Bool) (h : Current history before) :
      Current (.delta pcm queued :: history) before
  | done {history before : List Happening} (h : Current history before) : Current (.responseDone :: history) before

/-- An interrupt was accepted, and no response has ended since. -/
def Cut : List Happening → Prop
  | [] => False
  | .interrupt :: _ => True
  | .responseDone :: _ => False
  | _ :: history => Cut history

/-- Each delta is queued exactly when its response is newer than the last local turn and the last interrupt, and a local
turn was committed. -/
def BargesIn (history : List Happening) : Prop :=
  ∀ pcm queued past, .delta pcm queued :: past <:+ history →
    (queued = true ↔ (∃ before, Current past before) ∧ .localTurn ∈ past)

/-- What has to hold of the creation of a response: after a local turn, no interrupt since the end of the response before
it; without a local turn, such an interrupt or none at all. -/
def CreatedWell (before : List Happening) : Prop :=
  (.localTurn ∈ before → ¬ Cut before) ∧ (.localTurn ∉ before → Cut before ∨ .interrupt ∉ before)

/-- The responses of whose samples some come in time were created well. -/
def AnswersWell (history : List Happening) : Prop :=
  ∀ pcm queued past before, .delta pcm queued :: past <:+ history → Current past before → CreatedWell before

/-! The state and the history. -/

/-- A local turn was committed or an interrupt accepted. -/
def Bumped (history : List Happening) : Prop := .localTurn ∈ history ∨ .interrupt ∈ history

/-- What the generations say. -/
def Answering (history : List Happening) : Prop := ∃ before, Current history before ∧ ¬ Cut before ∧ Bumped before

structure Tracks (state : RealtimeLoopState) (history : List Happening) : Prop where
  cut : state.suppressServerAudioUntilTurnEnd = true ↔ Cut history
  bumped : state.localTurnGeneration ≠ 0 ↔ Bumped history
  first : state.firstLocalSpeechAt.isSome = true ↔ .localTurn ∈ history
  answering : (state.serverResponseGeneration = state.localTurnGeneration ∧ state.localTurnGeneration ≠ 0) ↔
    Answering history

theorem nextTurnGeneration_ne_zero (current : UInt32) : nextTurnGeneration current ≠ 0 := by
  unfold nextTurnGeneration
  dsimp only
  split
  · decide
  · assumption

variable {history : List Happening} {state : RealtimeLoopState}

/-- After an interrupt, no response is answering before one has ended. -/
theorem not_answering_of_cut (h : Cut history) : ¬ Answering history := by
  rintro ⟨before, hcurrent, hcut, -⟩
  induction hcurrent with
  | created before => exact hcut h
  | delta pcm queued _ ih => exact ih h hcut
  | done _ => exact h

theorem answering_cons_iff (happening : Happening) (history : List Happening) : Answering (happening :: history) ↔
    match happening with
    | .responseCreated => ¬ Cut history ∧ Bumped history
    | .localTurn => False
    | .interrupt => False
    | _ => Answering history := by
  cases happening with
  | localTurn =>
    refine iff_of_false ?_ id
    rintro ⟨before, hcurrent, -⟩
    cases hcurrent
  | interrupt =>
    refine iff_of_false ?_ id
    rintro ⟨before, hcurrent, -⟩
    cases hcurrent
  | responseCreated =>
    constructor
    · rintro ⟨before, hcurrent, hcut, hbumped⟩
      cases hcurrent
      exact ⟨hcut, hbumped⟩
    · rintro ⟨hcut, hbumped⟩
      exact ⟨history, .created history, hcut, hbumped⟩
  | delta pcm queued =>
    constructor
    · rintro ⟨before, hcurrent, hrest⟩
      cases hcurrent with
      | delta _ _ h => exact ⟨before, h, hrest⟩
    · rintro ⟨before, hcurrent, hrest⟩
      exact ⟨before, .delta pcm queued hcurrent, hrest⟩
  | responseDone =>
    constructor
    · rintro ⟨before, hcurrent, hrest⟩
      cases hcurrent with
      | done h => exact ⟨before, h, hrest⟩
    · rintro ⟨before, hcurrent, hrest⟩
      exact ⟨before, .done hcurrent, hrest⟩

namespace Tracks
variable {state state' : RealtimeLoopState} {history : List Happening}

section
variable (h : Tracks state history)
include h

/-- Only four fields are tracked. -/
theorem congr (hsuppress : state'.suppressServerAudioUntilTurnEnd = state.suppressServerAudioUntilTurnEnd)
    (hlocal : state'.localTurnGeneration = state.localTurnGeneration)
    (hserver : state'.serverResponseGeneration = state.serverResponseGeneration)
    (hfirst : state'.firstLocalSpeechAt = state.firstLocalSpeechAt) : Tracks state' history where
  cut := by rw [hsuppress, h.cut]
  bumped := by rw [hlocal, h.bumped]
  first := by rw [hfirst, h.first]
  answering := by rw [hlocal, hserver, h.answering]

theorem committed_iff : state.hasCommittedLocalTurn = true ↔ Bumped history := by
  simp only [RealtimeLoopState.hasCommittedLocalTurn, Bool.or_eq_true, decide_eq_true_eq, h.bumped, h.first]
  exact ⟨fun hor => hor.elim id .inl, .inl⟩

/-- An accepted delta belongs to a response that is answering, and the other way round. -/
theorem answering_iff : Answering history ↔
    state.suppressServerAudioUntilTurnEnd = false ∧ state.hasCommittedLocalTurn = true ∧
      state.shouldAcceptServerAudio = true := by
  rw [RealtimeLoopState.shouldAcceptServerAudio, decide_eq_true_eq]
  constructor
  · intro hanswering
    obtain ⟨hsame, hne⟩ := h.answering.mpr hanswering
    refine ⟨Bool.eq_false_iff.mpr fun hsuppress => ?_, h.committed_iff.mpr (h.bumped.mp hne), hsame⟩
    exact not_answering_of_cut (h.cut.mp hsuppress) hanswering
  · rintro ⟨-, hcommitted, hsame⟩
    exact h.answering.mp ⟨hsame, h.bumped.mpr (h.committed_iff.mp hcommitted)⟩

end

/-- The start of a new turn: what was answering is not any more. -/
theorem bump (hlocal : state'.localTurnGeneration = nextTurnGeneration state.localTurnGeneration)
    (hserver : state'.serverResponseGeneration = 0) : state'.localTurnGeneration ≠ 0 ∧
      ¬ (state'.serverResponseGeneration = state'.localTurnGeneration ∧ state'.localTurnGeneration ≠ 0) := by
  have hne : state'.localTurnGeneration ≠ 0 := by
    rw [hlocal]
    exact nextTurnGeneration_ne_zero _
  refine ⟨hne, fun h => hne ?_⟩
  rw [← h.1, hserver]

theorem localTurn (h : Tracks state history)
    (hsuppress : state'.suppressServerAudioUntilTurnEnd = state.suppressServerAudioUntilTurnEnd)
    (hlocal : state'.localTurnGeneration = nextTurnGeneration state.localTurnGeneration)
    (hserver : state'.serverResponseGeneration = 0) (hfirst : state'.firstLocalSpeechAt.isSome = true) :
    Tracks state' (.localTurn :: history) where
  cut := by
    rw [hsuppress]
    exact h.cut
  bumped := iff_of_true (bump hlocal hserver).1 (.inl List.mem_cons_self)
  first := iff_of_true hfirst List.mem_cons_self
  answering := iff_of_false (bump hlocal hserver).2 fun hanswering => (answering_cons_iff _ _).mp hanswering

theorem interrupt (h : Tracks state history) (hsuppress : state'.suppressServerAudioUntilTurnEnd = true)
    (hlocal : state'.localTurnGeneration = nextTurnGeneration state.localTurnGeneration)
    (hserver : state'.serverResponseGeneration = 0) (hfirst : state'.firstLocalSpeechAt = state.firstLocalSpeechAt) :
    Tracks state' (.interrupt :: history) where
  cut := iff_of_true hsuppress trivial
  bumped := iff_of_true (bump hlocal hserver).1 (.inr List.mem_cons_self)
  first := by
    rw [hfirst, h.first, List.mem_cons]
    exact ⟨.inr, fun hor => hor.resolve_left (by intro heq; cases heq)⟩
  answering := iff_of_false (bump hlocal hserver).2 fun hanswering => (answering_cons_iff _ _).mp hanswering

theorem bumped_cons_iff {happening : Happening} (hlocal : happening ≠ .localTurn) (hinterrupt : happening ≠ .interrupt) :
    Bumped (happening :: history) ↔ Bumped history := by
  simp only [Bumped, List.mem_cons, hlocal.symm, hinterrupt.symm, false_or]

section
variable (h : Tracks state history)
include h

theorem delta (pcm : List Int16) (queued : Bool) : Tracks state (.delta pcm queued :: history) where
  cut := h.cut
  bumped := by rw [bumped_cons_iff (by simp) (by simp), h.bumped]
  first := by simp [h.first]
  answering := by rw [answering_cons_iff, h.answering]

theorem done (hsuppress : state'.suppressServerAudioUntilTurnEnd = false)
    (hlocal : state'.localTurnGeneration = state.localTurnGeneration)
    (hserver : state'.serverResponseGeneration = state.serverResponseGeneration)
    (hfirst : state'.firstLocalSpeechAt = state.firstLocalSpeechAt) : Tracks state' (.responseDone :: history) where
  cut := iff_of_false (by rw [hsuppress]; exact Bool.false_ne_true) id
  bumped := by rw [hlocal, bumped_cons_iff (by simp) (by simp), h.bumped]
  first := by simp [hfirst, h.first]
  answering := by rw [hlocal, hserver, answering_cons_iff, h.answering]

/-- A response is created: it answers when it is not suppressed and there is something to answer. -/
theorem created (hsuppress : state'.suppressServerAudioUntilTurnEnd = state.suppressServerAudioUntilTurnEnd)
    (hlocal : state'.localTurnGeneration = state.localTurnGeneration) (hserver : state'.serverResponseGeneration =
      if state.suppressServerAudioUntilTurnEnd = false ∧ state.hasCommittedLocalTurn = true then state.localTurnGeneration
      else state.serverResponseGeneration)
    (hfirst : state'.firstLocalSpeechAt = state.firstLocalSpeechAt) : Tracks state' (.responseCreated :: history) where
  cut := by
    rw [hsuppress]
    exact h.cut
  bumped := by rw [hlocal, bumped_cons_iff (by simp) (by simp), h.bumped]
  first := by simp [hfirst, h.first]
  answering := by
    have hnew : (state.suppressServerAudioUntilTurnEnd = false ∧ state.hasCommittedLocalTurn = true) ↔
        ¬ Cut history ∧ Bumped history := by
      rw [← h.cut, Bool.not_eq_true, h.committed_iff]
    rw [answering_cons_iff, hlocal, hserver]
    simp only [← hnew]
    by_cases hstate : state.suppressServerAudioUntilTurnEnd = false ∧ state.hasCommittedLocalTurn = true
    · rw [if_pos hstate]
      exact iff_of_true ⟨rfl, h.bumped.mpr (hnew.mp hstate).2⟩ hstate
    · rw [if_neg hstate, h.answering]
      exact iff_of_false (fun hanswering => hstate ⟨(h.answering_iff.mp hanswering).1, (h.answering_iff.mp hanswering).2.1⟩)
        hstate

end

end Tracks

/-! A step of the session. -/

section
variable (h : Tracks state history)
include h

theorem tracks_extend (now frameMs : Nat) :
    Tracks (state.extendLocalSpeechWindow now frameMs)
      ((if state.commits frameMs then [.localTurn] else []) ++ history) := by
  rw [RealtimeLoopState.extendLocalSpeechWindow]
  cases hcommits : state.commits frameMs with
  | false => exact h.congr rfl rfl rfl rfl
  | true =>
    have hopen : state.currentLocalTurnCommitted = false := by
      rw [RealtimeLoopState.commits, Bool.and_eq_true, Bool.not_eq_true'] at hcommits
      exact hcommits.1
    simp only [if_true, RealtimeLoopState.commitLocalTurn, hopen, Bool.false_eq_true, if_false]
    refine h.localTurn rfl rfl rfl ?_
    cases state.firstLocalSpeechAt <;> rfl

theorem tracks_startWhenBuffered
    (speaker : SpeakerState) (sampleRateHz : Nat) : Tracks (startWhenBuffered speaker sampleRateHz state) history := by
  unfold startWhenBuffered RealtimeLoopState.startAudioPlayback
  split
  · split
    · exact h
    · exact h.congr rfl rfl rfl rfl
  · exact h

theorem tracks_finishAudioPlayback (now : Nat) : Tracks (state.finishAudioPlayback now) history := by
  unfold RealtimeLoopState.finishAudioPlayback
  split
  · exact h
  · exact h.congr rfl rfl rfl rfl

theorem tracks_updatePlaybackState (speaker : SpeakerState) (sampleRateHz now : Nat) :
    Tracks (updatePlaybackState speaker sampleRateHz now state) history := by
  unfold updatePlaybackState
  split
  · exact tracks_startWhenBuffered h speaker sampleRateHz
  · split
    · exact tracks_finishAudioPlayback h now
    · exact h

theorem tracks_localInterrupt
    (speaker : SpeakerState) (now : Nat) : Tracks (handleLocalInterrupt speaker now state).state
      ((if interruptible speaker state then [.interrupt] else []) ++ history) := by
  unfold handleLocalInterrupt
  cases interruptible speaker state with
  | false => exact h
  | true =>
    have hdropped := @Tracks.interrupt state { state with
      localTurnGeneration := nextTurnGeneration state.localTurnGeneration
      serverResponseGeneration := 0
      suppressServerAudioUntilTurnEnd := true
      awaitingResponse := false
      currentTurnReceivedServerActivity := false
      playbackFinishedAt := some now } history h rfl rfl rfl rfl
    cases speaker.clearBuffer with
    | error e => exact hdropped
    | ok _ => exact (tracks_finishAudioPlayback hdropped now).congr rfl rfl rfl rfl

end

section
variable {decodeBase64 : List Char → Except String Bytes} {provider : RealtimeProvider} {sampleRateHz : Nat}
  {state : RealtimeLoopState} {history : List Happening} {speaker : SpeakerState} {now : Nat} {value : Json}
  {pcm : List Int16}

theorem tracks_queueOutputAudio (h : Tracks state history) (pcm : List Int16) :
    Tracks (queueOutputAudio speaker sampleRateHz pcm state).state history := by
  have hcounted : Tracks { state with outputSamples := state.outputSamples + pcm.length } history :=
    h.congr rfl rfl rfl rfl
  unfold queueOutputAudio
  split
  · exact h
  · dsimp only
    split
    · exact hcounted
    · split
      · exact hcounted
      · split
        · exact hcounted
        · exact tracks_startWhenBuffered hcounted speaker sampleRateHz

theorem tracks_acceptDelta (h : Tracks state history) :
    Tracks (acceptDelta decodeBase64 speaker sampleRateHz now value state).state history := by
  unfold acceptDelta
  split
  · exact h
  · split
    · exact h
    · rename_i pcm _
      split
      · exact h
      · have hqueued := @tracks_queueOutputAudio sampleRateHz state history speaker h pcm
        dsimp only
        split
        · exact hqueued
        · exact hqueued.congr rfl rfl rfl rfl

theorem queued_queueOutputAudio (h : pcm ≠ []) :
    (queueOutputAudio speaker sampleRateHz pcm state).queued = some pcm := by
  unfold queueOutputAudio
  rw [if_neg h]
  dsimp only
  split
  · rfl
  · split <;> rfl

/-- The samples of an accepted delta are queued. -/
theorem queued_acceptDelta (h : deltaSamples decodeBase64 value = some pcm) :
    (acceptDelta decodeBase64 speaker sampleRateHz now value state).queued = some pcm := by
  unfold deltaSamples at h
  unfold acceptDelta
  cases hdelta : (jsonGet value "delta").bind Json.asString with
  | none =>
    rw [hdelta] at h
    cases h
  | some delta =>
    rw [hdelta] at h
    dsimp only at h ⊢
    cases hdecode : decodePcm16Delta decodeBase64 delta with
    | error e =>
      rw [hdecode] at h
      cases h
    | ok pcm' =>
      rw [hdecode] at h
      dsimp only at h ⊢
      by_cases hempty : pcm' = []
      · rw [if_pos hempty] at h
        cases h
      · rw [if_neg hempty] at h
        obtain rfl := Option.some.inj h
        have hqueued := @queued_queueOutputAudio sampleRateHz state speaker pcm' hempty
        rw [if_neg hempty]
        split
        · exact hqueued
        · exact hqueued

section
variable (h : Tracks state history)
include h

/-- A delta is queued exactly when its response is answering. -/
theorem queued_iff (hevent : eventOf value = .audioDelta) (hpcm : deltaSamples decodeBase64 value = some pcm) :
    (handleJsonServerMessage decodeBase64 provider speaker sampleRateHz now value state).queued = some pcm ↔
      Answering history := by
  rw [h.answering_iff, handleJsonServerMessage, hevent]
  dsimp only
  cases hsuppress : state.suppressServerAudioUntilTurnEnd with
  | true => exact iff_of_false (by simp) (by simp)
  | false =>
    cases hcommitted : state.hasCommittedLocalTurn with
    | false => exact iff_of_false (by simp) (by simp)
    | true =>
      cases haccept : state.shouldAcceptServerAudio with
      | false => exact iff_of_false (by simp) (by simp)
      | true => exact iff_of_true (queued_acceptDelta hpcm) ⟨rfl, rfl, rfl⟩

theorem tracks_responseDone : Tracks (responseDone now state) (.responseDone :: history) := by
  unfold responseDone
  by_cases hsuppress : state.suppressServerAudioUntilTurnEnd = true
  · rw [if_pos hsuppress]
    exact h.done rfl rfl rfl rfl
  · have hoff := Bool.eq_false_iff.mpr hsuppress
    rw [if_neg hsuppress]
    by_cases hawaiting : state.awaitingResponse = true
    · rw [if_pos hawaiting]
      dsimp only
      split
      · exact h.done hoff rfl rfl rfl
      · exact h.done hoff rfl rfl rfl
    · rw [if_neg hawaiting]
      dsimp only
      split
      · exact h.done hoff rfl rfl rfl
      · exact h.done hoff rfl rfl rfl

/-- What a message does, and how it is written down. -/
theorem tracks_message :
    Tracks (handleJsonServerMessage decodeBase64 provider speaker sampleRateHz now value state).state
      (happeningsOf decodeBase64 value
        (handleJsonServerMessage decodeBase64 provider speaker sampleRateHz now value state) ++ history) := by
  unfold happeningsOf
  have hactive : Tracks { state with lastActivity := now } history := h.congr rfl rfl rfl rfl
  generalize hhandled : handleJsonServerMessage decodeBase64 provider speaker sampleRateHz now value state = handled
  unfold handleJsonServerMessage at hhandled
  cases hevent : eventOf value with
  | session created updated =>
    simp only [hevent] at hhandled
    subst hhandled
    split
    · exact h.congr rfl rfl rfl rfl
    · exact hactive
  | responseCreated =>
    simp only [hevent] at hhandled
    subst hhandled
    by_cases hsuppress : state.suppressServerAudioUntilTurnEnd = true
    · rw [if_pos hsuppress]
      exact h.created rfl rfl (by simp [hsuppress]) rfl
    · rw [if_neg hsuppress]
      by_cases hcommitted : state.hasCommittedLocalTurn = true
      · rw [if_neg (by simp [hcommitted])]
        exact h.created rfl rfl (by
          rw [if_pos ⟨Bool.eq_false_iff.mpr hsuppress, hcommitted⟩]
          rfl) rfl
      · rw [if_pos (by simp [hcommitted])]
        exact h.created rfl rfl (by simp [hcommitted]) rfl
  | speechStarted =>
    simp only [hevent] at hhandled
    subst hhandled
    dsimp only
    split
    · exact h.congr rfl rfl rfl rfl
    · exact hactive
  | speechStopped =>
    simp only [hevent] at hhandled
    subst hhandled
    dsimp only
    split
    · exact h.congr rfl rfl rfl rfl
    · exact hactive
  | audioDelta =>
    have hstate : Tracks handled.state history := by
      simp only [hevent] at hhandled
      subst hhandled
      split
      · exact h
      · split
        · exact h
        · exact tracks_acceptDelta h
    cases deltaSamples decodeBase64 value with
    | none => exact hstate
    | some pcm => exact hstate.delta pcm _
  | audioDone =>
    simp only [hevent] at hhandled
    subst hhandled
    exact hactive
  | responseDone =>
    simp only [hevent] at hhandled
    subst hhandled
    exact tracks_responseDone h
  | error =>
    simp only [hevent] at hhandled
    subst hhandled
    exact h
  | other =>
    simp only [hevent] at hhandled
    subst hhandled
    exact h

end

end

/-! The run. -/

/-- The deltas that were queued are those of responses that were answering. -/
def Recorded (history : List Happening) : Prop :=
  ∀ pcm queued past, .delta pcm queued :: past <:+ history → (queued = true ↔ Answering past)

structure SessionInv (session : RealtimeSession) : Prop where
  tracks : Tracks session.state session.history
  recorded : Recorded session.history

theorem Recorded.cons (h : Recorded history) {happening : Happening}
    (hnew : ∀ pcm queued, happening = .delta pcm queued → (queued = true ↔ Answering history)) :
    Recorded (happening :: history) := by
  intro pcm queued past hsuffix
  rcases List.suffix_cons_iff.mp hsuffix with heq | hsuffix
  · obtain ⟨rfl, rfl⟩ := List.cons.inj heq
    exact hnew pcm queued rfl
  · exact h pcm queued past hsuffix

section
variable {decodeBase64 : List Char → Except String Bytes} {provider : RealtimeProvider} {sampleRateHz : Nat}
  {session : RealtimeSession}

theorem recorded_message (h : SessionInv session) (now : Nat) (value : Json)
    (speaker : SpeakerState) : Recorded (happeningsOf decodeBase64 value
      (handleJsonServerMessage decodeBase64 provider speaker sampleRateHz now value session.state) ++ session.history) := by
  unfold happeningsOf
  cases hevent : eventOf value with
  | responseCreated => exact h.recorded.cons fun _ _ heq => by cases heq
  | responseDone => exact h.recorded.cons fun _ _ heq => by cases heq
  | audioDelta =>
    cases hpcm : deltaSamples decodeBase64 value with
    | none => exact h.recorded
    | some pcm =>
      refine h.recorded.cons fun pcm' queued heq => ?_
      obtain ⟨rfl, rfl⟩ := Happening.delta.inj heq
      rw [decide_eq_true_eq]
      exact queued_iff h.tracks hevent hpcm
  | session _ _ => exact h.recorded
  | speechStarted => exact h.recorded
  | speechStopped => exact h.recorded
  | audioDone => exact h.recorded
  | error => exact h.recorded
  | other => exact h.recorded

theorem SessionInv.step (h : SessionInv session) (action : RealtimeAction) :
    SessionInv (session.step decodeBase64 provider sampleRateHz action) := by
  unfold RealtimeSession.step
  split
  · exact h
  · cases action with
    | beginSpeech now frameMs => exact ⟨h.tracks.congr rfl rfl rfl rfl, h.recorded⟩
    | extendSpeech now frameMs =>
      refine ⟨tracks_extend h.tracks now frameMs, ?_⟩
      dsimp only
      split
      · exact h.recorded.cons fun _ _ heq => by cases heq
      · exact h.recorded
    | finishSpeech now =>
      refine ⟨?_, h.recorded⟩
      unfold RealtimeLoopState.finishLocalSpeechWindow
      dsimp only
      split
      · exact h.tracks.congr rfl rfl rfl rfl
      · exact h.tracks.congr rfl rfl rfl rfl
    | resetSpeech => exact ⟨h.tracks.congr rfl rfl rfl rfl, h.recorded⟩
    | message now value speaker => exact ⟨tracks_message h.tracks, recorded_message h now value speaker⟩
    | updatePlayback now speaker => exact ⟨tracks_updatePlaybackState h.tracks speaker sampleRateHz now, h.recorded⟩
    | localInterrupt now speaker =>
      refine ⟨tracks_localInterrupt h.tracks speaker now, ?_⟩
      dsimp only [RealtimeSession.after]
      split
      · exact h.recorded.cons fun _ _ heq => by cases heq
      · exact h.recorded

theorem sessionInv_start (now : Nat) : SessionInv (.start now) where
  tracks := by
    refine ⟨iff_of_false Bool.false_ne_true id, iff_of_false (fun h => h rfl) ?_, iff_of_false Bool.false_ne_true ?_,
      iff_of_false (fun h => h.2 rfl) ?_⟩
    · rintro (h | h) <;> cases h
    · exact List.not_mem_nil
    · rintro ⟨before, hcurrent, -⟩
      cases hcurrent
  recorded := by
    intro pcm queued past hsuffix
    cases List.suffix_nil.mp hsuffix

theorem sessionInv_runRealtime (now : Nat) (actions : List RealtimeAction) :
    SessionInv (runRealtime decodeBase64 provider sampleRateHz now actions) := by
  unfold runRealtime
  generalize hsession : RealtimeSession.start now = session
  have hinv : SessionInv session := hsession ▸ sessionInv_start now
  clear hsession
  induction actions generalizing session with
  | nil => exact hinv
  | cons action actions ih => exact ih _ (hinv.step action)

end

theorem Current.unique {history before before' : List Happening} (h : Current history before)
    (h' : Current history before') : before = before' := by
  induction h with
  | created before =>
    cases h'
    rfl
  | delta pcm queued _ ih =>
    cases h' with
    | delta _ _ h' => exact ih h'
  | done _ ih =>
    cases h' with
    | done h' => exact ih h'

/-- The last response is newer than every local turn. -/
theorem Current.localTurn_iff {history before : List Happening} (h : Current history before) :
    .localTurn ∈ history ↔ .localTurn ∈ before := by
  induction h with
  | created before => simp
  | delta pcm queued _ ih => simpa using ih
  | done _ ih => simpa using ih

theorem createdWell_iff {before : List Happening} :
    CreatedWell before ↔ ((¬ Cut before ∧ Bumped before) ↔ .localTurn ∈ before) := by
  unfold CreatedWell Bumped
  by_cases hlocal : .localTurn ∈ before
  · simp [hlocal]
  · simp only [hlocal, false_or, iff_false, not_and, not_false_iff, true_implies, false_implies, true_and]
    by_cases hcut : Cut before
    · simp [hcut]
    · simp [hcut]

/-- What a delta comes to is right exactly when its response was created well. -/
theorem delta_right_iff {past : List Happening} {queued : Bool} (h : queued = true ↔ Answering past) :
    (queued = true ↔ (∃ before, Current past before) ∧ .localTurn ∈ past) ↔
      ∀ before, Current past before → CreatedWell before := by
  rw [h]
  by_cases hcurrent : ∃ before, Current past before
  · obtain ⟨before, hbefore⟩ := hcurrent
    have hanswering : Answering past ↔ ¬ Cut before ∧ Bumped before := by
      constructor
      · rintro ⟨before', hbefore', hrest⟩
        rw [hbefore.unique hbefore']
        exact hrest
      · exact fun hrest => ⟨before, hbefore, hrest⟩
    rw [hanswering, hbefore.localTurn_iff]
    constructor
    · intro hright before' hbefore'
      rw [← hbefore.unique hbefore', createdWell_iff, hright]
      exact ⟨And.right, fun hlocal => ⟨⟨before, hbefore⟩, hlocal⟩⟩
    · intro hwell
      rw [createdWell_iff.mp (hwell before hbefore)]
      exact ⟨fun hlocal => ⟨⟨before, hbefore⟩, hlocal⟩, And.right⟩
  · refine iff_of_true (iff_of_false ?_ fun hright => hcurrent hright.1) fun before hbefore => ?_
    · rintro ⟨before, hbefore, -⟩
      exact hcurrent ⟨before, hbefore⟩
    · exact absurd ⟨before, hbefore⟩ hcurrent

/-- In a run of a session the deltas are queued as they should be exactly when each response of which samples come in
time was created with no interrupt since the end of the response before it (or, as long as no local turn was committed,
with such an interrupt or none at all). -/
theorem bargesIn_iff (decodeBase64 : List Char → Except String Bytes) (provider : RealtimeProvider)
    (sampleRateHz now : Nat) (actions : List RealtimeAction) :
    BargesIn (runRealtime decodeBase64 provider sampleRateHz now actions).history ↔
      AnswersWell (runRealtime decodeBase64 provider sampleRateHz now actions).history := by
  have hrecorded := (@sessionInv_runRealtime decodeBase64 provider sampleRateHz now actions).recorded
  constructor
  · intro h pcm queued past before hsuffix
    exact (delta_right_iff (hrecorded pcm queued past hsuffix)).mp (h pcm queued past hsuffix) before
  · intro h pcm queued past hsuffix
    exact (delta_right_iff (hrecorded pcm queued past hsuffix)).mpr fun before => h pcm queued past before hsuffix

/-! An interrupt after the response. -/

def message (eventType : String) : Json := .obj [(⟨"type".toList, false⟩, .str ⟨eventType.toList, false⟩)]

/-- A delta with one sample. -/
def deltaMessage : Json :=
  .obj [(⟨"type".toList, false⟩, .str ⟨"response.audio.delta".toList, false⟩),
    (⟨"delta".toList, false⟩, .str ⟨"AAA=".toList, false⟩)]

def decodeOneSample (text : List Char) : Except String Bytes :=
  if text = "AAA=".toList then .ok [0, 0] else .error "Invalid input"

/-- The sample of the answer is still to be played. -/
def busySpeaker : SpeakerState := ⟨.ok 1, .ok 0, .ok (), 0, 1⟩

def spokenTurn : List RealtimeAction :=
  [.beginSpeech 0 40, .extendSpeech 0 40, .extendSpeech 0 40, .extendSpeech 0 40, .finishSpeech 0]

def answeredTurn : List RealtimeAction :=
  spokenTurn ++ [.message 0 (message "response.created") busySpeaker, .message 0 deltaMessage busySpeaker]

/-- A turn is answered, its playback is interrupted after the response is done, and a second turn is answered. -/
def interruptedSession : List RealtimeAction :=
  answeredTurn ++ [.message 0 (message "response.done") busySpeaker, .localInterrupt 0 busySpeaker] ++ answeredTurn

/-- The second answer is not played. -/
theorem second_answer_is_lost :
    ¬ BargesIn (runRealtime decodeOneSample .openAiCompatible 24000 0 interruptedSession).history := by
  have hhistory : (runRealtime decodeOneSample .openAiCompatible 24000 0 interruptedSession).history =
      [.delta [0] false, .responseCreated, .localTurn, .interrupt, .responseDone, .delta [0] true, .responseCreated,
        .localTurn] := by decide
  intro h
  rw [hhistory] at h
  have hlast := (h [0] false _ List.suffix_rfl).mpr ⟨⟨_, .created _⟩, by simp⟩
  cases hlast

end Beetle.Audio
