import Beetle.ChatStream

/-! What the receiver of a chat stream gets, however the parties take turns. -/
namespace Beetle.ChatStream
open Beetle.Lib

/-- A frame that ends the stream, with `done` after it. -/
def Frame.IsEnd (frame : Frame) : Prop := frame.isTerminal = true ∧ frame ≠ .done

def texts (frames : List Frame) : List Char := frames.flatMap Frame.text

/-- The frames that were received, and those still to be. -/
@[grind =] def State.sent (s : State) : List Frame := s.received ++ s.queue.frames.map QueuedFrame.frame

/-- What the receiver has is in order, and complete where it ends with a final frame. -/
structure Orderly (limits : Limits) (streamId : List Char) (s : State) : Prop where
  complete : ∀ before content sessionAppended messageId after,
    s.received = before ++ .final content sessionAppended messageId :: after → texts before = content
  once : ∃ before terminal, (∀ frame ∈ before, frame.isTerminal = false) ∧ terminal.IsEnd ∧
    s.received <+: before ++ [terminal, .done]
  ended : s.queue.closed = true → s.queue.frames = [] → ∃ before terminal,
    (∀ frame ∈ before, frame.isTerminal = false) ∧ terminal.IsEnd ∧ s.received = before ++ [terminal, .done]
  bounded : ∀ frame ∈ s.received, (frame.bytes streamId).length ≤ limits.chatStreamFrameMaxBytes

/-- The frames that must make room for a final one carry no text. -/
def KeepsText (limits : Limits) (s : State) : Action → Prop
  | .push => ∀ content sessionAppended messageId, s.terminal = some (.final content sessionAppended messageId) →
      ∀ frame ∈ s.queue.frames.take (s.queue.frames.length + 2 - limits.chatStreamQueueCapacity), frame.frame.text = []
  | _ => True

/-! The chunks of a text. -/

theorem flatten_deltaChunks (frameMax messageIdJsonLen : Nat) (chunk : List Char) (chunkEscapedLen : Nat) (text : List Char) :
    (deltaChunks frameMax messageIdJsonLen chunk chunkEscapedLen text).flatten = chunk ++ text := by
  induction text generalizing chunk chunkEscapedLen with
  | nil =>
    unfold deltaChunks
    by_cases hempty : chunk = []
    · rw [if_pos hempty, hempty]
      rfl
    · rw [if_neg hempty]
      simp
  | cons ch text ih =>
    unfold deltaChunks
    dsimp only
    split
    · rw [List.flatten_cons, ih]
      simp
    · rw [ih]
      simp

theorem flatten_sendDeltaChunks (frameMax : Nat) (streamId text : List Char) :
    (sendDeltaChunks frameMax streamId text).flatten = text := by
  unfold sendDeltaChunks
  by_cases hempty : text = []
  · rw [if_pos hempty, hempty]
    rfl
  · rw [if_neg hempty, flatten_deltaChunks]
    rfl

theorem getFrom_append (text suffix : List Char) : getFrom (text ++ suffix) (utf8 text).length = some suffix := by
  induction text with
  | nil =>
    cases suffix with
    | nil => rfl
    | cons ch suffix => rfl
  | cons ch text ih =>
    have hpos := Char.utf8Size_pos ch
    have hlength := length_utf8_cons ch text
    obtain ⟨n, hn⟩ : ∃ n, (utf8 (ch :: text)).length = n + 1 := ⟨(utf8 (ch :: text)).length - 1, by omega⟩
    rw [hn, List.cons_append, getFrom, if_neg (by omega)]
    rw [show n + 1 - ch.utf8Size = (utf8 text).length by omega]
    exact ih

/-- What has been sent, and then the chunks before the final frame, make the content. -/
theorem flatten_finalChunks (frameMax : Nat) (streamId accumulated suffix : List Char) :
    accumulated ++ (finalChunks frameMax streamId (utf8 accumulated).length (accumulated ++ suffix)).flatten =
      accumulated ++ suffix := by
  unfold finalChunks
  by_cases hnone : (utf8 accumulated).length = 0
  · have hempty : accumulated = [] := by
      have hle := length_le_utf8 accumulated
      exact List.length_eq_zero_iff.mp (by omega)
    rw [if_pos hnone, flatten_sendDeltaChunks, hempty]
    rfl
  · rw [if_neg hnone]
    by_cases hless : (utf8 accumulated).length < (utf8 (accumulated ++ suffix)).length
    · rw [if_pos hless, getFrom_append]
      dsimp only
      rw [flatten_sendDeltaChunks]
    · rw [if_neg hless]
      have hle := length_le_utf8 suffix
      rw [utf8_append, List.length_append] at hless
      have hempty : suffix = [] := List.length_eq_zero_iff.mp (by omega)
      rw [hempty]
      simp

/-! What the queue does. -/

theorem pushNonterminal_cases (limits : Limits) (streamId : List Char) (queue : ChatStreamQueue) (frame : Frame) :
    queue.pushNonterminal limits streamId frame = (queue, false) ∨
      (frame.bytes streamId).length ≤ limits.chatStreamFrameMaxBytes ∧ queue.closed = false ∧
        queue.pushNonterminal limits streamId frame = ({ queue with frames := queue.frames ++ [⟨frame, false⟩] }, true) := by
  unfold ChatStreamQueue.pushNonterminal
  by_cases hlarge : limits.chatStreamFrameMaxBytes < (frame.bytes streamId).length
  · exact .inl (if_pos hlarge)
  rw [if_neg hlarge]
  cases hclosed : queue.closed with
  | true => exact .inl (if_pos rfl)
  | false =>
    rw [if_neg Bool.false_ne_true]
    by_cases hfull : limits.chatStreamQueueCapacity ≤ queue.frames.length
    · exact .inl (if_pos hfull)
    · rw [if_neg hfull]
      exact .inr ⟨by omega, rfl, rfl⟩

variable {frames : List QueuedFrame} {sending : Sending}

theorem removeNonterminal_eq_drop (excess : Nat) (h : ∀ frame ∈ frames, frame.terminal = false) :
    ChatStreamQueue.removeNonterminal excess frames = frames.drop excess := by
  induction excess generalizing frames with
  | zero => rfl
  | succ excess ih =>
    cases frames with
    | nil => rfl
    | cons frame frames =>
      have hfirst : (frame :: frames).findIdx? (fun frame => !frame.terminal) = some 0 := by
        rw [List.findIdx?_cons, h frame List.mem_cons_self]
        rfl
      rw [ChatStreamQueue.removeNonterminal, hfirst]
      exact ih fun other hother => h other (List.mem_cons_of_mem _ hother)

theorem pushTerminalPair_cases (limits : Limits) (streamId : List Char) {queue : ChatStreamQueue} (terminal last : Frame)
    (hopen : queue.closed = false) (h : ∀ frame ∈ queue.frames, frame.terminal = false) :
    (queue.pushTerminalPair limits streamId terminal last).1 = queue ∨
      (terminal.bytes streamId).length ≤ limits.chatStreamFrameMaxBytes ∧
        (last.bytes streamId).length ≤ limits.chatStreamFrameMaxBytes ∧
        (queue.pushTerminalPair limits streamId terminal last).1 = { queue with
          frames := queue.frames.drop (queue.frames.length + 2 - limits.chatStreamQueueCapacity) ++
            [⟨terminal, true⟩, ⟨last, true⟩], closed := true } := by
  unfold ChatStreamQueue.pushTerminalPair
  by_cases hlarge : limits.chatStreamFrameMaxBytes < (terminal.bytes streamId).length ∨
      limits.chatStreamFrameMaxBytes < (last.bytes streamId).length
  · rw [if_pos hlarge]
    exact .inl rfl
  · rw [if_neg hlarge, hopen, if_neg Bool.false_ne_true, removeNonterminal_eq_drop _ h]
    exact .inr ⟨by omega, by omega, rfl⟩

/-! The invariant. -/

/-- How far the agent has come in a call while the stream is registered, by the text that is in the frames so far. -/
def Progress (sentText accumulated : List Char) (sentContentBytes : Nat) : Sending → Prop
  | .idle => sentText = accumulated ∧ sentContentBytes = (utf8 accumulated).length
  | .event _ => sentText = accumulated ∧ sentContentBytes = (utf8 accumulated).length
  | .chunks rest (.delta _) => sentText ++ rest.flatten = accumulated
  | .chunks rest (.final frame) => ∀ content sessionAppended messageId,
      frame = .final content sessionAppended messageId → sentText ++ rest.flatten = content
  | .backpressure => True

/-- What the agent is about to send, registered or not. -/
def Sane (accumulated : List Char) : Sending → Prop
  | .event frame => frame.isTerminal = false ∧ frame.text = []
  | .chunks _ (.delta bytes) => bytes = (utf8 accumulated).length
  | .chunks _ (.final frame) => frame.IsEnd
  | _ => True

/-- What holds of the stream wherever the agent is. -/
structure Base (limits : Limits) (streamId : List Char) (s : State) : Prop where
  bounded : ∀ frame ∈ s.sent, (frame.bytes streamId).length ≤ limits.chatStreamFrameMaxBytes
  registered : s.registered = true → s.queue.closed = false ∧ s.terminal = none
  pending : ∀ terminal, s.terminal = some terminal → s.registered = false ∧ s.queue.closed = false ∧ terminal.IsEnd
  promised : ∀ content sessionAppended messageId, s.terminal = some (.final content sessionAppended messageId) →
    s.sending = .idle ∧ texts s.sent = content
  sane : Sane s.accumulated s.sending
  marked : s.queue.sentContentBytes ≤ (utf8 s.accumulated).length
  started : s.queue.closed = false → (∀ frame ∈ s.sent, frame.isTerminal = false) ∧ ∀ frame ∈ s.queue.frames, frame.terminal = false
  closed : s.queue.closed = true → ∃ before terminal, s.sent = before ++ [terminal, .done] ∧
    (∀ frame ∈ before, frame.isTerminal = false) ∧ terminal.IsEnd ∧
    ∀ content sessionAppended messageId, terminal = .final content sessionAppended messageId → texts before = content

structure Inv (limits : Limits) (streamId : List Char) (s : State) : Prop where
  base : Base limits streamId s
  progress : s.registered = true → Progress (texts s.sent) s.accumulated s.queue.sentContentBytes s.sending

variable {limits : Limits} {streamId : List Char} {s : State}

theorem texts_append (a b : List Frame) : texts (a ++ b) = texts a ++ texts b := List.flatMap_append

theorem Base.takeEntry (h : Base limits streamId s) {terminal : Frame} (hend : terminal.IsEnd)
    (hfinal : s.registered = true → ∀ content sessionAppended messageId,
      terminal = .final content sessionAppended messageId → s.sending = .idle ∧ texts s.sent = content) :
    Inv limits streamId (s.takeEntry terminal) := by
  unfold State.takeEntry
  cases hregistered : s.registered with
  | false =>
    rw [if_neg Bool.false_ne_true]
    exact ⟨h, fun htrue => absurd (hregistered.symm.trans htrue) Bool.false_ne_true⟩
  | true =>
    rw [if_pos rfl]
    obtain ⟨hopen, -⟩ := h.registered hregistered
    refine ⟨{ h with registered := fun hfalse => (nomatch hfalse), pending := ?_, promised := ?_ }, fun hfalse => (nomatch hfalse)⟩
    · rintro t ⟨⟩
      exact ⟨rfl, hopen, hend⟩
    · intro content sessionAppended messageId hterminal
      exact hfinal hregistered content sessionAppended messageId (Option.some.inj hterminal)

theorem isEnd_error (errorKey : List Char) (errorStage : Option (List Char)) : (Frame.error errorKey errorStage).IsEnd :=
  ⟨rfl, fun h => (nomatch h)⟩

section
variable (h : Base limits streamId s)
include h

/-- The agent turns to something else. -/
theorem Base.turn (hsane : Sane s.accumulated sending)
    (hnone : ∀ content sessionAppended messageId, s.terminal ≠ some (.final content sessionAppended messageId)) :
    Base limits streamId { s with sending } :=
  ⟨h.bounded, h.registered, h.pending, fun content a m hterminal => absurd hterminal (hnone content a m), hsane, h.marked,
    h.started, h.closed⟩

/-- The deltas so far grow. -/
theorem Base.grow {accumulated : List Char} (hgrown : s.accumulated <+: accumulated)
    (hidle : s.sending = .idle) : Base limits streamId { s with accumulated } := by
  refine ⟨h.bounded, h.registered, h.pending, h.promised, ?_, ?_, h.started, h.closed⟩
  · show Sane accumulated s.sending
    rw [hidle]
    trivial
  · obtain ⟨rest, rfl⟩ := hgrown
    refine h.marked.trans ?_
    rw [utf8_append, List.length_append]
    omega

theorem Base.not_final (hregistered : s.registered = true) (content : List Char)
    (sessionAppended : Bool) (messageId : Option (List Char)) :
    s.terminal ≠ some (.final content sessionAppended messageId) := by
  rw [(h.registered hregistered).2]
  exact fun hsome => (nomatch hsome)

/-- A call of the agent begins. -/
theorem Base.begin (hsane : Sane s.accumulated sending)
    (hprogress : s.registered = true → Progress (texts s.sent) s.accumulated s.queue.sentContentBytes sending) :
    Inv limits streamId (s.begin sending) := by
  unfold State.begin
  by_cases hregistered : s.registered = true
  · rw [if_pos hregistered]
    exact ⟨h.turn hsane (h.not_final hregistered), hprogress⟩
  · rw [if_neg hregistered]
    exact ⟨h, fun htrue => absurd htrue hregistered⟩

end

theorem sent_recv {frame : QueuedFrame} (h : s.queue.frames = frame :: frames) :
    ({ s with queue := { s.queue with frames }, received := s.received ++ [frame.frame] } : State).sent = s.sent := by
  unfold State.sent
  rw [h]
  simp

theorem Inv.recv (h : Inv limits streamId s) {frame : QueuedFrame} (hframes : s.queue.frames = frame :: frames) :
    Inv limits streamId { s with queue := { s.queue with frames }, received := s.received ++ [frame.frame] } := by
  have hsent := sent_recv hframes
  constructor
  · constructor
    · rw [hsent]
      exact h.base.bounded
    · exact h.base.registered
    · exact h.base.pending
    · rw [hsent]
      exact h.base.promised
    · exact h.base.sane
    · exact h.base.marked
    · intro hopen
      rw [hsent]
      refine ⟨(h.base.started hopen).1, fun other hother => (h.base.started hopen).2 other ?_⟩
      rw [hframes]
      exact List.mem_cons_of_mem _ hother
    · rw [hsent]
      exact h.base.closed
  · rw [hsent]
    exact h.progress

/-- A frame that ends nothing comes into the queue. -/
theorem Base.pushed (h : Base limits streamId s) {frame : Frame} (hfits : (frame.bytes streamId).length ≤ limits.chatStreamFrameMaxBytes)
    (hopen : s.queue.closed = false) (hframe : frame.isTerminal = false) (hsane : Sane s.accumulated sending)
    (hpromised : ∀ content sessionAppended messageId, s.terminal ≠ some (.final content sessionAppended messageId)) :
    Base limits streamId { s with queue := { s.queue with frames := s.queue.frames ++ [⟨frame, false⟩] }, sending } ∧
      ({ s with queue := { s.queue with frames := s.queue.frames ++ [⟨frame, false⟩] }, sending } : State).sent =
        s.sent ++ [frame] := by
  have hsent : ({ s with queue := { s.queue with frames := s.queue.frames ++ [⟨frame, false⟩] }, sending } : State).sent =
      s.sent ++ [frame] := by simp [State.sent]
  obtain ⟨hsentOpen, hqueued⟩ := h.started hopen
  refine ⟨⟨?_, h.registered, h.pending, ?_, hsane, h.marked, ?_, ?_⟩, hsent⟩
  · rw [hsent]
    intro other hother
    rcases List.mem_append.mp hother with hold | hnew
    · exact h.bounded other hold
    · rw [List.mem_singleton.mp hnew]
      exact hfits
  · intro content sessionAppended messageId hterminal
    exact absurd hterminal (hpromised content sessionAppended messageId)
  · rw [hsent]
    refine fun _ => ⟨fun other hother => ?_, fun other hother => ?_⟩
    · rcases List.mem_append.mp hother with hold | hnew
      · exact hsentOpen other hold
      · rw [List.mem_singleton.mp hnew]
        exact hframe
    · rcases List.mem_append.mp hother with hold | hnew
      · exact hqueued other hold
      · rw [List.mem_singleton.mp hnew]
  · intro hclosed
    exact absurd (hopen.symm.trans hclosed) Bool.false_ne_true

theorem Base.sending_idle (h : Base limits streamId s) (hsending : s.sending ≠ .idle) (content : List Char)
    (sessionAppended : Bool) (messageId : Option (List Char)) :
    s.terminal ≠ some (.final content sessionAppended messageId) :=
  fun hterminal => hsending (h.promised content sessionAppended messageId hterminal).1

section
variable (h : Inv limits streamId s)
include h

theorem Inv.next {t : State} (ht : s.next limits streamId s.sending = some t) : Inv limits streamId t := by
  cases hsending : s.sending with
  | idle =>
    rw [hsending] at ht
    cases ht
  | event frame =>
    rw [hsending] at ht
    obtain rfl := Option.some.inj ht
    have hsane := h.base.sane
    rw [hsending] at hsane
    have hnone := h.base.sending_idle (by rw [hsending]; exact fun hidle => (nomatch hidle))
    have hprogress := h.progress
    rw [hsending] at hprogress
    rcases pushNonterminal_cases limits streamId s.queue frame with hfail | ⟨hfits, hopen, hpush⟩
    · rw [hfail]
      exact ⟨h.base.turn trivial hnone, hprogress⟩
    · rw [hpush]
      obtain ⟨hbase, hsent⟩ := h.base.pushed hfits hopen hsane.1 (show Sane s.accumulated .idle from trivial) hnone
      refine ⟨hbase, fun hregistered => ⟨?_, (hprogress hregistered).2⟩⟩
      rw [hsent, texts_append, (hprogress hregistered).1]
      simp [texts, hsane.2]
  | backpressure =>
    rw [hsending] at ht
    obtain rfl := Option.some.inj ht
    have hnone := h.base.sending_idle (by rw [hsending]; exact fun hidle => (nomatch hidle))
    exact (h.base.turn (show Sane s.accumulated .idle from trivial) hnone).takeEntry (isEnd_error _ _)
      fun _ _ _ _ hfinal => (nomatch hfinal)
  | chunks rest after =>
    have hnone := h.base.sending_idle (by rw [hsending]; exact fun hidle => (nomatch hidle))
    have hsane := h.base.sane
    have hprogress := h.progress
    rw [hsending] at ht hsane hprogress
    cases rest with
    | nil =>
      cases after with
      | delta bytes =>
        obtain rfl := Option.some.inj ht
        obtain rfl : bytes = (utf8 s.accumulated).length := hsane
        have hmax : max s.queue.sentContentBytes (utf8 s.accumulated).length = (utf8 s.accumulated).length :=
          Nat.max_eq_right h.base.marked
        refine ⟨⟨h.base.bounded, h.base.registered, h.base.pending, ?_, trivial, ?_, h.base.started, h.base.closed⟩, fun hregistered => ⟨?_, hmax⟩⟩
        · exact fun content a m hterminal => absurd hterminal (hnone content a m)
        · exact hmax.le
        · have htexts := hprogress hregistered
          rw [Progress, List.flatten_nil, List.append_nil] at htexts
          exact htexts
      | final frame =>
        obtain rfl := Option.some.inj ht
        refine (h.base.turn (show Sane s.accumulated .idle from trivial) hnone).takeEntry hsane
          fun hregistered content a m hframe => ⟨rfl, ?_⟩
        have htexts := hprogress hregistered content a m hframe
        rw [List.flatten_nil, List.append_nil] at htexts
        exact htexts
    | cons chunk rest =>
      have hrest : Sane s.accumulated (.chunks rest after) := by
        cases after with
        | delta bytes => exact hsane
        | final frame => exact hsane
      simp only [State.next] at ht
      obtain rfl := Option.some.inj ht
      rcases pushNonterminal_cases limits streamId s.queue (.delta chunk) with hfail | ⟨hfits, hopen, hpush⟩
      · rw [hfail]
        exact ⟨h.base.turn trivial hnone, fun _ => trivial⟩
      · rw [hpush]
        obtain ⟨hbase, hsent⟩ := h.base.pushed hfits hopen rfl hrest hnone
        have hnext : s.registered = true → Progress (texts (s.sent ++ [.delta chunk])) s.accumulated
            s.queue.sentContentBytes (.chunks rest after) := by
          intro hregistered
          have htexts := hprogress hregistered
          have hmore : texts (s.sent ++ [.delta chunk]) ++ rest.flatten = texts s.sent ++ (chunk :: rest).flatten := by
            rw [texts_append, List.append_assoc]
            simp [texts, Frame.text]
          cases after with
          | delta bytes => exact hmore.trans htexts
          | final frame => exact fun content a m hframe => hmore.trans (htexts content a m hframe)
        rw [← hsent] at hnext
        exact ⟨hbase, hnext⟩

theorem Inv.push {terminal : Frame} (hterminal : s.terminal = some terminal)
    (hkeeps : KeepsText limits s .push) : Inv limits streamId { s with
      queue := (s.queue.pushTerminalPair limits streamId terminal .done).1, terminal := none } := by
  obtain ⟨hregistered, hopen, hend⟩ := h.base.pending terminal hterminal
  obtain ⟨hsentOpen, hqueued⟩ := h.base.started hopen
  have hunregistered {P : Prop} (htrue : s.registered = true) : P :=
    absurd (hregistered.symm.trans htrue) Bool.false_ne_true
  rcases pushTerminalPair_cases limits streamId terminal .done hopen hqueued with hfail | ⟨hfits, hdone, hpush⟩
  · rw [hfail]
    exact ⟨⟨h.base.bounded, fun htrue => hunregistered htrue, fun _ hnone => (nomatch hnone), fun _ _ _ hnone => (nomatch hnone),
      h.base.sane, h.base.marked, h.base.started, h.base.closed⟩, fun htrue => hunregistered htrue⟩
  · rw [hpush]
    obtain ⟨dropped, hdropped⟩ : ∃ dropped, dropped = s.queue.frames.length + 2 - limits.chatStreamQueueCapacity := ⟨_, rfl⟩
    rw [KeepsText, ← hdropped] at hkeeps
    rw [← hdropped]
    obtain ⟨before, hbefore⟩ : ∃ before, before = s.received ++ (s.queue.frames.drop dropped).map QueuedFrame.frame := ⟨_, rfl⟩
    have hsub : ∀ frame ∈ before, frame ∈ s.sent := by
      intro frame hframe
      rw [hbefore] at hframe
      rcases List.mem_append.mp hframe with hreceived | hkept
      · exact List.mem_append_left _ hreceived
      · obtain ⟨queued, hqueued, rfl⟩ := List.mem_map.mp hkept
        exact List.mem_append_right _ (List.mem_map_of_mem (List.mem_of_mem_drop hqueued))
    constructor
    · constructor
      · intro frame hframe
        have hin : frame ∈ before ∨ frame = terminal ∨ frame = .done := by
          simpa [State.sent, hbefore, or_assoc] using hframe
        rcases hin with hold | rfl | rfl
        · exact h.base.bounded frame (hsub frame hold)
        · exact hfits
        · exact hdone
      · exact fun htrue => hunregistered htrue
      · exact fun _ hnone => (nomatch hnone)
      · exact fun _ _ _ hnone => (nomatch hnone)
      · exact h.base.sane
      · exact h.base.marked
      · exact fun hfalse => (nomatch hfalse)
      · refine fun _ => ⟨before, terminal, by simp [State.sent, hbefore], fun frame hframe => hsentOpen frame (hsub frame hframe),
          hend, fun content a m hfinal => ?_⟩
        rw [← (h.base.promised content a m (by rw [hterminal, hfinal])).2, hbefore]
        have hgone : texts ((s.queue.frames.take dropped).map QueuedFrame.frame) = [] := by
          refine List.flatMap_eq_nil_iff.mpr fun frame hframe => ?_
          obtain ⟨queued, hqueued, rfl⟩ := List.mem_map.mp hframe
          exact hkeeps content a m (by rw [hterminal, hfinal]) queued hqueued
        calc texts (s.received ++ (s.queue.frames.drop dropped).map QueuedFrame.frame)
            = texts s.received ++ (texts ((s.queue.frames.take dropped).map QueuedFrame.frame) ++
                texts ((s.queue.frames.drop dropped).map QueuedFrame.frame)) := by rw [hgone, texts_append]; rfl
          _ = texts s.sent := by
            rw [← texts_append, ← List.map_append, List.take_append_drop, ← texts_append]
            rfl
    · exact fun htrue => hunregistered htrue

/-- Every step that keeps the text keeps the invariant. -/
theorem inv_step {a : Action} (hkeeps : KeepsText limits s a) {t : State}
    (ht : step limits streamId s a = some t) : Inv limits streamId t := by
  cases a with
  | emitQueued chatId =>
    simp only [step] at ht
    split at ht
    · rename_i hidle
      obtain rfl := Option.some.inj ht
      refine h.base.begin ⟨rfl, rfl⟩ fun hregistered => ?_
      have hprogress := h.progress hregistered
      rw [hidle] at hprogress
      exact hprogress
    · cases ht
  | emitDelta delta =>
    simp only [step] at ht
    split at ht
    · rename_i hidle
      obtain rfl := Option.some.inj ht
      refine (h.base.grow (List.prefix_append s.accumulated delta) hidle).begin rfl fun hregistered => ?_
      have hprogress := h.progress hregistered
      rw [hidle] at hprogress
      rw [Progress, flatten_sendDeltaChunks]
      exact congrArg (· ++ delta) hprogress.1
    · cases ht
  | emitFinal content sessionAppended messageId =>
    simp only [step] at ht
    split at ht
    · rename_i hidle
      split at ht
      · rename_i hstarts
        obtain ⟨suffix, rfl⟩ := hstarts
        obtain rfl := Option.some.inj ht
        refine h.base.begin ⟨rfl, fun hdone => (nomatch hdone)⟩ fun hregistered => ?_
        have hprogress := h.progress hregistered
        rw [hidle] at hprogress
        intro content a m hframe
        obtain ⟨rfl, -, -⟩ := Frame.final.inj hframe
        rw [hprogress.1, hprogress.2]
        exact flatten_finalChunks _ _ _ _
      · cases ht
    · cases ht
  | emitError errorKey errorStage =>
    obtain rfl := Option.some.inj ht
    exact h.base.takeEntry (isEnd_error _ _) fun _ _ _ _ hfinal => (nomatch hfinal)
  | send => exact h.next ht
  | push =>
    obtain ⟨terminal, hterminal, rfl⟩ := Option.map_eq_some_iff.mp ht
    exact h.push hterminal hkeeps
  | recv =>
    simp only [step] at ht
    split at ht
    · cases ht
    · rename_i frame frames hframes
      obtain rfl := Option.some.inj ht
      exact h.recv hframes

end

theorem inv_opened : Inv limits streamId .opened where
  base := by
    refine ⟨fun frame hframe => (nomatch hframe), fun _ => ⟨rfl, rfl⟩, fun _ hnone => (nomatch hnone),
      fun _ _ _ hnone => (nomatch hnone), trivial, Nat.zero_le _, fun _ => ⟨?_, ?_⟩, fun hfalse => (nomatch hfalse)⟩
    · exact fun frame hframe => (nomatch hframe)
    · exact fun frame hframe => (nomatch hframe)
  progress _ := ⟨rfl, rfl⟩

/-- There is but one end. -/
theorem eq_of_end {before before' after : List Frame} {terminal terminal' : Frame}
    (hbefore : ∀ frame ∈ before, frame.isTerminal = false) (hend : terminal'.IsEnd)
    (h : before' ++ terminal' :: after = before ++ [terminal, .done]) : before' = before ∧ terminal' = terminal := by
  induction before generalizing before' with
  | nil =>
    cases before' with
    | nil => exact ⟨rfl, (List.cons.inj h).1⟩
    | cons frame before' =>
      obtain ⟨rfl, hrest⟩ := List.cons.inj h
      cases before' with
      | nil =>
        exact absurd (List.cons.inj hrest).1 hend.2
      | cons other before' =>
        have hnil := (List.cons.inj hrest).2
        simp at hnil
  | cons frame before ih =>
    cases before' with
    | nil =>
      obtain ⟨rfl, -⟩ := List.cons.inj h
      exact absurd ((hbefore terminal' List.mem_cons_self).symm.trans hend.1) Bool.false_ne_true
    | cons other before' =>
      obtain ⟨rfl, hrest⟩ := List.cons.inj h
      obtain ⟨rfl, hterminal⟩ := ih (fun frame hframe => hbefore frame (List.mem_cons_of_mem _ hframe)) hrest
      exact ⟨rfl, hterminal⟩

theorem orderly_of_inv (h : Inv limits streamId s) : Orderly limits streamId s where
  complete before content sessionAppended messageId after hreceived := by
    have hin : Frame.final content sessionAppended messageId ∈ s.sent := by simp [State.sent, hreceived]
    cases hclosed : s.queue.closed with
    | false => exact absurd ((h.base.started hclosed).1 _ hin) (by simp [Frame.isTerminal])
    | true =>
      obtain ⟨front, terminal, hsent, hfront, hend, htexts⟩ := h.base.closed hclosed
      rw [State.sent, hreceived, List.append_assoc, List.cons_append] at hsent
      have hfinal : (Frame.final content sessionAppended messageId).IsEnd := ⟨rfl, fun hdone => (nomatch hdone)⟩
      obtain ⟨rfl, rfl⟩ := eq_of_end hfront hfinal hsent
      exact htexts content sessionAppended messageId rfl
  once := by
    cases hclosed : s.queue.closed with
    | false =>
      refine ⟨s.received, .error [] none, fun frame hframe => ?_, isEnd_error _ _, List.prefix_append _ _⟩
      exact (h.base.started hclosed).1 frame (List.mem_append_left _ hframe)
    | true =>
      obtain ⟨front, terminal, hsent, hfront, hend, -⟩ := h.base.closed hclosed
      exact ⟨front, terminal, hfront, hend, hsent ▸ List.prefix_append _ _⟩
  ended hclosed hempty := by
    obtain ⟨front, terminal, hsent, hfront, hend, -⟩ := h.base.closed hclosed
    refine ⟨front, terminal, hfront, hend, ?_⟩
    rw [State.sent, hempty, List.map_nil, List.append_nil] at hsent
    exact hsent
  bounded frame hframe := h.base.bounded frame (List.mem_append_left _ hframe)

/-- Where the frames that make room for a final one carry no text, the receiver gets all of the content before it. -/
theorem chat_stream_is_complete (limits : Limits) (streamId : List Char) (actions : List Action)
    (h : Meets (step limits streamId) (KeepsText limits) actions .opened) :
    Always (step limits streamId) (Orderly limits streamId) actions .opened :=
  always_of_meets (fun _ _ _ hs hkeeps ht => inv_step hs hkeeps ht) (fun _ hs => orderly_of_inv hs) actions _ inv_opened h

/-- So many deltas of one letter, and then the final frame, while the receiver waits. -/
def unread (count : Nat) : List Action :=
  (List.replicate count [Action.emitDelta ['x'], .send, .send]).flatten ++
    [.emitFinal (List.replicate count 'x') true none, .send, .push] ++ List.replicate (count + 1) .recv

def streamName : List Char := "chat_stream_1700000000000_1".toList

/-- With the queue all but full a delta makes room for the final frame. -/
theorem final_without_first_delta :
    ¬ Always (step .esp streamName) (Orderly .esp streamName) (unread 15) .opened := by
  intro h
  have hrun : (exec (step .esp streamName) (unread 15) .opened).map State.received =
      some (List.replicate 14 (.delta ['x']) ++ [.final (List.replicate 15 'x') true none, .done]) := by decide +kernel
  obtain ⟨t, ht, hreceived⟩ := Option.map_eq_some_iff.mp hrun
  have htexts := (h.last ht).complete _ _ _ _ _ hreceived
  revert htexts
  decide

/-- With a delta less nothing goes. -/
theorem final_with_all_deltas :
    Always (step .esp streamName) (Orderly .esp streamName) (unread 14) .opened := by
  apply chat_stream_is_complete
  have hroom : Meets (step .esp streamName) (fun s _ => s.terminal = none ∨ s.queue.frames.length + 2 ≤ 16)
      (unread 14) .opened := by decide +kernel
  refine hroom.mono fun s a _ h => ?_
  cases a with
  | push =>
    intro content sessionAppended messageId hterminal frame hframe
    rcases h with hnone | hroom
    · rw [hnone] at hterminal
      cases hterminal
    · have hnothing : s.queue.frames.length + 2 - Limits.esp.chatStreamQueueCapacity = 0 := Nat.sub_eq_zero_of_le hroom
      rw [hnothing] at hframe
      cases hframe
  | _ => trivial

end Beetle.ChatStream
