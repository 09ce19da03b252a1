import Beetle.Channels.Dispatch
import Beetle.Lib.Run

/-! In which order the messages of a chat are sent. -/
namespace Beetle.Channels
open Beetle.Lib

/-! The dispatcher with a record of what is sent. -/

namespace Outside
variable {σ : Type*} (o : Outside σ) (build : Build)

@[grind =] def logged : Outside (σ × List OutboundMsg) where
  hasSink := o.hasSink
  sendMessage msg s :=
    match o.sendMessage msg s.1 with
    | (.ok (), t) => (.ok (), t, s.2 ++ [msg])
    | (.error e, t) => (.error e, t, s.2)
  shouldAcceptOutbound channel s := ((o.shouldAcceptOutbound channel s.1).1, (o.shouldAcceptOutbound channel s.1).2, s.2)
  isChannelHealthy channel s := ((o.isChannelHealthy channel s.1).1, (o.isChannelHealthy channel s.1).2, s.2)
  recordChannelResult channel ok s := (o.recordChannelResult channel ok s.1, s.2)

variable {o build} {msg : OutboundMsg} {s t : σ} {log : List OutboundMsg}

theorem sendMessage_logged_ok (h : o.sendMessage msg s = (.ok (), t)) :
    o.logged.sendMessage msg (s, log) = (.ok (), t, log ++ [msg]) := by
  simp only [logged, h]

theorem sendMessage_logged_error {e : Error} (h : o.sendMessage msg s = (.error e, t)) :
    o.logged.sendMessage msg (s, log) = (.error e, t, log) := by
  simp only [logged, h]

theorem isChannelInCooldown_logged (channel : String) :
    o.logged.isChannelInCooldown channel (s, log) =
      ((o.isChannelInCooldown channel s).1, (o.isChannelInCooldown channel s).2, log) := rfl

theorem outboundRejectReason_logged : o.logged.outboundRejectReason msg (s, log) =
    ((o.outboundRejectReason msg s).1, (o.outboundRejectReason msg s).2, log) := by
  unfold outboundRejectReason
  rcases h : o.shouldAcceptOutbound msg.channel s with ⟨decision, t⟩
  have hlogged : o.logged.shouldAcceptOutbound msg.channel (s, log) = (decision, t, log) := by
    simp only [logged, h]
  rw [hlogged]
  cases decision with
  | accept => rfl
  | defer => rfl
  | reject => rfl

theorem sendAttempts_logged (retries : Nat) (lastErr : Option Error) :
    o.logged.sendAttempts msg retries lastErr (s, log) =
      ((o.sendAttempts msg retries lastErr s).1, (o.sendAttempts msg retries lastErr s).2,
        if (o.sendAttempts msg retries lastErr s).1.isOk then log ++ [msg] else log) := by
  induction retries generalizing s lastErr with
  | zero => rfl
  | succ retries ih =>
    rw [sendAttempts, sendAttempts]
    rcases h : o.sendMessage msg s with ⟨_ | _, t⟩
    · rename_i e
      rw [sendMessage_logged_error h]
      dsimp only
      split
      · rfl
      · exact ih (some e)
    · rw [sendMessage_logged_ok h]
      rfl

theorem sendPrimary_logged : o.logged.sendPrimary build msg (s, log) =
    ((o.sendPrimary build msg s).1, (o.sendPrimary build msg s).2,
      if (o.sendPrimary build msg s).1.isSent then log ++ [msg] else log) := by
  unfold sendPrimary
  rw [sendAttempts_logged]
  rcases o.sendAttempts msg (sendRetry build) none s with ⟨(_ | e) | _, t⟩
  · rfl
  · dsimp only
    split
    · rfl
    · rfl
  · rfl

theorem dispatchViaSink_logged : o.logged.dispatchViaSink build msg (s, log) =
    ((o.dispatchViaSink build msg s).1, (o.dispatchViaSink build msg s).2,
      if (o.dispatchViaSink build msg s).1.isSent then log ++ [msg] else log) := by
  unfold dispatchViaSink
  rw [show o.logged.hasSink = o.hasSink from rfl]
  split
  · rfl
  · split
    · rcases h : o.sendMessage msg s with ⟨_ | _, t⟩
      · rw [sendMessage_logged_error h]
        rfl
      · rw [sendMessage_logged_ok h]
        rfl
    · rcases h : o.shouldAcceptOutbound msg.channel s with ⟨decision, t⟩
      have hlogged : o.logged.shouldAcceptOutbound msg.channel (s, log) = (decision, t, log) := by
        simp only [logged, h]
      rw [hlogged]
      cases decision with
      | accept => exact sendPrimary_logged
      | defer => exact sendPrimary_logged
      | reject => rfl

theorem resend_logged : o.logged.resend build msg (s, log) =
    ((o.resend build msg s).1, (o.resend build msg s).2, if (o.resend build msg s).1 then log ++ [msg] else log) := by
  unfold resend
  rw [dispatchViaSink_logged]

theorem resendAdmitted_logged : o.logged.resendAdmitted build msg (s, log) =
    ((o.resendAdmitted build msg s).1, (o.resendAdmitted build msg s).2,
      if (o.resendAdmitted build msg s).1 then log ++ [msg] else log) := by
  unfold resendAdmitted
  rw [outboundRejectReason_logged]
  rcases o.outboundRejectReason msg s with ⟨_ | _, t⟩
  · exact resend_logged
  · rfl

theorem handle_logged : o.logged.handle build msg (s, log) =
    ((o.handle build msg s).1, (o.handle build msg s).2,
      if (o.handle build msg s).1.isSent then log ++ [msg] else log) := by
  unfold handle
  rw [outboundRejectReason_logged]
  rcases o.outboundRejectReason msg s with ⟨_ | _, t⟩
  · obtain ⟨inCooldown, u, hcool⟩ : ∃ inCooldown u, o.isChannelInCooldown msg.channel t = (inCooldown, u) := ⟨_, _, rfl⟩
    obtain ⟨outcome, v, hdispatch⟩ : ∃ outcome v, o.dispatchViaSink build msg u = (outcome, v) := ⟨_, _, rfl⟩
    simp only [isChannelInCooldown_logged, hcool]
    cases inCooldown with
    | true =>
      dsimp only
      split
      · rfl
      · rfl
    | false =>
      simp only [dispatchViaSink_logged, hdispatch]
      cases outcome with
      | sent => rfl
      | deferred => rfl
      | failed => rfl
  · dsimp only
    split
    · rfl
    · rfl

end Outside

/-- The dispatcher, what it has received and what it has sent. -/
structure Dispatcher (σ : Type*) where
  buffer : List OutboundMsg
  received : List OutboundMsg
  sent : List OutboundMsg
  outside : σ

/-- The two halves of a round of `run_dispatch`. -/
inductive Half where
  | tick
  | receive (msg : OutboundMsg)

def Half.msg : Half → Option OutboundMsg
  | .tick => none
  | .receive msg => some msg

/-- The rounds for what comes, where nothing comes when the wait runs out; the last one ends in the disconnect. -/
def rounds : List (Option OutboundMsg) → List Half
  | [] => [.tick]
  | none :: events => .tick :: rounds events
  | some msg :: events => .tick :: .receive msg :: rounds events

@[grind =]
def toChat (channel chatId : String) (msg : OutboundMsg) : Bool := msg.channel = channel && msg.chatId = chatId

namespace Dispatcher
variable {σ : Type*} (o : Outside σ) (build : Build)

def start (s : σ) : Dispatcher σ := ⟨[], [], [], s⟩

/-- The dispatcher after what has been made of the buffer, the world outside and the record. -/
def became (received : List OutboundMsg) (made : List OutboundMsg × σ × List OutboundMsg) : Dispatcher σ :=
  ⟨made.1, received, made.2.2, made.2.1⟩

@[grind =] def step (s : Dispatcher σ) : Half → Option (Dispatcher σ)
  | .tick => some (became s.received (o.logged.tick build s.buffer (s.outside, s.sent)))
  | .receive msg => some (became (s.received ++ [msg]) (o.logged.receive build s.buffer msg (s.outside, s.sent)))

/-- What has been sent to a chat has come for it in this order. -/
def InOrder (s : Dispatcher σ) : Prop :=
  ∀ channel chatId, (s.sent.filter (toChat channel chatId)).Sublist s.received

/-- A pass sends no message past one of its chat that was passed over because the channel was in cooldown then. -/
def NoneOvertaken (isInCooldown : String → σ → Bool × σ) (send : OutboundMsg → σ → Bool × σ) :
    List OutboundMsg → List OutboundMsg → σ → Prop
  | _, [], _ => True
  | waiting, b :: rest, s =>
    match isInCooldown b.channel s with
    | (true, s) => NoneOvertaken isInCooldown send (waiting ++ [b]) rest s
    | (false, s) =>
      match send b s with
      | (true, s) => (∀ m ∈ waiting, toChat b.channel b.chatId m = false) ∧ NoneOvertaken isInCooldown send waiting rest s
      | (false, _) => True

/-- No message is sent while an older one of its chat waits. -/
def InTurn (s : Dispatcher σ) : Half → Prop
  | .tick => NoneOvertaken o.isChannelInCooldown (o.resendAdmitted build) [] s.buffer s.outside
  | .receive msg =>
    match o.handle build msg s.outside with
    | (.dropped, _) => True
    | (.sent, _) => ∀ b ∈ s.buffer, toChat msg.channel msg.chatId b = false
    | (.deferred, t) => cooldownBufferMax build ≤ s.buffer.length →
        NoneOvertaken o.isChannelInCooldown (o.resend build) [] s.buffer t

instance decidableNoneOvertaken (isInCooldown : String → σ → Bool × σ) (send : OutboundMsg → σ → Bool × σ) :
    ∀ (waiting buffer : List OutboundMsg) (s : σ), Decidable (NoneOvertaken isInCooldown send waiting buffer s)
  | _, [], _ => .isTrue trivial
  | waiting, b :: rest, s =>
    match h : isInCooldown b.channel s with
    | (true, t) =>
      have := decidableNoneOvertaken isInCooldown send (waiting ++ [b]) rest t
      decidable_of_iff (NoneOvertaken isInCooldown send (waiting ++ [b]) rest t) (by rw [NoneOvertaken, h])
    | (false, t) =>
      match hsend : send b t with
      | (true, u) =>
        have := decidableNoneOvertaken isInCooldown send waiting rest u
        decidable_of_iff ((∀ m ∈ waiting, toChat b.channel b.chatId m = false) ∧
          NoneOvertaken isInCooldown send waiting rest u) (by simp only [NoneOvertaken, h, hsend])
      | (false, u) => .isTrue (by simp only [NoneOvertaken, h, hsend])

instance decidableInTurn (s : Dispatcher σ) : ∀ half, Decidable (InTurn o build s half)
  | .tick => inferInstanceAs (Decidable (NoneOvertaken _ _ _ _ _))
  | .receive msg =>
    match h : o.handle build msg s.outside with
    | (.dropped, _) => .isTrue (by simp only [InTurn, h])
    | (.sent, _) =>
      decidable_of_iff (∀ b ∈ s.buffer, toChat msg.channel msg.chatId b = false) (by simp only [InTurn, h])
    | (.deferred, t) =>
      decidable_of_iff (cooldownBufferMax build ≤ s.buffer.length →
        NoneOvertaken o.isChannelInCooldown (o.resend build) [] s.buffer t) (by simp only [InTurn, h])

/-- Chat by chat, what is sent and what waits is in the order of arrival. -/
structure Orderly (s : Dispatcher σ) : Prop where
  primary : ∀ b ∈ s.buffer, b.isSupplemental = false
  ordered : ∀ channel chatId, (s.sent.filter (toChat channel chatId) ++ s.buffer.filter (toChat channel chatId)).Sublist
    (s.received.filter (toChat channel chatId))

variable {o build} {s : Dispatcher σ} {msg : OutboundMsg}
  {isInCooldown' : String → σ × List OutboundMsg → Bool × σ × List OutboundMsg}
  {send' : OutboundMsg → σ × List OutboundMsg → Bool × σ × List OutboundMsg} {isInCooldown : String → σ → Bool × σ}
  {send : OutboundMsg → σ → Bool × σ} {buffer : List OutboundMsg}

theorem Orderly.inOrder (h : s.Orderly) : s.InOrder := fun channel chatId =>
  ((List.sublist_append_left _ _).trans (h.ordered channel chatId)).trans List.filter_sublist

theorem Orderly.mem_received (h : s.Orderly) {b : OutboundMsg} (hb : b ∈ s.buffer) : b ∈ s.received := by
  have hmem : b ∈ s.sent.filter (toChat b.channel b.chatId) ++ s.buffer.filter (toChat b.channel b.chatId) :=
    List.mem_append_right _ (List.mem_filter.mpr ⟨hb, by simp [toChat]⟩)
  exact (List.mem_filter.mp ((h.ordered b.channel b.chatId).subset hmem)).1

/-! Passes. -/

/-- A pass that sends nothing out of turn splits each chat's messages into those it sends and those it leaves. -/
theorem replay_ordered (hcool : ∀ channel s log, isInCooldown' channel (s, log) =
      ((isInCooldown channel s).1, (isInCooldown channel s).2, log))
    (hsend : ∀ b s log, send' b (s, log) = ((send b s).1, (send b s).2, if (send b s).1 then log ++ [b] else log))
    (channel chatId : String) (waiting buffer : List OutboundMsg) (s : σ) (log : List OutboundMsg)
    (h : NoneOvertaken isInCooldown send waiting buffer s) : ∃ newly,
    (replayCooldownBufferWith id isInCooldown' send' buffer (s, log)).2.2 = log ++ newly ∧
      newly.filter (toChat channel chatId) ++
        (replayCooldownBufferWith id isInCooldown' send' buffer (s, log)).1.filter (toChat channel chatId) =
        buffer.filter (toChat channel chatId) ∧
      (waiting.any (toChat channel chatId) = true → newly.filter (toChat channel chatId) = []) := by
  induction buffer generalizing waiting s log with
  | nil => exact ⟨[], by simp [replayCooldownBufferWith], rfl, fun _ => rfl⟩
  | cons b buffer ih =>
    have hask := hcool b.channel s log
    rw [NoneOvertaken] at h
    rcases hc : isInCooldown b.channel s with ⟨_ | _, t⟩
    · rw [hc] at hask h
      dsimp only at hask h
      have htry := hsend b t log
      rcases hs : send b t with ⟨_ | _, u⟩
      · rw [hs] at htry
        rw [@replay_refused _ _ id _ _ b _ _ _ buffer hask htry]
        exact ⟨[], (List.append_nil log).symm, rfl, fun _ => rfl⟩
      · rw [hs] at htry h
        dsimp only at htry h
        rw [if_pos rfl] at htry
        rw [@replay_sent _ _ id _ _ b _ _ _ buffer hask htry]
        obtain ⟨newly, hlog, hparts, hwaiting⟩ := ih waiting u (log ++ [b]) h.2
        refine ⟨b :: newly, by rw [hlog, List.append_assoc]; rfl, ?_, fun hany => ?_⟩
        · rw [List.filter_cons, List.filter_cons]
          split
          · rw [List.cons_append, hparts]
          · exact hparts
        · obtain ⟨m, hm, hmchat⟩ := List.any_eq_true.mp hany
          have hb : ¬ toChat channel chatId b = true := by
            intro hb
            have hovertaken := h.1 m hm
            simp only [toChat, Bool.and_eq_true, decide_eq_true_eq] at hmchat hb
            simp [toChat, hmchat, hb] at hovertaken
          rw [List.filter_cons_of_neg hb, hwaiting hany]
    · rw [hc] at hask h
      rw [@replay_cooldown _ _ id _ _ b _ _ buffer hask]
      obtain ⟨newly, hlog, hparts, hwaiting⟩ := ih (waiting ++ [b]) t log h
      refine ⟨newly, hlog, ?_, fun hany => hwaiting ?_⟩
      · rw [List.filter_cons, List.filter_cons]
        split
        · rename_i hb
          have hnone := hwaiting (by rw [List.any_append]; simp [hb])
          rw [hnone, List.nil_append] at hparts ⊢
          rw [hparts]
        · exact hparts
      · rw [List.any_append, hany, Bool.true_or]

/-! Steps. -/

theorem pass_orderly (hs : s.Orderly) (hcool : ∀ channel s log, isInCooldown' channel (s, log) =
      ((isInCooldown channel s).1, (isInCooldown channel s).2, log))
    (hsend : ∀ b s log, send' b (s, log) = ((send b s).1, (send b s).2, if (send b s).1 then log ++ [b] else log))
    (t : σ) (h : NoneOvertaken isInCooldown send [] s.buffer t) :
    (became s.received (replayCooldownBufferWith id isInCooldown' send' s.buffer (t, s.sent))).Orderly := by
  have hpass (channel chatId : String) := replay_ordered hcool hsend channel chatId [] s.buffer t s.sent h
  constructor
  · intro b hb
    obtain ⟨newly, -, hparts, -⟩ := hpass b.channel b.chatId
    have hmem : b ∈ s.buffer.filter (toChat b.channel b.chatId) := by
      rw [← hparts, List.mem_append]
      exact .inr (List.mem_filter.mpr ⟨hb, by simp [toChat]⟩)
    exact hs.primary b (List.mem_filter.mp hmem).1
  · intro channel chatId
    obtain ⟨newly, hlog, hparts, -⟩ := hpass channel chatId
    have hbefore := hs.ordered channel chatId
    rw [← hparts, ← List.append_assoc, ← List.filter_append, ← hlog] at hbefore
    exact hbefore

theorem tick_orderly {s t : Dispatcher σ} (hs : s.Orderly) (hturn : s.InTurn o build .tick)
    (h : step o build s .tick = some t) : t.Orderly := by
  obtain rfl := Option.some.inj h
  exact pass_orderly hs (fun c s log => Outside.isChannelInCooldown_logged c)
    (fun b s log => Outside.resendAdmitted_logged) s.outside hturn

/-- A primary that coalesces with nothing goes to the end of a buffer of primaries, or stays out. -/
theorem push_primary {max : Nat} (hprimary : ∀ b ∈ buffer, b.isSupplemental = false)
    (hmsg : msg.isSupplemental = false) (hnone : ∀ b ∈ buffer, msg.coalesces b = false) :
    (tryPushBufferedMsg id max buffer msg).2 = buffer ++ [msg] ∨ (tryPushBufferedMsg id max buffer msg).2 = buffer := by
  rcases @tryPush_cases _ id max buffer msg with ⟨front, old, back, hbuffer, hold, -⟩ | ⟨-, hcases⟩
  · rw [id, id, hnone old (by rw [hbuffer]; simp)] at hold
    cases hold
  · rcases hcases with ⟨-, hpush⟩ | ⟨-, hkind, -⟩ | ⟨-, -, front, old, back, hbuffer, hold, -⟩ | ⟨-, -, -, hpush⟩
    · exact .inl (by rw [hpush])
    · rw [id, hmsg] at hkind
      cases hkind
    · rw [id, hprimary old (by rw [hbuffer]; simp)] at hold
      cases hold
    · exact .inr (by rw [hpush])

theorem coalesces_eq_false {a b : OutboundMsg} (h : b.reqId ≠ a.reqId) : a.coalesces b = false := by
  simp [OutboundMsg.coalesces, h]

/-- A message comes after all that have been received. -/
theorem orderly_push (hs : s.Orderly) (hmsg : msg.isSupplemental = false)
    (outside : σ) (hbuffer : buffer = s.buffer ++ [msg] ∨ buffer = s.buffer) :
    (became (s.received ++ [msg]) (buffer, outside, s.sent)).Orderly := by
  constructor
  · intro b hb
    rcases hbuffer with rfl | rfl
    · rcases List.mem_append.mp hb with hb | hb
      · exact hs.primary b hb
      · rw [List.mem_singleton.mp hb]
        exact hmsg
    · exact hs.primary b hb
  · intro channel chatId
    have hbefore := hs.ordered channel chatId
    rcases hbuffer with rfl | rfl
    · simp only [became, List.filter_append]
      rw [← List.append_assoc]
      exact hbefore.append (List.Sublist.refl _)
    · simp only [became, List.filter_append]
      exact hbefore.trans (List.sublist_append_left _ _)

theorem orderly_sent (hs : s.Orderly) (hturn : ∀ b ∈ s.buffer, toChat msg.channel msg.chatId b = false) (outside : σ) :
    (became (s.received ++ [msg]) (s.buffer, outside, s.sent ++ [msg])).Orderly := by
  refine ⟨hs.primary, fun channel chatId => ?_⟩
  have hbefore := hs.ordered channel chatId
  simp only [became, List.filter_append]
  by_cases hchat : toChat channel chatId msg = true
  · have hbuffer : s.buffer.filter (toChat channel chatId) = [] := by
      rw [List.filter_eq_nil_iff]
      intro b hb hbchat
      have hnot := hturn b hb
      simp only [toChat, Bool.and_eq_true, decide_eq_true_eq] at hchat hbchat
      simp [toChat, hchat, hbchat] at hnot
    rw [hbuffer, List.append_nil] at hbefore ⊢
    exact hbefore.append (List.Sublist.refl _)
  · rw [List.filter_singleton]
    simp only [Bool.not_eq_true] at hchat
    rw [hchat, cond_false, List.append_nil, List.append_nil]
    exact hbefore

/-- What the receipt of a message comes to. -/
theorem receive_logged (buffer : List OutboundMsg) (msg : OutboundMsg) (s : σ) (log : List OutboundMsg) :
    (∃ t, o.logged.receive build buffer msg (s, log) = (buffer, t, log)) ∨
    (∃ t, o.handle build msg s = (.sent, t) ∧ o.logged.receive build buffer msg (s, log) = (buffer, t, log ++ [msg])) ∨
    ∃ t, o.handle build msg s = (.deferred, t) ∧ o.logged.receive build buffer msg (s, log) =
      (bufferDeferredMsgWithReplay id (cooldownBufferMax build) (o.logged.replayDeferred build) buffer msg (t, log)).2 := by
  unfold Outside.receive Outside.dispatchOrBufferViaSink
  split
  · exact .inl ⟨s, rfl⟩
  · have hlogged := @Outside.handle_logged _ o build msg s log
    obtain ⟨handling, t, hhandle⟩ : ∃ handling t, o.handle build msg s = (handling, t) := ⟨_, _, rfl⟩
    rw [hhandle] at hlogged
    rw [hlogged, hhandle]
    cases handling with
    | dropped => exact .inl ⟨t, rfl⟩
    | sent => exact .inr (.inl ⟨t, rfl, rfl⟩)
    | deferred => exact .inr (.inr ⟨t, rfl, rfl⟩)

theorem receive_orderly {s t : Dispatcher σ} (hs : s.Orderly) (hturn : s.InTurn o build (.receive msg))
    (hmsg : msg.isSupplemental = false) (hnew : ∀ m ∈ s.received, m.reqId ≠ msg.reqId)
    (h : step o build s (.receive msg) = some t) : t.Orderly := by
  have hnone : ∀ b ∈ s.buffer, msg.coalesces b = false :=
    fun b hb => coalesces_eq_false (hnew b (hs.mem_received hb))
  rw [step] at h
  obtain rfl := Option.some.inj h
  rw [InTurn] at hturn
  rcases @receive_logged _ o build s.buffer msg s.outside s.sent with hr | ⟨t, hhandle, hr⟩ | ⟨t, hhandle, hr⟩
  · obtain ⟨t, hr⟩ := hr
    rw [hr]
    exact orderly_push hs hmsg t (.inr rfl)
  · rw [hhandle] at hturn
    rw [hr]
    exact orderly_sent hs hturn t
  · rw [hhandle] at hturn
    rw [hr]
    rcases @withReplay_cases _ id (cooldownBufferMax build) _ (o.logged.replayDeferred build) s.buffer msg
      (t, s.sent) with ⟨hfull, hresult⟩ | hresult
    · have hpass : (became s.received (o.logged.replayDeferred build s.buffer (t, s.sent))).Orderly :=
        pass_orderly hs (fun c s log => Outside.isChannelInCooldown_logged c) (fun b s log => Outside.resend_logged) t
          (hturn (full_cases hfull).1)
      rw [hresult]
      exact orderly_push hpass hmsg _ (push_primary hpass.primary hmsg fun b hb =>
        coalesces_eq_false (hnew b (hpass.mem_received hb)))
    · rw [hresult]
      exact orderly_push hs hmsg t (push_primary hs.primary hmsg hnone)

/-! Runs. -/

theorem filterMap_receive (msg : OutboundMsg) (halves : List Half) :
    (Half.receive msg :: halves).filterMap Half.msg = msg :: halves.filterMap Half.msg := rfl

theorem always_inOrder (halves : List Half) (s : Dispatcher σ) (hs : s.Orderly)
    (hprimary : ∀ msg ∈ halves.filterMap Half.msg, msg.isSupplemental = false)
    (hdistinct : (s.received ++ halves.filterMap Half.msg).Pairwise fun a b => a.reqId ≠ b.reqId)
    (hmeets : Meets (step o build) (InTurn o build) halves s) : Always (step o build) InOrder halves s := by
  induction halves generalizing s with
  | nil => exact hs.inOrder
  | cons half halves ih =>
    refine ⟨hs.inOrder, fun t ht => ?_⟩
    obtain ⟨hturn, hrest⟩ := hmeets t ht
    cases half with
    | tick =>
      have hreceived : t.received = s.received := by
        rw [step] at ht
        rw [← Option.some.inj ht]
        rfl
      apply ih t (tick_orderly hs hturn ht) hprimary _ hrest
      rw [hreceived]
      exact hdistinct
    | receive msg =>
      rw [filterMap_receive] at hprimary hdistinct
      rw [List.forall_mem_cons] at hprimary
      have hreceived : t.received = s.received ++ [msg] := by
        rw [step] at ht
        rw [← Option.some.inj ht]
        rfl
      have hnew : ∀ m ∈ s.received, m.reqId ≠ msg.reqId := by
        intro m hm
        exact (List.pairwise_append.mp hdistinct).2.2 m hm msg List.mem_cons_self
      apply ih t (receive_orderly hs hturn hprimary.1 hnew ht) hprimary.2 _ hrest
      rw [hreceived, List.append_assoc]
      exact hdistinct

theorem orderly_start (s : σ) : (start s).Orderly :=
  ⟨List.forall_mem_nil _, fun _ _ => List.Sublist.refl _⟩

theorem filterMap_rounds (events : List (Option OutboundMsg)) : (rounds events).filterMap Half.msg = events.reduceOption := by
  induction events with
  | nil => rfl
  | cons event events ih =>
    cases event with
    | none => exact ih
    | some msg =>
      rw [rounds, List.filterMap_cons_none rfl, filterMap_receive, ih]
      rfl

/-- Where no message is sent while an older one of its chat waits, every chat gets its messages in the order in
which they came. -/
theorem run_dispatch_keeps_chat_order (o : Outside σ) (build : Build) (events : List (Option OutboundMsg)) (s : σ)
    (hprimary : ∀ msg ∈ events.reduceOption, msg.isSupplemental = false)
    (hdistinct : events.reduceOption.Pairwise fun a b => a.reqId ≠ b.reqId)
    (hmeets : Meets (step o build) (InTurn o build) (rounds events) (start s)) :
    Always (step o build) InOrder (rounds events) (start s) := by
  rw [← filterMap_rounds] at hprimary hdistinct
  exact always_inOrder (rounds events) (start s) (orderly_start s) hprimary hdistinct hmeets

/-- A world whose first answers to sends are the given ones; the later sends succeed. -/
def sendsAs : Outside (List (Except Error Unit)) where
  hasSink _ := true
  sendMessage _ s := (s.headD (.ok ()), s.tail)
  shouldAcceptOutbound _ s := (.accept, s)
  isChannelHealthy _ s := (true, s)
  recordChannelResult _ _ s := s

def chatReply (content reqId : String) : OutboundMsg := ⟨content, .text content, "telegram", "1", some reqId, .primary⟩

def queueFull : Except Error Unit := .error (.other none "telegram_send_queue")

theorem two_replies_in_order :
    (∀ msg ∈ [some (chatReply "a" "r1"), none, some (chatReply "b" "r2")].reduceOption, msg.isSupplemental = false) ∧
      [some (chatReply "a" "r1"), none, some (chatReply "b" "r2")].reduceOption.Pairwise (fun a b => a.reqId ≠ b.reqId) ∧
      Always (step sendsAs .esp) InOrder (rounds [some (chatReply "a" "r1"), none, some (chatReply "b" "r2")])
        (start [queueFull]) :=
  ⟨by decide, by decide, run_dispatch_keeps_chat_order sendsAs .esp
    [some (chatReply "a" "r1"), none, some (chatReply "b" "r2")] [queueFull] (by decide) (by decide)
    (by decide)⟩

/-- The first reply has to wait, the second one is sent, and then the first. -/
theorem later_reply_sent_first : ¬ Always (step sendsAs .esp) InOrder
    (rounds [some (chatReply "a" "r1"), some (chatReply "b" "r2")]) (start [queueFull, queueFull]) := by
  intro h
  have hrun : (exec (step sendsAs .esp) (rounds [some (chatReply "a" "r1"), some (chatReply "b" "r2")])
      (start [queueFull, queueFull])).map (fun s => (s.sent, s.received)) =
        some ([chatReply "b" "r2", chatReply "a" "r1"], [chatReply "a" "r1", chatReply "b" "r2"]) := by decide
  obtain ⟨t, ht, hlogs⟩ := Option.map_eq_some_iff.mp hrun
  obtain ⟨hsent, hreceived⟩ := Prod.mk.inj hlogs
  have horder := h.last ht "telegram" "1"
  rw [hsent, hreceived] at horder
  revert horder
  decide

end Dispatcher
end Beetle.Channels
