import Beetle.Bus

/-! Outbound messages on their way to the sinks, and the buffer of those that have to wait. -/
namespace Beetle.Channels
open Beetle.Lib

/-- What a program is compiled for. -/
inductive Build where
  | esp
  | host

def sendRetry : Build → Nat
  | .esp => 2
  | .host => 3

def cooldownBufferMax : Build → Nat
  | .esp => 16
  | .host => 64

def maxContentLen : Build → Nat
  | .esp => 64 * 1024
  | .host => 256 * 1024

inductive OutboundKind where
  | primary
  | supplemental
  deriving DecidableEq

/-- What a message that goes out carries besides its texts. -/
structure OutboundDetails where
  channel : String
  chatId : String
  reqId : Option String
  outboundKind : OutboundKind
  deriving DecidableEq

abbrev OutboundMsg := Bus.PcMsg OutboundDetails

namespace OutboundMsg

def channel (msg : OutboundMsg) : String := msg.details.channel
def chatId (msg : OutboundMsg) : String := msg.details.chatId
def reqId (msg : OutboundMsg) : Option String := msg.details.reqId
def isSupplemental (msg : OutboundMsg) : Bool := msg.details.outboundKind = .supplemental

/-- A buffered primary that a later one with the same request stands in for. -/
def coalesces (msg buffered : OutboundMsg) : Bool :=
  !msg.isSupplemental && msg.reqId.any (fun reqId => trimStr reqId ≠ "") &&
    (!buffered.isSupplemental && buffered.reqId = msg.reqId && buffered.channel = msg.channel &&
      buffered.chatId = msg.chatId)

end OutboundMsg

inductive BufferPushResult (M : Type*) where
  | buffered
  | dropped
  | full (msg : M)

/-! The messages of a buffer are looked at through `view`, so that they may carry more than
the dispatcher reads of them. -/

section
variable {M σ : Type*} (view : M → OutboundMsg) (max : Nat)

def tryPushBufferedMsg (buffer : List M) (msg : M) : BufferPushResult M × List M :=
  if buffer.any fun buffered => (view msg).coalesces (view buffered) then
    (.buffered, modifyFirst (fun buffered => (view msg).coalesces (view buffered)) (fun _ => msg) buffer)
  else if buffer.length < max then (.buffered, buffer ++ [msg])
  else if (view msg).isSupplemental then (.dropped, buffer)
  else
    match buffer.findIdx? fun buffered => (view buffered).isSupplemental with
    | some pos => (.buffered, buffer.eraseIdx pos ++ [msg])
    | none => (.full msg, buffer)

/-- The answers come from outside, whose state they may change. -/
@[grind =] def replayCooldownBufferWith (isInCooldown : String → σ → Bool × σ) (send : M → σ → Bool × σ) :
    List M → σ → List M × σ
  | [], s => ([], s)
  | buffered :: rest, s =>
    match isInCooldown (view buffered).channel s with
    | (true, s) =>
      let (rest, s) := replayCooldownBufferWith isInCooldown send rest s
      (buffered :: rest, s)
    | (false, s) =>
      match send buffered s with
      | (true, s) => replayCooldownBufferWith isInCooldown send rest s
      | (false, s) => (buffered :: rest, s)

def replayReadyMessagesForTick (isInCooldown : String → σ → Bool × σ) (send : M → σ → Bool × σ)
    (buffer : List M) (s : σ) : List M × σ :=
  replayCooldownBufferWith view isInCooldown send buffer s

/-- The result is that of the last push; a message that is `full` then is lost. -/
def bufferDeferredMsgWithReplay (replayReady : List M → σ → List M × σ) (buffer : List M) (msg : M) (s : σ) :
    BufferPushResult M × List M × σ :=
  match tryPushBufferedMsg view max buffer msg with
  | (.full pending, buffer) =>
    let (buffer, s) := replayReady buffer s
    let (result, buffer) := tryPushBufferedMsg view max buffer pending
    (result, buffer, s)
  | (result, buffer) => (result, buffer, s)

def bufferDeferredMsgWithoutReplay (buffer : List M) (msg : M) : BufferPushResult M × List M :=
  tryPushBufferedMsg view max buffer msg

end

/-! What a pass does with its first message. -/

section
variable {M σ : Type*} {view : M → OutboundMsg} {isInCooldown : String → σ → Bool × σ} {send : M → σ → Bool × σ}
  {buffered : M} {s t u : σ} (rest : List M)

theorem replay_cooldown (h : isInCooldown (view buffered).channel s = (true, t)) :
    replayCooldownBufferWith view isInCooldown send (buffered :: rest) s =
      (buffered :: (replayCooldownBufferWith view isInCooldown send rest t).1,
        (replayCooldownBufferWith view isInCooldown send rest t).2) := by
  rw [replayCooldownBufferWith, h]

theorem replay_sent (h : isInCooldown (view buffered).channel s = (false, t)) (hsend : send buffered t = (true, u)) :
    replayCooldownBufferWith view isInCooldown send (buffered :: rest) s =
      replayCooldownBufferWith view isInCooldown send rest u := by
  rw [replayCooldownBufferWith, h]
  dsimp only
  rw [hsend]

theorem replay_refused (h : isInCooldown (view buffered).channel s = (false, t))
    (hsend : send buffered t = (false, u)) :
    replayCooldownBufferWith view isInCooldown send (buffered :: rest) s = (buffered :: rest, u) := by
  rw [replayCooldownBufferWith, h]
  dsimp only
  rw [hsend]

end

/-! What a push does. -/

section
variable {M : Type*} {view : M → OutboundMsg} {max : Nat}

/-- The message takes the place of one that it coalesces with, is put at the end (where room is made
by a supplemental message if need be), or is not taken. -/
theorem tryPush_cases (buffer : List M) (msg : M) :
    (∃ front old back, buffer = front ++ old :: back ∧ (view msg).coalesces (view old) = true ∧
      buffer.find? (fun buffered => (view msg).coalesces (view buffered)) = some old ∧
      tryPushBufferedMsg view max buffer msg = (.buffered, front ++ msg :: back)) ∨
    ((∀ b ∈ buffer, (view msg).coalesces (view b) = false) ∧
      ((buffer.length < max ∧ tryPushBufferedMsg view max buffer msg = (.buffered, buffer ++ [msg])) ∨
      (max ≤ buffer.length ∧ (view msg).isSupplemental = true ∧
        tryPushBufferedMsg view max buffer msg = (.dropped, buffer)) ∨
      (max ≤ buffer.length ∧ (view msg).isSupplemental = false ∧
        ∃ front old back, buffer = front ++ old :: back ∧ (view old).isSupplemental = true ∧
          tryPushBufferedMsg view max buffer msg = (.buffered, front ++ back ++ [msg])) ∨
      (max ≤ buffer.length ∧ (view msg).isSupplemental = false ∧ (∀ b ∈ buffer, (view b).isSupplemental = false) ∧
        tryPushBufferedMsg view max buffer msg = (.full msg, buffer)))) := by
  by_cases hany : buffer.any (fun buffered => (view msg).coalesces (view buffered)) = true
  · obtain ⟨old, hfind⟩ : ∃ old, buffer.find? (fun buffered => (view msg).coalesces (view buffered)) = some old := by
      rw [← Option.isSome_iff_exists, List.find?_isSome]
      simpa using hany
    obtain ⟨hold, front, back, hbuffer, hfront⟩ := List.find?_eq_some_iff_append.mp hfind
    refine .inl ⟨front, old, back, hbuffer, hold, hfind, ?_⟩
    have hfront' : ∀ b ∈ front, (view msg).coalesces (view b) = false := fun b hb => by simpa using hfront b hb
    rw [tryPushBufferedMsg, if_pos hany, hbuffer, modifyFirst_append_cons back hfront' hold]
  · refine .inr ⟨fun b hb => ?_, ?_⟩
    · rw [Bool.eq_false_iff]
      exact fun hb' => hany (List.any_eq_true.mpr ⟨b, hb, hb'⟩)
    · by_cases hlen : buffer.length < max
      · exact .inl ⟨hlen, by rw [tryPushBufferedMsg, if_neg hany, if_pos hlen]⟩
      · refine .inr ?_
        by_cases hkind : (view msg).isSupplemental = true
        · exact .inl ⟨Nat.le_of_not_lt hlen, hkind,
            by rw [tryPushBufferedMsg, if_neg hany, if_neg hlen, if_pos hkind]⟩
        · refine .inr ?_
          rw [tryPushBufferedMsg, if_neg hany, if_neg hlen, if_neg hkind]
          rw [Bool.not_eq_true] at hkind
          cases hpos : buffer.findIdx? fun buffered => (view buffered).isSupplemental with
          | some pos =>
            obtain ⟨hlt, hold, -⟩ := List.findIdx?_eq_some_iff_getElem.mp hpos
            refine .inl ⟨Nat.le_of_not_lt hlen, hkind, buffer.take pos, buffer[pos], buffer.drop (pos + 1), ?_, hold, ?_⟩
            · rw [List.getElem_cons_drop, List.take_append_drop]
            · dsimp only
              rw [List.eraseIdx_eq_take_drop_succ]
          | none =>
            exact .inr ⟨Nat.le_of_not_lt hlen, hkind, fun b hb => by simpa using List.findIdx?_eq_none_iff.mp hpos b hb, rfl⟩

theorem full_cases {buffer : List M} {msg : M} (h : tryPushBufferedMsg view max buffer msg = (.full msg, buffer)) :
    max ≤ buffer.length ∧ (∀ b ∈ buffer, (view b).isSupplemental = false) ∧
      ∀ b ∈ buffer, (view msg).coalesces (view b) = false := by
  rcases @tryPush_cases _ view max buffer msg with ⟨front, old, back, -, -, -, hpush⟩ | ⟨hnone, hcases⟩
  · rw [h] at hpush
    cases hpush
  · rcases hcases with ⟨-, hpush⟩ | ⟨-, -, hpush⟩ | ⟨-, -, front, old, back, -, -, hpush⟩ | ⟨hfull, -, hprimary, -⟩
    · rw [h] at hpush
      cases hpush
    · rw [h] at hpush
      cases hpush
    · rw [h] at hpush
      cases hpush
    · exact ⟨hfull, hprimary, hnone⟩

/-- A message that is not taken at once is pushed again after a pass. -/
theorem withReplay_cases {σ : Type*} (replayReady : List M → σ → List M × σ) (buffer : List M) (msg : M) (s : σ) :
    (tryPushBufferedMsg view max buffer msg = (.full msg, buffer) ∧
      (bufferDeferredMsgWithReplay view max replayReady buffer msg s).2 =
        ((tryPushBufferedMsg view max (replayReady buffer s).1 msg).2, (replayReady buffer s).2)) ∨
    (bufferDeferredMsgWithReplay view max replayReady buffer msg s).2 =
      ((tryPushBufferedMsg view max buffer msg).2, s) := by
  unfold bufferDeferredMsgWithReplay
  rcases @tryPush_cases _ view max buffer msg with ⟨front, old, back, -, -, -, hpush⟩ | ⟨-, hcases⟩
  · rw [hpush]
    exact .inr rfl
  · rcases hcases with ⟨-, hpush⟩ | ⟨-, -, hpush⟩ | ⟨-, -, front, old, back, -, -, hpush⟩ | ⟨-, -, -, hpush⟩
    · rw [hpush]
      exact .inr rfl
    · rw [hpush]
      exact .inr rfl
    · rw [hpush]
      exact .inr rfl
    · rw [hpush]
      exact .inl ⟨rfl, rfl⟩

end

inductive AdmissionDecision where
  | accept
  | defer (delayMs : Nat)
  | reject (reason : String)

inductive DispatchOutcome where
  | sent
  | deferred
  | failed
  deriving DecidableEq

def DispatchOutcome.isSent (outcome : DispatchOutcome) : Bool := outcome = .sent

def isLocalSenderQueueBackpressure (error : Error) : Bool :=
  error.stage ∈ ["telegram_send_queue", "feishu_send_queue", "dingtalk_send_queue", "wecom_send_queue",
    "qq_channel_send_queue"]

def shouldDeferPrimarySendErrorImmediately (error : Error) : Bool :=
  error.isTlsAdmission || error.isConnectError || isLocalSenderQueueBackpressure error

def shouldDeferPrimarySendError (error : Error) : Bool :=
  shouldDeferPrimarySendErrorImmediately error || error.isRetryableUpstream

/-- The sinks and the orchestrator. Every question may change the state, as time passes too. -/
structure Outside (σ : Type*) where
  hasSink : String → Bool
  sendMessage : OutboundMsg → σ → Except Error Unit × σ
  shouldAcceptOutbound : String → σ → AdmissionDecision × σ
  isChannelHealthy : String → σ → Bool × σ
  recordChannelResult : String → Bool → σ → σ

namespace Outside
variable {σ : Type*} (o : Outside σ) (build : Build)

def isChannelInCooldown (channel : String) (s : σ) : Bool × σ :=
  let (healthy, s) := o.isChannelHealthy channel s
  (!healthy, s)

def outboundRejectReason (msg : OutboundMsg) (s : σ) : Option String × σ :=
  match o.shouldAcceptOutbound msg.channel s with
  | (.reject reason, s) => (some reason, s)
  | (_, s) => (none, s)

/-- The tries that are left, and the error of the last one. -/
def sendAttempts (msg : OutboundMsg) : Nat → Option Error → σ → Except (Option Error) Unit × σ
  | 0, lastErr, s => (.error lastErr, s)
  | retries + 1, _, s =>
    match o.sendMessage msg s with
    | (.ok (), s) => (.ok (), s)
    | (.error e, s) =>
      if shouldDeferPrimarySendErrorImmediately e then (.error (some e), s)
      else sendAttempts msg retries (some e) s

/-- What is done with a primary message that has been admitted. -/
def sendPrimary (msg : OutboundMsg) (s : σ) : DispatchOutcome × σ :=
  match o.sendAttempts msg (sendRetry build) none s with
  | (.ok (), s) => (.sent, o.recordChannelResult msg.channel true s)
  | (.error (some e), s) =>
    if shouldDeferPrimarySendError e then (.deferred, s)
    else (.failed, o.recordChannelResult msg.channel false s)
  | (.error none, s) => (.failed, s)

def dispatchViaSink (msg : OutboundMsg) (s : σ) : DispatchOutcome × σ :=
  if !o.hasSink msg.channel then (.failed, s)
  else if msg.isSupplemental then
    match o.sendMessage msg s with
    | (.ok (), s) => (.sent, s)
    | (.error _, s) => (.failed, s)
  else
    match o.shouldAcceptOutbound msg.channel s with
    | (.reject _, s) => (.deferred, s)
    | (_, s) => o.sendPrimary build msg s

inductive Handling where
  | dropped
  | sent
  | deferred
  deriving DecidableEq

def Handling.isSent (handling : Handling) : Bool := handling = .sent

/-- `dispatch_or_buffer_via_sink` up to where a message that has to wait is buffered. -/
def handle (msg : OutboundMsg) (s : σ) : Handling × σ :=
  match o.outboundRejectReason msg s with
  | (some _, s) => (if msg.isSupplemental then .dropped else .deferred, s)
  | (none, s) =>
    match o.isChannelInCooldown msg.channel s with
    | (true, s) => (if msg.isSupplemental then .dropped else .deferred, s)
    | (false, s) =>
      match o.dispatchViaSink build msg s with
      | (.deferred, s) => (.deferred, s)
      | (.sent, s) => (.sent, s)
      | (.failed, s) => (.dropped, s)

def resend (buffered : OutboundMsg) (s : σ) : Bool × σ :=
  let (outcome, s) := o.dispatchViaSink build buffered s
  (outcome.isSent, s)

def replayDeferred (buffer : List OutboundMsg) (s : σ) : List OutboundMsg × σ :=
  replayCooldownBufferWith id o.isChannelInCooldown (o.resend build) buffer s

def dispatchOrBufferViaSink (buffer : List OutboundMsg) (msg : OutboundMsg) (s : σ) : List OutboundMsg × σ :=
  match o.handle build msg s with
  | (.deferred, s) =>
    (bufferDeferredMsgWithReplay id (cooldownBufferMax build) (o.replayDeferred build) buffer msg s).2
  | (_, s) => (buffer, s)

/-- The replay of a tick asks for admission first. -/
def resendAdmitted (buffered : OutboundMsg) (s : σ) : Bool × σ :=
  match o.outboundRejectReason buffered s with
  | (some _, s) => (false, s)
  | (none, s) => o.resend build buffered s

/-- The start of each round of `run_dispatch`. -/
def tick (buffer : List OutboundMsg) (s : σ) : List OutboundMsg × σ :=
  replayReadyMessagesForTick id o.isChannelInCooldown (o.resendAdmitted build) buffer s

/-- The rest of a round in which a message has come. -/
def receive (buffer : List OutboundMsg) (msg : OutboundMsg) (s : σ) : List OutboundMsg × σ :=
  if trimStr (truncateContentToMax msg.content (maxContentLen build)) = "SILENT" ∨ msg.channel = "cron" then
    (buffer, s)
  else o.dispatchOrBufferViaSink build buffer msg s

end Outside
end Beetle.Channels
