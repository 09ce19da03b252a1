import Beetle.Channels.Dispatch
import Beetle.Lib.Run

/-! The loop that sends the messages of one channel's queue. -/
namespace Beetle.Channels
open Beetle.Lib

structure QueuedOutboundMessage where
  transportSendId : Nat
  chatId : String
  content : String
  reqId : Option String
  outboundKind : OutboundKind

def QueuedOutboundMessage.isSupplemental (message : QueuedOutboundMessage) : Bool :=
  message.outboundKind = .supplemental

def channelSenderMaxRetries : Nat := 3

def maxRetriesForMessage (message : QueuedOutboundMessage) : Nat :=
  if message.isSupplemental then 1 else channelSenderMaxRetries

def isConfig : Error → Bool
  | .config _ _ => true
  | _ => false

/-! The sender's own reading of errors: unlike that of the dispatcher it does not look for full queues. -/

def SenderLoop.shouldDeferPrimarySendErrorImmediately (error : Error) : Bool :=
  error.isTlsAdmission || error.isConnectError

def SenderLoop.shouldDeferPrimarySendError (error : Error) : Bool :=
  SenderLoop.shouldDeferPrimarySendErrorImmediately error || error.isRetryableUpstream

/-- A message and its place in the queue. -/
abbrev Queued := QueuedOutboundMessage × Nat

/-- What the loop does with the message at a place of the queue. -/
inductive Event where
  | call (place attempt : Nat) (result : Except Error Unit)
  | dropped (place : Nat)

/-- The loop between two rounds. What the receiver still gives is a message, or nothing when the wait runs
out; at its end the queue is disconnected. -/
structure SenderLoop (σ : Type*) where
  pending : Option Queued
  receiver : List (Option QueuedOutboundMessage)
  received : Nat
  trace : List Event
  outside : σ

namespace SenderLoop
variable {σ : Type*} (sendOne : QueuedOutboundMessage → Nat → σ → Except Error Unit × σ)

def start (receiver : List (Option QueuedOutboundMessage)) (s : σ) : SenderLoop σ := ⟨none, receiver, 0, [], s⟩

/-- The tries of a round that are left: whether the message is sent, and else the last error. -/
def attempts (message : Queued) : Nat → Nat → Option Error → σ → List Event →
    Except (Option Error) Unit × σ × List Event
  | 0, _, lastErr, s, trace => (.error lastErr, s, trace)
  | retries + 1, retry, _, s, trace =>
    let (result, s) := sendOne message.1 (retry + 1) s
    let trace := trace ++ [.call message.2 (retry + 1) result]
    match result with
    | .ok () => (.ok (), s, trace)
    | .error e =>
      if shouldDeferPrimarySendErrorImmediately e || isConfig e then (.error (some e), s, trace)
      else attempts message retries (retry + 1) (some e) s trace

/-- One round with a message. -/
def process (loop : SenderLoop σ) (message : Queued) : SenderLoop σ :=
  match attempts sendOne message (maxRetriesForMessage message.1) 0 none loop.outside loop.trace with
  | (.ok (), s, trace) => { loop with pending := none, trace := trace, outside := s }
  | (.error lastErr, s, trace) =>
    if message.1.isSupplemental then
      { loop with pending := none, trace := trace ++ [.dropped message.2], outside := s }
    else if lastErr.any shouldDeferPrimarySendError then
      { loop with pending := some message, trace := trace, outside := s }
    else { loop with pending := none, trace := trace ++ [.dropped message.2], outside := s }

/-- A round of the loop; there is none after the disconnect. -/
def step (loop : SenderLoop σ) (_ : Unit) : Option (SenderLoop σ) :=
  match loop.pending with
  | some message => some (loop.process sendOne message)
  | none =>
    match loop.receiver with
    | [] => none
    | none :: receiver => some { loop with receiver := receiver }
    | some message :: receiver =>
      some ({ loop with receiver := receiver, received := loop.received + 1 }.process sendOne (message, loop.received))

end SenderLoop

def Event.place : Event → Nat
  | .call place _ _ => place
  | .dropped place => place

/-- Sent or dropped. -/
def Settled (trace : List Event) (place : Nat) : Prop :=
  (∃ attempt, .call place attempt (.ok ()) ∈ trace) ∨ .dropped place ∈ trace

/-- What may come after a trace: a call on the first message that is not settled, in the order of the queue, or
the drop of a message that is supplemental or was last refused for good. -/
def MayFollow (messages : List QueuedOutboundMessage) (trace : List Event) : Event → Prop
  | .call place _ _ => (∀ event ∈ trace, event.place ≤ place) ∧ (∀ attempt, .call place attempt (.ok ()) ∉ trace) ∧
      ∀ earlier < place, Settled trace earlier
  | .dropped place => ∀ message, messages[place]? = some message → message.isSupplemental = false →
      ∃ before attempt e, trace = before ++ [.call place attempt (.error e)] ∧
        SenderLoop.shouldDeferPrimarySendError e = false

/-- Every event may follow what is before it. -/
def Lawful (messages : List QueuedOutboundMessage) (trace : List Event) : Prop :=
  ∀ before event after, trace = before ++ event :: after → MayFollow messages before event

variable {messages : List QueuedOutboundMessage} {trace : List Event} {message : Queued}

theorem lawful_nil : Lawful messages [] := by
  intro before event after h
  simp at h

theorem Lawful.concat (h : Lawful messages trace) {event : Event} (hevent : MayFollow messages trace event) :
    Lawful messages (trace ++ [event]) := by
  intro before event' after heq
  rcases List.eq_nil_or_concat after with rfl | ⟨after', last, rfl⟩
  · obtain ⟨rfl, hlast⟩ := List.append_inj' heq rfl
    obtain rfl := List.singleton_inj.mp hlast
    exact hevent
  · rw [List.concat_eq_append, ← List.cons_append, ← List.append_assoc] at heq
    obtain ⟨rfl, -⟩ := List.append_inj' heq rfl
    exact h before event' after' rfl

theorem Settled.append {place : Nat} (h : Settled trace place) (more : List Event) : Settled (trace ++ more) place := by
  rcases h with ⟨attempt, h⟩ | h
  · exact .inl ⟨attempt, List.mem_append_left _ h⟩
  · exact .inr (List.mem_append_left _ h)

/-! A round. -/

/-- The message is next: all before it are settled and it is not. -/
structure Ready (messages : List QueuedOutboundMessage) (trace : List Event) (message : Queued) : Prop where
  lawful : Lawful messages trace
  places : ∀ event ∈ trace, event.place ≤ message.2
  unsent : ∀ attempt, .call message.2 attempt (.ok ()) ∉ trace
  settled : ∀ earlier < message.2, Settled trace earlier

theorem Ready.mayFollow (h : Ready messages trace message) (attempt : Nat) (result : Except Error Unit) :
    MayFollow messages trace (.call message.2 attempt result) := ⟨h.places, h.unsent, h.settled⟩

theorem Ready.refused (h : Ready messages trace message) (attempt : Nat) (e : Error) :
    Ready messages (trace ++ [.call message.2 attempt (.error e)]) message := by
  refine ⟨h.lawful.concat (h.mayFollow attempt _), ?_, ?_, fun earlier hearlier => (h.settled earlier hearlier).append _⟩
  · intro event hevent
    rcases List.mem_append.mp hevent with hevent | hevent
    · exact h.places event hevent
    · rw [List.mem_singleton.mp hevent]
      exact Nat.le_refl _
  · intro attempt' hcall
    rcases List.mem_append.mp hcall with hcall | hcall
    · exact h.unsent attempt' hcall
    · cases List.mem_singleton.mp hcall

/-- After a round all messages up to its own are settled, or its own is next again. -/
structure Sent (messages : List QueuedOutboundMessage) (trace : List Event) (place : Nat) : Prop where
  lawful : Lawful messages trace
  places : ∀ event ∈ trace, event.place ≤ place
  settled : ∀ earlier ≤ place, Settled trace earlier

theorem Ready.done (h : Ready messages trace message) {event : Event} (hplace : event.place = message.2)
    (hevent : MayFollow messages trace event) (hsettled : Settled (trace ++ [event]) message.2) :
    Sent messages (trace ++ [event]) message.2 := by
  refine ⟨h.lawful.concat hevent, ?_, ?_⟩
  · intro event' hevent'
    rcases List.mem_append.mp hevent' with hevent' | hevent'
    · exact h.places event' hevent'
    · rw [List.mem_singleton.mp hevent', hplace]
  · intro earlier hearlier
    rcases Nat.eq_or_lt_of_le hearlier with rfl | hlt
    · exact hsettled
    · exact (h.settled earlier hlt).append _

namespace SenderLoop
variable {σ : Type*} {sendOne : QueuedOutboundMessage → Nat → σ → Except Error Unit × σ} {message : Queued}
  {loop : SenderLoop σ} {loop loop' : SenderLoop σ}

theorem attempts_spec (retries retry : Nat) (lastErr : Option Error) (s : σ) (h : Ready messages trace message) :
    ((attempts sendOne message retries retry lastErr s trace).1 = .ok () ∧
      Sent messages (attempts sendOne message retries retry lastErr s trace).2.2 message.2) ∨
    ∃ lastErr', (attempts sendOne message retries retry lastErr s trace).1 = .error lastErr' ∧
      Ready messages (attempts sendOne message retries retry lastErr s trace).2.2 message ∧
      ((retries = 0 ∧ lastErr' = lastErr ∧ (attempts sendOne message retries retry lastErr s trace).2.2 = trace) ∨
        ∃ before attempt e, lastErr' = some e ∧
          (attempts sendOne message retries retry lastErr s trace).2.2 =
            before ++ [.call message.2 attempt (.error e)]) := by
  induction retries generalizing retry lastErr s trace with
  | zero => exact .inr ⟨lastErr, rfl, h, .inl ⟨rfl, rfl, rfl⟩⟩
  | succ retries ih =>
    obtain ⟨result, t, hresult⟩ : ∃ result t, sendOne message.1 (retry + 1) s = (result, t) := ⟨_, _, rfl⟩
    simp only [attempts, hresult]
    cases result with
    | ok =>
      refine .inl ⟨rfl, h.done rfl (h.mayFollow (retry + 1) _) (.inl ⟨retry + 1, ?_⟩)⟩
      exact List.mem_append_right _ (List.mem_singleton_self _)
    | error e =>
      dsimp only
      split
      · exact .inr ⟨some e, rfl, h.refused (retry + 1) e, .inr ⟨trace, retry + 1, e, rfl, rfl⟩⟩
      · rcases ih (retry + 1) (some e) t (h.refused (retry + 1) e) with hsent | ⟨lastErr', herror, hready, hlast⟩
        · exact .inl hsent
        · refine .inr ⟨lastErr', herror, hready, .inr ?_⟩
          rcases hlast with ⟨-, rfl, htrace⟩ | hlast
          · exact ⟨trace, retry + 1, e, rfl, htrace⟩
          · exact hlast

theorem maxRetriesForMessage_pos (message : QueuedOutboundMessage) : maxRetriesForMessage message ≠ 0 := by
  unfold maxRetriesForMessage channelSenderMaxRetries
  split
  · decide
  · decide

/-- A round settles its message or keeps it. -/
theorem process_spec (hmessage : messages[message.2]? = some message.1) (h : Ready messages loop.trace message) :
    (loop.process sendOne message).receiver = loop.receiver ∧ (loop.process sendOne message).received = loop.received ∧
    (((loop.process sendOne message).pending = none ∧ Sent messages (loop.process sendOne message).trace message.2) ∨
      ((loop.process sendOne message).pending = some message ∧
        Ready messages (loop.process sendOne message).trace message)) := by
  have hspec := @attempts_spec _ _ _ sendOne _ (maxRetriesForMessage message.1) 0 none loop.outside h
  unfold process
  obtain ⟨result, s, trace, hattempts⟩ : ∃ result s trace, attempts sendOne message (maxRetriesForMessage message.1) 0 none
    loop.outside loop.trace = (result, s, trace) := ⟨_, _, _, rfl⟩
  rw [hattempts] at hspec ⊢
  rcases hspec with ⟨hok, hsent⟩ | ⟨lastErr, herror, hready, hlast⟩
  · dsimp only at hok
    rw [hok]
    exact ⟨rfl, rfl, .inl ⟨rfl, hsent⟩⟩
  · dsimp only at herror hready hlast
    rw [herror]
    dsimp only
    have hdropped : Settled (trace ++ [.dropped message.2]) message.2 :=
      .inr (List.mem_append_right _ (List.mem_singleton_self _))
    split
    · rename_i hkind
      refine ⟨rfl, rfl, .inl ⟨rfl, hready.done rfl ?_ hdropped⟩⟩
      intro message' hmessage' hprimary
      obtain rfl := Option.some.inj (hmessage.symm.trans hmessage')
      rw [hkind] at hprimary
      cases hprimary
    · split
      · exact ⟨rfl, rfl, .inr ⟨rfl, hready⟩⟩
      · rename_i hretry
        refine ⟨rfl, rfl, .inl ⟨rfl, hready.done rfl ?_ hdropped⟩⟩
        intro message' hmessage' hprimary
        rcases hlast with ⟨hzero, -⟩ | ⟨before, attempt, e, rfl, htrace⟩
        · exact absurd hzero (maxRetriesForMessage_pos message.1)
        · exact ⟨before, attempt, e, htrace, by simpa using hretry⟩

/-! Runs. -/

/-- What has been received is settled, but for the pending message. -/
structure Inv (messages : List QueuedOutboundMessage) (loop : SenderLoop σ) : Prop where
  rest : messages.drop loop.received = loop.receiver.reduceOption
  idle : loop.pending = none → Lawful messages loop.trace ∧ (∀ event ∈ loop.trace, event.place < loop.received) ∧
    ∀ place < loop.received, Settled loop.trace place
  busy : ∀ message, loop.pending = some message → message.2 + 1 = loop.received ∧
    messages[message.2]? = some message.1 ∧ Ready messages loop.trace message

theorem Inv.lawful (h : loop.Inv messages) : Lawful messages loop.trace := by
  cases hpending : loop.pending with
  | none => exact (h.idle hpending).1
  | some message => exact (h.busy message hpending).2.2.lawful

theorem inv_process (hrest : messages.drop loop.received = loop.receiver.reduceOption)
    (hplace : message.2 + 1 = loop.received) (hmessage : messages[message.2]? = some message.1)
    (h : Ready messages loop.trace message) : (loop.process sendOne message).Inv messages := by
  obtain ⟨hreceiver, hreceived, hround⟩ := @process_spec _ _ sendOne _ _ hmessage h
  refine ⟨by rw [hreceiver, hreceived, hrest], fun hnone => ?_, fun message' hsome => ?_⟩
  · rcases hround with ⟨-, hsent⟩ | ⟨hpending, -⟩
    · rw [hreceived]
      refine ⟨hsent.lawful, fun event hevent => ?_, fun place hlt => hsent.settled place (by omega)⟩
      have hle := hsent.places event hevent
      omega
    · rw [hnone] at hpending
      cases hpending
  · rcases hround with ⟨hpending, -⟩ | ⟨hpending, hready⟩
    · rw [hpending] at hsome
      cases hsome
    · obtain rfl := Option.some.inj (hpending.symm.trans hsome)
      rw [hreceived]
      exact ⟨hplace, hmessage, hready⟩

/-- A round goes on with the pending message or with the next one that is received. -/
theorem step_cases (h : loop.Inv messages) (hstep : step sendOne loop () = some loop') :
    (loop'.outside = loop.outside ∧ loop'.trace = loop.trace ∧ loop'.Inv messages) ∨
    ∃ (before : SenderLoop σ) (message : Queued), before.outside = loop.outside ∧ before.trace = loop.trace ∧
      messages.drop before.received = before.receiver.reduceOption ∧ message.2 + 1 = before.received ∧
      messages[message.2]? = some message.1 ∧ Ready messages before.trace message ∧
      loop' = before.process sendOne message := by
  unfold step at hstep
  cases hpending : loop.pending with
  | some message =>
    rw [hpending] at hstep
    obtain rfl := Option.some.inj hstep
    obtain ⟨hplace, hmessage, hready⟩ := h.busy message hpending
    exact .inr ⟨loop, message, rfl, rfl, h.rest, hplace, hmessage, hready, rfl⟩
  | none =>
    rw [hpending] at hstep
    obtain ⟨hlawful, hplaces, hsettled⟩ := h.idle hpending
    have hrest := h.rest
    cases hreceiver : loop.receiver with
    | nil =>
      rw [hreceiver] at hstep
      cases hstep
    | cons event receiver =>
      rw [hreceiver] at hstep hrest
      cases event with
      | none =>
        obtain rfl := Option.some.inj hstep
        exact .inl ⟨rfl, rfl, hrest, fun _ => ⟨hlawful, hplaces, hsettled⟩, fun _ hsome => by cases hsome⟩
      | some message =>
        obtain rfl := Option.some.inj hstep
        have hcons : messages.drop loop.received = message :: receiver.reduceOption := hrest
        have hmessage : messages[loop.received]? = some message := by
          rw [← List.head?_drop, hcons]
          rfl
        have hbehind : messages.drop (loop.received + 1) = receiver.reduceOption := by
          rw [← List.tail_drop, hcons]
          rfl
        refine .inr ⟨{ loop with receiver := receiver, received := loop.received + 1 }, (message, loop.received), rfl, rfl,
          hbehind, rfl, hmessage, ⟨hlawful, fun event hevent => Nat.le_of_lt (hplaces event hevent), ?_, hsettled⟩, rfl⟩
        intro attempt hcall
        exact Nat.lt_irrefl _ (hplaces _ hcall)

theorem step_inv (h : loop.Inv messages) (hstep : step sendOne loop () = some loop') : loop'.Inv messages := by
  rcases step_cases h hstep with ⟨-, -, hinv⟩ | ⟨before, message, -, -, hrest, hplace, hmessage, hready, rfl⟩
  · exact hinv
  · exact inv_process hrest hplace hmessage hready

theorem inv_start (receiver : List (Option QueuedOutboundMessage)) (s : σ) :
    (start receiver s).Inv receiver.reduceOption :=
  ⟨rfl, fun _ => ⟨lawful_nil, List.forall_mem_nil _, fun _ h => absurd h (Nat.not_lt_zero _)⟩,
    fun _ h => by cases h⟩

section
variable {J : σ → List Event → Prop}

theorem attempts_keep {message : Queued}
    (call : ∀ attempt s trace, J s trace →
      J (sendOne message.1 attempt s).2 (trace ++ [.call message.2 attempt (sendOne message.1 attempt s).1]))
    (retries retry : Nat) (lastErr : Option Error) (s : σ) (trace : List Event) (h : J s trace) :
    J (attempts sendOne message retries retry lastErr s trace).2.1
      (attempts sendOne message retries retry lastErr s trace).2.2 := by
  induction retries generalizing retry lastErr s trace with
  | zero => exact h
  | succ retries ih =>
    have hcall := call (retry + 1) s trace h
    obtain ⟨result, t, hresult⟩ : ∃ result t, sendOne message.1 (retry + 1) s = (result, t) := ⟨_, _, rfl⟩
    rw [hresult] at hcall
    simp only [attempts, hresult]
    cases result with
    | ok => exact hcall
    | error e =>
      dsimp only
      split
      · exact hcall
      · exact ih (retry + 1) (some e) t _ hcall

theorem process_keep {loop : SenderLoop σ} {message : Queued}
    (call : ∀ attempt s trace, J s trace →
      J (sendOne message.1 attempt s).2 (trace ++ [.call message.2 attempt (sendOne message.1 attempt s).1]))
    (drop : ∀ place s trace, J s trace → J s (trace ++ [.dropped place])) (h : J loop.outside loop.trace) :
    J (loop.process sendOne message).outside (loop.process sendOne message).trace := by
  have hkeep := attempts_keep call (maxRetriesForMessage message.1) 0 none loop.outside loop.trace h
  unfold process
  obtain ⟨result, s, trace, hattempts⟩ : ∃ result s trace, attempts sendOne message (maxRetriesForMessage message.1) 0 none
    loop.outside loop.trace = (result, s, trace) := ⟨_, _, _, rfl⟩
  rw [hattempts] at hkeep ⊢
  cases result with
  | ok => exact hkeep
  | error lastErr =>
    dsimp only
    split
    · exact drop message.2 s trace hkeep
    · split
      · exact hkeep
      · exact drop message.2 s trace hkeep

/-- What every call on a message of the queue keeps, and every drop, holds throughout. -/
theorem always_of_calls {receiver : List (Option QueuedOutboundMessage)} {s : σ}
    (call : ∀ place message attempt s trace, receiver.reduceOption[place]? = some message → J s trace →
      J (sendOne message attempt s).2 (trace ++ [.call place attempt (sendOne message attempt s).1]))
    (drop : ∀ place s trace, J s trace → J s (trace ++ [.dropped place])) (h : J s []) (rounds : List Unit) :
    Always (step sendOne) (fun loop => J loop.outside loop.trace) rounds (start receiver s) := by
  have hinv := @always_of_invariant _ _ (step sendOne)
    (fun loop => loop.Inv receiver.reduceOption ∧ J loop.outside loop.trace) ?_ rounds (start receiver s)
    ⟨inv_start receiver s, h⟩
  · exact hinv.mono fun loop hloop => hloop.2
  · rintro loop ⟨⟩ loop' ⟨hloop, hkept⟩ hstep
    refine ⟨step_inv hloop hstep, ?_⟩
    rcases step_cases hloop hstep with ⟨houtside, htrace, -⟩ | ⟨before, message, houtside, htrace, -, -, hmessage, -, rfl⟩
    · rw [houtside, htrace]
      exact hkept
    · refine process_keep (fun attempt s trace hs => call message.2 message.1 attempt s trace hmessage hs) drop ?_
      rw [houtside, htrace]
      exact hkept

end

end SenderLoop
end Beetle.Channels
