import Beetle.Channels.Chunk
import Beetle.Channels.Send

/-! The Telegram sender. A text goes out in chunks, with a request for each. -/
namespace Beetle.Channels.Telegram
open Beetle.Lib

def telegramMaxMessageLen : Nat := 4096

inductive TextFormat where
  | plain
  | markdown
  | html
  | richText
  deriving DecidableEq

/-- What the sender reads of the body of a queued message. -/
inductive MessageBody where
  | text (body : String) (format : TextFormat)
  | card (fallbackText : String)
  | platformNative (platformType fallbackText : String)
  | media

def platformNativeTypeTelegramMessageReaction : String := "telegram_message_reaction"

/-- The text that `send_media_message` sends for a body, and its format. -/
def MessageBody.text? : MessageBody → Option (String × TextFormat)
  | text body format => some (body, format)
  | card fallbackText => some (fallbackText, .plain)
  | platformNative platformType fallbackText =>
    if platformType = platformNativeTypeTelegramMessageReaction then none else some (fallbackText, .plain)
  | media => none

/-- `str::parse::<i64>`. -/
def parseI64 : List Char → Option Int
  | '-' :: digits =>
    if digits.head? = some '+' then none
    else ((parseUnsigned 64 digits).filter (· ≤ 2 ^ 63)).map fun n => -n
  | s => (parseUnsigned 63 s).map Int.ofNat

def parseThreadId (stage platformThreadId : String) : Except Error (Option Int) :=
  let trimmed := trim platformThreadId.toList
  if trimmed = [] then .ok none
  else
    match parseI64 trimmed with
    | some threadId => .ok (some threadId)
    | none => .error (.config "invalid Telegram message_thread_id" stage)

def parseModeForFormat (stage : String) : TextFormat → Except Error (Option String)
  | .plain => .ok none
  | .markdown => .ok (some "MarkdownV2")
  | .html => .ok (some "HTML")
  | .richText => .error (.config "Telegram does not support TextFormat::RichText" stage)

/-- The body of a `sendMessage` request. -/
structure SendMessageRequest where
  chatId : String
  text : String
  messageThreadId : Option Int
  parseMode : Option String
  replyToMessageId : Option Int

/-- The answer to a request, with the message id that `parse_sent_message_id` reads in it. -/
structure Response where
  status : Nat
  messageId : Option Int

def mapStage (e : Error) (stage : String) : Error :=
  match e with
  | .http statusCode _ => .http statusCode stage
  | other => .other (some other) stage

/-- `post_telegram_method`, from what the post gives. -/
def postTelegramMethod (posted : Except Error Response) (stage : String) : Except Error Response :=
  match posted with
  | .error e => .error (mapStage e stage)
  | .ok response => if response.status ≥ 400 then .error (.http response.status stage) else .ok response

/-- What is outside the sender. Clients, requests and bodies that are not sent as texts are counted. -/
structure Outside where
  platformThreadId : QueuedOutboundMessage → String
  body : QueuedOutboundMessage → MessageBody
  createHttp : Nat → Except Error Unit
  sendPost : Nat → Except Error Response
  sendOther : Nat → QueuedOutboundMessage → Except Error Unit

/-- How far a text has got: the number of the next request, and the chunks that were accepted with their places. -/
structure TextSend where
  result : Except Error Unit
  requests : Nat
  accepted : List (Nat × SendMessageRequest)

namespace Outside
variable (o : Outside)

def telegramSend : String := "telegram_send"

/-- The loop over the chunks that are left. -/
def sendChunks (chatId platformThreadId : String) (format : TextFormat) :
    Nat → List (List Char) → Option Int → Nat → TextSend
  | _, [], _, requests => ⟨.ok (), requests, []⟩
  | place, chunk :: chunks, replyToMessageId, requests =>
    match parseThreadId telegramSend platformThreadId with
    | .error e => ⟨.error e, requests, []⟩
    | .ok messageThreadId =>
      match parseModeForFormat telegramSend format with
      | .error e => ⟨.error e, requests, []⟩
      | .ok parseMode =>
        match postTelegramMethod (o.sendPost requests) telegramSend with
        | .error e => ⟨.error e, requests + 1, []⟩
        | .ok response =>
          let request := ⟨chatId, String.ofList chunk, messageThreadId, parseMode, replyToMessageId⟩
          let rest := sendChunks chatId platformThreadId format (place + 1) chunks
            (response.messageId.or replyToMessageId) (requests + 1)
          { rest with accepted := (place, request) :: rest.accepted }

def sendTextMessage (chatId platformThreadId text : String) (format : TextFormat) (requests : Nat) : TextSend :=
  if trim text.toList = [] then
    ⟨.error (.config "refusing to send empty Telegram message" telegramSend), requests, []⟩
  else
    o.sendChunks chatId platformThreadId format 0 (chunkTextByCharCount text.toList telegramMaxMessageLen) none requests

end Outside

/-- The requests of one call of the sender, from its first number on, and what was accepted. -/
structure SendCall where
  first : Nat
  next : Nat
  accepted : List (Nat × SendMessageRequest)

/-- The sender between two calls. -/
structure Sender where
  http : Bool
  created : Nat
  requests : Nat
  others : Nat
  calls : List SendCall

namespace Sender
variable (o : Outside)

def new : Sender := ⟨false, 0, 0, 0, []⟩

def telegramSender : String := "telegram_sender"

def ensureSenderHttp (s : Sender) : Bool × Sender :=
  if s.http then (true, s)
  else
    match o.createHttp s.created with
    | .ok () => (true, { s with http := true, created := s.created + 1 })
    | .error _ => (false, { s with created := s.created + 1 })

def sendMediaMessage (message : QueuedOutboundMessage) (s : Sender) : Except Error Unit × Sender :=
  match (o.body message).text? with
  | some (text, format) =>
    let sent := o.sendTextMessage message.chatId (o.platformThreadId message) text format s.requests
    (sent.result, { s with requests := sent.requests, calls := s.calls ++ [⟨s.requests, sent.requests, sent.accepted⟩] })
  | none =>
    (o.sendOther s.others message,
      { s with others := s.others + 1, calls := s.calls ++ [⟨s.requests, s.requests, []⟩] })

/-- What `run_telegram_sender_loop` does to send a message. -/
def sendOne (message : QueuedOutboundMessage) (_attempt : Nat) (s : Sender) : Except Error Unit × Sender :=
  match s.ensureSenderHttp o with
  | (false, s) =>
    (.error (.config "create http failed" telegramSender), { s with calls := s.calls ++ [⟨s.requests, s.requests, []⟩] })
  | (true, s) =>
    match s.sendMediaMessage o message with
    | (.ok (), s) => (.ok (), s)
    | (.error e, s) => (.error e, { s with http := false })

end Sender

def runTelegramSenderLoop (o : Outside) : SenderLoop Sender → Unit → Option (SenderLoop Sender) :=
  SenderLoop.step (Sender.sendOne o)

end Beetle.Channels.Telegram

/-! What Telegram has accepted of a text over the attempts to send it. -/
namespace Beetle.Channels

def Event.callPlace? : Event → Option Nat
  | .call place _ _ => some place
  | .dropped _ => none

/-- The places of the queue that were called on, call by call. -/
def callPlaces (trace : List Event) : List Nat := trace.filterMap Event.callPlace?

namespace Telegram
open Beetle.Lib

def Outside.accepts (o : Outside) (request : Nat) : Bool :=
  match o.sendPost request with
  | .ok response => response.status < 400
  | .error _ => false

/-- The first request of the call was accepted. -/
def SendCall.firstAccepted (o : Outside) (call : SendCall) : Bool := call.first < call.next && o.accepts call.first

/-- What a call may have done for a text: its chunks are accepted one after the other, and some are if the
first one is. -/
structure SendCall.Sends (o : Outside) (text : String) (call : SendCall) : Prop where
  places : call.accepted.map (·.1) = List.range call.accepted.length
  texts : call.accepted.map (·.2.text) =
    ((chunkTextByCharCount text.toList telegramMaxMessageLen).take call.accepted.length).map String.ofList
  nonempty : call.accepted ≠ [] ↔ call.firstAccepted o = true

section
variable {o : Outside} {chatId platformThreadId : String} {format : TextFormat}

theorem postTelegramMethod_eq (o : Outside) (stage : String) (request : Nat) :
    (o.accepts request = true ∧ ∃ response, postTelegramMethod (o.sendPost request) stage = .ok response) ∨
    (o.accepts request = false ∧ ∃ e, postTelegramMethod (o.sendPost request) stage = .error e) := by
  unfold Outside.accepts postTelegramMethod
  cases o.sendPost request with
  | error e => exact .inr ⟨rfl, _, rfl⟩
  | ok response =>
    dsimp only
    by_cases hstatus : response.status ≥ 400
    · rw [if_pos hstatus]
      exact .inr ⟨by simpa using hstatus, _, rfl⟩
    · rw [if_neg hstatus]
      exact .inl ⟨by simpa using hstatus, _, rfl⟩

theorem sendChunks_spec (chunks : List (List Char)) (place : Nat) (replyToMessageId : Option Int) (requests : Nat) :
    let sent := o.sendChunks chatId platformThreadId format place chunks replyToMessageId requests
    sent.accepted.map (·.1) = List.range' place sent.accepted.length ∧
    sent.accepted.map (·.2.text) = (chunks.take sent.accepted.length).map String.ofList ∧
    requests ≤ sent.requests ∧ (sent.accepted ≠ [] ↔ requests < sent.requests ∧ o.accepts requests = true) := by
  induction chunks generalizing place replyToMessageId requests with
  | nil => simp [Outside.sendChunks]
  | cons chunk chunks ih =>
    dsimp only [Outside.sendChunks]
    cases hthread : parseThreadId Outside.telegramSend platformThreadId with
    | error e => simp
    | ok messageThreadId =>
      cases hmode : parseModeForFormat Outside.telegramSend format with
      | error e => simp
      | ok parseMode =>
        rcases postTelegramMethod_eq o Outside.telegramSend requests with ⟨haccepts, response, hpost⟩ |
          ⟨hrefused, e, hpost⟩
        · obtain ⟨hplaces, htexts, hrequests, -⟩ :=
            ih (place + 1) (response.messageId.or replyToMessageId) (requests + 1)
          simp only [hpost, List.map_cons, List.length_cons, List.range'_succ, List.take_succ_cons, hplaces, htexts,
            haccepts]
          refine ⟨trivial, trivial, by omega, ?_⟩
          simp only [ne_eq, reduceCtorEq, not_false_eq_true, and_true, true_iff]
          omega
        · simp [hpost, hrefused]

theorem sendTextMessage_sends (text : String) (requests : Nat) :
    let sent := o.sendTextMessage chatId platformThreadId text format requests
    SendCall.Sends o text ⟨requests, sent.requests, sent.accepted⟩ := by
  dsimp only
  unfold Outside.sendTextMessage
  split
  · exact ⟨rfl, by simp, by simp [SendCall.firstAccepted]⟩
  · obtain ⟨hplaces, htexts, -, hnonempty⟩ := @sendChunks_spec o chatId platformThreadId format
      (chunkTextByCharCount text.toList telegramMaxMessageLen) 0 none requests
    refine ⟨?_, htexts, ?_⟩
    · rw [List.range_eq_range']
      exact hplaces
    · simpa [SendCall.firstAccepted] using hnonempty

/-- Each call is noted, with what it sent of a text. -/
theorem sendOne_calls (message : QueuedOutboundMessage) (attempt : Nat) (s : Sender) :
    ∃ call, (s.sendOne o message attempt).2.calls = s.calls ++ [call] ∧
      ∀ text format, (o.body message).text? = some (text, format) → call.Sends o text := by
  have hnothing (n : Nat) (text : String) : SendCall.Sends o text ⟨n, n, []⟩ :=
    ⟨rfl, by simp, by simp [SendCall.firstAccepted]⟩
  have hmedia (s : Sender) : ∃ call, (s.sendMediaMessage o message).2.calls = s.calls ++ [call] ∧
      ∀ text format, (o.body message).text? = some (text, format) → call.Sends o text := by
    unfold Sender.sendMediaMessage
    cases hbody : (o.body message).text? with
    | none => exact ⟨_, rfl, fun _ _ h => by cases h⟩
    | some body =>
      refine ⟨_, rfl, fun text format h => ?_⟩
      obtain rfl := Option.some.inj h
      exact sendTextMessage_sends text s.requests
  have hensure : (s.ensureSenderHttp o).2.calls = s.calls := by
    unfold Sender.ensureSenderHttp
    split
    · rfl
    · split
      · rfl
      · rfl
  unfold Sender.sendOne
  obtain ⟨ready, s', hready⟩ : ∃ ready s', s.ensureSenderHttp o = (ready, s') := ⟨_, _, rfl⟩
  rw [hready] at hensure ⊢
  cases ready with
  | false => exact ⟨_, by rw [← hensure], fun text _ _ => hnothing _ text⟩
  | true =>
    obtain ⟨call, hcalls, hsends⟩ := hmedia s'
    refine ⟨call, ?_, hsends⟩
    obtain ⟨result, s'', hsent⟩ : ∃ result s'', s'.sendMediaMessage o message = (result, s'') := ⟨_, _, rfl⟩
    dsimp only at hcalls hensure ⊢
    rw [hsent] at hcalls ⊢
    rw [← hensure]
    cases result with
    | ok => exact hcalls
    | error => exact hcalls

end

/-! Over a whole run. -/

/-- The calls on the message at a place. -/
def callsOf (loop : SenderLoop Sender) (place : Nat) : List SendCall :=
  (((callPlaces loop.trace).zip loop.outside.calls).filter (·.1 = place)).map (·.2)

/-- The chunks of the message at a place that were accepted, in the order in which they were. -/
def accepted (loop : SenderLoop Sender) (place : Nat) : List (Nat × SendMessageRequest) :=
  (callsOf loop place).flatMap (·.accepted)

/-- No chunk is accepted twice, nor before the one in front of it. -/
def InOrder (text : String) (accepted : List (Nat × SendMessageRequest)) : Prop :=
  ∃ n, accepted.map (·.1) = List.range n ∧
    accepted.map (·.2.text) = ((chunkTextByCharCount text.toList telegramMaxMessageLen).take n).map String.ofList

/-- At most one of the calls has its first request accepted. -/
def StartsOnce (o : Outside) (calls : List SendCall) : Prop := calls.countP (·.firstAccepted o) ≤ 1

instance (o : Outside) (calls : List SendCall) : Decidable (StartsOnce o calls) :=
  inferInstanceAs (Decidable (_ ≤ 1))

theorem inOrder_iff_startsOnce {o : Outside} {text : String} {calls : List SendCall} (h : ∀ call ∈ calls, call.Sends o text) :
    InOrder text (calls.flatMap (·.accepted)) ↔ StartsOnce o calls := by
  constructor
  · rintro ⟨n, hplaces, -⟩
    have hnodup : (calls.flatMap fun call => call.accepted.map (·.1)).Nodup := by
      rw [← List.map_flatMap, hplaces]
      exact List.nodup_range
    refine countP_le_one_of_nodup_flatMap (b := 0) (fun call hcall hfirst => ?_) hnodup
    have hne := (h call hcall).nonempty.mpr hfirst
    rw [(h call hcall).places, List.mem_range]
    exact List.length_pos_iff.mpr hne
  · intro honce
    have hempty : ∀ call ∈ calls, call.firstAccepted o = false → call.accepted = [] := by
      intro call hcall hfirst
      by_contra hne
      rw [(h call hcall).nonempty.mp hne] at hfirst
      cases hfirst
    rcases flatMap_of_countP_le_one hempty honce with hnil | ⟨call, hcall, heq⟩
    · exact ⟨0, by simp [hnil], by simp [hnil]⟩
    · rw [heq]
      exact ⟨call.accepted.length, (h call hcall).places, (h call hcall).texts⟩

/-- The calls of the sender and those of the loop are the same ones. -/
structure Matches (o : Outside) (messages : List QueuedOutboundMessage) (s : Sender) (trace : List Event) : Prop where
  length : (callPlaces trace).length = s.calls.length
  sends : ∀ place call, (place, call) ∈ (callPlaces trace).zip s.calls → ∀ message, messages[place]? = some message →
    ∀ text format, (o.body message).text? = some (text, format) → call.Sends o text

theorem matches_run (o : Outside) (receiver : List (Option QueuedOutboundMessage)) (rounds : List Unit) :
    Always (runTelegramSenderLoop o) (fun loop => Matches o receiver.reduceOption loop.outside loop.trace) rounds
      (SenderLoop.start receiver .new) := by
  apply SenderLoop.always_of_calls
  · intro place message attempt s trace hmessage hmatches
    obtain ⟨call, hcalls, hsends⟩ := @sendOne_calls o message attempt s
    have hplaces : callPlaces (trace ++ [.call place attempt (s.sendOne o message attempt).1]) =
        callPlaces trace ++ [place] := by
      simp [callPlaces, Event.callPlace?]
    refine ⟨?_, fun place' call' hmem => ?_⟩
    · rw [hplaces, hcalls, List.length_append, List.length_append, hmatches.length]
      rfl
    · rw [hplaces, hcalls, List.zip_append hmatches.length, List.mem_append] at hmem
      rcases hmem with hmem | hmem
      · exact hmatches.sends place' call' hmem
      · obtain ⟨rfl, rfl⟩ := Prod.mk.inj (List.mem_singleton.mp hmem)
        intro message' hmessage'
        obtain rfl := Option.some.inj (hmessage.symm.trans hmessage')
        exact hsends
  · intro place s trace hmatches
    have hplaces : callPlaces (trace ++ [.dropped place]) = callPlaces trace := by
      simp [callPlaces, Event.callPlace?]
    exact ⟨by rw [hplaces]; exact hmatches.length, by rw [hplaces]; exact hmatches.sends⟩
  · exact ⟨rfl, fun _ _ h => by cases h⟩

/-- Whatever becomes of the requests: what is accepted of a text is a beginning of its chunks exactly as long as
no two attempts have got a first chunk through. -/
theorem chunks_accepted_once_iff (o : Outside) (receiver : List (Option QueuedOutboundMessage)) (rounds : List Unit) :
    Always (runTelegramSenderLoop o)
      (fun loop => ∀ place message text format, receiver.reduceOption[place]? = some message →
        (o.body message).text? = some (text, format) →
        (InOrder text (accepted loop place) ↔ StartsOnce o (callsOf loop place)))
      rounds (SenderLoop.start receiver .new) := by
  refine (matches_run o receiver rounds).mono fun loop hmatches place message text format hmessage hbody => ?_
  apply inOrder_iff_startsOnce
  intro call hcall
  obtain ⟨⟨place', call'⟩, hpair, rfl⟩ := List.mem_map.mp hcall
  rw [List.mem_filter, decide_eq_true_eq] at hpair
  obtain ⟨hpair, rfl⟩ := hpair
  exact hmatches.sends place' call' hpair message hmessage text format hbody

/-- Two paragraphs of so many characters. -/
def twoParagraphs (n : Nat) : String := String.ofList (List.replicate n 'a' ++ (['\n', '\n'] ++ List.replicate n 'b'))

theorem twoParagraphs_ne_nil (n : Nat) : (twoParagraphs n).toList ≠ [] := by simp [twoParagraphs]

theorem trim_twoParagraphs {n : Nat} (hn : n ≠ 0) : trim (twoParagraphs n).toList = (twoParagraphs n).toList := by
  obtain ⟨n, rfl⟩ := Nat.exists_eq_succ_of_ne_zero hn
  rw [twoParagraphs, String.toList_ofList]
  apply trimEnds_eq_self
  · intro c hc
    obtain rfl : 'a' = c := by simpa [List.replicate_succ] using hc
    decide
  · intro c hc
    rw [List.getLast?_append, List.getLast?_append, List.getLast?_replicate] at hc
    obtain rfl : 'b' = c := by simpa using hc
    decide

theorem chunks_twoParagraphs {n maxChars : Nat} (hn : n ≠ 0) (hle : n ≤ maxChars) (hlt : maxChars < n + 2 + n) :
    chunkTextByCharCount (twoParagraphs n).toList maxChars = [List.replicate n 'a', List.replicate n 'b'] := by
  have htrim (c : Char) (hc : isWhitespace c = false) : trim (List.replicate n c) = List.replicate n c := by
    obtain ⟨n, rfl⟩ := Nat.exists_eq_succ_of_ne_zero hn
    apply trimEnds_eq_self
    · simpa [List.replicate_succ] using hc
    · simpa [List.getLast?_replicate] using hc
  have hboth := trim_twoParagraphs hn
  rw [twoParagraphs, String.toList_ofList] at hboth ⊢
  apply chunkTextByCharCount_pair
  · simp
  · simp
  · simpa using hn
  · simpa using hn
  · exact htrim 'a' (by decide)
  · exact htrim 'b' (by decide)
  · exact hboth
  · simpa using hle
  · simpa using hle
  · simpa using hlt

/-- The second request for the text is answered with a server error, all others are accepted. -/
def serverErrorOnce (text : String) : Outside where
  platformThreadId _ := ""
  body _ := .text text .plain
  createHttp _ := .ok ()
  sendPost request := .ok (if request = 1 then ⟨500, none⟩ else ⟨200, some 7⟩)
  sendOther _ _ := .ok ()

theorem accepted_serverErrorOnce {text : String} {a b : List Char} (htext : trim text.toList ≠ [])
    (hchunks : chunkTextByCharCount text.toList telegramMaxMessageLen = [a, b]) :
    ∃ loop, exec (runTelegramSenderLoop (serverErrorOnce text)) [()]
      (SenderLoop.start [some ⟨1, "1", "", none, .primary⟩] .new) = some loop ∧
      (accepted loop 0).map (·.1) = [0, 0, 1] := by
  refine ⟨_, rfl, ?_⟩
  have hsend (requests : Nat) : (serverErrorOnce text).sendTextMessage "1" "" text .plain requests =
      (serverErrorOnce text).sendChunks "1" "" .plain 0 [a, b] none requests := by
    rw [Outside.sendTextMessage, if_neg htext, hchunks]
  have hfirst : (serverErrorOnce text).sendChunks "1" "" .plain 0 [a, b] none 0 =
      ⟨.error (.http 500 "telegram_send"), 2, [(0, ⟨"1", String.ofList a, none, none, none⟩)]⟩ := rfl
  have hsecond : (serverErrorOnce text).sendChunks "1" "" .plain 0 [a, b] none 2 =
      ⟨.ok (), 4, [(0, ⟨"1", String.ofList a, none, none, none⟩), (1, ⟨"1", String.ofList b, none, none, some 7⟩)]⟩ := rfl
  have hretry : SenderLoop.shouldDeferPrimarySendErrorImmediately (.http 500 "telegram_send") = false := by decide
  have hbody (message : QueuedOutboundMessage) : (serverErrorOnce text).body message = .text text .plain := rfl
  have hthread (message : QueuedOutboundMessage) : (serverErrorOnce text).platformThreadId message = "" := rfl
  have hcreate (n : Nat) : (serverErrorOnce text).createHttp n = .ok () := rfl
  simp [accepted, callsOf, callPlaces, SenderLoop.start, SenderLoop.process, maxRetriesForMessage,
    QueuedOutboundMessage.isSupplemental, channelSenderMaxRetries, SenderLoop.attempts, Sender.sendOne, Sender.new,
    Sender.ensureSenderHttp, Sender.sendMediaMessage, MessageBody.text?, Event.callPlace?, isConfig,
    hbody, hthread, hcreate, hsend, hfirst, hsecond, hretry]

theorem retry_sends_first_chunk_again :
    ¬ ∀ (o : Outside) (receiver : List (Option QueuedOutboundMessage)) (rounds : List Unit),
      Always (runTelegramSenderLoop o)
        (fun loop => ∀ place message text format, receiver.reduceOption[place]? = some message →
          (o.body message).text? = some (text, format) → InOrder text (accepted loop place))
        rounds (SenderLoop.start receiver .new) := by
  intro h
  have hchunks := @chunks_twoParagraphs 3000 telegramMaxMessageLen (by decide) (by decide) (by decide)
  have htrim : trim (twoParagraphs 3000).toList ≠ [] := by
    rw [trim_twoParagraphs (by decide)]
    exact twoParagraphs_ne_nil 3000
  obtain ⟨loop, hloop, haccepted⟩ := accepted_serverErrorOnce htrim hchunks
  obtain ⟨n, hplaces, -⟩ := (h _ _ _).last hloop 0 _ _ .plain rfl rfl
  have hnodup : [0, 0, 1].Nodup := by
    rw [← haccepted, hplaces]
    exact List.nodup_range
  exact absurd hnodup (by decide)

end Telegram
end Beetle.Channels
