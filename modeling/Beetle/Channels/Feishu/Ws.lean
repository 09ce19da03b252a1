import Beetle.Bus
import Beetle.Channels.Feishu.FrameRoundTrip
import Beetle.Lib.RoundRobin
import Beetle.Lib.Run
import Beetle.Orchestrator.Pressure

/-! The driver of the Feishu WebSocket, and the gateway loop where it takes a message and acknowledges it. -/
namespace Beetle.Channels.Feishu
open Beetle.Lib Beetle.Bus Beetle.Orchestrator.Pressure

def frameMethodControl : Int := 0
def frameMethodData : Int := 1
def headerType : List Char := "type".toList
def messageTypeEvent : List Char := "event".toList
def dedupCacheCapacity : Nat := 32

structure DeduplicateRing where
  ids : List (List Char)
  pos : Nat
  cap : Nat

namespace DeduplicateRing

def new (cap : Nat) : DeduplicateRing := ⟨[], 0, cap⟩

/-- Whether the id is there already; otherwise it is inserted. -/
def containsOrInsert (ring : DeduplicateRing) (id : List Char) : Bool × DeduplicateRing :=
  if id ∈ ring.ids then (true, ring)
  else
    let ids := if ring.ids.length < ring.cap then ring.ids ++ [id] else ring.ids.set ring.pos id
    (false, { ring with ids, pos := (ring.pos + 1) % max ring.cap 1 })

end DeduplicateRing

/-- A struct whose one field may be left out. It can be written as an object and as an array. -/
def readOneField {α : Type} (read : Json → Option α) (key : String) : Json → Option (Option α)
  | .obj members => Json.optionalField read members key
  | .arr [] => some none
  | .arr [.null] => some none
  | .arr [item] => (read item).map some
  | _ => none

def readFeishuEventHeader : Json → Option (Option (List Char)) := readOneField Json.asString "event_id"

def readFeishuEventPayload : Json → Option (Option (Option (List Char))) := readOneField readFeishuEventHeader "header"

def extractEventId (payload : List Char) : Option (List Char) :=
  ((Json.fromStr 127 payload).bind readFeishuEventPayload).join.join.filter (· ≠ [])

def encodeControlFrame (headerValue : String) (logId : UInt64) (logIdNew : List Char) : Bytes :=
  Frame.encodeToVec
    ⟨0, logId, ⟨0, zero_fits⟩, ⟨0, zero_fits⟩, [⟨headerType, headerValue.toList⟩], [], [], [], logIdNew⟩

inductive WssRecvAction (M : Type) where
  | ignore
  | dispatchAndAck (msg : Option M) (ack : Bytes)

/-- The target, and what `event_body_to_pcmsg_with_transport` makes of a payload. -/
structure FeishuWssConfig (M : Type) where
  width : Nat
  eventBodyToPcmsg : List Char → Option M

section
variable {M : Type} (cfg : FeishuWssConfig M)

/-- The event frame in the data, with the text of its payload; other data is ignored. -/
def eventFrame (data : Bytes) : Option (Frame × List Char) :=
  match Frame.decode cfg.width data with
  -- the reader ends in no other fault than an error
  | .error _ => none
  | .ok frame =>
    if frame.method.val = frameMethodControl then none
    else if frame.method.val ≠ frameMethodData then none
    else
      let typeVal := ((frame.headers.find? (·.key = headerType)).map (·.value)).getD []
      if typeVal ≠ messageTypeEvent ∨ frame.payload = [] then none
      else (fromUtf8 frame.payload).map fun payload => (frame, payload)

def onRecv (dedup : DeduplicateRing) (data : Bytes) : WssRecvAction M × DeduplicateRing :=
  match eventFrame cfg data with
  | none => (.ignore, dedup)
  | some (frame, payload) =>
    let ack := encodeControlFrame "reply" frame.logId frame.logIdNew
    match extractEventId payload with
    | some eventId =>
      match dedup.containsOrInsert eventId with
      | (true, dedup) => (.dispatchAndAck none ack, dedup)
      | (false, dedup) => (.dispatchAndAck (cfg.eventBodyToPcmsg payload) ack, dedup)
    | none => (.dispatchAndAck (cfg.eventBodyToPcmsg payload) ack, dedup)

/-- What the loop does with a message that is to be acknowledged: whether the queue takes it. -/
def dispatchToQueue (pressure : PressureLevel) (answer : TrySend) : Bool :=
  if pressure = .critical then false
  else
    match answer with
    | .sent => true
    | .full => false
    | .disconnected => false

/-- One frame, with the pressure and the answer of the inbound queue when it comes. -/
structure Received where
  data : Bytes
  pressure : PressureLevel
  answer : TrySend

/-- What became of an event: whether it was put into the ring, went to the queue and was acknowledged. -/
structure Delivery (M : Type) where
  eventId : Option (List Char)
  message : Option M
  inserted : Bool
  accepted : Bool
  acked : Bool

structure Gateway (M : Type) where
  dedup : DeduplicateRing
  queue : List M
  sent : List Bytes
  deliveries : List (Delivery M)

namespace Gateway

def new : Gateway M := ⟨.new dedupCacheCapacity, [], [], []⟩

/-- One round of the loop over the frames of the connection. -/
def recv (gateway : Gateway M) (received : Received) : Gateway M :=
  let (action, dedup) := onRecv cfg gateway.dedup received.data
  -- what the frame is, as far as the deliveries are noted here
  let eventId := (eventFrame cfg received.data).bind fun event => extractEventId event.2
  let message := (eventFrame cfg received.data).bind fun event => cfg.eventBodyToPcmsg event.2
  let inserted := eventId.any (· ∉ gateway.dedup.ids)
  match action with
  | .ignore => { gateway with dedup }
  | .dispatchAndAck none ack =>
    ⟨dedup, gateway.queue, gateway.sent ++ [ack], gateway.deliveries ++ [⟨eventId, message, inserted, false, true⟩]⟩
  | .dispatchAndAck (some msg) ack =>
    if dispatchToQueue received.pressure received.answer then
      ⟨dedup, gateway.queue ++ [msg], gateway.sent ++ [ack],
        gateway.deliveries ++ [⟨eventId, message, inserted, true, true⟩]⟩
    else ⟨dedup, gateway.queue, gateway.sent, gateway.deliveries ++ [⟨eventId, message, inserted, false, false⟩]⟩

def step (gateway : Gateway M) (received : Received) : Option (Gateway M) := some (gateway.recv cfg received)

end Gateway
end

/-! The ring. -/

/-- The ring after these ids were inserted, each while it was not there. -/
structure DeduplicateRing.Holds (ring : DeduplicateRing) (inserted : List (List Char)) : Prop where
  slots : RoundRobin ring.cap inserted ring.ids ring.pos
  spaced : Spaced ring.cap inserted

namespace DeduplicateRing
variable {ring : DeduplicateRing} {inserted : List (List Char)} {id : List Char}

theorem holds_new (cap : Nat) : (new cap).Holds [] := ⟨.nil cap, spaced_nil⟩

theorem containsOrInsert_of_mem (h : id ∈ ring.ids) : ring.containsOrInsert id = (true, ring) := if_pos h

theorem Holds.containsOrInsert (hring : ring.Holds inserted) (hcap : 0 < ring.cap) (h : id ∉ ring.ids) :
    (ring.containsOrInsert id).1 = false ∧ (ring.containsOrInsert id).2.cap = ring.cap ∧
    (ring.containsOrInsert id).2.Holds (inserted ++ [id]) := by
  have hmax : max ring.cap 1 = ring.cap := by omega
  have hspaced : Spaced ring.cap (inserted ++ [id]) := hring.spaced.concat ((hring.slots.mem_iff hcap).not.mp h)
  unfold DeduplicateRing.containsOrInsert
  rw [if_neg h]
  refine ⟨rfl, rfl, ?_, hspaced⟩
  dsimp only
  rw [hmax]
  split
  · rename_i hroom
    exact hring.slots.push hroom id
  · rename_i hroom
    exact hring.slots.set hroom hcap id

end DeduplicateRing

section
variable {M : Type} {cfg : FeishuWssConfig M}

/-! One frame. -/

/-- The event id and the message of an event frame. -/
def eventOf (cfg : FeishuWssConfig M) (data : Bytes) : Option (Option (List Char) × Option M) :=
  (eventFrame cfg data).map fun event => (extractEventId event.2, cfg.eventBodyToPcmsg event.2)

def insertedIds (deliveries : List (Delivery M)) : List (List Char) :=
  (deliveries.filter (·.inserted)).filterMap (·.eventId)

theorem insertedIds_concat (deliveries : List (Delivery M)) (d : Delivery M) :
    insertedIds (deliveries ++ [d]) = insertedIds deliveries ++ if d.inserted then d.eventId.toList else [] := by
  obtain ⟨eventId, message, inserted, accepted, acked⟩ := d
  unfold insertedIds
  rw [List.filter_append, List.filterMap_append]
  cases inserted with
  | false => simp
  | true =>
    cases eventId with
    | none => simp
    | some id => simp

/-- What a frame does: nothing, the acknowledgement of an event whose id is in the ring, or the delivery of an event to the
queue, whose id is put into the ring. -/
theorem recv_cases (gateway : Gateway M) (received : Received) :
    (eventOf cfg received.data = none ∧ gateway.recv cfg received = gateway) ∨
    (∃ eventId message, eventOf cfg received.data = some (some eventId, message) ∧ eventId ∈ gateway.dedup.ids ∧
      (gateway.recv cfg received).dedup = gateway.dedup ∧
      (gateway.recv cfg received).deliveries = gateway.deliveries ++ [⟨some eventId, message, false, false, true⟩]) ∨
    ∃ eventId message accepted, eventOf cfg received.data = some (eventId, message) ∧
      (∀ id, eventId = some id → id ∉ gateway.dedup.ids) ∧ (accepted = true → message.isSome = true) ∧
      (gateway.recv cfg received).dedup =
        (eventId.map fun id => (gateway.dedup.containsOrInsert id).2).getD gateway.dedup ∧
      (gateway.recv cfg received).deliveries =
        gateway.deliveries ++ [⟨eventId, message, eventId.isSome, accepted, message.isNone || accepted⟩] := by
  cases hframe : eventFrame cfg received.data with
  | none => exact .inl ⟨by simp [eventOf, hframe], by simp [Gateway.recv, onRecv, hframe]⟩
  | some event =>
    obtain ⟨frame, payload⟩ := event
    have hevent : eventOf cfg received.data = some (extractEventId payload, cfg.eventBodyToPcmsg payload) := by
      simp [eventOf, hframe]
    have hqueue (dedup : DeduplicateRing) (honRecv : onRecv cfg gateway.dedup received.data =
        (.dispatchAndAck (cfg.eventBodyToPcmsg payload) (encodeControlFrame "reply" frame.logId frame.logIdNew), dedup)) :
        ∃ accepted : Bool, (accepted = true → (cfg.eventBodyToPcmsg payload).isSome = true) ∧
          (gateway.recv cfg received).dedup = dedup ∧ (gateway.recv cfg received).deliveries = gateway.deliveries ++
            [⟨extractEventId payload, cfg.eventBodyToPcmsg payload, (extractEventId payload).any (· ∉ gateway.dedup.ids),
              accepted, (cfg.eventBodyToPcmsg payload).isNone || accepted⟩] := by
      cases hmsg : cfg.eventBodyToPcmsg payload with
      | none => exact ⟨false, by simp, by simp [Gateway.recv, honRecv, hmsg], by simp [Gateway.recv, honRecv, hmsg, hframe]⟩
      | some msg =>
        refine ⟨dispatchToQueue received.pressure received.answer, by simp, ?_, ?_⟩
        · simp only [Gateway.recv, honRecv, hmsg]
          split <;> rfl
        · cases htaken : dispatchToQueue received.pressure received.answer with
          | true => simp [Gateway.recv, honRecv, hmsg, hframe, htaken]
          | false => simp [Gateway.recv, honRecv, hmsg, hframe, htaken]
    cases hid : extractEventId payload with
    | none =>
      obtain ⟨accepted, hsome, hdedup, hdeliveries⟩ := hqueue gateway.dedup (by simp [onRecv, hframe, hid])
      rw [hid] at hdeliveries hevent
      exact .inr (.inr ⟨none, _, accepted, hevent, by simp, hsome, hdedup, hdeliveries⟩)
    | some eventId =>
      rw [hid] at hevent
      by_cases hmem : eventId ∈ gateway.dedup.ids
      · have honRecv : onRecv cfg gateway.dedup received.data =
            (.dispatchAndAck none (encodeControlFrame "reply" frame.logId frame.logIdNew), gateway.dedup) := by
          simp [onRecv, hframe, hid, DeduplicateRing.containsOrInsert_of_mem hmem]
        refine .inr (.inl ⟨eventId, _, hevent, hmem, ?_, ?_⟩)
        · simp [Gateway.recv, honRecv]
        · simp [Gateway.recv, honRecv, hframe, hid, hmem]
      · obtain ⟨accepted, hsome, hdedup, hdeliveries⟩ := hqueue (gateway.dedup.containsOrInsert eventId).2 (by
          have hnew : gateway.dedup.containsOrInsert eventId = (false, (gateway.dedup.containsOrInsert eventId).2) := by
            simp [DeduplicateRing.containsOrInsert, hmem]
          rw [onRecv, hframe]
          simp only [hid]
          rw [hnew])
        rw [hid] at hdeliveries
        refine .inr (.inr ⟨some eventId, _, accepted, hevent, ?_, hsome, hdedup, ?_⟩)
        · rintro _ ⟨⟩
          exact hmem
        · rw [hdeliveries]
          simp [hmem]

/-! Over a whole run. -/

/-- What is acknowledged is no message, or it was taken by the queue: at this delivery or at an earlier one of the
same event. -/
def AckedAccepted (deliveries : List (Delivery M)) : Prop :=
  ∀ before d after, deliveries = before ++ d :: after → d.acked = true → d.message.isSome = true →
    d.accepted = true ∨ ∃ e ∈ before, d.eventId.isSome = true ∧ e.eventId = d.eventId ∧ e.accepted = true

/-- Between two deliveries of an event that the queue has taken there are others, as many as the ring has room for. -/
def AcceptedOnce (cap : Nat) (deliveries : List (Delivery M)) : Prop :=
  ∀ before d between e after id, deliveries = before ++ d :: (between ++ e :: after) → d.eventId = some id →
    e.eventId = some id → d.accepted = true → e.accepted = true →
    cap ≤ ((between.filterMap (·.eventId)).toFinset.erase id).card

/-- An event that the ring knows was taken by the queue before, if it is a message. -/
def KnownAccepted (cfg : FeishuWssConfig M) (gateway : Gateway M) (received : Received) : Prop :=
  ∀ eventId message, eventOf cfg received.data = some (some eventId, some message) → eventId ∈ gateway.dedup.ids →
    ∃ e ∈ gateway.deliveries, e.eventId = some eventId ∧ e.accepted = true

theorem ackedAccepted_concat_iff {deliveries : List (Delivery M)} {d : Delivery M} :
    AckedAccepted (deliveries ++ [d]) ↔ AckedAccepted deliveries ∧ (d.acked = true → d.message.isSome = true →
      d.accepted = true ∨ ∃ e ∈ deliveries, d.eventId.isSome = true ∧ e.eventId = d.eventId ∧ e.accepted = true) := by
  constructor
  · intro h
    refine ⟨fun before d' after heq => h before d' (after ++ [d]) (by rw [heq]; simp), h deliveries d [] rfl⟩
  · rintro ⟨hlog, hlast⟩ before d' after heq
    rcases List.eq_nil_or_concat after with rfl | ⟨after', last, rfl⟩
    · obtain ⟨rfl, hd⟩ := List.append_inj' heq rfl
      obtain rfl := List.singleton_inj.mp hd
      exact hlast
    · rw [List.concat_eq_append, ← List.cons_append, ← List.append_assoc] at heq
      obtain ⟨rfl, -⟩ := List.append_inj' heq rfl
      exact hlog before d' after' rfl

/-- The ring holds the ids that were inserted, and what the queue has taken was inserted. -/
structure Gateway.Inv (gateway : Gateway M) : Prop where
  cap : gateway.dedup.cap = dedupCacheCapacity
  holds : gateway.dedup.Holds (insertedIds gateway.deliveries)
  inserted : ∀ d ∈ gateway.deliveries, d.accepted = true → d.eventId.isSome = true → d.inserted = true

theorem Gateway.inv_new : (Gateway.new : Gateway M).Inv :=
  ⟨rfl, DeduplicateRing.holds_new dedupCacheCapacity, fun _ h => nomatch h⟩

theorem Gateway.Inv.recv {gateway : Gateway M} (h : gateway.Inv) (received : Received) :
    (gateway.recv cfg received).Inv := by
  rcases @recv_cases _ cfg gateway received with ⟨-, heq⟩ | ⟨eventId, message, -, -, hdedup, hdeliveries⟩ |
    ⟨eventId, message, accepted, -, hnew, -, hdedup, hdeliveries⟩
  · rw [heq]
    exact h
  · refine ⟨by rw [hdedup, h.cap], ?_, ?_⟩
    · rw [hdedup, hdeliveries, insertedIds_concat]
      simpa using h.holds
    · rw [hdeliveries, List.forall_mem_append]
      exact ⟨h.inserted, by simp⟩
  · have hcap : 0 < gateway.dedup.cap := by
      rw [h.cap]
      decide
    have hinserted : ∀ d ∈ (gateway.recv cfg received).deliveries, d.accepted = true → d.eventId.isSome = true →
        d.inserted = true := by
      rw [hdeliveries, List.forall_mem_append]
      exact ⟨h.inserted, by simp⟩
    cases eventId with
    | none =>
      refine ⟨by rw [hdedup]; exact h.cap, ?_, hinserted⟩
      rw [hdedup, hdeliveries, insertedIds_concat]
      simpa using h.holds
    | some id =>
      obtain ⟨-, hsame, hholds⟩ := h.holds.containsOrInsert hcap (hnew id rfl)
      refine ⟨?_, ?_, hinserted⟩
      · rw [hdedup]
        exact hsame.trans h.cap
      · rw [hdedup, hdeliveries, insertedIds_concat]
        exact hholds

/-- The ring does not let an event to the queue again before it has put out its id. -/
theorem Gateway.Inv.acceptedOnce {gateway : Gateway M} (h : gateway.Inv) :
    AcceptedOnce dedupCacheCapacity gateway.deliveries := by
  intro before d between e after id heq hd he hdaccepted heaccepted
  have hinserted := h.inserted
  have hspaced := h.holds.spaced
  rw [heq] at hinserted hspaced
  have hdinserted : d.inserted = true := hinserted d (by simp) hdaccepted (by rw [hd]; rfl)
  have heinserted : e.inserted = true := hinserted e (by simp) heaccepted (by rw [he]; rfl)
  have hids : insertedIds (before ++ d :: (between ++ e :: after)) =
      insertedIds before ++ id :: (insertedIds between ++ id :: insertedIds after) := by
    simp [insertedIds, hdinserted, heinserted, hd, he]
  rw [hids, h.cap] at hspaced
  refine hspaced.cap_le_card.trans (Finset.card_le_card (Finset.erase_subset_erase id ?_))
  intro other hother
  rw [List.mem_toFinset] at hother ⊢
  obtain ⟨f, hf, hid⟩ := List.mem_filterMap.mp hother
  exact List.mem_filterMap.mpr ⟨f, List.mem_of_mem_filter hf, hid⟩

/-- Messages are acknowledged only when they were taken, and taken only once, in those runs in which no event that was never
taken comes again while the ring knows it. -/
theorem acked_only_accepted_iff (cfg : FeishuWssConfig M) (frames : List Received) :
    Always (Gateway.step cfg)
      (fun gateway => AckedAccepted gateway.deliveries ∧ AcceptedOnce dedupCacheCapacity gateway.deliveries) frames .new ↔
    Meets (Gateway.step cfg) (KnownAccepted cfg) frames .new := by
  apply always_iff_meets (I := fun gateway : Gateway M => gateway.Inv ∧ AckedAccepted gateway.deliveries)
  · rintro gateway received _ ⟨hinv, hacked⟩ hknown hstep
    obtain rfl := Option.some.inj hstep
    refine ⟨hinv.recv received, ?_⟩
    rcases @recv_cases _ cfg gateway received with ⟨-, heq⟩ | ⟨eventId, message, hevent, hmem, -, hdeliveries⟩ |
      ⟨eventId, message, accepted, -, -, -, -, hdeliveries⟩
    · rw [heq]
      exact hacked
    · rw [hdeliveries, ackedAccepted_concat_iff]
      refine ⟨hacked, fun _ hmessage => .inr ?_⟩
      obtain ⟨msg, rfl⟩ := Option.isSome_iff_exists.mp hmessage
      obtain ⟨e, he, heid, heaccepted⟩ := hknown eventId msg hevent hmem
      exact ⟨e, he, rfl, heid, heaccepted⟩
    · rw [hdeliveries, ackedAccepted_concat_iff]
      refine ⟨hacked, fun hack hmessage => .inl ?_⟩
      simpa [Option.isSome_iff_ne_none.mp hmessage] using hack
  · exact fun gateway h => ⟨h.2, h.1.acceptedOnce⟩
  · rintro gateway received _ ⟨hinv, -⟩ hstep hknown ⟨hacked, -⟩
    obtain rfl := Option.some.inj hstep
    simp only [KnownAccepted, not_forall, not_exists, not_and] at hknown
    obtain ⟨id, msg, hevent, hmem, hnever⟩ := hknown
    rcases @recv_cases _ cfg gateway received with ⟨hnone, -⟩ | ⟨eventId, message, hevent', -, -, hdeliveries⟩ |
      ⟨eventId, message, accepted, hevent', hnew, -⟩
    · rw [hevent] at hnone
      cases hnone
    · rw [hevent] at hevent'
      cases hevent'
      rw [hdeliveries, ackedAccepted_concat_iff] at hacked
      rcases hacked.2 rfl rfl with haccepted | ⟨e, he, -, heid, heaccepted⟩
      · cases haccepted
      · exact hnever e he heid heaccepted
    · rw [hevent] at hevent'
      cases hevent'
      exact hnew id rfl hmem
  · exact ⟨Gateway.inv_new, fun before d after heq => by simp [Gateway.new] at heq⟩

end

/-! An event that comes while the pressure is critical, and comes again. -/

theorem deliveries_redelivered {M : Type} {cfg : FeishuWssConfig M} {data : Bytes} {frame : Frame} {payload eventId : List Char}
    {msg : M} (hframe : eventFrame cfg data = some (frame, payload)) (hid : extractEventId payload = some eventId)
    (hmsg : cfg.eventBodyToPcmsg payload = some msg) :
    (((Gateway.new : Gateway M).recv cfg ⟨data, .critical, .sent⟩).recv cfg ⟨data, .normal, .sent⟩).deliveries =
      [⟨some eventId, some msg, true, false, false⟩] ++ [⟨some eventId, some msg, false, false, true⟩] := by
  have hfirst : (Gateway.new : Gateway M).recv cfg ⟨data, .critical, .sent⟩ =
      ⟨⟨[eventId], 1, dedupCacheCapacity⟩, [], [], [⟨some eventId, some msg, true, false, false⟩]⟩ := by
    simp [Gateway.recv, Gateway.new, onRecv, hframe, hid, hmsg, dispatchToQueue, DeduplicateRing.containsOrInsert,
      DeduplicateRing.new, dedupCacheCapacity]
  rw [hfirst]
  simp [Gateway.recv, onRecv, hframe, hid, hmsg, DeduplicateRing.containsOrInsert]

theorem eventFrame_encodeToVec {M : Type} {cfg : FeishuWssConfig M} {frame : Frame} {payload : List Char}
    (hwidth : cfg.width ≤ 64) (hservice : 0 ≤ frame.service.val) (hmethod : frame.method.val = frameMethodData)
    (hheaders : frame.headers = [⟨headerType, messageTypeEvent⟩]) (hpayload : frame.payload = utf8 payload) (hne : payload ≠ [])
    (hlength : frame.encodeToVec.length < 2 ^ cfg.width) : eventFrame cfg frame.encodeToVec = some (frame, payload) := by
  have htype : ((frame.headers.find? (·.key = headerType)).map (·.value)).getD [] = messageTypeEvent := by
    rw [hheaders]
    rfl
  have hbytes : frame.payload ≠ [] := by
    intro hnil
    rw [hpayload] at hnil
    have hle := length_le_utf8 payload
    rw [hnil] at hle
    exact hne (List.length_eq_zero_iff.mp (Nat.le_zero.mp hle))
  rw [eventFrame, frame_decode_encodeToVec hwidth hservice (hmethod ▸ by decide) hlength]
  dsimp only
  rw [if_neg (hmethod ▸ by decide), if_neg (not_not.mpr hmethod), htype, if_neg (not_or.mpr ⟨not_not.mpr rfl, hbytes⟩), hpayload,
    fromUtf8_utf8, Option.map_some]

def helloPayload : List Char :=
  ("\x7b\"header\":\x7b\"event_id\":\"ev-1\"\x7d,\"event\":\x7b\"message\":\x7b\"message_id\":\"om-1\",\"chat_id\":\"oc-1\"," ++
    "\"message_type\":\"text\",\"content\":\"\x7b\\\"text\\\":\\\"hi\\\"\x7d\"\x7d\x7d\x7d").toList

def helloFrame : Bytes :=
  Frame.encodeToVec ⟨1, 42, ⟨0, by decide⟩, ⟨1, by decide⟩, [⟨headerType, messageTypeEvent⟩], [], [], utf8 helloPayload, []⟩

/-- The text of the one message there is. -/
def helloConfig : FeishuWssConfig String where
  width := 32
  eventBodyToPcmsg payload := if payload = helloPayload then some "hi" else none

theorem refused_event_acked_when_redelivered :
    ¬ ∀ (cfg : FeishuWssConfig String) (frames : List Received), Always (Gateway.step cfg)
      (fun gateway => AckedAccepted gateway.deliveries ∧ AcceptedOnce dedupCacheCapacity gateway.deliveries) frames .new := by
  intro h
  have hrun := h helloConfig [⟨helloFrame, .critical, .sent⟩, ⟨helloFrame, .normal, .sent⟩]
  obtain ⟨hacked, -⟩ := hrun.last rfl
  have hdeliveries : (((Gateway.new : Gateway String).recv helloConfig ⟨helloFrame, .critical, .sent⟩).recv helloConfig
      ⟨helloFrame, .normal, .sent⟩).deliveries = [⟨some "ev-1".toList, some "hi", true, false, false⟩] ++
        [⟨some "ev-1".toList, some "hi", false, false, true⟩] := by
    have hlength : helloFrame.length < 2 ^ 32 := by decide +kernel
    have hne : helloPayload ≠ [] := by decide +kernel
    have hid : extractEventId helloPayload = some "ev-1".toList := by decide +kernel
    have hmsg : helloConfig.eventBodyToPcmsg helloPayload = some "hi" := by simp only [helloConfig, if_true]
    have hframe := @eventFrame_encodeToVec String helloConfig
      ⟨1, 42, ⟨0, by decide⟩, ⟨1, by decide⟩, [⟨headerType, messageTypeEvent⟩], [], [], utf8 helloPayload, []⟩ helloPayload
      (by decide) (by decide) rfl rfl (by dsimp only) hne hlength
    exact deliveries_redelivered hframe hid hmsg
  rw [hdeliveries, ackedAccepted_concat_iff] at hacked
  rcases hacked.2 rfl rfl with haccepted | ⟨e, he, -, -, haccepted⟩
  · cases haccepted
  · rw [List.mem_singleton.mp he] at haccepted
    cases haccepted

end Beetle.Channels.Feishu
