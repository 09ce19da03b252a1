import Beetle.Wss.Reading
import Beetle.Wss.Writing

/-! How frames are put together to messages. -/
namespace Beetle.Wss
open Beetle.Lib Beetle.Lib.Ws

/-- The message that is being put together; its opcode is 0 where there is none. -/
structure Assembly where
  opcode : UInt8
  data : Bytes

def Assembly.none : Assembly := ⟨0, []⟩

def Client.assembly (client : Client) : Assembly := ⟨client.fragmentOpcode, client.fragment⟩

/-- What becomes of a frame: it finishes a message, it is taken in, it is refused, or it closes the connection. -/
inductive Verdict where
  | message (data : Bytes) (a : Assembly)
  | again (a : Assembly)
  | bad
  | closed

def accept (max : Nat) (a : Assembly) (fin : Bool) (opcode : UInt8) (payload : Bytes) : Verdict :=
  if opcode = 0 then
    if a.opcode = 0 ∨ (payload ≠ [] ∧ max < a.data.length + payload.length) then .bad
    else if fin then .message (a.data ++ payload) .none
    else .again ⟨a.opcode, a.data ++ payload⟩
  else if opcode = 1 ∨ opcode = 2 then
    if a.opcode ≠ 0 then .bad
    else if fin then .message payload a
    else if payload ≠ [] ∧ max < a.data.length + payload.length then .bad
    else .again ⟨opcode, a.data ++ payload⟩
  else if opcode = 8 then .closed
  else if opcode = 9 ∨ opcode = 10 then .again a
  else .bad

/-- Nothing is sent, and nothing changes that says what may be sent. -/
structure Quiet (c t : Conn) : Prop where
  max : t.client.maxMessageBytes = c.client.maxMessageBytes
  closeSent : t.client.closeSent = c.client.closeSent
  closeReceived : t.client.closeReceived = c.client.closeReceived
  wire : t.wire = c.wire
  log : t.log = c.log
  writes : t.out.writes = c.out.writes
  reads : t.out.reads = c.out.reads
  grants : t.out.grants <:+ c.out.grants

/-- The frame has gone from the buffer, and the assembly is this one. -/
structure Taken (c t : Conn) (frameLen : Nat) (a : Assembly) : Prop where
  quiet : Quiet c t
  rx : t.client.rx = c.client.rx.drop frameLen
  assembly : t.client.assembly = a

/-- All that a frame that is there as a whole can do. -/
inductive FrameEffect (c : Conn) (fin : Bool) (opcode : UInt8) (payload : Bytes) (frameLen : Nat) : Turn × Conn → Prop
  | message {data : Bytes} {a : Assembly} {t : Conn}
      (hverdict : accept c.client.maxMessageBytes c.client.assembly fin opcode payload = .message data a)
      (htaken : Taken c t frameLen a) : FrameEffect c fin opcode payload frameLen (.message data, t)
  | again {a : Assembly} {t : Conn}
      (hverdict : accept c.client.maxMessageBytes c.client.assembly fin opcode payload = .again a)
      (htaken : Taken c t frameLen a) : FrameEffect c fin opcode payload frameLen (.again, t)
  | ping {status : Status} {t : Conn} (hopcode : opcode = 9) (hsends : Sends c 0x0A payload (status, t)) :
      FrameEffect c fin opcode payload frameLen (if status = .ok then .again else .stop status, t.consumeRx frameLen)
  | bad {t : Conn} (code : Nat)
      (hverdict : accept c.client.maxMessageBytes c.client.assembly fin opcode payload = .bad) (hquiet : Quiet c t)
      (hsame : (c.client.fragmentOpcode = 0 → c.client.fragment = []) → payload.length ≤ c.client.maxMessageBytes →
        t.client = c.client) :
      FrameEffect c fin opcode payload frameLen (.stop .protocol, t.sendCloseCode code)
  | closed {t : Conn} (hopcode : opcode = 8) (hquiet : Quiet c t) :
      FrameEffect c fin opcode payload frameLen
        (.stop .closed, ((if t.client.closeSent then t else (t.sendFrame 8 payload).2).receiveClose frameLen))
  | noMem {t : Conn} (hgrant : false ∈ c.out.grants) (hquiet : Quiet c t) :
      FrameEffect c fin opcode payload frameLen (.stop .noMem, t)

theorem Quiet.refl (c : Conn) : Quiet c c := ⟨rfl, rfl, rfl, rfl, rfl, rfl, rfl, List.suffix_rfl⟩

theorem Filled.quiet_log {c t : Conn} (h : Filled c t) : t.client.closeSent = c.client.closeSent ∧
    t.client.closeReceived = c.client.closeReceived ∧ t.client.maxMessageBytes = c.client.maxMessageBytes ∧
    t.client.assembly = c.client.assembly := by
  rw [h.client]
  exact ⟨rfl, rfl, rfl, rfl⟩

namespace Conn

variable (c : Conn)

theorem quiet_grant : Quiet c c.grant.2 := ⟨rfl, rfl, rfl, rfl, rfl, rfl, rfl, List.tail_suffix _⟩

theorem false_mem_grants {c : Conn} (h : c.out.grants.headD true = false) : false ∈ c.out.grants := by
  cases hgrants : c.out.grants with
  | nil =>
    rw [hgrants] at h
    cases h
  | cons g rest =>
    rw [hgrants] at h
    obtain rfl : g = false := h
    exact List.mem_cons_self

/-- A fragment is added to those before it, or it is too much, or there is no memory for it. -/
theorem appendFragment_cases (payload : Bytes) :
    (∃ t, c.appendFragment payload = (.ok, t) ∧ ¬ (payload ≠ [] ∧ c.client.maxMessageBytes < c.client.fragment.length + payload.length) ∧
      Quiet c t ∧ t.client.rx = c.client.rx ∧ t.client.assembly = ⟨c.client.fragmentOpcode, c.client.fragment ++ payload⟩) ∨
    (payload ≠ [] ∧ c.client.maxMessageBytes < c.client.fragment.length + payload.length ∧
      c.appendFragment payload = (.protocol, c)) ∨
    (false ∈ c.out.grants ∧ ∃ t, c.appendFragment payload = (.noMem, t) ∧ Quiet c t) := by
  unfold appendFragment
  split
  · rename_i hempty
    refine .inl ⟨c, rfl, fun h => h.1 hempty, .refl c, rfl, ?_⟩
    rw [hempty, List.append_nil]
    rfl
  · rename_i hne
    split
    · rename_i hlong
      exact .inr (.inl ⟨hne, hlong, rfl⟩)
    · rename_i hfits
      cases hfirst : c.out.grants.headD true with
      | true =>
        refine .inl ⟨{ c.grant.2 with client := { c.client with fragment := c.client.fragment ++ payload } },
          by simp only [grant, hfirst], fun h => hfits h.2, ?_, rfl, rfl⟩
        exact ⟨rfl, rfl, rfl, rfl, rfl, rfl, rfl, List.tail_suffix _⟩
      | false => exact .inr (.inr ⟨false_mem_grants hfirst, c.grant.2, by simp only [grant, hfirst], c.quiet_grant⟩)

theorem quiet_consumeRx (len : Nat) : Quiet c (c.consumeRx len) := ⟨rfl, rfl, rfl, rfl, rfl, rfl, rfl, List.suffix_rfl⟩

theorem recvContinuation_effect (fin : Bool) (payload : Bytes) (frameLen : Nat) :
    FrameEffect c fin 0 payload frameLen (c.recvContinuation fin payload frameLen) := by
  unfold recvContinuation
  have hverdict : accept c.client.maxMessageBytes c.client.assembly fin 0 payload =
      if c.client.fragmentOpcode = 0 ∨ (payload ≠ [] ∧ c.client.maxMessageBytes < c.client.fragment.length + payload.length) then .bad
      else if fin then .message (c.client.fragment ++ payload) .none
      else .again ⟨c.client.fragmentOpcode, c.client.fragment ++ payload⟩ := if_pos rfl
  split
  · rename_i hstart
    exact .bad 1002 (by rw [hverdict, if_pos (.inl hstart)]) (.refl c) fun _ _ => rfl
  · rename_i hstart
    rcases c.appendFragment_cases payload with ⟨t, happend, hfits, hquiet, hrx, hassembly⟩ | ⟨hne, hlong, happend⟩ |
      ⟨hgrant, t, happend, hquiet⟩
    · have hallowed : ¬ (c.client.fragmentOpcode = 0 ∨
          (payload ≠ [] ∧ c.client.maxMessageBytes < c.client.fragment.length + payload.length)) := fun h => h.elim hstart hfits
      simp only [happend]
      have hdata : t.client.fragment = c.client.fragment ++ payload := congrArg Assembly.data hassembly
      cases fin with
      | true =>
        have htaken : Taken c (t.consumeRx frameLen).resetFragment frameLen .none :=
          ⟨⟨hquiet.max, hquiet.closeSent, hquiet.closeReceived, hquiet.wire, hquiet.log, hquiet.writes, hquiet.reads, hquiet.grants⟩,
            congrArg (List.drop frameLen) hrx, rfl⟩
        have hdone := @FrameEffect.message c true 0 payload _ _ _ _ (by rw [hverdict, if_neg hallowed, if_pos rfl]) htaken
        rw [← hdata] at hdone
        exact hdone
      | false =>
        have htaken : Taken c (t.consumeRx frameLen) frameLen ⟨c.client.fragmentOpcode, c.client.fragment ++ payload⟩ :=
          ⟨⟨hquiet.max, hquiet.closeSent, hquiet.closeReceived, hquiet.wire, hquiet.log, hquiet.writes, hquiet.reads, hquiet.grants⟩,
            congrArg (List.drop frameLen) hrx, hassembly⟩
        exact .again (by rw [hverdict, if_neg hallowed]; rfl) htaken
    · simp only [happend]
      exact .bad 1009 (by rw [hverdict, if_pos (.inr ⟨hne, hlong⟩)]) (.refl c) fun _ _ => rfl
    · simp only [happend]
      exact .noMem hgrant hquiet

theorem recvData_effect (fin : Bool) {opcode : UInt8} (hop : opcode = 1 ∨ opcode = 2) (payload : Bytes)
    (frameLen : Nat) : FrameEffect c fin opcode payload frameLen (c.recvData fin opcode payload frameLen) := by
  unfold recvData
  have hzero : opcode ≠ 0 := by rcases hop with rfl | rfl <;> decide
  have hverdict : accept c.client.maxMessageBytes c.client.assembly fin opcode payload =
      if c.client.fragmentOpcode ≠ 0 then .bad
      else if fin then .message payload c.client.assembly
      else if payload ≠ [] ∧ c.client.maxMessageBytes < c.client.fragment.length + payload.length then .bad
      else .again ⟨opcode, c.client.fragment ++ payload⟩ := by
    rw [accept, if_neg hzero, if_pos hop]
    rfl
  split
  · rename_i hstarted
    exact .bad 1002 (by rw [hverdict, if_pos hstarted]) (.refl c) fun _ _ => rfl
  · rename_i hstarted
    rw [if_neg hstarted] at hverdict
    cases fin with
    | true =>
      rw [if_pos rfl] at hverdict
      rw [if_pos rfl]
      split
      · rename_i hempty
        subst hempty
        exact .message hverdict ⟨c.quiet_consumeRx frameLen, rfl, rfl⟩
      · cases hfirst : c.out.grants.headD true with
        | true =>
          have hread : c.grant = (true, c.grant.2) := Prod.ext hfirst rfl
          rw [hread]
          exact .message hverdict ⟨⟨rfl, rfl, rfl, rfl, rfl, rfl, rfl, List.tail_suffix _⟩, rfl, rfl⟩
        | false =>
          have hread : c.grant = (false, c.grant.2) := Prod.ext hfirst rfl
          rw [hread]
          exact .noMem (false_mem_grants hfirst) c.quiet_grant
    | false =>
      rw [if_neg Bool.false_ne_true] at hverdict
      rw [if_neg Bool.false_ne_true]
      dsimp only
      rcases appendFragment_cases { c with client := { c.client with fragmentOpcode := opcode } } payload with
        ⟨t, happend, hfits, hquiet, hrx, hassembly⟩ | ⟨hne, hlong, happend⟩ | ⟨hgrant, t, happend, hquiet⟩
      · simp only [happend]
        refine .again (by rw [hverdict, if_neg hfits]) ⟨?_, congrArg (List.drop frameLen) hrx, hassembly⟩
        exact ⟨hquiet.max, hquiet.closeSent, hquiet.closeReceived, hquiet.wire, hquiet.log, hquiet.writes, hquiet.reads, hquiet.grants⟩
      · simp only [happend]
        refine .bad 1009 (by rw [hverdict, if_pos ⟨hne, hlong⟩]) ⟨rfl, rfl, rfl, rfl, rfl, rfl, rfl, List.suffix_rfl⟩ ?_
        intro hempty hle
        dsimp only at hlong
        rw [hempty (not_not.mp hstarted)] at hlong
        exact absurd hlong (by simpa using hle)
      · simp only [happend]
        refine .noMem hgrant ?_
        exact ⟨hquiet.max, hquiet.closeSent, hquiet.closeReceived, hquiet.wire, hquiet.log, hquiet.writes, hquiet.reads, hquiet.grants⟩

theorem storeClosePayload_cases (payload : Bytes) :
    (∃ t, c.storeClosePayload payload = (.ok, t) ∧ Quiet c t) ∨
    (false ∈ c.out.grants ∧ ∃ t, c.storeClosePayload payload = (.noMem, t) ∧ Quiet c t) := by
  unfold storeClosePayload
  dsimp only
  split
  · exact .inl ⟨_, rfl, rfl, rfl, rfl, rfl, rfl, rfl, rfl, List.suffix_rfl⟩
  · split
    · exact .inl ⟨_, rfl, rfl, rfl, rfl, rfl, rfl, rfl, rfl, List.suffix_rfl⟩
    · cases hfirst : c.out.grants.headD true with
      | true =>
        simp only [grant, hfirst]
        exact .inl ⟨_, rfl, rfl, rfl, rfl, rfl, rfl, rfl, rfl, List.tail_suffix _⟩
      | false =>
        simp only [grant, hfirst]
        exact .inr ⟨false_mem_grants hfirst, _, rfl, rfl, rfl, rfl, rfl, rfl, rfl, rfl, List.tail_suffix _⟩

theorem recvFrame_effect (fin : Bool) (opcode : UInt8) (payload : Bytes) (frameLen : Nat) :
    FrameEffect c fin opcode payload frameLen (c.recvFrame fin opcode payload frameLen) := by
  unfold recvFrame
  split
  · rename_i hop
    subst hop
    exact c.recvContinuation_effect fin payload frameLen
  · rename_i hzero
    split
    · rename_i hdata
      exact c.recvData_effect fin hdata payload frameLen
    · rename_i hdata
      split
      · rename_i hclose
        unfold recvClose
        rcases c.storeClosePayload_cases payload with ⟨t, hstore, hquiet⟩ | ⟨hgrant, t, hstore, hquiet⟩
        · simp only [hstore]
          exact .closed hclose hquiet
        · simp only [hstore]
          refine .noMem hgrant ?_
          exact ⟨hquiet.max, hquiet.closeSent, hquiet.closeReceived, hquiet.wire, hquiet.log, hquiet.writes, hquiet.reads, hquiet.grants⟩
      · rename_i hclose
        split
        · rename_i hping
          unfold recvPing
          rcases hsend : c.sendFrame 0x0A payload with ⟨status, t⟩
          have hsends := c.sendFrame_sends (by decide : (0x0A : UInt8).toNat < 16) payload
          rw [hsend] at hsends
          have heffect := @FrameEffect.ping c fin _ _ frameLen _ _ hping hsends
          dsimp only
          cases status with
          | ok => exact heffect
          | timeout | closed | disconnected | noMem | io | protocol => exact heffect
        · rename_i hping
          split
          · rename_i hpong
            refine .again ?_ ⟨c.quiet_consumeRx frameLen, rfl, rfl⟩
            rw [accept, if_neg hzero, if_neg hdata, if_neg hclose, if_pos (.inr hpong)]
            rfl
          · rename_i hpong
            refine .bad 1002 ?_ (.refl c) fun _ _ => rfl
            rw [accept, if_neg hzero, if_neg hdata, if_neg hclose, if_neg (not_or.mpr ⟨hping, hpong⟩)]

end Conn

end Beetle.Wss
