import Beetle.Lib.Run
import Beetle.Wss.Assembly

/-! The stream of bytes that a client puts on its connection, over any sequence of calls. -/
namespace Beetle.Wss
open Beetle.Lib Beetle.Lib.Ws

@[grind =] def sentBytes (log : List SentFrame) : Bytes := log.flatMap SentFrame.accepted

/-- A data call that returned `BEETLE_WSS_OK`, with the bytes that were sent before it and in it. -/
structure OkCall where
  before : Bytes
  bytes : Bytes
  opcode : UInt8
  data : Bytes

structure Session where
  conn : Conn
  oks : List OkCall

/-- A call on the client, with what the outside does during it. -/
inductive Call where
  | sendText (out : Outside) (text : Bytes)
  | sendBinary (out : Outside) (data : Bytes)
  | recv (out : Outside)
  | close (out : Outside)

def Call.out : Call → Outside
  | sendText out _ | sendBinary out _ | recv out | close out => out

namespace Session

def sent (s : Session) : Bytes := sentBytes s.conn.log

def during (s : Session) (out : Outside) : Conn := { s.conn with out }

/-- After a data call that came to this. -/
def afterData (s : Session) (opcode : UInt8) (data : Bytes) (result : Status × Conn) : Session :=
  ⟨result.2,
    if result.1 = .ok then s.oks ++ [⟨s.sent, sentBytes (result.2.log.drop s.conn.log.length), opcode, data⟩] else s.oks⟩

def call (s : Session) : Call → Session
  | .sendText out text => s.afterData 1 text ((s.during out).sendText text)
  | .sendBinary out data => s.afterData 2 data ((s.during out).sendBinary data)
  | .recv out => ⟨(s.during out).recv.2, s.oks⟩
  | .close out => ⟨(s.during out).close, s.oks⟩

def step (s : Session) (c : Call) : Option Session := some (s.call c)

def connected (maxMessageBytes : Nat) (rx wire : Bytes) : Session :=
  ⟨⟨{ Client.connected maxMessageBytes with rx }, wire, ⟨[], [], [], []⟩, []⟩, []⟩

end Session

/-- TLS has accepted some of it. -/
def SentFrame.Begun (sent : SentFrame) : Prop := sent.accepted ≠ []

/-- TLS has accepted some of it and not all. -/
def SentFrame.Cut (sent : SentFrame) : Prop := sent.Begun ∧ sent.accepted ≠ sent.frame.encode

instance (sent : SentFrame) : Decidable sent.Begun := inferInstanceAs (Decidable (_ ≠ _))
instance (sent : SentFrame) : Decidable sent.Cut := inferInstanceAs (Decidable (_ ∧ _))

/-- The bytes are those of whole frames, of which the last may not be there as a whole. -/
def Framed (bs : Bytes) : Prop := ∃ frames : List ClientFrame, (∀ f ∈ frames, f.Valid) ∧ bs <+: frames.flatMap ClientFrame.encode

/-- The bytes are those of whole frames. -/
def Whole (bs : Bytes) : Prop := ∃ frames : List ClientFrame, (∀ f ∈ frames, f.Valid) ∧ bs = frames.flatMap ClientFrame.encode

/-- The call has put one frame with its data on the stream, behind whole frames. -/
structure OkCall.Contributed (ok : OkCall) (sent : Bytes) : Prop where
  before : Whole ok.before
  frame : ∃ mask, ClientFrame.decode ok.bytes = some (⟨ok.opcode, mask, ok.data⟩, [])
  sent : ok.before ++ ok.bytes <+: sent

/-- What the stream of a session should be: frames, one for each data call that went well, and after the begin of a Close
neither data nor another Close. -/
structure Session.Uncorrupted (s : Session) : Prop where
  stream : Framed s.sent
  calls : ∀ ok ∈ s.oks, ok.Contributed s.sent
  closes : s.conn.log.Pairwise fun sent later => sent.Begun → sent.frame.opcode = 8 → later.Begun →
    later.frame.opcode ≠ 1 ∧ later.frame.opcode ≠ 2 ∧ later.frame.opcode ≠ 8

/-- A frame is refused that comes next, or behind frames that do not end the call. -/
inductive RefusedAhead (max : Nat) : Assembly → Bytes → Prop
  | here {a : Assembly} {bs : Bytes} (hhead : head max bs = .bad) : RefusedAhead max a bs
  | frame {a : Assembly} {bs payload : Bytes} {fin : Bool} {opcode : UInt8} {frameLen : Nat}
      (hhead : head max bs = .frame fin opcode payload frameLen) (hbad : accept max a fin opcode payload = .bad) :
      RefusedAhead max a bs
  | later {a b : Assembly} {bs payload : Bytes} {fin : Bool} {opcode : UInt8} {frameLen : Nat}
      (hhead : head max bs = .frame fin opcode payload frameLen) (hagain : accept max a fin opcode payload = .again b)
      (hlater : RefusedAhead max b (bs.drop frameLen)) : RefusedAhead max a bs

/-- Nothing is accepted after a part of a frame, nor by a `beetle_wss_recv` after a whole Close that comes upon a frame
that it refuses. -/
structure Harmless (c : Conn) : Prop where
  cut : (∃ sent ∈ c.log, sent.Cut) → ¬ Accepts c.out.writes
  refused : c.client.closeSent = true → RefusedAhead c.client.maxMessageBytes c.client.assembly c.available →
    ¬ Accepts c.out.writes

def Session.Harmless (s : Session) : Call → Prop
  | .recv out => Wss.Harmless (s.during out)
  | call => (∃ sent ∈ s.conn.log, sent.Cut) → ¬ Accepts call.out.writes

/-! The order that the log is in. -/

/-- What holds of a client: after a part of a frame, nothing; after the begin of a Close, only pongs. -/
structure Orderly (c : Conn) : Prop where
  valid : ∀ sent ∈ c.log, sent.frame.Valid
  part : ∀ sent ∈ c.log, sent.accepted <+: sent.frame.encode
  cut : c.log.Pairwise fun sent later => sent.Cut → ¬ later.Begun
  closes : c.log.Pairwise fun sent later => sent.Begun → sent.frame.opcode = 8 → later.Begun → later.frame.opcode = 10
  closeSent : ∀ sent ∈ c.log, sent.Begun → sent.frame.opcode = 8 → c.client.closeSent = true ∨ ∃ sent ∈ c.log, sent.Cut
  limit : c.client.maxMessageBytes < 2 ^ 64

section
variable {c t u : Conn} {opcode : UInt8} {payload : Bytes} {status : Status}

theorem Orderly.of_same (h : Orderly c) (hlog : t.log = c.log) (hsent : t.client.closeSent = c.client.closeSent)
    (hmax : t.client.maxMessageBytes = c.client.maxMessageBytes) : Orderly t :=
  ⟨hlog ▸ h.valid, hlog ▸ h.part, hlog ▸ h.cut, hlog ▸ h.closes, by rw [hlog, hsent]; exact h.closeSent, hmax ▸ h.limit⟩

/-- One more frame in the log, of which nothing is accepted where the order forbids it. -/
theorem Orderly.concat (h : Orderly c) {sent : SentFrame} (hlog : t.log = c.log ++ [sent]) (hvalid : sent.frame.Valid)
    (hpart : sent.accepted <+: sent.frame.encode) (hcut : (∃ sent ∈ c.log, sent.Cut) → ¬ sent.Begun)
    (hclose : sent.frame.opcode ≠ 10 → c.client.closeSent = true → ¬ sent.Begun)
    (hkept : c.client.closeSent = true → t.client.closeSent = true)
    (hsent : sent.Begun → sent.frame.opcode = 8 → t.client.closeSent = true ∨ sent.Cut)
    (hmax : t.client.maxMessageBytes = c.client.maxMessageBytes) : Orderly t := by
  refine ⟨?_, ?_, ?_, ?_, ?_, hmax ▸ h.limit⟩
  · rw [hlog]
    exact List.forall_mem_append.mpr ⟨h.valid, fun s hs => List.mem_singleton.mp hs ▸ hvalid⟩
  · rw [hlog]
    exact List.forall_mem_append.mpr ⟨h.part, fun s hs => List.mem_singleton.mp hs ▸ hpart⟩
  · rw [hlog, List.pairwise_append]
    refine ⟨h.cut, List.pairwise_singleton _ _, fun s hs later hlater hscut => ?_⟩
    obtain rfl := List.mem_singleton.mp hlater
    exact hcut ⟨s, hs, hscut⟩
  · rw [hlog, List.pairwise_append]
    refine ⟨h.closes, List.pairwise_singleton _ _, fun s hs later hlater hbegun hop hlast => ?_⟩
    obtain rfl := List.mem_singleton.mp hlater
    by_contra hten
    rcases h.closeSent s hs hbegun hop with hsent | hcuts
    · exact hclose hten hsent hlast
    · exact hcut hcuts hlast
  · rw [hlog]
    refine List.forall_mem_append.mpr ⟨fun s hs hbegun hop => ?_, fun s hs hbegun hop => ?_⟩
    · rcases h.closeSent s hs hbegun hop with hsent | ⟨s', hs', hscut⟩
      · exact .inl (hkept hsent)
      · exact .inr ⟨s', List.mem_append_left _ hs', hscut⟩
    · obtain rfl := List.mem_singleton.mp hs
      exact (hsent hbegun hop).imp_right fun hscut => ⟨s, List.mem_append_right _ (List.mem_singleton_self _), hscut⟩

/-- Sending a frame keeps the order where nothing is accepted that it forbids. -/
theorem Orderly.send (h : Orderly c) (hop : opcode.toNat < 16) (hsends : Sends c opcode payload (status, t))
    (hcut : (∃ sent ∈ c.log, sent.Cut) → ¬ Accepts c.out.writes)
    (hclose : opcode ≠ 10 → c.client.closeSent = true → ¬ Accepts c.out.writes) : Orderly t := by
  cases hsends with
  | tooLong => exact h
  | stopped hgrants hreads hstatus hfits hpart hshort hnone =>
    refine h.concat rfl ⟨hop, Nat.lt_of_le_of_lt hfits h.limit⟩ hpart (fun hcuts hbegun => hbegun (hnone (hcut hcuts)))
      (fun hten hsent hbegun => hbegun (hnone (hclose hten hsent))) id (fun hbegun _ => .inr ⟨hbegun, fun hwhole => ?_⟩) rfl
    exact Nat.ne_of_lt hshort (congrArg List.length hwhole)
  | whole hgrants hreads hfits haccepts =>
    refine h.concat rfl ⟨hop, Nat.lt_of_le_of_lt hfits h.limit⟩ List.prefix_rfl (fun hcuts => absurd haccepts (hcut hcuts))
      (fun hten hsent => absurd haccepts (hclose hten hsent)) (fun hsent => ?_) (fun _ height => .inl ?_) rfl
    · dsimp only
      rw [hsent, Bool.true_or]
    · rw [show opcode = 8 from height]
      exact Bool.or_true _

/-- The order is kept, the log grows, and the loop may go on. -/
structure Goes (c : Conn) (result : Turn × Conn) : Prop where
  orderly : Orderly result.2
  grows : c.log <+: result.2.log
  again : result.1 = .again → Harmless result.2

theorem Goes.of_quiet (h : Orderly c) (hquiet : Quiet c t) {turn : Turn} (hstop : turn ≠ .again) : Goes c (turn, t) :=
  ⟨h.of_same hquiet.log hquiet.closeSent hquiet.max, hquiet.log ▸ List.prefix_rfl, fun hagain => absurd hagain hstop⟩

theorem Sends.grows (h : Sends c opcode payload (status, t)) : c.log <+: t.log ∧
    t.client.maxMessageBytes = c.client.maxMessageBytes := by
  cases h with
  | tooLong => exact ⟨List.prefix_rfl, rfl⟩
  | stopped | whole => exact ⟨List.prefix_append _ _, rfl⟩

/-- A frame that is sent whole leaves what was harmless so. -/
theorem Harmless.ping (h : Harmless c) (hsends : Sends c 10 payload (.ok, t)) :
    (∃ sent ∈ t.log, sent.Cut) → ¬ Accepts t.out.writes := by
  cases hsends with
  | stopped hgrants hreads hstatus => exact absurd rfl hstatus.1
  | whole hgrants hreads hfits haccepts =>
    rintro ⟨sent, hmem, hcut⟩
    rcases List.mem_append.mp hmem with hmem | hmem
    · exact absurd haccepts (h.cut ⟨sent, hmem, hcut⟩)
    · obtain rfl := List.mem_singleton.mp hmem
      exact absurd rfl hcut.2

/-- What is refused behind a frame that does not end the call is refused ahead of it. -/
theorem RefusedAhead.behind {fin : Bool} {frameLen : Nat} {a : Assembly}
    (hhead : head c.client.maxMessageBytes c.client.rx = .frame fin opcode payload frameLen)
    (hagain : accept c.client.maxMessageBytes c.client.assembly fin opcode payload = .again a)
    (hrx : t.client.rx = c.client.rx.drop frameLen) (hwire : t.wire = c.wire) (hreads : t.out.reads = c.out.reads)
    (h : RefusedAhead c.client.maxMessageBytes a t.available) : RefusedAhead c.client.maxMessageBytes c.client.assembly c.available := by
  have hlen := length_of_head hhead
  refine @RefusedAhead.later _ _ a _ payload fin opcode frameLen ?_ hagain ?_
  · rw [Conn.available, head_append (by rw [hhead]; simp), hhead]
  · rw [Conn.available, List.drop_append_of_le_length hlen, ← hrx, ← hwire, ← hreads]
    exact h

theorem FrameEffect.goes {fin : Bool} {frameLen : Nat} {result : Turn × Conn} (h : Orderly c) (hharmless : Harmless c)
    (hhead : head c.client.maxMessageBytes c.client.rx = .frame fin opcode payload frameLen)
    (heffect : FrameEffect c fin opcode payload frameLen result) : Goes c result := by
  have havailable : head c.client.maxMessageBytes c.available = .frame fin opcode payload frameLen := by
    rw [Conn.available, head_append (by rw [hhead]; simp), hhead]
  cases heffect with
  | message hverdict htaken => exact .of_quiet h htaken.quiet (by simp)
  | noMem hgrant hquiet => exact .of_quiet h hquiet (by simp)
  | again hverdict htaken =>
    rename_i a t
    have hquiet := htaken.quiet
    refine ⟨h.of_same hquiet.log hquiet.closeSent hquiet.max, hquiet.log ▸ List.prefix_rfl, fun _ => ⟨?_, ?_⟩⟩
    · rw [hquiet.log, hquiet.writes]
      exact hharmless.cut
    · intro hsent hahead
      rw [hquiet.writes]
      rw [hquiet.max, htaken.assembly] at hahead
      exact hharmless.refused (hquiet.closeSent ▸ hsent) (hahead.behind hhead hverdict htaken.rx hquiet.wire hquiet.reads)
  | ping hop hsends =>
    rename_i status t
    have horder := h.send (by decide) hsends hharmless.cut fun hten => absurd rfl hten
    refine ⟨horder.of_same rfl rfl rfl, hsends.grows.1, fun hagain => ?_⟩
    by_cases hok : status = .ok
    · subst hok
      refine ⟨Harmless.ping (t := t) hharmless hsends, fun hsent hahead => ?_⟩
      cases hsends with
      | stopped hgrants hreads hstatus => exact absurd rfl hstatus.1
      | whole hgrants hreads hfits haccepts =>
        have hverdict : accept c.client.maxMessageBytes c.client.assembly fin opcode payload = .again c.client.assembly := by
          rw [hop]
          rfl
        have hsent' : c.client.closeSent = true := by
          have hor : (c.client.closeSent || decide ((10 : UInt8) = 8)) = true := hsent
          rwa [show decide ((10 : UInt8) = 8) = false from rfl, Bool.or_false] at hor
        rename_i mask out
        have hbehind := @RefusedAhead.behind c (Conn.consumeRx { c with out } frameLen) _ _ _ _ _ hhead hverdict rfl rfl hreads
        exact absurd haccepts (hharmless.refused hsent' (hbehind hahead))
    · rw [if_neg hok] at hagain
      cases hagain
  | bad code hverdict hquiet =>
    rename_i t _
    have hsends := t.sendFrame_sends (by decide : (8 : UInt8).toNat < 16) [.ofNat (code >>> 8), .ofNat code]
    refine ⟨?_, ?_, fun hagain => by cases hagain⟩
    · refine (h.of_same hquiet.log hquiet.closeSent hquiet.max).send (by decide) hsends ?_ fun _ hsent => ?_
      · rw [hquiet.log, hquiet.writes]
        exact hharmless.cut
      · rw [hquiet.writes]
        exact hharmless.refused (hquiet.closeSent ▸ hsent) (.frame havailable hverdict)
    · exact hquiet.log ▸ hsends.grows.1
  | closed hop hquiet =>
    rename_i t
    have hsame := h.of_same hquiet.log hquiet.closeSent hquiet.max
    split
    · exact ⟨hsame.of_same rfl rfl rfl, hquiet.log ▸ List.prefix_rfl, fun hagain => by cases hagain⟩
    · rename_i hsent
      have hsends := t.sendFrame_sends (by decide : (8 : UInt8).toNat < 16) payload
      refine ⟨Orderly.of_same (c := (t.sendFrame 8 payload).2) ?_ rfl rfl rfl, hquiet.log ▸ hsends.grows.1,
        fun hagain => by cases hagain⟩
      refine hsame.send (by decide) hsends ?_ fun _ htrue => absurd htrue hsent
      rw [hquiet.log, hquiet.writes]
      exact hharmless.cut

theorem Harmless.filled (h : Harmless c) (hfill : Filled c t) (hseen : t.available = c.available) : Harmless t := by
  obtain ⟨hsent, -, hmax, hassembly⟩ := hfill.quiet_log
  refine ⟨by rw [hfill.log, hfill.writes]; exact h.cut, fun hclose hahead => ?_⟩
  rw [hmax, hassembly, hseen] at hahead
  rw [hfill.writes]
  exact h.refused (hsent ▸ hclose) hahead

section
variable (h : Orderly c)
include h

theorem Orderly.filled (hfill : Filled c t) : Orderly t :=
  h.of_same hfill.log hfill.quiet_log.1 hfill.quiet_log.2.2.1

theorem recvTurn_goes (hharmless : Harmless c) : Goes c c.recvTurn := by
  have hstart := c.recvTurn_start
  generalize c.recvTurn = result at hstart ⊢
  cases hstart with
  | blocked hfill => exact ⟨h.filled hfill, hfill.log ▸ List.prefix_rfl, fun hagain => by cases hagain⟩
  | refused code hfill hseen hhead =>
    rename_i t
    have hsame := hharmless.filled hfill hseen
    have hmax := hfill.quiet_log.2.2.1
    refine ⟨?_, ?_, fun hagain => by cases hagain⟩
    · cases code with
      | none => exact h.filled hfill
      | some code =>
        refine (h.filled hfill).send (by decide)
          (t.sendFrame_sends (by decide : (8 : UInt8).toNat < 16) [.ofNat (code >>> 8), .ofNat code]) hsame.cut fun _ hsent => ?_
        refine hsame.refused hsent (.here ?_)
        rw [hmax, Conn.available, head_append (by rw [hhead]; simp), hhead]
    · cases code with
      | none => exact hfill.log ▸ List.prefix_rfl
      | some code =>
        have hsends := t.sendFrame_sends (by decide : (8 : UInt8).toNat < 16) [.ofNat (code >>> 8), .ofNat code]
        exact hfill.log ▸ hsends.grows.1
  | framed hfill hseen hhead =>
    rename_i t fin opcode payload frameLen
    rw [← hfill.quiet_log.2.2.1] at hhead
    have hgoes := FrameEffect.goes (h.filled hfill) (hharmless.filled hfill hseen) hhead
      (t.recvFrame_effect fin opcode payload frameLen)
    exact ⟨hgoes.orderly, hfill.log ▸ hgoes.grows, hgoes.again⟩

theorem recvLoop_orderly {fuel : Nat} (hharmless : Harmless c) :
    Orderly (Conn.recvLoop fuel c).2 ∧ c.log <+: (Conn.recvLoop fuel c).2.log := by
  induction fuel generalizing c with
  | zero => exact ⟨h, List.prefix_rfl⟩
  | succ fuel ih =>
    have hgoes := recvTurn_goes h hharmless
    rw [Conn.recvLoop]
    rcases hturn : c.recvTurn with ⟨turn, t⟩
    rw [hturn] at hgoes
    cases turn with
    | again =>
      obtain ⟨horder, hgrows⟩ := ih hgoes.orderly (hgoes.again rfl)
      exact ⟨horder, hgoes.grows.trans hgrows⟩
    | message | stop => exact ⟨hgoes.orderly, hgoes.grows⟩

theorem recv_orderly (hharmless : Harmless c) : Orderly c.recv.2 ∧ c.log <+: c.recv.2.log := by
  unfold Conn.recv
  split
  · exact ⟨h, List.prefix_rfl⟩
  · exact recvLoop_orderly h hharmless

end

end

/-! The stream is what the log says. -/

section
variable {log : List SentFrame} {sent : SentFrame} {ok : OkCall}

/-- The frames that are on the stream. -/
def begunFrames : List SentFrame → List ClientFrame
  | [] => []
  | sent :: log => if sent.accepted = [] then begunFrames log else sent.frame :: begunFrames log

theorem valid_of_begunFrames (h : ∀ sent ∈ log, sent.frame.Valid) : ∀ f ∈ begunFrames log, f.Valid := by
  induction log with
  | nil => exact fun f hf => absurd hf List.not_mem_nil
  | cons sent log ih =>
    rw [List.forall_mem_cons] at h
    rw [begunFrames]
    split
    · exact ih h.2
    · exact List.forall_mem_cons.mpr ⟨h.1, ih h.2⟩

theorem sentBytes_eq_nil (h : ∀ sent ∈ log, ¬ sent.Begun) : sentBytes log = [] :=
  List.flatMap_eq_nil_iff.mpr fun sent hsent => not_not.mp (h sent hsent)

/-- Where none is cut, the stream is that of whole frames. -/
theorem sentBytes_of_whole (h : ∀ sent ∈ log, ¬ sent.Cut) : sentBytes log = (begunFrames log).flatMap ClientFrame.encode := by
  induction log with
  | nil => rfl
  | cons sent log ih =>
    rw [List.forall_mem_cons] at h
    rw [sentBytes, List.flatMap_cons, begunFrames]
    split
    · rename_i hnone
      rw [hnone, List.nil_append]
      exact ih h.2
    · rename_i hbegun
      have hwhole : sent.accepted = sent.frame.encode := by_contra fun hne => h.1 ⟨hbegun, hne⟩
      rw [hwhole, List.flatMap_cons, ← ih h.2]
      rfl

theorem sentBytes_prefix (hpart : ∀ sent ∈ log, sent.accepted <+: sent.frame.encode)
    (hcut : log.Pairwise fun sent later => sent.Cut → ¬ later.Begun) :
    sentBytes log <+: (begunFrames log).flatMap ClientFrame.encode := by
  induction log with
  | nil => exact List.prefix_rfl
  | cons sent log ih =>
    rw [List.forall_mem_cons] at hpart
    rw [List.pairwise_cons] at hcut
    rw [sentBytes, List.flatMap_cons, begunFrames]
    split
    · rename_i hnone
      rw [hnone, List.nil_append]
      exact ih hpart.2 hcut.2
    · rename_i hbegun
      rw [List.flatMap_cons]
      by_cases hwhole : sent.accepted = sent.frame.encode
      · rw [hwhole]
        exact (List.prefix_append_right_inj _).mpr (ih hpart.2 hcut.2)
      · have hnone : log.flatMap SentFrame.accepted = [] := sentBytes_eq_nil fun later hlater => hcut.1 later hlater ⟨hbegun, hwhole⟩
        rw [hnone, List.append_nil]
        exact hpart.1.trans (List.prefix_append _ _)

/-- A call that went well is one frame of the log, sent whole. -/
def OkCall.Logged (ok : OkCall) (log : List SentFrame) : Prop :=
  ∃ before sent later, log = before ++ sent :: later ∧ sent.accepted = sent.frame.encode ∧
    sent.frame.opcode = ok.opcode ∧ sent.frame.payload = ok.data ∧ ok.before = sentBytes before ∧ ok.bytes = sent.accepted

theorem OkCall.Logged.mono {log' : List SentFrame} (h : ok.Logged log) (hgrows : log <+: log') : ok.Logged log' := by
  obtain ⟨before, sent, later, rfl, hrest⟩ := h
  obtain ⟨more, rfl⟩ := hgrows
  exact ⟨before, sent, later ++ more, by simp, hrest⟩

theorem OkCall.Logged.contributed (h : ok.Logged log) (hvalid : ∀ sent ∈ log, sent.frame.Valid)
    (hcut : log.Pairwise fun sent later => sent.Cut → ¬ later.Begun) : ok.Contributed (sentBytes log) := by
  obtain ⟨before, sent, later, rfl, hwhole, hop, hdata, hbefore, hbytes⟩ := h
  have hbegun : sent.Begun := by
    rw [SentFrame.Begun, hwhole]
    exact ClientFrame.encode_ne_nil _
  rw [List.pairwise_append] at hcut
  have hnone : ∀ s ∈ before, ¬ s.Cut := fun s hs hscut => hcut.2.2 s hs sent List.mem_cons_self hscut hbegun
  have hsent : sent.frame.Valid := hvalid sent (List.mem_append_right _ List.mem_cons_self)
  refine ⟨⟨begunFrames before, ?_, by rw [hbefore, sentBytes_of_whole hnone]⟩, ⟨sent.frame.mask, ?_⟩, ?_⟩
  · exact valid_of_begunFrames fun s hs => hvalid s (List.mem_append_left _ hs)
  · have hread := ClientFrame.decode_encode hsent []
    rw [List.append_nil] at hread
    rw [hbytes, hwhole, hread, ← hop, ← hdata]
  · rw [hbefore, hbytes, sentBytes, sentBytes, List.flatMap_append, List.flatMap_cons, ← List.append_assoc]
    exact List.prefix_append _ _

end

namespace Session
variable {s t : Session}

/-- The log is in order, and it has the calls that went well. -/
structure Ordered (s : Session) : Prop where
  orderly : Orderly s.conn
  oks : ∀ ok ∈ s.oks, ok.Logged s.conn.log

section
variable (h : s.Ordered)
include h

theorem Ordered.uncorrupted : s.Uncorrupted where
  stream := ⟨begunFrames s.conn.log, valid_of_begunFrames h.orderly.valid, sentBytes_prefix h.orderly.part h.orderly.cut⟩
  calls := fun ok hok => (h.oks ok hok).contributed h.orderly.valid h.orderly.cut
  closes := h.orderly.closes.imp fun hclose hbegun hop hlater => by
    rw [hclose hbegun hop hlater]
    decide

theorem Ordered.of_conn {c : Conn} (horder : Orderly c) (hgrows : s.conn.log <+: c.log) : Ordered ⟨c, s.oks⟩ :=
  ⟨horder, fun ok hok => (h.oks ok hok).mono hgrows⟩

/-- A data call sends one frame, or nothing. -/
theorem Ordered.afterData {out : Outside} {opcode : UInt8} (hop : opcode.toNat < 16) {data : Bytes}
    (hcut : (∃ sent ∈ s.conn.log, sent.Cut) → ¬ Accepts out.writes) {result : Status × Conn}
    (hresult : result = (.closed, s.during out) ∨
      (s.conn.client.closeSent ≠ true ∧ Sends (s.during out) opcode data result)) : (s.afterData opcode data result).Ordered := by
  have hduring : Orderly (s.during out) := h.orderly.of_same rfl rfl rfl
  rcases hresult with rfl | ⟨hsent, hsends⟩
  · exact h.of_conn hduring List.prefix_rfl
  · obtain ⟨status, c⟩ := result
    have horder : Orderly c := hduring.send hop hsends hcut fun _ htrue => absurd htrue hsent
    have hgrows : s.conn.log <+: c.log := hsends.grows.1
    refine ⟨horder, fun ok hok => ?_⟩
    rw [Session.afterData] at hok
    dsimp only at hok
    split at hok
    · rename_i hstatus
      rcases List.mem_append.mp hok with hok | hok
      · exact (h.oks ok hok).mono hgrows
      · obtain rfl := List.mem_singleton.mp hok
        subst hstatus
        cases hsends with
        | stopped hgrants hreads hstatus => exact absurd rfl hstatus.1
        | whole =>
          refine ⟨s.conn.log, _, [], rfl, rfl, rfl, rfl, rfl, ?_⟩
          change sentBytes ((s.conn.log ++ [_]).drop s.conn.log.length) = _
          rw [List.drop_left' rfl, sentBytes, List.flatMap_singleton]
    · exact (h.oks ok hok).mono hgrows

theorem Ordered.call {call : Call} (hharmless : s.Harmless call) : (s.call call).Ordered := by
  cases call with
  | sendText out text =>
    refine h.afterData (by decide) hharmless ?_
    unfold Conn.sendText
    split
    · exact .inl rfl
    · rename_i hopen
      exact .inr ⟨fun hsent => hopen (.inl hsent), Conn.sendFrame_sends _ (by decide) text⟩
  | sendBinary out data =>
    refine h.afterData (by decide) hharmless ?_
    unfold Conn.sendBinary
    split
    · exact .inl rfl
    · rename_i hopen
      exact .inr ⟨fun hsent => hopen (.inl hsent), Conn.sendFrame_sends _ (by decide) data⟩
  | recv out =>
    obtain ⟨horder, hgrows⟩ := recv_orderly (c := s.during out) (h.orderly.of_same rfl rfl rfl) hharmless
    exact h.of_conn horder hgrows
  | close out =>
    have hduring : Orderly (s.during out) := h.orderly.of_same rfl rfl rfl
    rw [Session.call]
    unfold Conn.close
    split
    · exact h.of_conn hduring List.prefix_rfl
    · rename_i hopen
      have hsends := Conn.sendFrame_sends (s.during out) (by decide : (8 : UInt8).toNat < 16) []
      refine h.of_conn (hduring.send (by decide) hsends hharmless fun _ hsent => ?_) hsends.grows.1
      exact absurd (.inl hsent) hopen

end

theorem ordered_connected {max : Nat} (hmax : max < 2 ^ 32) (rx wire : Bytes) : (connected max rx wire).Ordered := by
  refine ⟨⟨?_, ?_, .nil, .nil, ?_, Nat.lt_trans hmax (by decide)⟩, fun ok hok => absurd hok List.not_mem_nil⟩
  all_goals exact fun sent hsent => absurd hsent List.not_mem_nil

/-- In every run whose calls are harmless the stream is uncorrupted. -/
theorem always_uncorrupted {max : Nat} (hmax : max < 2 ^ 32) (rx wire : Bytes) (calls : List Call)
    (hmeets : Meets step Harmless calls (connected max rx wire)) : Always step Uncorrupted calls (connected max rx wire) := by
  refine always_of_meets (I := Ordered) (C := Harmless) ?_ (fun s h => h.uncorrupted) calls _ (ordered_connected hmax rx wire) hmeets
  intro s call t hs hharmless ht
  obtain rfl := Option.some.inj ht
  exact hs.call hharmless

/-- A text, a pong and a Close that all go through. -/
def politeCalls : List Call :=
  [.sendText ⟨[], [.accepted 10, .accepted 10], [⟨1, 2, 3, 4⟩], []⟩ [104, 105],
    .recv ⟨[.data 10], [.accepted 10, .accepted 10], [], []⟩, .close ⟨[], [.accepted 10], [], []⟩]

theorem polite_uncorrupted : Always step Uncorrupted politeCalls (connected 100 [] [0x89, 1, 7]) := by
  apply always_uncorrupted (by decide)
  intro t ht
  obtain rfl := Option.some.inj ht
  refine ⟨fun h => absurd h (by decide), fun t ht => ?_⟩
  obtain rfl := Option.some.inj ht
  refine ⟨⟨fun h => absurd h (by decide +kernel), fun h => absurd h (by decide +kernel)⟩, fun t ht => ?_⟩
  obtain rfl := Option.some.inj ht
  exact ⟨fun h => absurd h (by decide +kernel), trivial⟩

/-- A text that times out after three bytes, and another one. -/
def hastyCalls : List Call :=
  [.sendText ⟨[], [.accepted 2, .want], [], []⟩ [104, 105], .sendText ⟨[], [.accepted 10, .accepted 10], [], []⟩ [104, 105]]

theorem hasty_corrupted : ¬ Always step Uncorrupted hastyCalls (connected 100 [] []) := by
  intro h
  have hlast := (h.2 _ rfl).2 _ rfl
  have hoks : ((((connected 100 [] []).call hastyCalls[0]).call hastyCalls[1]).oks.map fun ok => (ok.before, ok.opcode, ok.data)) =
      [([0x81, 0x82, 0], 1, [104, 105])] := by decide +kernel
  obtain ⟨ok, rest, hcons, hok, -⟩ := List.map_eq_cons_iff.mp hoks
  have hmem : ok ∈ (((connected 100 [] []).call hastyCalls[0]).call hastyCalls[1]).oks := hcons ▸ List.mem_cons_self
  obtain ⟨frames, -, hframes⟩ := (hlast.calls ok hmem).before
  rw [show ok.before = [0x81, 0x82, 0] from congrArg Prod.fst hok] at hframes
  cases frames with
  | nil => cases hframes
  | cons f frames =>
    have hlen := congrArg List.length hframes
    rw [List.flatMap_cons, List.length_append] at hlen
    have hlong := f.six_le_length_encode
    simp only [List.length_cons, List.length_nil] at hlen
    omega

end Session

end Beetle.Wss
