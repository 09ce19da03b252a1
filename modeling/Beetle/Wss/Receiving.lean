import Beetle.Wss.Messages

/-! Calls of `beetle_wss_recv`, one after the other, on what a server sends. -/
namespace Beetle.Wss
open Beetle.Lib Beetle.Lib.Ws

/-- A frame is read back, or refused before it is there. -/
theorem head_encode (max : Nat) (a : Assembly) {f : WireFrame} (h : f.form.Fits f.payload.length) (more : Bytes) :
    (head max (f.encode ++ more) = .bad ∧ frameVerdict max a f = .bad) ∨
    (head max (f.encode ++ more) = .frame f.fin f.opcode f.payload f.encode.length ∧ f.payload.length ≤ max ∧
      frameVerdict max a f = accept max a f.fin f.opcode f.payload) := by
  obtain ⟨first, mask, form, payload⟩ := f
  cases mask with
  | some mask =>
    obtain ⟨second, rest, hencode, hbit, -⟩ := exists_encode h (.inr rfl)
    refine .inl ⟨?_, if_pos (.inr (.inl rfl))⟩
    have htext : (⟨first, some mask, form, payload⟩ : WireFrame).encode ++ more =
        first :: second :: (rest ++ (mask.bytes ++ (payload ++ more))) := by
      simp [WireFrame.encode, WireFrame.header, hencode]
    rw [htext, head, if_pos (.inr (by rw [hbit]; decide))]
  | none =>
    obtain ⟨second, rest, hencode, hbit, hread⟩ := exists_encode h (.inl rfl)
    have hheader : (⟨first, none, form, payload⟩ : WireFrame).header = first :: second :: rest := by
      simp [WireFrame.header, hencode]
    have htext : (⟨first, none, form, payload⟩ : WireFrame).encode ++ more = first :: second :: (rest ++ (payload ++ more)) := by
      simp [WireFrame.encode, hheader]
    have hlen : 2 + ((rest ++ (payload ++ more)).length - (payload ++ more).length) =
        (⟨first, none, form, payload⟩ : WireFrame).header.length := by
      rw [hheader, List.length_append]
      simp only [List.length_cons]
      omega
    rw [htext]
    by_cases hreserved : first &&& 0x70 ≠ 0
    · exact .inl ⟨by rw [head, if_pos (.inl hreserved)], if_pos (.inl hreserved)⟩
    · have hbits : ¬ (first &&& 0x70 ≠ 0 ∨ second &&& 0x80 ≠ 0) := fun h => h.elim hreserved fun h => h hbit
      rw [head_of_decodeLength hbits (hread (payload ++ more)), hlen]
      by_cases hrefused : Refused max (decide (first &&& 0x80 ≠ 0)) (first &&& 0x0F)
        (⟨first, none, form, payload⟩ : WireFrame).header.length payload.length
      · exact .inl ⟨if_pos hrefused, if_pos (.inr (.inr hrefused))⟩
      · refine .inr ⟨?_, Nat.not_lt.mp fun h => hrefused (.inl h), if_neg fun h => h.elim hreserved fun h => h.elim (by simp) hrefused⟩
        rw [if_neg hrefused, if_neg (Nat.not_lt.mpr (by simp)), List.take_left' rfl, WireFrame.encode, List.length_append]
        rfl

/-! What is still to come. -/

/-- Frames that make these messages, and the rest behind them. -/
structure Pending (max : Nat) (c : Conn) (fs : List WireFrame) (rest : Bytes) (events : List Bytes) (a : Assembly) : Prop where
  limit : c.client.maxMessageBytes = max
  stream : c.client.rx ++ c.wire = fs.flatMap WireFrame.encode ++ rest
  delivers : deliver max c.client.assembly fs = some (events, a)
  fits : ∀ f ∈ fs, f.form.Fits f.payload.length
  sound : c.client.assembly.Sound
  closeReceived : c.client.closeReceived = false

/-- A frame that is refused, and the bytes behind it; or nothing. -/
abbrev Ending := Option (WireFrame × Bytes)

def Ending.bytes : Ending → Bytes
  | none => []
  | some (f, more) => f.encode ++ more

def Ending.rest : Ending → Bytes
  | none => []
  | some (_, more) => more

theorem Ending.length_rest (ending : Ending) : ending.rest.length ≤ ending.bytes.length := by
  cases ending with
  | none => exact Nat.le_refl _
  | some last =>
    change last.2.length ≤ (last.1.encode ++ last.2).length
    rw [List.length_append]
    omega

def Ending.Refused (max : Nat) (a : Assembly) (ending : Ending) : Prop :=
  ∀ f more, ending = some (f, more) → f.form.Fits f.payload.length ∧ frameVerdict max a f = .bad

/-- A pong of the call was not accepted as a whole. -/
def PongCut (c t : Conn) : Prop :=
  ∃ sent ∈ t.log.drop c.log.length, sent.frame.opcode = 0x0A ∧ sent.accepted ≠ sent.frame.encode

instance (c t : Conn) : Decidable (PongCut c t) := inferInstanceAs (Decidable (∃ sent ∈ _, _))

/-- How a call ends: with the next message, for want of bytes or because a pong was cut, or at the frame that is refused. -/
inductive Outcome (max : Nat) (ending : Ending) (a : Assembly) (c : Conn) (events : List Bytes) : Turn × Conn → Prop
  | message {data : Bytes} {later : List Bytes} {t : Conn} {fs : List WireFrame} (hevents : events = data :: later)
      (hpending : Pending max t fs ending.bytes later a) : Outcome max ending a c events (.message data, t)
  | stopped {status : Status} {t : Conn} {fs : List WireFrame} (hstatus : status ≠ .protocol)
      (hpending : Pending max t fs ending.bytes events a) (hwhy : head max t.client.rx = .more ∨ PongCut c t) :
      Outcome max ending a c events (.stop status, t)
  | refused {t : Conn} (hending : ending.isSome) (hevents : events = []) (hpending : Pending max t [] ending.bytes [] a) :
      Outcome max ending a c events (.stop .protocol, t)

section
variable {max : Nat} {c t u : Conn} {f : WireFrame} {fs : List WireFrame} {rest : Bytes} {events : List Bytes} {a : Assembly}
  {ending : Ending} {result : Turn × Conn}

theorem Pending.filled (h : Pending max c fs rest events a) (hfill : Filled c t) : Pending max t fs rest events a := by
  have hassembly : t.client.assembly = c.client.assembly := hfill.quiet_log.2.2.2
  exact ⟨hfill.quiet_log.2.2.1.trans h.limit, hfill.stream.trans h.stream, hassembly ▸ h.delivers, h.fits, hassembly ▸ h.sound,
    hfill.quiet_log.2.1.trans h.closeReceived⟩

/-- Nothing that is read changes when a frame is sent. -/
theorem Sends.keeps {opcode : UInt8} {payload : Bytes} {status : Status} (h : Sends c opcode payload (status, t)) :
    t.client = { c.client with closeSent := t.client.closeSent } ∧ t.wire = c.wire ∧ t.out.grants = c.out.grants ∧
      c.log.length ≤ t.log.length := by
  cases h with
  | tooLong => exact ⟨rfl, rfl, rfl, Nat.le_refl _⟩
  | stopped hgrants => exact ⟨rfl, rfl, hgrants, by simp⟩
  | whole hgrants => exact ⟨rfl, rfl, hgrants, by simp⟩

theorem Pending.sent (h : Pending max c fs rest events a) (hclient : t.client = { c.client with closeSent := t.client.closeSent })
    (hwire : t.wire = c.wire) : Pending max t fs rest events a := by
  have hrx : t.client.rx = c.client.rx := by rw [hclient]
  have hassembly : t.client.assembly = c.client.assembly := by rw [hclient]; rfl
  refine ⟨?_, by rw [hrx, hwire, h.stream], hassembly ▸ h.delivers, h.fits, hassembly ▸ h.sound, ?_⟩
  · rw [hclient]
    exact h.limit
  · rw [hclient]
    exact h.closeReceived

theorem Pending.sendCloseCode (h : Pending max c fs rest events a) (code : Nat) :
    Pending max (c.sendCloseCode code) fs rest events a := by
  have hsends := (c.sendFrame_sends (by decide : (8 : UInt8).toNat < 16) [.ofNat (code >>> 8), .ofNat code]).keeps
  exact h.sent hsends.1 hsends.2.1

/-- The next frame has been taken out of the buffer. -/
theorem Pending.taken (h : Pending max c (f :: fs) rest events a) (hlen : f.encode.length ≤ c.client.rx.length)
    (htaken : t.client.rx = c.client.rx.drop f.encode.length) (hwire : t.wire = c.wire)
    (hmax : t.client.maxMessageBytes = c.client.maxMessageBytes) (hclose : t.client.closeReceived = c.client.closeReceived)
    (hsound : t.client.assembly.Sound) {later : List Bytes} (hdelivers : deliver max t.client.assembly fs = some (later, a)) :
    Pending max t fs rest later a := by
  refine ⟨hmax.trans h.limit, ?_, hdelivers, fun g hg => h.fits g (List.mem_cons_of_mem _ hg), hsound, hclose.trans h.closeReceived⟩
  have hstream := h.stream
  rw [List.flatMap_cons, List.append_assoc] at hstream
  have hdrop := congrArg (List.drop f.encode.length) hstream
  rw [List.drop_append_of_le_length hlen, List.drop_left' rfl] at hdrop
  rw [htaken, hwire, hdrop]

theorem encode_ne_nil (f : WireFrame) : f.encode ≠ [] := List.cons_ne_nil _ _

theorem PongCut.before (hcut : PongCut t u) (hlog : c.log.length ≤ t.log.length) : PongCut c u := by
  obtain ⟨sent, hmem, hsent⟩ := hcut
  exact ⟨sent, (List.drop_sublist_drop_left _ hlog).subset hmem, hsent⟩

theorem Outcome.before (h : Outcome max ending a t events result) (hlog : c.log.length ≤ t.log.length) :
    Outcome max ending a c events result := by
  cases h with
  | message hevents hpending => exact .message hevents hpending
  | stopped hstatus hpending hwhy => exact .stopped hstatus hpending (hwhy.imp_right (·.before hlog))
  | refused hending hevents hpending => exact .refused hending hevents hpending

/-- A turn that comes upon the next frame. -/
theorem Pending.recvFrame (h : Pending max c (f :: fs) ending.bytes events a) (hgrants : false ∉ c.out.grants)
    (hlen : f.encode.length ≤ c.client.rx.length) (hfits : f.payload.length ≤ max)
    (hverdict : frameVerdict max c.client.assembly f = accept max c.client.assembly f.fin f.opcode f.payload)
    (hresult : c.recvFrame f.fin f.opcode f.payload f.encode.length = result) :
    (∃ t, result = (.again, t) ∧ Pending max t fs ending.bytes events a ∧ false ∉ t.out.grants ∧ c.log.length ≤ t.log.length) ∨
      Outcome max ending a c events result := by
  have heffect := c.recvFrame_effect f.fin f.opcode f.payload f.encode.length
  rw [hresult] at heffect
  have hdelivers := h.delivers
  rw [deliver, hverdict] at hdelivers
  cases heffect with
  | message haccept htaken =>
    rw [h.limit] at haccept
    rw [haccept] at hdelivers
    obtain ⟨⟨later, b⟩, hlater, heq⟩ := Option.map_eq_some_iff.mp hdelivers
    cases heq
    refine .inr (.message rfl (h.taken hlen htaken.rx htaken.quiet.wire htaken.quiet.max htaken.quiet.closeReceived ?_ ?_))
    · rw [htaken.assembly]
      exact h.sound.accept (.inl ⟨_, haccept⟩)
    · rw [htaken.assembly]
      exact hlater
  | again haccept htaken =>
    rw [h.limit] at haccept
    rw [haccept] at hdelivers
    refine .inl ⟨_, rfl, h.taken hlen htaken.rx htaken.quiet.wire htaken.quiet.max htaken.quiet.closeReceived ?_ ?_,
      fun hmem => hgrants (htaken.quiet.grants.subset hmem), htaken.quiet.log ▸ Nat.le_refl _⟩
    · rw [htaken.assembly]
      exact h.sound.accept (.inr haccept)
    · rw [htaken.assembly]
      exact hdelivers
  | ping hop hsends =>
    rename_i status t
    have haccept : accept max c.client.assembly f.fin f.opcode f.payload = .again c.client.assembly := by
      rw [hop]
      rfl
    rw [haccept] at hdelivers
    obtain ⟨hclient, hwire, hsame, hlog⟩ := hsends.keeps
    have hrx : t.client.rx = c.client.rx := by rw [hclient]
    have hassembly : t.client.assembly = c.client.assembly := by rw [hclient]; rfl
    have hpending : Pending max (t.consumeRx f.encode.length) fs ending.bytes events a := by
      refine h.taken (t := t.consumeRx f.encode.length) hlen (congrArg _ hrx) hwire ?_ ?_ (show t.client.assembly.Sound from hassembly ▸ h.sound) ?_
      · change t.client.maxMessageBytes = _
        rw [hclient]
      · change t.client.closeReceived = _
        rw [hclient]
      · rw [← hassembly] at hdelivers
        exact hdelivers
    by_cases hok : status = .ok
    · rw [if_pos hok]
      exact .inl ⟨_, rfl, hpending, hsame ▸ hgrants, hlog⟩
    · rw [if_neg hok]
      refine .inr ?_
      cases hsends with
      | tooLong hlong =>
        rw [h.limit] at hlong
        exact absurd hfits (Nat.not_le.mpr hlong)
      | stopped hgrants hreads hstatus hfits hpart hshort =>
        rename_i mask accepted out _
        refine .stopped hstatus.2 hpending (.inr ⟨⟨⟨0x0A, mask, f.payload⟩, accepted⟩, ?_, rfl, ?_⟩)
        · change _ ∈ (c.log ++ [_]).drop c.log.length
          rw [List.drop_left' rfl]
          exact List.mem_singleton_self _
        · intro hwhole
          rw [show accepted = _ from hwhole] at hshort
          exact absurd hshort (Nat.lt_irrefl _)
      | whole => exact absurd rfl hok
  | bad code haccept => 
    rw [h.limit] at haccept
    rw [haccept] at hdelivers
    cases hdelivers
  | closed hop =>
    have haccept : accept max c.client.assembly f.fin f.opcode f.payload = .closed := by
      rw [hop]
      rfl
    rw [haccept] at hdelivers
    cases hdelivers
  | noMem hgrant => exact absurd hgrant hgrants

/-- A turn that comes upon the frame that is refused. -/
theorem Pending.recvFrame_refused {more : Bytes} (h : Pending max c [] (f.encode ++ more) events a) (hgrants : false ∉ c.out.grants)
    (hfits : f.payload.length ≤ max) (hbad : accept max c.client.assembly f.fin f.opcode f.payload = .bad)
    (hresult : c.recvFrame f.fin f.opcode f.payload f.encode.length = result) :
    ∃ t, result = (.stop .protocol, t) ∧ Pending max t [] (f.encode ++ more) events a := by
  have heffect := c.recvFrame_effect f.fin f.opcode f.payload f.encode.length
  rw [hresult] at heffect
  cases heffect with
  | message haccept | again haccept =>
    rw [h.limit, hbad] at haccept
    cases haccept
  | ping hop | closed hop =>
    rw [hop] at hbad
    cases hbad
  | noMem hgrant => exact absurd hgrant hgrants
  | bad code haccept hquiet hsame =>
    rename_i t
    have hclient : t.client = c.client := hsame h.sound (h.limit ▸ hfits)
    exact ⟨_, rfl, (h.sent (by rw [hclient]) hquiet.wire).sendCloseCode code⟩

/-- What is in the buffer is the beginning of what is to come, so that its head is that of the next frame. -/
theorem Pending.head (h : Pending max c fs rest events a) (hhead : head max c.client.rx ≠ .more) :
    head max c.client.rx = head max (fs.flatMap WireFrame.encode ++ rest) := by
  rw [← h.stream, head_append hhead]

section
variable (h : Pending max c fs ending.bytes events a)
include h

theorem recvTurn_outcome (hgrants : false ∉ c.out.grants) (hending : ending.Refused max a) :
    (∃ t fs, c.recvTurn = (.again, t) ∧ Pending max t fs ending.bytes events a ∧ false ∉ t.out.grants ∧
      c.log.length ≤ t.log.length ∧ (t.client.rx ++ t.wire).length < (c.client.rx ++ c.wire).length) ∨
      Outcome max ending a c events c.recvTurn := by
  have hstart := c.recvTurn_start
  generalize c.recvTurn = result at hstart ⊢
  cases hstart with
  | blocked hfill hstatus hseen hhead => exact .inr (.stopped hstatus.2 (h.filled hfill) (.inl (h.limit ▸ hhead)))
  | refused code hfill hseen hhead =>
    rename_i t
    rw [h.limit] at hhead
    have hpending := h.filled hfill
    have hnext := hpending.head (by rw [hhead]; simp)
    rw [hhead] at hnext
    cases fs with
    | nil =>
      obtain ⟨rfl, rfl⟩ : events = [] ∧ a = t.client.assembly := by
        have hdelivers := hpending.delivers
        rw [deliver, Option.some.injEq, Prod.mk.injEq] at hdelivers
        exact ⟨hdelivers.1.symm, hdelivers.2.symm⟩
      cases ending with
      | none => cases hnext
      | some last =>
        refine .inr (.refused rfl rfl ?_)
        cases code with
        | none => exact hpending
        | some code => exact hpending.sendCloseCode code
    | cons f fs =>
      rw [List.flatMap_cons, List.append_assoc] at hnext
      rcases head_encode max t.client.assembly (h.fits f List.mem_cons_self) (fs.flatMap WireFrame.encode ++ ending.bytes) with
        ⟨-, hverdict⟩ | ⟨hframe, -⟩
      · have hdelivers := hpending.delivers
        rw [deliver, hverdict] at hdelivers
        cases hdelivers
      · rw [hframe] at hnext
        cases hnext
  | framed hfill hseen hhead =>
    rename_i t fin opcode payload frameLen
    rw [h.limit] at hhead
    have hpending := h.filled hfill
    have hallowed : false ∉ t.out.grants := fun hmem => hgrants (hfill.grants.subset hmem)
    have hlen := length_of_head hhead
    have hnext := hpending.head (by rw [hhead]; simp)
    rw [hhead] at hnext
    cases fs with
    | nil =>
      obtain ⟨rfl, rfl⟩ : events = [] ∧ a = t.client.assembly := by
        have hdelivers := hpending.delivers
        rw [deliver, Option.some.injEq, Prod.mk.injEq] at hdelivers
        exact ⟨hdelivers.1.symm, hdelivers.2.symm⟩
      cases hlast : ending with
      | none =>
        rw [hlast] at hnext
        cases hnext
      | some last =>
        obtain ⟨f, more⟩ := last
        subst hlast
        obtain ⟨hfits, hbad⟩ := hending f more rfl
        change _ = Wss.head max (f.encode ++ more) at hnext
        rcases head_encode max t.client.assembly hfits more with ⟨hrefused, -⟩ | ⟨hframe, hmax, hverdict⟩
        · rw [hrefused] at hnext
          cases hnext
        · rw [hframe] at hnext
          cases hnext
          obtain ⟨u, hresult, hafter⟩ := hpending.recvFrame_refused hallowed hmax (hverdict ▸ hbad) rfl
          rw [hresult]
          exact .inr (.refused rfl rfl hafter)
    | cons f fs =>
      rw [List.flatMap_cons, List.append_assoc] at hnext
      rcases head_encode max t.client.assembly (h.fits f List.mem_cons_self) (fs.flatMap WireFrame.encode ++ ending.bytes) with
        ⟨hrefused, -⟩ | ⟨hframe, hmax, hverdict⟩
      · rw [hrefused] at hnext
        cases hnext
      · rw [hframe] at hnext
        cases hnext
        rcases hpending.recvFrame hallowed hlen hmax hverdict rfl with ⟨u, hresult, hafter, hkept, hlog⟩ | houtcome
        · refine .inl ⟨u, fs, hresult, hafter, hkept, by rwa [hfill.log] at hlog, ?_⟩
          have hpos := List.length_pos_iff.mpr (encode_ne_nil f)
          rw [hafter.stream, h.stream, List.flatMap_cons, List.append_assoc]
          exact Nat.lt_of_lt_of_eq (Nat.lt_add_of_pos_left hpos) List.length_append.symm
        · exact .inr (houtcome.before (hfill.log ▸ Nat.le_refl _))

theorem recvLoop_outcome {fuel : Nat} (hgrants : false ∉ c.out.grants)
    (hending : ending.Refused max a) (hfuel : (c.client.rx ++ c.wire).length < fuel) :
    Outcome max ending a c events (Conn.recvLoop fuel c) := by
  induction fuel generalizing c fs with
  | zero => exact absurd hfuel (Nat.not_lt_zero _)
  | succ fuel ih =>
    rw [Conn.recvLoop]
    rcases recvTurn_outcome h hgrants hending with ⟨t, later, hturn, hpending, hkept, hlog, hless⟩ | houtcome
    · simp only [hturn]
      exact (ih hpending hkept (by omega)).before hlog
    · rcases hturn : c.recvTurn with ⟨turn, t⟩
      rw [hturn] at houtcome
      cases houtcome with
      | message hevents hpending => exact .message hevents hpending
      | stopped hstatus hpending hwhy => exact .stopped hstatus hpending hwhy
      | refused hlast hevents hpending => exact .refused hlast hevents hpending

theorem recv_outcome (hgrants : false ∉ c.out.grants)
    (hending : ending.Refused max a) : Outcome max ending a c events c.recv := by
  rw [Conn.recv, if_neg (by rw [h.closeReceived]; exact Bool.false_ne_true)]
  exact recvLoop_outcome h hgrants hending (by rw [List.length_append]; omega)

end

/-- Bytes that are read up to the end of a frame have more than a part of a frame. -/
theorem head_ne_more {later : Bytes} (hfits : f.form.Fits f.payload.length) (hstream : c.client.rx ++ c.wire = f.encode ++ later)
    (hread : c.wire.length ≤ later.length) : head max c.client.rx ≠ .more := by
  have hlen : f.encode.length ≤ c.client.rx.length := by
    have hsame := congrArg List.length hstream
    rw [List.length_append, List.length_append] at hsame
    omega
  obtain ⟨more, hmore⟩ := List.prefix_of_prefix_length_le (List.prefix_append f.encode later)
    (hstream ▸ List.prefix_append c.client.rx c.wire) hlen
  rw [← hmore]
  rcases head_encode max .none hfits more with ⟨hhead, -⟩ | ⟨hhead, -⟩
  · rw [hhead]
    simp
  · rw [hhead]
    simp

/-- A call that stops for want of bytes with all of them read has come to the end. -/
theorem Pending.at_end (h : Pending max c fs ending.bytes events a) (hending : ending.Refused max a)
    (hread : c.wire.length ≤ ending.rest.length) (hhead : Wss.head max c.client.rx = .more) : events = [] ∧ ending = none := by
  cases fs with
  | cons f fs =>
    have hstream := h.stream
    rw [List.flatMap_cons, List.append_assoc] at hstream
    refine absurd hhead (head_ne_more (h.fits f List.mem_cons_self) hstream ?_)
    rw [List.length_append]
    have := ending.length_rest
    omega
  | nil =>
    have hdelivers := h.delivers
    rw [deliver, Option.some.injEq, Prod.mk.injEq] at hdelivers
    refine ⟨hdelivers.1.symm, ?_⟩
    cases ending with
    | none => rfl
    | some last => exact absurd hhead (head_ne_more (hending last.1 last.2 rfl).1 h.stream hread)

end

/-- Calls of `beetle_wss_recv`, each with what the outside does. -/
def receive : List Outside → Conn → List Turn × Conn
  | [], c => ([], c)
  | out :: calls, c =>
    let (turn, c) := Conn.recv { c with out }
    let (turns, c) := receive calls c
    (turn :: turns, c)

/-- The data of the calls that returned `BEETLE_WSS_OK`. -/
def received : List Turn → List Bytes
  | .message data :: turns => data :: received turns
  | _ :: turns => received turns
  | [] => []

/-- What the calls have received and what is still to come is all that was sent. -/
theorem receive_pending {max : Nat} {ending : Ending} {a : Assembly} {calls : List Outside} {c t : Conn} {fs : List WireFrame}
    {events : List Bytes} {turns : List Turn} (h : Pending max c fs ending.bytes events a) (hending : ending.Refused max a)
    (hgrants : ∀ out ∈ calls, false ∉ out.grants) (hreceive : receive calls c = (turns, t)) :
    (∃ fs later, events = received turns ++ later ∧ Pending max t fs ending.bytes later a) ∧
      (.stop .protocol ∈ turns → ending.isSome) := by
  induction calls generalizing c fs events turns with
  | nil =>
    cases hreceive
    exact ⟨⟨fs, events, rfl, h⟩, fun hmem => absurd hmem List.not_mem_nil⟩
  | cons out calls ih =>
    rw [List.forall_mem_cons] at hgrants
    have hcall : Pending max { c with out } fs ending.bytes events a := ⟨h.limit, h.stream, h.delivers, h.fits, h.sound, h.closeReceived⟩
    have houtcome := recv_outcome hcall hgrants.1 hending
    rw [receive] at hreceive
    rcases hturn : Conn.recv { c with out } with ⟨turn, u⟩
    rcases hlater : receive calls u with ⟨later, v⟩
    rw [hturn] at houtcome
    simp only [hturn, hlater] at hreceive
    cases hreceive
    cases houtcome with
    | message hevents hpending =>
      obtain ⟨⟨gs, rest, hrest, hafter⟩, hprotocol⟩ := ih hpending hgrants.2 hlater
      refine ⟨⟨gs, rest, ?_, hafter⟩, fun hmem => hprotocol (by simpa using hmem)⟩
      rw [hevents, hrest]
      rfl
    | stopped hstatus hpending =>
      obtain ⟨⟨gs, rest, hrest, hafter⟩, hprotocol⟩ := ih hpending hgrants.2 hlater
      refine ⟨⟨gs, rest, hrest, hafter⟩, fun hmem => ?_⟩
      rcases List.mem_cons.mp hmem with heq | hmem
      · cases heq
        exact absurd rfl hstatus
      · exact hprotocol hmem
    | refused hlast hevents hpending =>
      subst hevents
      obtain ⟨⟨gs, rest, hrest, hafter⟩, -⟩ := ih hpending hgrants.2 hlater
      exact ⟨⟨gs, rest, hrest, hafter⟩, fun _ => hlast⟩

/-- What a server sends: messages, perhaps the start of another one, control frames, and perhaps a frame that violates
the framing. -/
structure Traffic where
  messages : List Message
  started : Started
  after : List Control
  violation : Ending

namespace Traffic

def frames (traffic : Traffic) : List WireFrame :=
  traffic.messages.flatMap Message.frames ++ (traffic.started.frames ++ traffic.after.map Control.frame)

def bytes (traffic : Traffic) : Bytes := traffic.frames.flatMap WireFrame.encode ++ traffic.violation.bytes

def payloads (traffic : Traffic) : List Bytes := traffic.messages.map Message.payload

structure Sendable (max : Nat) (traffic : Traffic) : Prop where
  messages : ∀ m ∈ traffic.messages, m.Sendable max
  started : traffic.started.Sendable max
  after : ∀ control ∈ traffic.after, control.Sendable max
  violation : ∀ f more, traffic.violation = some (f, more) → f.form.Fits f.payload.length ∧ Violates max traffic.started f

variable {max : Nat} {traffic : Traffic}

section
variable (h : traffic.Sendable max)
include h

theorem deliver_frames : deliver max .none traffic.frames = some (traffic.payloads, traffic.started.assembly) := by
  rw [frames, deliver_messages h.messages, deliver_started h.started, deliver_controls h.after]
  simp [payloads]

theorem refused : traffic.violation.Refused max traffic.started.assembly := by
  intro f more hlast
  obtain ⟨hfits, hviolates⟩ := h.violation f more hlast
  exact ⟨hfits, frameVerdict_violates h.started.length hviolates⟩

theorem Sendable.fits : ∀ f ∈ traffic.frames, f.form.Fits f.payload.length := by
  have hcontrols {controls : List Control} (hall : ∀ control ∈ controls, control.Sendable max) :
      ∀ f ∈ controls.map Control.frame, f.form.Fits f.payload.length := by
    intro f hf
    obtain ⟨control, hcontrol, rfl⟩ := List.mem_map.mp hf
    exact (hall control hcontrol).frame.form
  have hfragment {fragment : Fragment} (hsendable : fragment.Sendable max) (fin : Bool) (opcode : UInt8) :
      ∀ f ∈ fragment.frames fin opcode, f.form.Fits f.payload.length := by
    intro f hf
    rcases List.mem_append.mp hf with hf | hf
    · exact hcontrols hsendable.before f hf
    · obtain rfl := List.mem_singleton.mp hf
      exact (hsendable.frame fin opcode).form
  have hpieces {fragments : List Fragment} (hall : ∀ fragment ∈ fragments, fragment.Sendable max) (opcode : UInt8) :
      ∀ f ∈ pieces opcode fragments, f.form.Fits f.payload.length := by
    induction fragments generalizing opcode with
    | nil => exact fun f hf => absurd hf List.not_mem_nil
    | cons fragment rest ih =>
      rw [List.forall_mem_cons] at hall
      intro f hf
      rcases List.mem_append.mp hf with hf | hf
      · exact hfragment hall.1 false opcode f hf
      · exact ih hall.2 0 f hf
  intro f hf
  rcases List.mem_append.mp hf with hf | hf
  · obtain ⟨m, hm, hf⟩ := List.mem_flatMap.mp hf
    rcases List.mem_append.mp hf with hf | hf
    · exact hpieces (h.messages m hm).started.pieces _ f hf
    · exact hfragment (h.messages m hm).last true _ f hf
  · rcases List.mem_append.mp hf with hf | hf
    · exact hpieces h.started.pieces _ f hf
    · exact hcontrols h.after f hf

end

end Traffic

/-- A connected client that may already have read some of what the server sends. -/
structure Fresh (max : Nat) (bytes : Bytes) (c : Conn) : Prop where
  client : c.client = { Client.connected max with rx := c.client.rx }
  stream : c.client.rx ++ c.wire = bytes

/-- Messages arrive whole, once and in order, and what violates the framing is the end. -/
theorem receive_traffic {max : Nat} {traffic : Traffic} (hsendable : traffic.Sendable max) {calls : List Outside}
    (hgrants : ∀ out ∈ calls, false ∉ out.grants) {start c : Conn} (hfresh : Fresh max traffic.bytes start) {turns : List Turn}
    (hreceive : receive calls start = (turns, c)) :
    received turns <+: traffic.payloads ∧ (.stop .protocol ∈ turns → traffic.violation.isSome) ∧
      ∀ out, false ∉ out.grants → ∀ turn t, Conn.recv { c with out } = (turn, t) → received [turn] = [] → ¬ PongCut c t →
        t.wire.length ≤ traffic.violation.rest.length →
          received turns = traffic.payloads ∧ (traffic.violation.isSome → turn = .stop .protocol) := by
  have hstart : Pending max start traffic.frames traffic.violation.bytes traffic.payloads traffic.started.assembly := by
    have hassembly : start.client.assembly = .none := by rw [hfresh.client]; rfl
    refine ⟨by rw [hfresh.client]; rfl, hfresh.stream, ?_, hsendable.fits, ?_, by rw [hfresh.client]; rfl⟩
    · rw [hassembly]
      exact Traffic.deliver_frames hsendable
    · rw [hassembly]
      exact fun _ => rfl
  have hrefused := Traffic.refused hsendable
  obtain ⟨⟨fs, later, hevents, hpending⟩, hprotocol⟩ := receive_pending hstart hrefused hgrants hreceive
  refine ⟨⟨later, hevents.symm⟩, hprotocol, ?_⟩
  intro out hout turn t hturn hnone hwhole hread
  have hcall : Pending max { c with out } fs traffic.violation.bytes later traffic.started.assembly :=
    ⟨hpending.limit, hpending.stream, hpending.delivers, hpending.fits, hpending.sound, hpending.closeReceived⟩
  have houtcome := recv_outcome hcall hout hrefused
  rw [hturn] at houtcome
  cases houtcome with
  | message hevents hpending => cases hnone
  | stopped hstatus hpending hwhy =>
    obtain ⟨hlater, hlast⟩ := hpending.at_end hrefused hread (hwhy.resolve_right hwhole)
    rw [hevents, hlater, hlast]
    exact ⟨(List.append_nil _).symm, fun h => absurd h Bool.false_ne_true⟩
  | refused hlast hlater hpending =>
    rw [hevents, hlater]
    exact ⟨(List.append_nil _).symm, fun _ => rfl⟩

/-- A ping between two pieces, and a mask at the end; the first call has to wait. -/
def maskedAtEnd : Traffic :=
  ⟨[⟨⟨true, [⟨[], .short, [104]⟩]⟩, ⟨[⟨false, .short, [7]⟩], .short, [105]⟩⟩], ⟨true, []⟩, [],
    some (⟨0x81, some ⟨1, 2, 3, 4⟩, .short, []⟩, [])⟩

def maskedStart : Conn := ⟨Client.connected 4, maskedAtEnd.bytes, ⟨[], [], [], []⟩, []⟩

def maskedCalls : List Outside :=
  [⟨[.data 3, .want], [], [], []⟩, ⟨[.data 1, .data 100], [.accepted 0, .accepted 100, .accepted 100], [], []⟩]

def maskedLast : Turn × Conn := Conn.recv { (receive maskedCalls maskedStart).2 with out := ⟨[], [], [], []⟩ }

theorem masked_received :
    (receive maskedCalls maskedStart).1 = [.stop .timeout, .message [104, 105]] ∧
      received (receive maskedCalls maskedStart).1 = maskedAtEnd.payloads := by
  have hcontrol : (⟨false, .short, [7]⟩ : Control).Sendable 4 := ⟨by decide, by decide, ⟨by decide, by decide⟩⟩
  have hfragment (before : List Control) (hbefore : ∀ control ∈ before, control.Sendable 4) (b : UInt8) :
      (⟨before, .short, [b]⟩ : Fragment).Sendable 4 :=
    ⟨hbefore, fun fin opcode => ⟨by change 1 ≤ 125; decide, by
      simp [Fragment.frame, WireFrame.encode, WireFrame.header, LengthForm.encode, sizeMax]⟩⟩
  have hsendable : maskedAtEnd.Sendable 4 := by
    refine ⟨?_, ⟨fun _ h => absurd h List.not_mem_nil, by decide⟩, fun _ h => absurd h List.not_mem_nil, ?_⟩
    · intro m hm
      obtain rfl := List.mem_singleton.mp hm
      refine ⟨⟨?_, by decide⟩, hfragment _ ?_ 105, by decide⟩
      · intro fragment hmem
        obtain rfl := List.mem_singleton.mp hmem
        exact hfragment [] (fun _ h => absurd h List.not_mem_nil) 104
      · intro control hmem
        obtain rfl := List.mem_singleton.mp hmem
        exact hcontrol
    · intro f more hlast
      cases hlast
      exact ⟨by change 0 ≤ 125; decide, .inr (.inl rfl)⟩
  have hturns : (receive maskedCalls maskedStart).1 = [.stop .timeout, .message [104, 105]] := by decide +kernel
  have hall := @receive_traffic 4 maskedAtEnd hsendable maskedCalls (by decide) maskedStart _ ⟨rfl, rfl⟩ _ (Prod.eta _).symm
  have hlast : received [maskedLast.1] = [] ∧ ¬ PongCut (receive maskedCalls maskedStart).2 maskedLast.2 ∧
      maskedLast.2.wire.length ≤ 0 := by decide +kernel
  exact ⟨hturns, (hall.2.2 ⟨[], [], [], []⟩ List.not_mem_nil maskedLast.1 maskedLast.2 (Prod.eta maskedLast).symm
    hlast.1 hlast.2.1 hlast.2.2).1⟩

/-- The limit holds for a ping too. -/
def longPing : Traffic :=
  ⟨[⟨⟨true, []⟩, ⟨[⟨false, .short, List.replicate 20 7⟩], .short, [104]⟩⟩], ⟨true, []⟩, [], none⟩

theorem long_ping_refused :
    longPing.payloads = [[104]] ∧
      (∀ m ∈ longPing.messages, ∀ control ∈ m.last.before, control.payload.length ≤ 125) ∧
      (receive [⟨[.data 100], [.accepted 100], [], []⟩] ⟨Client.connected 10, longPing.bytes, ⟨[], [], [], []⟩, []⟩).1 =
        [.stop .protocol] := by
  decide

end Beetle.Wss
