import Beetle.Wss.Client

/-! What one turn of the loop of `beetle_wss_recv` makes of the bytes that have come in. -/
namespace Beetle.Wss
open Beetle.Lib Beetle.Lib.Ws

/-- What the bytes begin with: not yet a frame, one that is refused, or a frame of this length. -/
inductive Head where
  | more
  | bad
  | frame (fin : Bool) (opcode : UInt8) (payload : Bytes) (frameLen : Nat)

/-- What is refused before the payload is there. -/
def Refused (max : Nat) (fin : Bool) (opcode : UInt8) (headerLen payloadLen : Nat) : Prop :=
  max < payloadLen ∨ (opcode &&& 8 ≠ 0 ∧ (fin = false ∨ 125 < payloadLen)) ∨ sizeMax - headerLen < payloadLen

instance (max : Nat) (fin : Bool) (opcode : UInt8) (headerLen payloadLen : Nat) :
    Decidable (Refused max fin opcode headerLen payloadLen) := inferInstanceAs (Decidable (_ ∨ _ ∨ _))

@[grind =] def head (max : Nat) : Bytes → Head
  | first :: second :: rest =>
    if first &&& 0x70 ≠ 0 ∨ second &&& 0x80 ≠ 0 then .bad
    else
      match decodeLength (second &&& 0x7F).toNat rest with
      | none => .more
      | some (_, payloadLen, body) =>
        let headerLen := 2 + (rest.length - body.length)
        let fin := decide (first &&& 0x80 ≠ 0)
        if Refused max fin (first &&& 0x0F) headerLen payloadLen then .bad
        else if body.length < payloadLen then .more
        else .frame fin (first &&& 0x0F) (body.take payloadLen) (headerLen + payloadLen)
  | _ => .more

/-- What TLS gives before the first reply that ends the call. -/
def readable : List ReadReply → Bytes → Bytes
  | .data more :: reads, wire =>
    if wire = [] then []
    else
      let len := min (more + 1) readChunkBytes
      wire.take len ++ readable reads (wire.drop len)
  | _, _ => []

/-- All that a call can come to see. -/
def Conn.available (c : Conn) : Bytes := c.client.rx ++ readable c.out.reads c.wire

/-- Bytes have gone from the wire into the buffer, and nothing else has changed. -/
structure Filled (c t : Conn) : Prop where
  client : t.client = { c.client with rx := t.client.rx }
  stream : t.client.rx ++ t.wire = c.client.rx ++ c.wire
  grows : c.client.rx <+: t.client.rx
  log : t.log = c.log
  writes : t.out.writes = c.out.writes
  masks : t.out.masks = c.out.masks
  grants : t.out.grants <:+ c.out.grants

theorem Filled.refl (c : Conn) : Filled c c := ⟨rfl, rfl, List.prefix_rfl, rfl, rfl, rfl, List.suffix_rfl⟩

theorem Filled.trans {c t u : Conn} (h : Filled c t) (h' : Filled t u) : Filled c u where
  client := by rw [h'.client, h.client]
  stream := h'.stream.trans h.stream
  grows := h.grows.trans h'.grows
  log := h'.log.trans h.log
  writes := h'.writes.trans h.writes
  masks := h'.masks.trans h.masks
  grants := h'.grants.trans h.grants

namespace Conn
variable {c t : Conn} {reply : ReadReply} {status : Status}

/-- A read gives bytes, or it says why not and leaves the buffer as it is. -/
theorem fillRx_cases (c : Conn) (reply : ReadReply) :
    (∃ status t, c.fillRx reply = (status, t) ∧ status ≠ .ok ∧ status ≠ .protocol ∧ Filled c t ∧ t.client.rx = c.client.rx) ∨
    (∃ more t, reply = .data more ∧ c.wire ≠ [] ∧ c.fillRx reply = (.ok, t) ∧ Filled c t ∧
      t.client.rx = c.client.rx ++ c.wire.take (min (more + 1) readChunkBytes) ∧
      t.wire = c.wire.drop (min (more + 1) readChunkBytes) ∧ t.out.reads = c.out.reads) := by
  have hgrant : Filled c c.grant.2 := ⟨rfl, rfl, List.prefix_rfl, rfl, rfl, rfl, List.tail_suffix _⟩
  unfold fillRx
  split
  · exact .inl ⟨_, _, rfl, by decide, by decide, .refl c, rfl⟩
  · split
    · exact .inl ⟨_, _, rfl, by decide, by decide, .refl c, rfl⟩
    · split
      · exact .inl ⟨_, _, rfl, by decide, by decide, hgrant, rfl⟩
      · cases reply with
        | data more =>
          by_cases hwire : c.wire = []
          · exact .inl ⟨.timeout, c.grant.2, if_pos hwire, by decide, by decide, hgrant, rfl⟩
          · refine .inr ⟨more, _, rfl, hwire, if_neg hwire, ?_, rfl, rfl, rfl⟩
            refine ⟨rfl, ?_, List.prefix_append _ _, rfl, rfl, rfl, List.tail_suffix _⟩
            simp [grant, List.append_assoc]
        | eof =>
          cases hclose : c.client.closeReceived with
          | true => exact .inl ⟨.closed, c.grant.2, congrArg (·, c.grant.2) (if_pos hclose), by decide, by decide, hgrant, rfl⟩
          | false =>
            refine .inl ⟨.disconnected, c.grant.2, congrArg (·, c.grant.2) (if_neg ?_), by decide, by decide, hgrant, rfl⟩
            rw [Bool.not_eq_true]
            exact hclose
        | want => exact .inl ⟨_, _, rfl, by decide, by decide, hgrant, rfl⟩
        | expired | sockoptFails | failed => exact .inl ⟨_, _, rfl, by decide, by decide, hgrant, rfl⟩

/-- The loop fills the buffer up to the bytes that are needed, or it stops before. -/
theorem fillLoop_cases (needed : Nat) (reads : List ReadReply) (c : Conn) :
    (∃ t, fillLoop needed reads c = (.ok, t) ∧ Filled c t ∧ needed ≤ t.client.rx.length ∧
      t.available = c.client.rx ++ readable reads c.wire) ∨
    (∃ status t, fillLoop needed reads c = (status, t) ∧ status ≠ .ok ∧ status ≠ .protocol ∧ Filled c t ∧
      t.client.rx.length < needed ∧ t.client.rx <+: c.client.rx ++ readable reads c.wire) := by
  induction reads generalizing c with
  | nil =>
    unfold fillLoop
    split
    · rename_i hneeded
      exact .inl ⟨_, rfl, ⟨rfl, rfl, List.prefix_rfl, rfl, rfl, rfl, List.suffix_rfl⟩, hneeded, rfl⟩
    · rename_i hneeded
      exact .inr ⟨_, _, rfl, by decide, by decide, ⟨rfl, rfl, List.prefix_rfl, rfl, rfl, rfl, List.suffix_rfl⟩,
        Nat.not_le.mp hneeded, List.prefix_append _ _⟩
  | cons reply reads ih =>
    unfold fillLoop
    split
    · rename_i hneeded
      exact .inl ⟨_, rfl, ⟨rfl, rfl, List.prefix_rfl, rfl, rfl, rfl, List.suffix_rfl⟩, hneeded, rfl⟩
    · rename_i hneeded
      rcases c.fillRx_cases reply with ⟨status, t, hfill, hok, hprotocol, hfilled, hrx⟩ |
        ⟨more, t, rfl, hwire, hfill, hfilled, hrx, hrest, -⟩
      · refine .inr ⟨status, { t with out := { t.out with reads } }, ?_, hok, hprotocol, ?_, ?_, ?_⟩
        · simp only [hfill]
        · exact ⟨hfilled.client, hfilled.stream, hfilled.grows, hfilled.log, hfilled.writes, hfilled.masks, hfilled.grants⟩
        · rw [hrx]
          exact Nat.not_le.mp hneeded
        · rw [hrx]
          exact List.prefix_append _ _
      · have hread : t.client.rx ++ readable reads t.wire = c.client.rx ++ readable (.data more :: reads) c.wire := by
          rw [hrx, hrest, readable, if_neg hwire, List.append_assoc]
        simp only [hfill]
        rw [← hread]
        rcases ih t with ⟨u, hloop, hfilled', hneeded', hsame⟩ | ⟨status, u, hloop, hok, hprotocol, hfilled', hshort, hpart⟩
        · exact .inl ⟨u, hloop, hfilled.trans hfilled', hneeded', hsame⟩
        · exact .inr ⟨status, u, hloop, hok, hprotocol, hfilled.trans hfilled', hshort, hpart⟩

theorem ensureRxBytes_cases (c : Conn) (needed : Nat) :
    (∃ t, c.ensureRxBytes needed = (.ok, t) ∧ Filled c t ∧ needed ≤ t.client.rx.length ∧ t.available = c.available) ∨
    (∃ status t, c.ensureRxBytes needed = (status, t) ∧ status ≠ .ok ∧ status ≠ .protocol ∧ Filled c t ∧
      t.client.rx.length < needed ∧ t.client.rx <+: c.available) :=
  fillLoop_cases needed c.out.reads c

/-- How a turn starts: the bytes that it has come to see are not yet a frame, they are refused, or
they are a frame. -/
inductive TurnStart (c : Conn) : Turn × Conn → Prop
  | blocked {status : Status} {t : Conn} (hfill : Filled c t) (hstatus : status ≠ .ok ∧ status ≠ .protocol)
      (hseen : t.client.rx <+: c.available) (hhead : head c.client.maxMessageBytes t.client.rx = .more) :
      TurnStart c (.stop status, t)
  | refused {t : Conn} (code : Option Nat) (hfill : Filled c t) (hseen : t.available = c.available)
      (hhead : head c.client.maxMessageBytes t.client.rx = .bad) :
      TurnStart c (.stop .protocol, (code.map t.sendCloseCode).getD t)
  | framed {t : Conn} {fin : Bool} {opcode : UInt8} {payload : Bytes} {frameLen : Nat} (hfill : Filled c t)
      (hseen : t.available = c.available)
      (hhead : head c.client.maxMessageBytes t.client.rx = .frame fin opcode payload frameLen) :
      TurnStart c (t.recvFrame fin opcode payload frameLen)

theorem TurnStart.trans {c t : Conn} {result : Turn × Conn} (hfill : Filled c t) (hseen : t.available = c.available)
    (h : TurnStart t result) : TurnStart c result := by
  have hmax : t.client.maxMessageBytes = c.client.maxMessageBytes := by rw [hfill.client]
  cases h with
  | blocked hfill' hstatus hseen' hhead => exact .blocked (hfill.trans hfill') hstatus (hseen ▸ hseen') (hmax ▸ hhead)
  | refused code hfill' hseen' hhead => exact .refused code (hfill.trans hfill') (hseen'.trans hseen) (hmax ▸ hhead)
  | framed hfill' hseen' hhead => exact .framed (hfill.trans hfill') (hseen'.trans hseen) (hmax ▸ hhead)

end Conn

theorem decodeLength_append {low : Nat} {rest body : Bytes} {form : LengthForm} {n : Nat}
    (h : decodeLength low rest = some (form, n, body)) (more : Bytes) :
    decodeLength low (rest ++ more) = some (form, n, body ++ more) := by
  unfold decodeLength at h ⊢
  split
  · rw [if_pos (by assumption)] at h
    split at h
    · cases h
    · cases h
      rw [if_neg (by rw [List.length_append]; omega), List.take_append_of_le_length (by omega),
        List.drop_append_of_le_length (by omega)]
  · rw [if_neg (by assumption)] at h
    split
    · rw [if_pos (by assumption)] at h
      split at h
      · cases h
      · cases h
        rw [if_neg (by rw [List.length_append]; omega), List.take_append_of_le_length (by omega),
          List.drop_append_of_le_length (by omega)]
    · rw [if_neg (by assumption)] at h
      cases h
      rfl

/-- What is behind the length is an end of the bytes. -/
theorem body_of_decodeLength {low : Nat} {rest body : Bytes} {form : LengthForm} {n : Nat}
    (h : decodeLength low rest = some (form, n, body)) : ∃ k ≤ rest.length, body = rest.drop k := by
  unfold decodeLength at h
  split at h
  · split at h
    · cases h
    · cases h
      exact ⟨2, by omega, rfl⟩
  · split at h
    · split at h
      · cases h
      · cases h
        exact ⟨8, by omega, rfl⟩
    · cases h
      exact ⟨0, Nat.zero_le _, rfl⟩

/-- The head of bytes whose header is there. -/
theorem head_of_decodeLength {max n : Nat} {first second : UInt8} {rest body : Bytes} {form : LengthForm}
    (hbits : ¬ (first &&& 0x70 ≠ 0 ∨ second &&& 0x80 ≠ 0))
    (hlength : decodeLength (second &&& 0x7F).toNat rest = some (form, n, body)) :
    head max (first :: second :: rest) =
      if Refused max (decide (first &&& 0x80 ≠ 0)) (first &&& 0x0F) (2 + (rest.length - body.length)) n then .bad
      else if body.length < n then .more
      else .frame (decide (first &&& 0x80 ≠ 0)) (first &&& 0x0F) (body.take n) (2 + (rest.length - body.length) + n) := by
  simp only [head, if_neg hbits, hlength]

theorem head_append {max : Nat} {bs : Bytes} (h : head max bs ≠ .more) (more : Bytes) : head max (bs ++ more) = head max bs := by
  match bs with
  | [] | [_] => exact absurd rfl h
  | first :: second :: rest =>
    by_cases hbits : first &&& 0x70 ≠ 0 ∨ second &&& 0x80 ≠ 0
    · rw [List.cons_append, List.cons_append, head, head, if_pos hbits, if_pos hbits]
    · cases hlength : decodeLength (second &&& 0x7F).toNat rest with
      | none =>
        refine absurd ?_ h
        simp only [head, if_neg hbits, hlength]
      | some result =>
        obtain ⟨form, n, body⟩ := result
        have hhead := @head_of_decodeLength max _ _ _ _ _ _ hbits hlength
        have hgrown := @head_of_decodeLength max _ _ _ _ _ _ hbits (decodeLength_append hlength more)
        have hsame : (rest ++ more).length - (body ++ more).length = rest.length - body.length := by
          rw [List.length_append, List.length_append]
          omega
        rw [hsame] at hgrown
        rw [List.cons_append, List.cons_append, hgrown, hhead]
        split
        · rfl
        · rename_i hallowed
          rw [hhead, if_neg hallowed] at h
          by_cases hshort : body.length < n
          · rw [if_pos hshort] at h
            exact absurd rfl h
          · rw [if_neg hshort, if_neg (by rw [List.length_append]; omega), List.take_append_of_le_length (by omega)]

/-- The bytes of a frame are there. -/
theorem length_of_head {max : Nat} {bs payload : Bytes} {fin : Bool} {opcode : UInt8} {frameLen : Nat}
    (h : head max bs = .frame fin opcode payload frameLen) : frameLen ≤ bs.length := by
  match bs with
  | [] | [_] => cases h
  | first :: second :: rest =>
    by_cases hbits : first &&& 0x70 ≠ 0 ∨ second &&& 0x80 ≠ 0
    · rw [head, if_pos hbits] at h
      cases h
    · cases hlength : decodeLength (second &&& 0x7F).toNat rest with
      | none =>
        simp only [head, if_neg hbits, hlength] at h
        cases h
      | some result =>
        obtain ⟨form, n, body⟩ := result
        rw [head_of_decodeLength hbits hlength] at h
        obtain ⟨k, hk, rfl⟩ := body_of_decodeLength hlength
        split at h
        · cases h
        · split at h
          · cases h
          · rename_i hlong
            cases h
            rw [List.length_drop] at hlong ⊢
            simp only [List.length_cons]
            omega

namespace Conn

theorem recvPayload_start {c : Conn} {first second : UInt8} {rest body : Bytes} {form : LengthForm} {headerLen payloadLen : Nat}
    (hrx : c.client.rx = first :: second :: rest) (hbits : ¬ (first &&& 0x70 ≠ 0 ∨ second &&& 0x80 ≠ 0))
    (hlength : decodeLength (second &&& 0x7F).toNat rest = some (form, payloadLen, body))
    (hheader : headerLen = 2 + (rest.length - body.length)) : TurnStart c (c.recvPayload first headerLen payloadLen) := by
  obtain ⟨k, hk, hbody⟩ := body_of_decodeLength hlength
  have hkk : rest.length - body.length = k := by
    rw [hbody, List.length_drop]
    omega
  have hle : body.length ≤ rest.length := by
    rw [hbody, List.length_drop]
    omega
  have hhead (max : Nat) := @head_of_decodeLength max _ _ _ _ _ _ hbits hlength
  rw [← hrx, ← hheader] at hhead
  unfold recvPayload
  dsimp only
  split
  · rename_i hmax
    exact .refused (some 1009) (.refl c) rfl (by rw [hhead, if_pos (.inl hmax)])
  · rename_i hmax
    split
    · rename_i hcontrol
      exact .refused (some 1002) (.refl c) rfl (by rw [hhead, if_pos (.inr (.inl hcontrol))])
    · rename_i hcontrol
      split
      · rename_i hsize
        exact .refused none (.refl c) rfl (by rw [hhead, if_pos (.inr (.inr hsize))])
      · rename_i hsize
        have hallowed : ¬ Refused c.client.maxMessageBytes (decide (first &&& 0x80 ≠ 0)) (first &&& 0x0F) headerLen payloadLen :=
          fun h => h.elim hmax fun h => h.elim hcontrol hsize
        rcases c.ensureRxBytes_cases (headerLen + payloadLen) with ⟨t, hensure, hfill, hlen, hseen⟩ |
          ⟨status, t, hensure, hok, hprotocol, hfill, hshort, hseen⟩
        · obtain ⟨more, hmore⟩ := hfill.grows
          have hgrown : t.client.rx = first :: second :: (rest ++ more) := by rw [← hmore, hrx, List.cons_append, List.cons_append]
          have hlong : payloadLen ≤ (body ++ more).length := by
            rw [hgrown] at hlen
            simp only [List.length_cons, List.length_append] at hlen ⊢
            omega
          have hsplit : t.client.rx.drop headerLen = body ++ more := by
            rw [hgrown, hheader, hkk, Nat.add_comm, List.drop_succ_cons, List.drop_succ_cons,
              List.drop_append_of_le_length hk, hbody]
          simp only [hensure]
          rw [hsplit]
          refine .framed hfill hseen ?_
          rw [hgrown, head_of_decodeLength hbits (decodeLength_append hlength more)]
          have hsame : 2 + ((rest ++ more).length - (body ++ more).length) = headerLen := by
            rw [hheader, List.length_append, List.length_append]
            omega
          rw [hsame, if_neg hallowed, if_neg (Nat.not_lt.mpr hlong)]
        · obtain ⟨more, hmore⟩ := hfill.grows
          have hgrown : t.client.rx = first :: second :: (rest ++ more) := by rw [← hmore, hrx, List.cons_append, List.cons_append]
          have hlong : (body ++ more).length < payloadLen := by
            rw [hgrown] at hshort
            simp only [List.length_cons, List.length_append] at hshort ⊢
            omega
          simp only [hensure]
          refine .blocked hfill ⟨hok, hprotocol⟩ hseen ?_
          rw [hgrown, head_of_decodeLength hbits (decodeLength_append hlength more)]
          have hsame : 2 + ((rest ++ more).length - (body ++ more).length) = headerLen := by
            rw [hheader, List.length_append, List.length_append]
            omega
          rw [hsame, if_neg hallowed, if_pos hlong]

theorem exists_of_two_le {rx : Bytes} (h : 2 ≤ rx.length) : ∃ first second rest, rx = first :: second :: rest := by
  match rx, h with
  | first :: second :: rest, _ => exact ⟨first, second, rest, rfl⟩

/-- A turn that has to read the bytes of a longer length first. -/
theorem recvExtended_start {c : Conn} {first second : UInt8} {rest : Bytes} {width : Nat} {form : LengthForm}
    (hrx : c.client.rx = first :: second :: rest) (hbits : ¬ (first &&& 0x70 ≠ 0 ∨ second &&& 0x80 ≠ 0))
    (hdecode : ∀ bs : Bytes, decodeLength (second &&& 0x7F).toNat bs =
      if bs.length < width then none else some (form, ofBigEndian (bs.take width), bs.drop width)) :
    TurnStart c (match c.ensureRxBytes (2 + width) with
      | (.ok, c) => c.recvPayload first (2 + width) (ofBigEndian ((c.client.rx.drop 2).take width))
      | (status, c) => (.stop status, c)) := by
  rcases c.ensureRxBytes_cases (2 + width) with ⟨t, hensure, hfill, hlen, hseen⟩ |
    ⟨status, t, hensure, hok, hprotocol, hfill, hshort, hseen⟩
  · obtain ⟨more, hmore⟩ := hfill.grows
    have hgrown : t.client.rx = first :: second :: (rest ++ more) := by rw [← hmore, hrx, List.cons_append, List.cons_append]
    have hlong : ¬ (rest ++ more).length < width := by
      rw [hgrown] at hlen
      simp only [List.length_cons] at hlen
      omega
    simp only [hensure]
    refine TurnStart.trans hfill hseen ?_
    have hdrop : t.client.rx.drop 2 = rest ++ more := by rw [hgrown]; rfl
    rw [hdrop]
    have hread := hdecode (rest ++ more)
    rw [if_neg hlong] at hread
    refine recvPayload_start hgrown hbits hread ?_
    rw [List.length_drop]
    omega
  · obtain ⟨more, hmore⟩ := hfill.grows
    have hgrown : t.client.rx = first :: second :: (rest ++ more) := by rw [← hmore, hrx, List.cons_append, List.cons_append]
    have hlong : (rest ++ more).length < width := by
      rw [hgrown] at hshort
      simp only [List.length_cons] at hshort
      omega
    have hread := hdecode (rest ++ more)
    rw [if_pos hlong] at hread
    have hresult : (match c.ensureRxBytes (2 + width) with
        | (.ok, c) => c.recvPayload first (2 + width) (ofBigEndian ((c.client.rx.drop 2).take width))
        | (status, c) => (.stop status, c)) = (.stop status, t) := by
      rw [hensure]
      cases status with
      | ok => exact absurd rfl hok
      | timeout | closed | disconnected | noMem | io | protocol => rfl
    rw [hresult]
    refine .blocked hfill ⟨hok, hprotocol⟩ hseen ?_
    rw [hgrown]
    simp only [head, if_neg hbits, hread]

theorem recvTurn_start (c : Conn) : TurnStart c c.recvTurn := by
  unfold recvTurn
  rcases c.ensureRxBytes_cases 2 with ⟨t, hensure, hfill, hlen, hseen⟩ |
    ⟨status, t, hensure, hok, hprotocol, hfill, hshort, hseen⟩
  · obtain ⟨first, second, rest, hrx⟩ := exists_of_two_le hlen
    have hfirst : t.client.rx.getD 0 0 = first := by rw [hrx]; rfl
    have hsecond : t.client.rx.getD 1 0 = second := by rw [hrx]; rfl
    simp only [hensure, hfirst, hsecond]
    refine TurnStart.trans hfill hseen ?_
    split
    · rename_i hbits
      refine .refused (some 1002) (.refl t) rfl ?_
      rw [hrx]
      exact if_pos hbits
    · rename_i hbits
      split
      · rename_i hlow
        exact recvExtended_start hrx hbits fun bs => by rw [decodeLength, if_pos hlow]
      · rename_i hlow
        split
        · rename_i hlow'
          exact recvExtended_start hrx hbits fun bs => by rw [decodeLength, if_neg hlow, if_pos hlow']
        · rename_i hlow'
          exact recvPayload_start hrx hbits (by rw [decodeLength, if_neg hlow, if_neg hlow']) (by omega)
  · simp only [hensure]
    have hhead : head c.client.maxMessageBytes t.client.rx = .more := by
      generalize t.client.rx = rx at hshort
      cases rx with
      | nil => rfl
      | cons first rest =>
        cases rest with
        | nil => rfl
        | cons second rest => exact absurd hshort (by simp only [List.length_cons]; omega)
    cases status with
    | ok => exact absurd rfl hok
    | timeout | closed | disconnected | noMem | io | protocol => exact .blocked hfill ⟨hok, hprotocol⟩ hseen hhead

end Conn

end Beetle.Wss
