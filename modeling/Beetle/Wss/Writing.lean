import Beetle.Wss.Client

/-! What a frame that the client sends puts on the connection. -/
namespace Beetle.Wss
open Beetle.Lib Beetle.Lib.Ws

theorem bigEndian_two (n : Nat) : bigEndian 2 n = [.ofNat (n >>> 8), .ofNat n] := by
  simp [bigEndian, Nat.shiftRight_eq_div_pow]

theorem bigEndian_eight (n : Nat) : bigEndian 8 n = (List.range 8).reverse.map fun i => .ofNat (n >>> (i * 8)) := by
  have hrange : (List.range 8).reverse = [7, 6, 5, 4, 3, 2, 1, 0] := rfl
  rw [hrange]
  simp [bigEndian, Nat.shiftRight_eq_div_pow, Nat.div_div_eq_div_mul]

/-- The header is that of a final and masked frame with the shortest form of the length. -/
theorem frameHeader_eq {opcode : UInt8} (hop : opcode.toNat < 16) (mask : Mask) (payload : Bytes) :
    frameHeader opcode payload.length mask = (⟨opcode, mask, payload⟩ : ClientFrame).header := by
  have hbits : opcode &&& 0x0F = opcode := by
    have h := (opcode_bits (.inl rfl) opcode hop).1
    rwa [UInt8.zero_or] at h
  rw [frameHeader, ClientFrame.header, hbits, LengthForm.minimal]
  dsimp only
  split
  · rfl
  · split
    · rename_i hle
      rw [if_pos (by omega), LengthForm.encode, bigEndian_two]
    · rename_i hle
      rw [if_neg (by omega), LengthForm.encode, bigEndian_eight]

theorem flatten_chunks (bs : Bytes) : (chunks bs).flatten = bs := by
  fun_induction chunks bs with
  | case1 => rfl
  | case2 bs hne ih => rw [List.flatten_cons, ih, List.take_append_drop]

section
variable {closeReceived : Bool} {replies left : List WriteReply} {status : Status} {accepted : Bytes}

/-- All of the data, or a part of it that is not all. -/
theorem writeAll_cases (data : Bytes) (h : writeAll closeReceived replies data = (accepted, status, left)) :
    (status = .ok ∧ accepted = data) ∨
      (status ≠ .ok ∧ status ≠ .protocol ∧ accepted <+: data ∧ accepted.length < data.length) := by
  fun_induction writeAll closeReceived replies data generalizing accepted status left with
  | case1 replies =>
    cases h
    exact .inl ⟨rfl, rfl⟩
  | case2 b data =>
    cases h
    exact .inr ⟨by decide, by decide, List.nil_prefix, Nat.zero_lt_succ _⟩
  | case3 replies b data more rest status' left' hrest ih =>
    cases h
    rcases ih hrest with ⟨hok, hall⟩ | ⟨hok, hprotocol, hpart, hshort⟩
    · exact .inl ⟨hok, by rw [hall, List.cons_append, List.take_append_drop]⟩
    · right
      refine ⟨hok, hprotocol, ?_, ?_⟩
      · obtain ⟨more', hmore⟩ := hpart
        refine ⟨more', ?_⟩
        rw [List.cons_append, List.cons_append, List.append_assoc, hmore, List.take_append_drop]
      · rw [List.length_append, List.length_cons, List.length_cons, List.length_take]
        rw [List.length_drop] at hshort
        omega
  | case4 | case5 | case7 | case8 =>
    cases h
    exact .inr ⟨by decide, by decide, List.nil_prefix, Nat.zero_lt_succ _⟩
  | case6 =>
    cases h
    exact .inr ⟨by split <;> decide, by split <;> decide, List.nil_prefix, Nat.zero_lt_succ _⟩

theorem writeParts_cases (parts : List Bytes) (h : writeParts closeReceived replies parts = (accepted, status, left)) :
    (status = .ok ∧ accepted = parts.flatten) ∨
      (status ≠ .ok ∧ status ≠ .protocol ∧ accepted <+: parts.flatten ∧ accepted.length < parts.flatten.length) := by
  induction parts generalizing replies accepted status left with
  | nil =>
    cases h
    exact .inl ⟨rfl, rfl⟩
  | cons part parts ih =>
    rcases hfirst : writeAll closeReceived replies part with ⟨first, status', left'⟩
    rcases writeAll_cases part hfirst with ⟨rfl, rfl⟩ | ⟨hok, hprotocol, hpart, hshort⟩
    · rcases hrest : writeParts closeReceived left' parts with ⟨rest, status'', left''⟩
      simp only [writeParts, hfirst, hrest] at h
      cases h
      rw [List.flatten_cons]
      rcases ih hrest with ⟨hok, rfl⟩ | ⟨hok, hprotocol, hpart, hshort⟩
      · exact .inl ⟨hok, rfl⟩
      · refine .inr ⟨hok, hprotocol, (List.prefix_append_right_inj first).mpr hpart, ?_⟩
        rw [List.length_append, List.length_append]
        omega
    · have hstop : writeParts closeReceived replies (part :: parts) = (first, status', left') := by
        rw [writeParts, hfirst]
        cases status' with
        | ok => exact absurd rfl hok
        | timeout | closed | disconnected | noMem | io | protocol => rfl
      rw [hstop] at h
      cases h
      refine .inr ⟨hok, hprotocol, hpart.trans (List.prefix_append _ _), ?_⟩
      rw [List.flatten_cons, List.length_append]
      omega

/-- Whether TLS accepts anything. -/
def Accepts (replies : List WriteReply) : Prop := ∃ more, .accepted more ∈ replies

theorem writeAll_of_not_accepts (hnone : ¬ Accepts replies) (data : Bytes) :
    (writeAll closeReceived replies data).1 = [] := by
  fun_cases writeAll closeReceived replies data with
  | case3 replies b data more => exact absurd ⟨more, List.mem_cons_self⟩ hnone
  | case1 | case2 | case4 | case5 | case6 | case7 | case8 => rfl

theorem writeParts_of_not_accepts (hnone : ¬ Accepts replies) {parts : List Bytes} (hparts : ∀ part ∈ parts, part ≠ []) :
    (writeParts closeReceived replies parts).1 = [] := by
  cases parts with
  | nil => rfl
  | cons part parts =>
    have hne : part ≠ [] := hparts part List.mem_cons_self
    rcases hfirst : writeAll closeReceived replies part with ⟨first, status', left'⟩
    have hfirst' : first = [] := by
      have h : (writeAll closeReceived replies part).1 = [] := writeAll_of_not_accepts hnone part
      rwa [hfirst] at h
    subst hfirst'
    rcases writeAll_cases part hfirst with ⟨-, hall⟩ | ⟨hok, -⟩
    · exact absurd hall.symm hne
    · rw [writeParts, hfirst]
      cases status' with
      | ok => exact absurd rfl hok
      | timeout | closed | disconnected | noMem | io | protocol => rfl

end

theorem chunks_ne_nil {bs part : Bytes} (h : part ∈ chunks bs) : part ≠ [] := by
  fun_induction chunks bs with
  | case1 => cases h
  | case2 bs hne ih =>
    rcases List.mem_cons.mp h with rfl | h
    · simp [hne]
    · exact ih h

/-- What sending a frame does: nothing where the payload is too long; else the frame is on the
connection as a whole, or a part of it is that is not all. -/
inductive Sends (c : Conn) (opcode : UInt8) (payload : Bytes) : Status × Conn → Prop
  | tooLong (hlong : c.client.maxMessageBytes < payload.length) : Sends c opcode payload (.protocol, c)
  | stopped {status : Status} {mask : Mask} {accepted : Bytes} {out : Outside}
      (hgrants : out.grants = c.out.grants) (hreads : out.reads = c.out.reads)
      (hstatus : status ≠ .ok ∧ status ≠ .protocol) (hfits : payload.length ≤ c.client.maxMessageBytes)
      (hpart : accepted <+: (⟨opcode, mask, payload⟩ : ClientFrame).encode)
      (hshort : accepted.length < (⟨opcode, mask, payload⟩ : ClientFrame).encode.length)
      (hnone : ¬ Accepts c.out.writes → accepted = []) :
      Sends c opcode payload (status, { c with out, log := c.log ++ [⟨⟨opcode, mask, payload⟩, accepted⟩] })
  | whole {mask : Mask} {out : Outside}
      (hgrants : out.grants = c.out.grants) (hreads : out.reads = c.out.reads)
      (hfits : payload.length ≤ c.client.maxMessageBytes) (haccepts : Accepts c.out.writes) :
      Sends c opcode payload (.ok, { c with
        client := { c.client with closeSent := c.client.closeSent || decide (opcode = 8) }
        out
        log := c.log ++ [⟨⟨opcode, mask, payload⟩, (⟨opcode, mask, payload⟩ : ClientFrame).encode⟩] })

theorem Conn.sendFrame_sends (c : Conn) {opcode : UInt8} (hop : opcode.toNat < 16) (payload : Bytes) :
    Sends c opcode payload (c.sendFrame opcode payload) := by
  unfold sendFrame
  split
  · rename_i hlong
    exact .tooLong hlong
  · rename_i hfits
    rw [Nat.not_lt] at hfits
    dsimp only
    rw [frameHeader_eq hop]
    generalize c.out.masks.headD ⟨0, 0, 0, 0⟩ = mask
    have hflatten : ((⟨opcode, mask, payload⟩ : ClientFrame).header :: chunks (applyMask mask payload)).flatten =
        (⟨opcode, mask, payload⟩ : ClientFrame).encode := by
      rw [List.flatten_cons, flatten_chunks]
      rfl
    have hparts : ∀ part ∈ (⟨opcode, mask, payload⟩ : ClientFrame).header :: chunks (applyMask mask payload), part ≠ [] := by
      intro part hpart
      rcases List.mem_cons.mp hpart with rfl | hpart
      · exact List.cons_ne_nil _ _
      · exact chunks_ne_nil hpart
    have hnone : ¬ Accepts c.out.writes → (writeParts c.client.closeReceived c.out.writes
        ((⟨opcode, mask, payload⟩ : ClientFrame).header :: chunks (applyMask mask payload))).1 = [] :=
      fun h => writeParts_of_not_accepts h hparts
    rcases hwrite : writeParts c.client.closeReceived c.out.writes
      ((⟨opcode, mask, payload⟩ : ClientFrame).header :: chunks (applyMask mask payload)) with ⟨accepted, status, left⟩
    rw [hwrite] at hnone
    rcases writeParts_cases _ hwrite with ⟨rfl, hall⟩ | ⟨hok, hprotocol, hpart, hshort⟩
    · rw [hflatten] at hall
      subst hall
      have haccepts : Accepts c.out.writes := by
        by_contra hno
        exact ClientFrame.encode_ne_nil _ (hnone hno)
      have hwhole := @Sends.whole c opcode payload mask ⟨c.out.reads, left, c.out.masks.tail, c.out.grants⟩ rfl rfl hfits haccepts
      by_cases hclose : opcode = 8
      · simpa only [hclose, decide_true, Bool.or_true, if_true] using hwhole
      · simpa only [hclose, decide_false, Bool.or_false, if_false] using hwhole
    · rw [hflatten] at hpart hshort
      cases status with
      | ok => exact absurd rfl hok
      | timeout | closed | disconnected | noMem | io | protocol =>
        exact Sends.stopped rfl rfl ⟨hok, hprotocol⟩ hfits hpart hshort hnone

end Beetle.Wss
