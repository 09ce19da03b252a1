import Beetle.Wss.Assembly

/-! The messages that a server sends, and the frames that it may cut them into. -/
namespace Beetle.Wss
open Beetle.Lib Beetle.Lib.Ws

/-- What becomes of a frame that comes next. -/
def frameVerdict (max : Nat) (a : Assembly) (f : WireFrame) : Verdict :=
  if f.first &&& 0x70 ≠ 0 ∨ f.mask.isSome ∨ Refused max f.fin f.opcode f.header.length f.payload.length then .bad
  else accept max a f.fin f.opcode f.payload

/-- The messages that the frames make, and what is left of one, if none of them is refused and none closes
the connection. -/
def deliver (max : Nat) : Assembly → List WireFrame → Option (List Bytes × Assembly)
  | a, [] => some ([], a)
  | a, f :: fs =>
    match frameVerdict max a f with
    | .message data a => (deliver max a fs).map fun (events, a) => (data :: events, a)
    | .again a => deliver max a fs
    | _ => none

structure Control where
  pong : Bool
  form : LengthForm
  payload : Bytes

def Control.frame (control : Control) : WireFrame :=
  ⟨if control.pong then 0x8A else 0x89, none, control.form, control.payload⟩

/-- A piece of a message, and the control frames that come before it. -/
structure Fragment where
  before : List Control
  form : LengthForm
  payload : Bytes

def Fragment.frame (fragment : Fragment) (fin : Bool) (opcode : UInt8) : WireFrame :=
  ⟨(if fin then 0x80 else 0) ||| opcode, none, fragment.form, fragment.payload⟩

def Fragment.frames (fragment : Fragment) (fin : Bool) (opcode : UInt8) : List WireFrame :=
  fragment.before.map Control.frame ++ [fragment.frame fin opcode]

/-- Pieces that do not end their message; only the first of all has the opcode of the message. -/
def pieces (opcode : UInt8) : List Fragment → List WireFrame
  | [] => []
  | fragment :: rest => fragment.frames false opcode ++ pieces 0 rest

/-- A message that is started and not finished; there is none where there are no pieces. -/
structure Started where
  text : Bool
  pieces : List Fragment

namespace Started

@[grind =] def opcode (started : Started) : UInt8 := if started.text then 1 else 2

def frames (started : Started) : List WireFrame := Wss.pieces started.opcode started.pieces

def payload (started : Started) : Bytes := started.pieces.flatMap Fragment.payload

def assembly (started : Started) : Assembly := if started.pieces = [] then .none else ⟨started.opcode, started.payload⟩

end Started

structure Message where
  started : Started
  last : Fragment

namespace Message

def frames (m : Message) : List WireFrame :=
  m.started.frames ++ m.last.frames true (if m.started.pieces = [] then m.started.opcode else 0)

def payload (m : Message) : Bytes := m.started.payload ++ m.last.payload

end Message

/-- What may be in one frame: the length fits its form, and the device can count the bytes. -/
structure Countable (f : WireFrame) : Prop where
  form : f.form.Fits f.payload.length
  size : f.encode.length ≤ sizeMax

structure Control.Sendable (max : Nat) (control : Control) : Prop where
  length : control.payload.length ≤ 125
  max : control.payload.length ≤ max
  frame : Countable control.frame

structure Fragment.Sendable (max : Nat) (fragment : Fragment) : Prop where
  before : ∀ control ∈ fragment.before, control.Sendable max
  frame : ∀ fin opcode, Countable (fragment.frame fin opcode)

structure Started.Sendable (max : Nat) (started : Started) : Prop where
  pieces : ∀ fragment ∈ started.pieces, fragment.Sendable max
  length : started.payload.length ≤ max

structure Message.Sendable (max : Nat) (m : Message) : Prop where
  started : m.started.Sendable max
  last : m.last.Sendable max
  length : m.payload.length ≤ max

/-- A frame that violates the framing of the protocol after these pieces, or is too long. -/
def Violates (max : Nat) (started : Started) (f : WireFrame) : Prop :=
  -- reserved bits, or a mask
  f.first &&& 0x70 ≠ 0 ∨ f.mask.isSome ∨
  -- an opcode that there is not
  f.opcode ∉ ([0, 1, 2, 8, 9, 10] : List UInt8) ∨
  -- a fragmented or long control frame
  (f.isControl ∧ (f.fin = false ∨ 125 < f.payload.length)) ∨
  -- a continuation without start, and a start inside a message
  (f.opcode = 0 ∧ started.pieces = []) ∨ (f.opcode ∈ ([1, 2] : List UInt8) ∧ started.pieces ≠ []) ∨
  -- a frame or a message over the limit
  max < f.payload.length ∨ (f.opcode = 0 ∧ max < started.payload.length + f.payload.length)

/-- Where no message is put together, there is nothing of one. -/
def Assembly.Sound (a : Assembly) : Prop := a.opcode = 0 → a.data = []

/-! The messages are what the frames make. -/

variable {max : Nat} {opcode : UInt8}

theorem deliver_append {a b : Assembly} {fs gs : List WireFrame} {events : List Bytes}
    (h : deliver max a fs = some (events, b)) :
    deliver max a (fs ++ gs) = (deliver max b gs).map fun (more, c) => (events ++ more, c) := by
  induction fs generalizing a events with
  | nil =>
    cases h
    simp
  | cons f fs ih =>
    rw [List.cons_append]
    rw [deliver] at h ⊢
    split at h
    · rename_i data a' hverdict
      obtain ⟨⟨more, b'⟩, hrest, heq⟩ := Option.map_eq_some_iff.mp h
      cases heq
      rw [ih hrest, Option.map_map]
      rfl
    · exact ih h
    · cases h

theorem not_refused {f : WireFrame} (hcount : Countable f) (hmax : f.payload.length ≤ max)
    (hcontrol : f.isControl → f.fin = true ∧ f.payload.length ≤ 125) :
    ¬ Refused max f.fin f.opcode f.header.length f.payload.length := by
  rintro (h | ⟨h, hfin | hlong⟩ | h)
  · exact absurd h (Nat.not_lt.mpr hmax)
  · rw [(hcontrol h).1] at hfin
    cases hfin
  · exact absurd (hcontrol h).2 (Nat.not_le.mpr hlong)
  · have hsize := hcount.size
    rw [WireFrame.encode, List.length_append] at hsize
    omega

theorem frameVerdict_control {control : Control} (h : control.Sendable max) (a : Assembly) :
    frameVerdict max a control.frame = .again a := by
  have hbits : control.frame.first &&& 0x70 = 0 ∧ control.frame.fin = true ∧
      (control.frame.opcode = 9 ∨ control.frame.opcode = 10) := by
    obtain ⟨pong, form, payload⟩ := control
    cases pong
    · exact ⟨(by decide : (0x89 : UInt8) &&& 0x70 = 0), (by decide : decide ((0x89 : UInt8) &&& 0x80 ≠ 0) = true),
        .inl (by decide : (0x89 : UInt8) &&& 0x0F = 9)⟩
    · exact ⟨(by decide : (0x8A : UInt8) &&& 0x70 = 0), (by decide : decide ((0x8A : UInt8) &&& 0x80 ≠ 0) = true),
        .inr (by decide : (0x8A : UInt8) &&& 0x0F = 10)⟩
  obtain ⟨hreserved, hfin, hop⟩ := hbits
  have hallowed := not_refused h.frame h.max fun _ => ⟨hfin, h.length⟩
  rw [frameVerdict, if_neg]
  · rcases hop with hop | hop
    · rw [hop]
      rfl
    · rw [hop]
      rfl
  · rintro (h | h | h)
    · exact h hreserved
    · cases h
    · exact hallowed h

theorem deliver_controls {controls : List Control} (h : ∀ control ∈ controls, control.Sendable max) (a : Assembly) :
    deliver max a (controls.map Control.frame) = some ([], a) := by
  induction controls with
  | nil => rfl
  | cons control controls ih =>
    rw [List.forall_mem_cons] at h
    rw [List.map_cons, deliver, frameVerdict_control h.1]
    exact ih h.2

/-- A fragment that may come next. -/
theorem frameVerdict_fragment {fragment : Fragment} (h : fragment.Sendable max) (hmax : fragment.payload.length ≤ max)
    (fin : Bool) (hop : opcode = 0 ∨ opcode = 1 ∨ opcode = 2) (a : Assembly) :
    frameVerdict max a (fragment.frame fin opcode) = accept max a fin opcode fragment.payload := by
  have hbits : (fragment.frame fin opcode).first &&& 0x70 = 0 ∧ (fragment.frame fin opcode).fin = fin ∧
      (fragment.frame fin opcode).opcode = opcode ∧ ¬ (fragment.frame fin opcode).isControl := by
    have hflag : (if fin then 0x80 else 0 : UInt8) = 0 ∨ (if fin then 0x80 else 0 : UInt8) = 0x80 := by cases fin <;> simp
    have hsmall : opcode.toNat < 16 ∧ opcode &&& 8 = 0 := by rcases hop with rfl | rfl | rfl <;> decide
    obtain ⟨hopcode, -, hreserved, hfin⟩ := opcode_bits hflag opcode hsmall.1
    refine ⟨hreserved, ?_, hopcode, fun hcontrol => hcontrol ?_⟩
    · change decide (((if fin then 0x80 else 0 : UInt8) ||| opcode) &&& 0x80 ≠ 0) = fin
      rw [hfin]
      cases fin <;> decide
    · change (((if fin then 0x80 else 0 : UInt8) ||| opcode) &&& 0x0F) &&& 8 = 0
      rw [hopcode]
      exact hsmall.2
  obtain ⟨hreserved, hfin, hopcode, hdata⟩ := hbits
  have hallowed := not_refused (h.frame fin opcode) hmax fun hcontrol => absurd hcontrol hdata
  rw [frameVerdict, if_neg, hfin, hopcode]
  · rfl
  · rintro (h | h | h)
    · exact h hreserved
    · cases h
    · exact hallowed h

section
variable {max : Nat} {opcode : UInt8} {data payload : Bytes}

theorem accept_continuation (hop : opcode ≠ 0) (hlength : data.length + payload.length ≤ max) :
    accept max ⟨opcode, data⟩ false 0 payload = .again ⟨opcode, data ++ payload⟩ := by
  rw [accept, if_pos rfl, if_neg]
  · rfl
  · rintro (h | h)
    · exact hop h
    · exact absurd hlength (Nat.not_le.mpr h.2)

theorem accept_last (hop : opcode ≠ 0) (hlength : data.length + payload.length ≤ max) :
    accept max ⟨opcode, data⟩ true 0 payload = .message (data ++ payload) .none := by
  rw [accept, if_pos rfl, if_neg]
  · rfl
  · rintro (h | h)
    · exact hop h
    · exact absurd hlength (Nat.not_le.mpr h.2)

theorem accept_first (hop : opcode = 1 ∨ opcode = 2) (hlength : payload.length ≤ max) :
    accept max .none false opcode payload = .again ⟨opcode, payload⟩ := by
  have hzero : opcode ≠ 0 := by rcases hop with rfl | rfl <;> decide
  rw [accept, if_neg hzero, if_pos hop, if_neg (show ¬ Assembly.none.opcode ≠ 0 from not_not.mpr rfl), if_neg Bool.false_ne_true, if_neg]
  · rfl
  · rintro ⟨-, hlong⟩
    rw [Assembly.none, List.length_nil, Nat.zero_add] at hlong
    exact absurd hlength (Nat.not_le.mpr hlong)

theorem accept_whole (hop : opcode = 1 ∨ opcode = 2) :
    accept max .none true opcode payload = .message payload .none := by
  have hzero : opcode ≠ 0 := by rcases hop with rfl | rfl <;> decide
  rw [accept, if_neg hzero, if_pos hop, if_neg (show ¬ Assembly.none.opcode ≠ 0 from not_not.mpr rfl), if_pos rfl]

end

theorem deliver_fragment {fragment : Fragment} (h : fragment.Sendable max) (hmax : fragment.payload.length ≤ max)
    (fin : Bool) (hop : opcode = 0 ∨ opcode = 1 ∨ opcode = 2) (a : Assembly) (fs : List WireFrame) :
    deliver max a (fragment.frames fin opcode ++ fs) =
      match accept max a fin opcode fragment.payload with
      | .message data a => (deliver max a fs).map fun (events, a) => (data :: events, a)
      | .again a => deliver max a fs
      | _ => none := by
  rw [Fragment.frames, List.append_assoc, deliver_append (deliver_controls h.before a), List.singleton_append, deliver,
    frameVerdict_fragment h hmax fin hop]
  have hnil (result : Option (List Bytes × Assembly)) : (result.map fun (more, c) => (([] : List Bytes) ++ more, c)) = result := by
    cases result <;> rfl
  exact hnil _

/-- Pieces that continue a message. -/
theorem deliver_pieces_zero {rest : List Fragment} (h : ∀ fragment ∈ rest, fragment.Sendable max)
    (hop : opcode ≠ 0) {data : Bytes} (hmax : (data ++ rest.flatMap Fragment.payload).length ≤ max)
    (fs : List WireFrame) :
    deliver max ⟨opcode, data⟩ (pieces 0 rest ++ fs) = deliver max ⟨opcode, data ++ rest.flatMap Fragment.payload⟩ fs := by
  induction rest generalizing data with
  | nil => rw [pieces, List.flatMap_nil, List.append_nil, List.nil_append]
  | cons fragment rest ih =>
    rw [List.forall_mem_cons] at h
    rw [List.flatMap_cons, ← List.append_assoc] at hmax ⊢
    have hlength : data.length + fragment.payload.length ≤ max := by
      rw [List.length_append, List.length_append] at hmax
      omega
    rw [pieces, List.append_assoc, deliver_fragment h.1 (by omega) _ (.inl rfl), accept_continuation hop hlength]
    exact ih h.2 hmax

theorem Started.opcode_cases (started : Started) : started.opcode = 1 ∨ started.opcode = 2 := by
  obtain ⟨text, pieces⟩ := started
  cases text
  · exact .inr rfl
  · exact .inl rfl

theorem Started.opcode_ne_zero (started : Started) : started.opcode ≠ 0 := by
  rcases started.opcode_cases with h | h <;> rw [h] <;> decide

theorem deliver_started {started : Started} (h : started.Sendable max) (fs : List WireFrame) :
    deliver max .none (started.frames ++ fs) = deliver max started.assembly fs := by
  have hzero := started.opcode_ne_zero
  have hop := started.opcode_cases
  obtain ⟨text, fragments⟩ := started
  have hpieces : ∀ fragment ∈ fragments, fragment.Sendable max := h.pieces
  have hlength : (fragments.flatMap Fragment.payload).length ≤ max := h.length
  cases fragments with
  | nil => rfl
  | cons first rest =>
    rw [List.forall_mem_cons] at hpieces
    rw [List.flatMap_cons] at hlength
    have hfirst : first.payload.length ≤ max := by
      rw [List.length_append] at hlength
      omega
    rw [Started.frames, pieces, List.append_assoc, deliver_fragment hpieces.1 hfirst _ (.inr hop), accept_first hop hfirst]
    exact deliver_pieces_zero hpieces.2 hzero hlength fs

/-- The last piece of a message after those before it. -/
theorem deliver_message {m : Message} (h : m.Sendable max) (fs : List WireFrame) :
    deliver max .none (m.frames ++ fs) = (deliver max .none fs).map fun (events, a) => (m.payload :: events, a) := by
  obtain ⟨started, last⟩ := m
  have hlength : started.payload.length + last.payload.length ≤ max := by
    rw [← List.length_append]
    exact h.length
  have hlast : last.payload.length ≤ max := by omega
  have hop : (if started.pieces = [] then started.opcode else 0) = 0 ∨
      (if started.pieces = [] then started.opcode else 0) = 1 ∨ (if started.pieces = [] then started.opcode else 0) = 2 := by
    split
    · exact .inr started.opcode_cases
    · exact .inl rfl
  rw [Message.frames, List.append_assoc, deliver_started h.started, deliver_fragment h.last hlast _ hop]
  change _ = (deliver max .none fs).map fun (events, a) => ((started.payload ++ last.payload) :: events, a)
  by_cases hnone : started.pieces = []
  · rw [Started.assembly, if_pos hnone, if_pos hnone, accept_whole started.opcode_cases, Started.payload, hnone]
    rfl
  · rw [Started.assembly, if_neg hnone, if_neg hnone, accept_last started.opcode_ne_zero hlength]

theorem deliver_messages {messages : List Message} (h : ∀ m ∈ messages, m.Sendable max) (fs : List WireFrame) :
    deliver max .none (messages.flatMap Message.frames ++ fs) =
      (deliver max .none fs).map fun (events, a) => (messages.map Message.payload ++ events, a) := by
  induction messages with
  | nil => simp
  | cons m messages ih =>
    rw [List.forall_mem_cons] at h
    rw [List.flatMap_cons, List.append_assoc, deliver_message h.1, ih h.2, Option.map_map]
    rfl

/-- What violates the framing is refused. -/
theorem frameVerdict_violates {started : Started} (h : started.payload.length ≤ max) {f : WireFrame}
    (hviolates : Violates max started f) : frameVerdict max started.assembly f = .bad := by
  rw [frameVerdict]
  split
  · rfl
  · rename_i hallowed
    rcases hviolates with hbits | hmask | hop | hcontrol | ⟨hop, hnone⟩ | ⟨hop, hsome⟩ | hlong | ⟨hop, hlong⟩
    · exact absurd (.inl hbits) hallowed
    · exact absurd (.inr (.inl hmask)) hallowed
    · simp only [List.mem_cons, List.not_mem_nil, or_false, not_or] at hop
      obtain ⟨h0, h1, h2, h8, h9, h10⟩ := hop
      rw [accept, if_neg h0, if_neg (not_or.mpr ⟨h1, h2⟩), if_neg h8, if_neg (not_or.mpr ⟨h9, h10⟩)]
    · exact absurd (.inr (.inr (.inr (.inl hcontrol)))) hallowed
    · rw [accept, if_pos hop, if_pos]
      left
      rw [Started.assembly, if_pos hnone]
      rfl
    · have hdata : f.opcode = 1 ∨ f.opcode = 2 := by simpa using hop
      have hzero : f.opcode ≠ 0 := by rcases hdata with h | h <;> rw [h] <;> decide
      rw [accept, if_neg hzero, if_pos hdata, if_pos]
      rw [Started.assembly, if_neg hsome]
      exact started.opcode_ne_zero
    · exact absurd (.inr (.inr (.inl hlong))) hallowed
    · rw [accept, if_pos hop, if_pos]
      by_cases hnone : started.pieces = []
      · left
        rw [Started.assembly, if_pos hnone]
        rfl
      · right
        rw [Started.assembly, if_neg hnone]
        refine ⟨fun hempty => ?_, hlong⟩
        rw [hempty, List.length_nil] at hlong
        omega

/-- What a frame leaves is sound. -/
theorem Assembly.Sound.accept {a b : Assembly} (h : a.Sound) {fin : Bool} {payload : Bytes}
    (haccept : (∃ data, accept max a fin opcode payload = .message data b) ∨ accept max a fin opcode payload = .again b) :
    b.Sound := by
  unfold Wss.accept at haccept
  split at haccept
  · split at haccept
    · simp at haccept
    · rename_i hstarted
      split at haccept
      · simp only [Verdict.message.injEq, reduceCtorEq, or_false] at haccept
        obtain ⟨-, -, rfl⟩ := haccept
        exact fun _ => rfl
      · simp only [reduceCtorEq, exists_const, Verdict.again.injEq, false_or] at haccept
        exact haccept ▸ fun hzero => absurd (.inl hzero) hstarted
  · rename_i hzero
    split at haccept
    · split at haccept
      · simp at haccept
      · split at haccept
        · simp only [Verdict.message.injEq, reduceCtorEq, or_false] at haccept
          obtain ⟨-, -, rfl⟩ := haccept
          exact h
        · split at haccept
          · simp at haccept
          · simp only [reduceCtorEq, exists_const, Verdict.again.injEq, false_or] at haccept
            exact haccept ▸ fun hop => absurd hop hzero
    · split at haccept
      · simp at haccept
      · split at haccept
        · simp only [reduceCtorEq, exists_const, Verdict.again.injEq, false_or] at haccept
          exact haccept ▸ h
        · simp at haccept

end Beetle.Wss
