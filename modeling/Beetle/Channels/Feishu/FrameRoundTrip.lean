import Beetle.Channels.Feishu.FrameCodec

/-! Frames are read as they were written. -/
namespace Beetle.Channels.Feishu
open Beetle.Lib

section
variable {width : Nat} {input : Bytes} {pos : Nat}

/-- Where the input goes on with a piece, that piece ends within the input. -/
theorem length_of_drop {piece rest : Bytes} (h : input.drop pos = piece ++ rest) (hpos : pos ≤ input.length) :
    input.length = pos + piece.length + rest.length := by
  have hlength := congrArg List.length h
  rw [List.length_drop, List.length_append] at hlength
  omega

theorem drop_of_drop {piece rest : Bytes} (h : input.drop pos = piece ++ rest) :
    input.drop (pos + piece.length) = rest := by
  rw [← List.drop_drop, h, List.drop_left]

section
variable (hpos : pos ≤ input.length)
include hpos

theorem decodeVarint_encodeVarint {n : Nat} {rest : Bytes} (hn : n < 2 ^ 64)
    (h : input.drop pos = encodeVarint n ++ rest) :
    decodeVarint input pos = .ok (n, pos + (encodeVarint n).length) := by
  have hlength := length_of_drop h hpos
  have hread := readVarint_encodeVarint hn rest
  rcases @decodeVarint_spec input pos with ⟨n', rest', hread', hok⟩ | ⟨hnone, -⟩
  · rw [h, hread] at hread'
    obtain ⟨rfl, rfl⟩ := Prod.mk.inj (Option.some.inj hread')
    rw [hok, hlength, Nat.add_sub_cancel]
  · rw [h, hread] at hnone
    cases hnone

theorem decodeLengthDelimitedBytes_encode {bytes rest : Bytes} (hinput : input.length < 2 ^ width) (hwidth : width ≤ 64)
    (h : input.drop pos = (encodeVarint bytes.length ++ bytes) ++ rest) :
    decodeLengthDelimitedBytes width input 2 pos = .ok (bytes, pos + (encodeVarint bytes.length ++ bytes).length) := by
  have hlength := length_of_drop h hpos
  rw [List.length_append] at hlength
  have hfit : bytes.length < 2 ^ width := by omega
  have hvarint := decodeVarint_encodeVarint hpos (Nat.lt_of_lt_of_le hfit (Nat.pow_le_pow_right (by decide) hwidth))
    (h.trans (List.append_assoc _ _ _))
  have hend : saturatingAdd width (pos + (encodeVarint bytes.length).length) bytes.length =
      pos + (encodeVarint bytes.length).length + bytes.length := by
    unfold saturatingAdd
    omega
  have hdrop : input.drop (pos + (encodeVarint bytes.length).length) = bytes ++ rest :=
    drop_of_drop (h.trans (List.append_assoc _ _ _))
  unfold decodeLengthDelimitedBytes
  rw [if_neg (by decide), hvarint]
  dsimp only
  rw [asUsize, Nat.mod_eq_of_lt hfit, hend, if_neg (by omega), slice, if_pos (by omega), Nat.add_sub_cancel_left, hdrop,
    List.take_left, List.length_append, ← Nat.add_assoc]
  rfl

theorem decodeLengthDelimited_encode {text : List Char} {rest : Bytes}
    (hinput : input.length < 2 ^ width) (hwidth : width ≤ 64)
    (h : input.drop pos = (encodeVarint (utf8 text).length ++ utf8 text) ++ rest) :
    decodeLengthDelimited width input 2 pos =
      .ok (text, pos + (encodeVarint (utf8 text).length ++ utf8 text).length) := by
  unfold decodeLengthDelimited
  rw [decodeLengthDelimitedBytes_encode hpos hinput hwidth h]
  dsimp only
  rw [fromUtf8_utf8]

end

end

/-! The loop over the fields. -/

section
variable {α : Type} (width : Nat) (field : Bytes → α → Nat → Nat → Nat → Except Fault (α × Nat))

/-- Wherever the value stands in an input, the reader of the field takes it and goes on behind it. -/
def Reads (number wireType : Nat) (value : Bytes) (message message' : α) : Prop :=
  ∀ input pos rest, pos ≤ input.length → input.length < 2 ^ width → input.drop pos = value ++ rest →
    field input message number wireType pos = .ok (message', pos + value.length)

/-- Wherever the piece stands in an input, the loop comes through it in so many rounds as it has bytes at most. -/
def Takes (message : α) (piece : Bytes) (message' : α) : Prop :=
  ∃ rounds ≤ piece.length, ∀ input pos rest fuel, pos ≤ input.length → input.length < 2 ^ width →
    input.drop pos = piece ++ rest →
    decodeFields input (field input) (fuel + rounds) pos message =
      decodeFields input (field input) fuel (pos + piece.length) message'

variable {width : Nat} {field : Bytes → α → Nat → Nat → Nat → Except Fault (α × Nat)} {message message' : α}

theorem Takes.nil {message : α} : Takes width field message [] message :=
  ⟨0, Nat.le_refl 0, fun _ _ _ _ _ _ _ => rfl⟩

theorem Takes.append {piece piece' : Bytes} {message message' message'' : α} (h : Takes width field message piece message')
    (h' : Takes width field message' piece' message'') : Takes width field message (piece ++ piece') message'' := by
  obtain ⟨rounds, hle, hloop⟩ := h
  obtain ⟨rounds', hle', hloop'⟩ := h'
  refine ⟨rounds' + rounds, by rw [List.length_append]; omega, ?_⟩
  intro input pos rest fuel hpos hinput hdrop
  rw [List.append_assoc] at hdrop
  have hlength := length_of_drop hdrop hpos
  rw [← Nat.add_assoc, hloop input pos _ _ hpos hinput hdrop,
    hloop' input _ rest fuel (by omega) hinput (drop_of_drop hdrop), List.length_append, Nat.add_assoc]

theorem Reads.takes {number wireType : Nat} {value : Bytes}
    (h : Reads width field number wireType value message message') (hnumber : number < 2 ^ 32) (hwire : wireType < 8) :
    Takes width field message (encodeKey number wireType ++ value) message' := by
  have hkey : 0 < (encodeKey number wireType).length := List.length_pos_iff.mpr (encodeVarint_ne_nil _)
  refine ⟨1, by rw [List.length_append]; omega, ?_⟩
  intro input pos rest fuel hpos hinput hdrop
  rw [List.append_assoc] at hdrop
  have hlength := length_of_drop hdrop hpos
  have hvarint := decodeVarint_encodeVarint hpos (n := number * 8 + wireType) (by omega) hdrop
  have hnumber' : (number * 8 + wireType) / 8 % 2 ^ 32 = number := by omega
  have hwire' : (number * 8 + wireType) % 8 = wireType := by omega
  have hfield := h input (pos + (encodeKey number wireType).length) rest (by omega) hinput (drop_of_drop hdrop)
  rw [decodeFields, if_pos (by omega), hvarint]
  dsimp only
  rw [hnumber', hwire', ← encodeKey, hfield, List.length_append, ← Nat.add_assoc]

theorem decodeFields_of_takes {input : Bytes} (h : Takes width field message input message')
    (hinput : input.length < 2 ^ width) :
    decodeFields input (field input) (input.length + 1) 0 message = .ok message' := by
  obtain ⟨rounds, hle, hloop⟩ := h
  have hfuel : input.length + 1 = (input.length - rounds + 1) + rounds := by omega
  rw [hfuel, hloop input 0 [] _ (Nat.zero_le _) hinput (by rw [List.drop_zero, List.append_nil]), decodeFields,
    Nat.zero_add, if_neg (Nat.lt_irrefl _)]

end

/-! Headers. -/

section
variable {width : Nat} (hwidth : width ≤ 64) {frame frame' : Frame}
include hwidth

theorem header_decode_encode {header : Header} (hlength : header.encode.length < 2 ^ width) :
    Header.decode width header.encode = .ok header := by
  have hkey : Reads width (Header.decodeField width) 1 2 (encodeVarint (utf8 header.key).length ++ utf8 header.key)
      .default ⟨header.key, []⟩ := by
    intro input pos rest hpos hinput hdrop
    rw [Header.decodeField, decodeLengthDelimited_encode hpos hinput hwidth hdrop]
    rfl
  have hvalue : Reads width (Header.decodeField width) 2 2 (encodeVarint (utf8 header.value).length ++ utf8 header.value)
      ⟨header.key, []⟩ header := by
    intro input pos rest hpos hinput hdrop
    rw [Header.decodeField, decodeLengthDelimited_encode hpos hinput hwidth hdrop]
    rfl
  exact decodeFields_of_takes ((hkey.takes (by decide) (by decide)).append (hvalue.takes (by decide) (by decide))) hlength

/-! Frames. -/

theorem takes_headers (headers : List Header) (frame : Frame) :
    Takes width (Frame.decodeField width) frame
      (headers.flatMap fun header => encodeLenDelimitedBytes 5 header.encode)
      { frame with headers := frame.headers ++ headers } := by
  induction headers generalizing frame with
  | nil =>
    rw [List.append_nil]
    exact .nil
  | cons header headers ih =>
    have hheader : Reads width (Frame.decodeField width) 5 2 (encodeVarint header.encode.length ++ header.encode) frame
        { frame with headers := frame.headers ++ [header] } := by
      intro input pos rest hpos hinput hdrop
      have hlength := length_of_drop hdrop hpos
      rw [List.length_append] at hlength
      rw [Frame.decodeField, decodeLengthDelimitedBytes_encode hpos hinput hwidth hdrop]
      dsimp only
      rw [header_decode_encode hwidth (by omega)]
      rfl
    have hrest := ih { frame with headers := frame.headers ++ [header] }
    rw [List.append_assoc] at hrest
    exact (hheader.takes (by decide) (by decide)).append hrest

omit hwidth in
theorem takes_nonempty {number : Nat} {value : Bytes} (hnumber : number < 2 ^ 32)
    (hread : Reads width (Frame.decodeField width) number 2 (encodeVarint value.length ++ value) frame frame')
    (hempty : value = [] → frame' = frame) :
    Takes width (Frame.decodeField width) frame (encodeNonempty number value) frame' := by
  unfold encodeNonempty
  split
  · rename_i hvalue
    rw [hempty hvalue]
    exact .nil
  · exact hread.takes hnumber (by decide)

/-- A field of text that is empty so far. -/
theorem takes_text (number : Nat) (put : Frame → List Char → Frame) (text : List Char) (frame : Frame)
    (hnumber : number < 2 ^ 32) (hempty : put frame [] = frame)
    (hfield : ∀ input frame wireType pos, Frame.decodeField width input frame number wireType pos =
      (decodeLengthDelimited width input wireType pos).map fun (text, pos) => (put frame text, pos)) :
    Takes width (Frame.decodeField width) frame (encodeNonempty number (utf8 text)) (put frame text) := by
  apply takes_nonempty hnumber
  · intro input pos rest hpos hinput hdrop
    rw [hfield, decodeLengthDelimited_encode hpos hinput hwidth hdrop]
    rfl
  · intro hnil
    have hlength := length_le_utf8 text
    rw [hnil, List.length_nil, Nat.le_zero, List.length_eq_zero_iff] at hlength
    rw [hlength, hempty]

theorem takes_payload (payload : Bytes) {frame : Frame} (hempty : frame.payload = []) :
    Takes width (Frame.decodeField width) frame (encodeNonempty 8 payload) { frame with payload := payload } := by
  apply takes_nonempty (by decide)
  · intro input pos rest hpos hinput hdrop
    rw [Frame.decodeField, decodeLengthDelimitedBytes_encode hpos hinput hwidth hdrop]
    rfl
  · rintro rfl
    rw [← hempty]

omit hwidth in
theorem takes_varint {number n : Nat} (hnumber : number < 2 ^ 32) (hn : n < 2 ^ 64)
    (hfield : ∀ input pos pos', decodeVarint input pos = .ok (n, pos') →
      Frame.decodeField width input frame number 0 pos = .ok (frame', pos')) :
    Takes width (Frame.decodeField width) frame (encodeVarintField number n) frame' := by
  refine Reads.takes ?_ hnumber (by decide)
  intro input pos rest hpos _ hdrop
  exact hfield input pos _ (decodeVarint_encodeVarint hpos hn hdrop)

omit hwidth in
theorem decodeVarintField_ok {input : Bytes} {n pos pos' : Nat} (h : decodeVarint input pos = .ok (n, pos')) :
    decodeVarintField input 0 pos = .ok (n, pos') := by
  unfold decodeVarintField
  rw [if_neg (by decide), h]

omit hwidth in
theorem decodeI32Field_ok {input : Bytes} {n : I32} {pos pos' : Nat} (hn : 0 ≤ n.val)
    (h : decodeVarint input pos = .ok ((max n.val 0).toNat, pos')) : decodeI32Field input 0 pos = .ok (n, pos') := by
  obtain ⟨n, hlow, hhigh⟩ := n
  obtain ⟨n, rfl⟩ := Int.eq_ofNat_of_zero_le hn
  have hmax : (max (Int.ofNat n) 0).toNat = n := by simp
  have hfield : decodeVarintField input 0 pos = .ok (n, pos') := by
    rw [← hmax]
    exact decodeVarintField_ok h
  unfold decodeI32Field
  rw [hfield]
  dsimp only
  rw [dif_pos (by simpa using hhigh)]

theorem frame_decode_encodeToVec {frame : Frame} (hservice : 0 ≤ frame.service.val) (hmethod : 0 ≤ frame.method.val)
    (hlength : frame.encodeToVec.length < 2 ^ width) : Frame.decode width frame.encodeToVec = .ok frame := by
  have hi32 (n : I32) : (max n.val 0).toNat < 2 ^ 64 := by
    have := n.property
    omega
  have hseqId : Takes width (Frame.decodeField width) .default (encodeVarintField 1 frame.seqId.toNat)
      ⟨frame.seqId, 0, ⟨0, by decide⟩, ⟨0, by decide⟩, [], [], [], [], []⟩ := by
    refine takes_varint (by decide) frame.seqId.toNat_lt fun input pos pos' h => ?_
    rw [Frame.decodeField, decodeVarintField_ok h, Except.map]
    simp only [UInt64.ofNat_toNat, Frame.default]
  have hlogId : Takes width (Frame.decodeField width)
      ⟨frame.seqId, 0, ⟨0, by decide⟩, ⟨0, by decide⟩, [], [], [], [], []⟩
      (encodeVarintField 2 frame.logId.toNat)
      ⟨frame.seqId, frame.logId, ⟨0, by decide⟩, ⟨0, by decide⟩, [], [], [], [], []⟩ := by
    refine takes_varint (by decide) frame.logId.toNat_lt fun input pos pos' h => ?_
    rw [Frame.decodeField, decodeVarintField_ok h, Except.map]
    simp only [UInt64.ofNat_toNat]
  have hservice : Takes width (Frame.decodeField width)
      ⟨frame.seqId, frame.logId, ⟨0, by decide⟩, ⟨0, by decide⟩, [], [], [], [], []⟩
      (encodeVarintField 3 (max frame.service.val 0).toNat)
      ⟨frame.seqId, frame.logId, frame.service, ⟨0, by decide⟩, [], [], [], [], []⟩ := by
    refine takes_varint (by decide) (hi32 _) fun input pos pos' h => ?_
    rw [Frame.decodeField, decodeI32Field_ok hservice h, Except.map]
  have hmethod : Takes width (Frame.decodeField width)
      ⟨frame.seqId, frame.logId, frame.service, ⟨0, by decide⟩, [], [], [], [], []⟩
      (encodeVarintField 4 (max frame.method.val 0).toNat)
      ⟨frame.seqId, frame.logId, frame.service, frame.method, [], [], [], [], []⟩ := by
    refine takes_varint (by decide) (hi32 _) fun input pos pos' h => ?_
    rw [Frame.decodeField, decodeI32Field_ok hmethod h, Except.map]
  have hheaders : Takes width (Frame.decodeField width)
      ⟨frame.seqId, frame.logId, frame.service, frame.method, [], [], [], [], []⟩
      (frame.headers.flatMap fun header => encodeLenDelimitedBytes 5 header.encode)
      ⟨frame.seqId, frame.logId, frame.service, frame.method, frame.headers, [], [], [], []⟩ :=
    takes_headers hwidth frame.headers _
  have hencoding : Takes width (Frame.decodeField width)
      ⟨frame.seqId, frame.logId, frame.service, frame.method, frame.headers, [], [], [], []⟩
      (encodeNonempty 6 (utf8 frame.payloadEncoding))
      ⟨frame.seqId, frame.logId, frame.service, frame.method, frame.headers, frame.payloadEncoding, [], [], []⟩ :=
    takes_text hwidth 6 (fun frame text => { frame with payloadEncoding := text }) _ _ (by decide) rfl fun _ _ _ _ => rfl
  have htype : Takes width (Frame.decodeField width)
      ⟨frame.seqId, frame.logId, frame.service, frame.method, frame.headers, frame.payloadEncoding, [], [], []⟩
      (encodeNonempty 7 (utf8 frame.payloadType))
      ⟨frame.seqId, frame.logId, frame.service, frame.method, frame.headers, frame.payloadEncoding,
        frame.payloadType, [], []⟩ :=
    takes_text hwidth 7 (fun frame text => { frame with payloadType := text }) _ _ (by decide) rfl fun _ _ _ _ => rfl
  have hpayload : Takes width (Frame.decodeField width)
      ⟨frame.seqId, frame.logId, frame.service, frame.method, frame.headers, frame.payloadEncoding, frame.payloadType, [], []⟩
      (encodeNonempty 8 frame.payload)
      ⟨frame.seqId, frame.logId, frame.service, frame.method, frame.headers, frame.payloadEncoding,
        frame.payloadType, frame.payload, []⟩ :=
    takes_payload hwidth frame.payload rfl
  have hlogIdNew : Takes width (Frame.decodeField width)
      ⟨frame.seqId, frame.logId, frame.service, frame.method, frame.headers, frame.payloadEncoding, frame.payloadType,
        frame.payload, []⟩
      (encodeNonempty 9 (utf8 frame.logIdNew)) frame :=
    takes_text hwidth 9 (fun frame text => { frame with logIdNew := text }) _ _ (by decide) rfl fun _ _ _ _ => rfl
  exact decodeFields_of_takes
    ((((((((hseqId.append hlogId).append hservice).append hmethod).append hheaders).append hencoding).append
      htype).append hpayload).append hlogIdNew) hlength

end

/-! The words of the machine. -/

/-- A field that is not known to the reader claims `2 ^ 32` bytes, of which there is none. -/
def oversized : Bytes := [0x7a, 0x80, 0x80, 0x80, 0x80, 0x10]

theorem not_wellFormed_oversized : ¬ WellFormed oversized := by
  intro h
  have hclaims : Claims id true oversized (2 ^ 32) := @Claims.here id true oversized _ _ 122 _ rfl rfl rfl
  exact absurd (@Claims.lt_of_fields id (2 ^ 32) true oversized _ hclaims h (fun _ _ => rfl) (by decide)) (Nat.lt_irrefl _)

/-- Frames come back as they were written, and the reader stops early with errors of the source only. What it
accepts is well formed as long as no field claims more than a `usize` holds: always if that has 64 bits, but not
if it has 32. No slice has more than `isize::MAX` bytes. -/
theorem frame_decode_iff {width : Nat} (hwidth : width = 32 ∨ width = 64) :
    (∀ frame : Frame, 0 ≤ frame.service.val → 0 ≤ frame.method.val → frame.encodeToVec.length < 2 ^ width →
      Frame.decode width frame.encodeToVec = .ok frame) ∧
    (∀ input : Bytes, input.length < 2 ^ (width - 1) → Safe (Frame.decode width input) ∧
      ∀ frame, Frame.decode width input = .ok frame →
        (WellFormed input ↔ ∀ n, Claims (asUsize width) true input n → n < 2 ^ width)) ∧
    ((∀ input : Bytes, input.length < 2 ^ (width - 1) → ∀ frame, Frame.decode width input = .ok frame → WellFormed input) ↔
      width = 64) := by
  have hbound (input : Bytes) (hinput : input.length < 2 ^ (width - 1)) : input.length < 2 ^ width - 1 := by
    rcases hwidth with rfl | rfl <;> omega
  have htaken (n : Nat) (hn : n < 2 ^ width) : asUsize width n = n := Nat.mod_eq_of_lt hn
  have hwellFormed (input : Bytes) (hinput : input.length < 2 ^ (width - 1)) (frame : Frame)
      (hdecode : Frame.decode width input = .ok frame) :
      WellFormed input ↔ ∀ n, Claims (asUsize width) true input n → n < 2 ^ width := by
    have hlength := hbound input hinput
    constructor
    · intro hfields n hclaims
      exact hclaims.lt_of_fields hfields htaken (by omega)
    · intro hfit
      exact ((frame_decode_spec hlength).2 frame hdecode).wellFormed fun n hclaims => htaken n (hfit n hclaims)
  refine ⟨?_, ?_, ?_⟩
  · intro frame hservice hmethod hlength
    exact frame_decode_encodeToVec (by omega) hservice hmethod hlength
  · intro input hinput
    exact ⟨(frame_decode_spec (hbound input hinput)).1, hwellFormed input hinput⟩
  · constructor
    · intro hall
      rcases hwidth with rfl | rfl
      · exact absurd (hall oversized (by decide) .default rfl) not_wellFormed_oversized
      · rfl
    · rintro rfl input hinput frame hdecode
      exact (hwellFormed input hinput frame hdecode).mpr fun n hclaims => lt_of_claims hclaims

/-- A reply with one header. -/
def reply : Frame :=
  ⟨0, 42, ⟨0, zero_fits⟩, ⟨0, zero_fits⟩, [⟨"type".toList, "reply".toList⟩], [], [], [], "abc".toList⟩

theorem reply_round_trip : Frame.decode 32 reply.encodeToVec = .ok reply ∧ Safe (Frame.decode 32 oversized) :=
  ⟨(frame_decode_iff (.inl rfl)).1 reply (Int.le_refl 0) (Int.le_refl 0) (by decide +kernel),
    ((frame_decode_iff (.inl rfl)).2.1 oversized (by decide)).1⟩

/-- On 32 bits the field of `2 ^ 32` bytes counts as empty. -/
theorem oversized_field_accepted :
    ¬ ∀ width, width = 32 ∨ width = 64 → ∀ input : Bytes, input.length < 2 ^ (width - 1) →
      ∀ frame, Frame.decode width input = .ok frame → WellFormed input :=
  fun h => not_wellFormed_oversized (h 32 (.inl rfl) oversized (by decide) .default rfl)

end Beetle.Channels.Feishu
