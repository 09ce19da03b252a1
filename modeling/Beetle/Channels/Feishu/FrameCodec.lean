import Beetle.Channels.Feishu.Frame

/-! What the reader of frames accepts, and that it reads what is written. -/
namespace Beetle.Channels.Feishu
open Beetle.Lib

/-! The wire format. `taken` is what becomes of the length that a field claims. -/

/-- The value of a field and what follows it. -/
inductive Value (taken : Nat → Nat) : Nat → Bytes → Bytes → Bytes → Prop where
  | varint {bytes rest : Bytes} {n : Nat} (h : readVarint bytes = some (n, rest)) : Value taken 0 bytes [] rest
  | fixed64 {bytes : Bytes} (h : 8 ≤ bytes.length) : Value taken 1 bytes (bytes.take 8) (bytes.drop 8)
  | lengthDelimited {bytes tail : Bytes} {n : Nat} (h : readVarint bytes = some (n, tail))
      (hlength : taken n ≤ tail.length) : Value taken 2 bytes (tail.take (taken n)) (tail.drop (taken n))
  | fixed32 {bytes : Bytes} (h : 4 ≤ bytes.length) : Value taken 5 bytes (bytes.take 4) (bytes.drop 4)

/-- A sequence of whole fields. At the top those with number 5 are headers, which are such sequences themselves. -/
inductive Fields (taken : Nat → Nat) : Bool → Bytes → Prop where
  | nil {top : Bool} : Fields taken top []
  | cons {top : Bool} {bytes tail content rest : Bytes} {key : Nat} (hkey : readVarint bytes = some (key, tail))
      (hvalue : Value taken (key % 8) tail content rest)
      (hheader : top = true → key / 8 % 2 ^ 32 = 5 → Fields taken false content) (hrest : Fields taken top rest) :
      Fields taken top bytes

/-- No varint is cut off or too long, and no field claims more than there is. -/
def WellFormed (input : Bytes) : Prop := Fields id true input

/-- A length that a field claims. -/
inductive Claims (taken : Nat → Nat) : Bool → Bytes → Nat → Prop where
  | here {top : Bool} {bytes tail tail' : Bytes} {key n : Nat} (hkey : readVarint bytes = some (key, tail))
      (hwire : key % 8 = 2) (hn : readVarint tail = some (n, tail')) : Claims taken top bytes n
  | nested {bytes tail content rest : Bytes} {key n : Nat} (hkey : readVarint bytes = some (key, tail))
      (hvalue : Value taken (key % 8) tail content rest) (hfield : key / 8 % 2 ^ 32 = 5)
      (hn : Claims taken false content n) : Claims taken true bytes n
  | later {top : Bool} {bytes tail content rest : Bytes} {key n : Nat} (hkey : readVarint bytes = some (key, tail))
      (hvalue : Value taken (key % 8) tail content rest) (hn : Claims taken top rest n) : Claims taken top bytes n

variable {taken : Nat → Nat} {α β : Type} {bytes content rest : Bytes} {result : Except Fault α}

theorem Value.mono {wireType : Nat} (h : Value taken wireType bytes content rest)
    (hfit : ∀ n tail, wireType = 2 → readVarint bytes = some (n, tail) → taken n = n) :
    Value id wireType bytes content rest := by
  cases h with
  | varint h => exact .varint h
  | fixed64 h => exact .fixed64 h
  | fixed32 h => exact .fixed32 h
  | @lengthDelimited _ tail n h hlength =>
    have hn := hfit n tail rfl h
    rw [hn] at hlength ⊢
    exact @Value.lengthDelimited id _ _ _ h hlength

theorem Value.length_le {wireType : Nat}
    (h : Value taken wireType bytes content rest) : content.length ≤ bytes.length ∧ rest.length ≤ bytes.length := by
  cases h with
  | varint hread => exact ⟨Nat.zero_le _, Nat.le_of_lt (suffix_of_readVarintFrom hread).2⟩
  | fixed64 _ => exact ⟨List.length_take_le' _ _, (List.drop_suffix _ _).length_le⟩
  | fixed32 _ => exact ⟨List.length_take_le' _ _, (List.drop_suffix _ _).length_le⟩
  | lengthDelimited hread _ =>
    have hlt := (suffix_of_readVarintFrom hread).2
    exact ⟨(List.length_take_le' _ _).trans (Nat.le_of_lt hlt), ((List.drop_suffix _ _).length_le).trans (Nat.le_of_lt hlt)⟩

/-- Where every claimed length is taken as it is, the sequence is one of whole fields. -/
theorem Fields.wellFormed {top : Bool} {bytes : Bytes} (h : Fields taken top bytes)
    (hfit : ∀ n, Claims taken top bytes n → taken n = n) : Fields id top bytes := by
  induction h with
  | nil => exact .nil
  | cons hkey hvalue hheader hrest ihheader ihrest =>
    refine .cons hkey (hvalue.mono fun n tail hwire hn => hfit n (.here hkey hwire hn)) ?_ ?_
    · intro htop hfield
      subst htop
      exact ihheader rfl hfield fun n hn => hfit n (.nested hkey hvalue hfield hn)
    · exact ihrest fun n hn => hfit n (.later hkey hvalue hn)

/-- What a field within the bounds holds does not depend on what becomes of the lengths out of them. -/
theorem Value.eq_of_id {bound wireType : Nat} {bytes content content' rest rest' : Bytes}
    (h : Value taken wireType bytes content rest) (h' : Value id wireType bytes content' rest')
    (htaken : ∀ n < bound, taken n = n) (hbytes : bytes.length < bound) : content = content' ∧ rest = rest' := by
  cases h with
  | varint h =>
    cases h' with
    | varint h' =>
      rw [h] at h'
      exact ⟨rfl, (Prod.mk.inj (Option.some.inj h')).2⟩
  | fixed64 _ =>
    cases h' with
    | fixed64 _ => exact ⟨rfl, rfl⟩
  | fixed32 _ =>
    cases h' with
    | fixed32 _ => exact ⟨rfl, rfl⟩
  | @lengthDelimited _ tail n h _ =>
    cases h' with
    | lengthDelimited h' hlength =>
      have hlt := (suffix_of_readVarintFrom h).2
      rw [h] at h'
      obtain ⟨rfl, rfl⟩ := Prod.mk.inj (Option.some.inj h')
      rw [htaken n (by rw [id] at hlength; omega)]
      exact ⟨rfl, rfl⟩

/-- Whole fields claim no more than there is. -/
theorem Claims.lt_of_fields {taken : Nat → Nat} {bound : Nat} {top : Bool} {bytes : Bytes} {n : Nat}
    (h : Claims taken top bytes n) (hfields : Fields id top bytes) (htaken : ∀ n < bound, taken n = n)
    (hbytes : bytes.length < bound) : n < bound := by
  induction h with
  | here hkey hwire hn =>
    cases hfields with
    | nil => cases hkey
    | cons hkey' hvalue _ _ =>
      have hlt := (suffix_of_readVarintFrom hkey).2
      rw [hkey] at hkey'
      obtain ⟨rfl, rfl⟩ := Prod.mk.inj (Option.some.inj hkey')
      rw [hwire] at hvalue
      cases hvalue with
      | lengthDelimited hn' hlength =>
        have hlt' := (suffix_of_readVarintFrom hn).2
        rw [hn] at hn'
        obtain ⟨rfl, rfl⟩ := Prod.mk.inj (Option.some.inj hn')
        rw [id] at hlength
        omega
  | nested hkey hvalue hfield _ ih =>
    cases hfields with
    | nil => cases hkey
    | cons hkey' hvalue' hheader _ =>
      have hlt := (suffix_of_readVarintFrom hkey).2
      rw [hkey] at hkey'
      obtain ⟨rfl, rfl⟩ := Prod.mk.inj (Option.some.inj hkey')
      obtain ⟨rfl, -⟩ := hvalue.eq_of_id hvalue' htaken (by omega)
      have hle := hvalue.length_le.1
      exact ih (hheader rfl hfield) (by omega)
  | later hkey hvalue _ ih =>
    cases hfields with
    | nil => cases hkey
    | cons hkey' hvalue' _ hrest =>
      have hlt := (suffix_of_readVarintFrom hkey).2
      rw [hkey] at hkey'
      obtain ⟨rfl, rfl⟩ := Prod.mk.inj (Option.some.inj hkey')
      obtain ⟨-, rfl⟩ := hvalue.eq_of_id hvalue' htaken (by omega)
      have hle := hvalue.length_le.2
      exact ih hrest (by omega)

theorem lt_of_claims {top : Bool} {bytes : Bytes} {n : Nat} (h : Claims taken top bytes n) : n < 2 ^ 64 := by
  induction h with
  | here _ _ hn => exact lt_of_readVarint hn
  | nested _ _ _ _ ih => exact ih
  | later _ _ _ ih => exact ih

/-! Positions. -/

/-- A reader stops early only with an error of the source. -/
def Safe {α : Type} (result : Except Fault α) : Prop := ∀ fault, result = .error fault → ∃ e, fault = .error e

theorem safe_ok {α : Type} (a : α) : Safe (.ok a : Except Fault α) := fun _ h => nomatch h

theorem safe_error {α : Type} (e : Error) : Safe (.error (.error e) : Except Fault α) := by
  intro fault h
  exact ⟨e, (Except.error.inj h).symm⟩

theorem Safe.map (h : Safe result) (f : α → β) : Safe (result.map f) := by
  cases result with
  | ok a => exact safe_ok (f a)
  | error fault =>
    obtain ⟨e, rfl⟩ := h fault rfl
    exact safe_error e

theorem of_map_eq_ok {f : α → β} {b : β} (h : result.map f = .ok b) : ∃ a, result = .ok a ∧ f a = b := by
  cases result with
  | ok a => exact ⟨a, rfl, Except.ok.inj h⟩
  | error fault => cases h

/-- What is done to the value that was read leaves the position. -/
theorem of_map_read {result : Except Fault (α × Nat)} {f : α × Nat → β × Nat} {b : β} {pos : Nat}
    (h : result.map f = .ok (b, pos)) (hf : ∀ a pos, (f (a, pos)).2 = pos) : ∃ a, result = .ok (a, pos) := by
  obtain ⟨⟨a, pos'⟩, hresult, heq⟩ := of_map_eq_ok h
  have hpos := hf a pos'
  rw [heq] at hpos
  obtain rfl : pos = pos' := hpos
  exact ⟨a, hresult⟩

variable {input : Bytes} {pos : Nat}

theorem decodeVarintFrom_spec {fuel shift value : Nat} (hfuel : shift + 7 * fuel = 70) :
    (∃ n rest, readVarintFrom fuel shift value (input.drop pos) = some (n, rest) ∧
      decodeVarintFrom input fuel shift value pos = .ok (n, input.length - rest.length)) ∨
    (readVarintFrom fuel shift value (input.drop pos) = none ∧
      (0 < fuel → ∃ e, decodeVarintFrom input fuel shift value pos = .error (.error e))) := by
  induction fuel generalizing shift value pos with
  | zero => exact .inr ⟨rfl, fun h => absurd h (Nat.lt_irrefl 0)⟩
  | succ fuel ih =>
    rw [decodeVarintFrom]
    cases hbyte : input[pos]? with
    | none =>
      rw [List.drop_eq_nil_of_le (List.getElem?_eq_none_iff.mp hbyte)]
      exact .inr ⟨rfl, fun _ => ⟨_, rfl⟩⟩
    | some byte =>
      obtain ⟨hlt, hget⟩ := List.getElem?_eq_some_iff.mp hbyte
      have hdrop : input.drop pos = byte :: input.drop (pos + 1) := by rw [List.drop_eq_getElem_cons hlt, hget]
      rw [hdrop, readVarintFrom]
      dsimp only
      by_cases hlast : byte.toNat < 128
      · rw [if_pos hlast, if_pos hlast]
        refine .inl ⟨_, _, rfl, ?_⟩
        rw [List.length_drop]
        congr 2
        omega
      · rw [if_neg hlast, if_neg hlast]
        by_cases hlong : 64 ≤ shift + 7
        · obtain rfl : fuel = 0 := by omega
          rw [if_pos hlong]
          exact .inr ⟨rfl, fun _ => ⟨_, rfl⟩⟩
        · rw [if_neg hlong]
          rcases @ih (pos + 1) (shift + 7) (addBits value shift byte) (by omega) with h | ⟨h, hok⟩
          · exact .inl h
          · exact .inr ⟨h, fun _ => hok (by omega)⟩

theorem decodeVarint_spec :
    (∃ n rest, readVarint (input.drop pos) = some (n, rest) ∧
      decodeVarint input pos = .ok (n, input.length - rest.length)) ∨
    (readVarint (input.drop pos) = none ∧ ∃ e, decodeVarint input pos = .error (.error e)) := by
  rcases @decodeVarintFrom_spec input pos 10 0 0 rfl with h | ⟨h, herror⟩
  · exact .inl h
  · exact .inr ⟨h, herror (by decide)⟩

theorem safe_decodeVarint : Safe (decodeVarint input pos) := by
  rcases @decodeVarint_spec input pos with ⟨n, rest, -, h⟩ | ⟨-, e, h⟩
  · rw [h]
    exact safe_ok _
  · rw [h]
    exact safe_error e

theorem decodeVarint_ok {n pos' : Nat} (h : decodeVarint input pos = .ok (n, pos')) :
    readVarint (input.drop pos) = some (n, input.drop pos') ∧ pos < pos' ∧ pos' ≤ input.length := by
  rcases @decodeVarint_spec input pos with ⟨n', rest, hread, hok⟩ | ⟨-, e, herror⟩
  · rw [hok] at h
    obtain ⟨rfl, rfl⟩ := Prod.mk.inj (Except.ok.inj h)
    obtain ⟨hsuffix, hlt⟩ := suffix_of_readVarintFrom hread
    have hrest : input.drop (input.length - rest.length) = rest :=
      (List.suffix_iff_eq_drop.mp (hsuffix.trans (List.drop_suffix pos input))).symm
    rw [List.length_drop] at hlt
    rw [hrest]
    exact ⟨hread, by omega, Nat.sub_le _ _⟩
  · rw [herror] at h
    cases h

/-! The readers of values. -/

/-- A reader that has come from one position to another has passed a value of its wire type. -/
structure Passes (width : Nat) (input : Bytes) (wireType pos : Nat) (content : Bytes) (pos' : Nat) : Prop where
  value : Value (asUsize width) wireType (input.drop pos) content (input.drop pos')
  forward : pos ≤ pos'
  inside : pos' ≤ input.length

variable {width : Nat} {wireType : Nat}

theorem passes_decodeVarintField {n pos' : Nat} (h : decodeVarintField input wireType pos = .ok (n, pos')) :
    Passes width input wireType pos [] pos' := by
  unfold decodeVarintField at h
  split at h
  · cases h
  · rename_i hwire
    obtain rfl := Decidable.not_not.mp hwire
    obtain ⟨hread, hlt, hle⟩ := decodeVarint_ok h
    exact ⟨.varint hread, Nat.le_of_lt hlt, hle⟩

theorem passes_decodeI32Field {n : I32} {pos' : Nat} (h : decodeI32Field input wireType pos = .ok (n, pos')) :
    Passes width input wireType pos [] pos' := by
  unfold decodeI32Field at h
  split at h
  · cases h
  · rename_i value pos'' hvalue
    split at h
    · obtain ⟨-, rfl⟩ := Prod.mk.inj (Except.ok.inj h)
      exact passes_decodeVarintField hvalue
    · cases h

theorem safe_decodeVarintField : Safe (decodeVarintField input wireType pos) := by
  unfold decodeVarintField
  split
  · exact safe_error _
  · exact safe_decodeVarint

theorem safe_decodeI32Field : Safe (decodeI32Field input wireType pos) := by
  have hfield : Safe (decodeVarintField input wireType pos) := safe_decodeVarintField
  unfold decodeI32Field
  split
  · rename_i fault hfault
    obtain ⟨e, rfl⟩ := hfield fault hfault
    exact safe_error e
  · split
    · exact safe_ok _
    · exact safe_error _

section
variable (hinput : input.length < 2 ^ width - 1) {pos' : Nat}
include hinput

/-- An end within the input has not been cut down to the largest `usize`. -/
theorem saturatingAdd_eq {a b : Nat} (h : ¬ input.length < saturatingAdd width a b) :
    saturatingAdd width a b = a + b ∧ a + b ≤ input.length := by
  unfold saturatingAdd at h ⊢
  omega

theorem advance_ok {len pos' : Nat} (h : advance width input len pos = .ok pos') :
    pos' = pos + len ∧ pos + len ≤ input.length := by
  unfold advance at h
  dsimp only at h
  split at h
  · cases h
  · rename_i hend
    obtain ⟨heq, hle⟩ := saturatingAdd_eq hinput hend
    exact ⟨(Except.ok.inj h).symm.trans heq, hle⟩

omit hinput in
theorem safe_advance {len : Nat} : Safe (advance width input len pos) := by
  unfold advance
  dsimp only
  split
  · exact safe_error _
  · exact safe_ok _

theorem passes_skipField (hpos : pos ≤ input.length) (h : skipField width input wireType pos = .ok pos') :
    ∃ content, Passes width input wireType pos content pos' := by
  have hfixed (n : Nat) (hadvance : advance width input n pos = .ok pos') :
      n ≤ (input.drop pos).length ∧ input.drop pos' = (input.drop pos).drop n ∧ pos ≤ pos' ∧ pos' ≤ input.length := by
    obtain ⟨rfl, hle⟩ := advance_ok hinput hadvance
    rw [List.length_drop, List.drop_drop]
    exact ⟨by omega, rfl, Nat.le_add_right _ _, hle⟩
  unfold skipField at h
  split at h
  · obtain ⟨⟨n, pos''⟩, hvarint, rfl⟩ := of_map_eq_ok h
    obtain ⟨hread, hlt, hle⟩ := decodeVarint_ok hvarint
    exact ⟨[], .varint hread, Nat.le_of_lt hlt, hle⟩
  · obtain ⟨hlength, hdrop, hforward, hinside⟩ := hfixed 8 h
    refine ⟨(input.drop pos).take 8, ?_, hforward, hinside⟩
    rw [hdrop]
    exact .fixed64 hlength
  · split at h
    · cases h
    · rename_i len pos'' hvarint
      obtain ⟨hread, hlt, hle⟩ := decodeVarint_ok hvarint
      obtain ⟨rfl, hend⟩ := advance_ok hinput h
      refine ⟨(input.drop pos'').take (asUsize width len), ?_, by omega, hend⟩
      rw [← List.drop_drop]
      exact .lengthDelimited hread (by rw [List.length_drop]; omega)
  · obtain ⟨hlength, hdrop, hforward, hinside⟩ := hfixed 4 h
    refine ⟨(input.drop pos).take 4, ?_, hforward, hinside⟩
    rw [hdrop]
    exact .fixed32 hlength
  · cases h

omit hinput in
theorem safe_skipField : Safe (skipField width input wireType pos) := by
  have hvarint : Safe (decodeVarint input pos) := safe_decodeVarint
  unfold skipField
  split
  · exact hvarint.map _
  · exact safe_advance
  · split
    · rename_i fault hfault
      obtain ⟨e, rfl⟩ := hvarint fault hfault
      exact safe_error e
    · exact safe_advance
  · exact safe_advance
  · exact safe_error _

theorem passes_decodeLengthDelimitedBytes {bytes : Bytes}
    (h : decodeLengthDelimitedBytes width input wireType pos = .ok (bytes, pos')) :
    Passes width input wireType pos bytes pos' := by
  unfold decodeLengthDelimitedBytes at h
  split at h
  · cases h
  · rename_i hwire
    obtain rfl := Decidable.not_not.mp hwire
    split at h
    · cases h
    · rename_i len pos'' hvarint
      obtain ⟨hread, hlt, hle⟩ := decodeVarint_ok hvarint
      dsimp only at h
      split at h
      · cases h
      · rename_i hend
        obtain ⟨heq, hinside⟩ := saturatingAdd_eq hinput hend
        obtain ⟨raw, hslice, hraw⟩ := of_map_eq_ok h
        obtain ⟨rfl, rfl⟩ := Prod.mk.inj hraw
        rw [heq] at hslice ⊢
        unfold slice at hslice
        rw [if_pos ⟨Nat.le_add_right _ _, hinside⟩] at hslice
        obtain rfl := Except.ok.inj hslice
        refine ⟨?_, by omega, hinside⟩
        rw [Nat.add_sub_cancel_left, ← List.drop_drop]
        exact .lengthDelimited hread (by rw [List.length_drop]; omega)

theorem safe_decodeLengthDelimitedBytes : Safe (decodeLengthDelimitedBytes width input wireType pos) := by
  have hsafe : Safe (decodeVarint input pos) := safe_decodeVarint
  unfold decodeLengthDelimitedBytes
  split
  · exact safe_error _
  · split
    · rename_i fault hfault
      obtain ⟨e, rfl⟩ := hsafe fault hfault
      exact safe_error e
    · dsimp only
      split
      · exact safe_error _
      · rename_i hend
        obtain ⟨heq, hinside⟩ := saturatingAdd_eq hinput hend
        rw [heq, slice, if_pos ⟨Nat.le_add_right _ _, hinside⟩]
        exact safe_ok _

theorem passes_decodeLengthDelimited {text : List Char}
    (h : decodeLengthDelimited width input wireType pos = .ok (text, pos')) :
    ∃ content, Passes width input wireType pos content pos' := by
  unfold decodeLengthDelimited at h
  split at h
  · cases h
  · rename_i raw pos'' hraw
    split at h
    · obtain ⟨-, rfl⟩ := Prod.mk.inj (Except.ok.inj h)
      exact ⟨raw, passes_decodeLengthDelimitedBytes hinput hraw⟩
    · cases h

theorem safe_decodeLengthDelimited : Safe (decodeLengthDelimited width input wireType pos) := by
  have hsafe : Safe (decodeLengthDelimitedBytes width input wireType pos) := safe_decodeLengthDelimitedBytes hinput
  unfold decodeLengthDelimited
  split
  · rename_i fault hfault
    obtain ⟨e, rfl⟩ := hsafe fault hfault
    exact safe_error e
  · split
    · exact safe_ok _
    · exact safe_error _

/-! The loop over the fields. -/

omit hinput in
/-- Whatever reads fields one by one, and passes the value of each, accepts whole fields only. -/
theorem decodeFields_spec {α : Type} {field : α → Nat → Nat → Nat → Except Fault (α × Nat)} {top : Bool}
    (hsafe : ∀ message number wireType pos, Safe (field message number wireType pos))
    (hpass : ∀ message number wireType pos message' pos', pos ≤ input.length →
      field message number wireType pos = .ok (message', pos') → ∃ content, Passes width input wireType pos content pos' ∧
        (top = true → number = 5 → Fields (asUsize width) false content))
    {fuel pos : Nat} {message : α} (hpos : pos ≤ input.length) (hfuel : input.length - pos < fuel) :
    Safe (decodeFields input field fuel pos message) ∧
      ∀ result, decodeFields input field fuel pos message = .ok result →
        Fields (asUsize width) top (input.drop pos) := by
  induction fuel generalizing pos message with
  | zero => exact absurd hfuel (Nat.not_lt_zero _)
  | succ fuel ih =>
    rw [decodeFields]
    by_cases hmore : pos < input.length
    · rw [if_pos hmore]
      have hvarint : Safe (decodeVarint input pos) := safe_decodeVarint
      rcases hkey : decodeVarint input pos with fault | ⟨key, pos'⟩
      · obtain ⟨e, rfl⟩ := hvarint fault hkey
        exact ⟨safe_error e, fun _ h => nomatch h⟩
      · obtain ⟨hread, hlt, hle⟩ := decodeVarint_ok hkey
        dsimp only
        rcases hfield : field message (key / 8 % 2 ^ 32) (key % 8) pos' with fault | ⟨message', pos''⟩
        · obtain ⟨e, rfl⟩ := hsafe message _ _ pos' fault hfield
          exact ⟨safe_error e, fun _ h => nomatch h⟩
        · obtain ⟨content, hpassed, hheader⟩ := hpass message _ _ pos' message' pos'' hle hfield
          have hforward := hpassed.forward
          obtain ⟨hsafe', hok⟩ := @ih pos'' message' hpassed.inside (by omega)
          exact ⟨hsafe', fun result h => .cons hread hpassed.value hheader (hok result h)⟩
    · rw [if_neg hmore]
      refine ⟨safe_ok message, fun _ _ => ?_⟩
      rw [List.drop_eq_nil_of_le (Nat.le_of_not_lt hmore)]
      exact .nil

theorem header_decode_spec : Safe (Header.decode width input) ∧
    ∀ header, Header.decode width input = .ok header → Fields (asUsize width) false input := by
  apply decodeFields_spec
  · intro header number wireType pos
    unfold Header.decodeField
    split
    · exact (safe_decodeLengthDelimited hinput).map _
    · exact (safe_decodeLengthDelimited hinput).map _
    · exact safe_skipField.map _
  · intro header number wireType pos header' pos' hpos h
    unfold Header.decodeField at h
    split at h
    · obtain ⟨text, htext⟩ := of_map_read h fun _ _ => rfl
      obtain ⟨content, hpassed⟩ := passes_decodeLengthDelimited hinput htext
      exact ⟨content, hpassed, fun h => by cases h⟩
    · obtain ⟨text, htext⟩ := of_map_read h fun _ _ => rfl
      obtain ⟨content, hpassed⟩ := passes_decodeLengthDelimited hinput htext
      exact ⟨content, hpassed, fun h => by cases h⟩
    · obtain ⟨pos'', hskip, heq⟩ := of_map_eq_ok h
      obtain ⟨-, rfl⟩ := Prod.mk.inj heq
      obtain ⟨content, hpassed⟩ := passes_skipField hinput hpos hskip
      exact ⟨content, hpassed, fun h => by cases h⟩
  · exact Nat.zero_le _
  · exact Nat.lt_succ_of_le (Nat.sub_le _ _)

/-- The bytes of a header are not more than those of its frame. -/
theorem nested_lt {nested : Bytes}
    (h : decodeLengthDelimitedBytes width input wireType pos = .ok (nested, pos')) : nested.length < 2 ^ width - 1 := by
  have hle := (passes_decodeLengthDelimitedBytes hinput h).value.length_le.1
  rw [List.length_drop] at hle
  omega

theorem safe_frame_decodeField (frame : Frame) (number wireType pos : Nat) :
    Safe (Frame.decodeField width input frame number wireType pos) := by
  unfold Frame.decodeField
  split
  · exact safe_decodeVarintField.map _
  · exact safe_decodeVarintField.map _
  · exact safe_decodeI32Field.map _
  · exact safe_decodeI32Field.map _
  · have hsafe : Safe (decodeLengthDelimitedBytes width input wireType pos) := safe_decodeLengthDelimitedBytes hinput
    split
    · rename_i fault hfault
      obtain ⟨e, rfl⟩ := hsafe fault hfault
      exact safe_error e
    · rename_i nested pos' hnested
      exact (header_decode_spec (nested_lt hinput hnested)).1.map _
  · exact (safe_decodeLengthDelimited hinput).map _
  · exact (safe_decodeLengthDelimited hinput).map _
  · exact (safe_decodeLengthDelimitedBytes hinput).map _
  · exact (safe_decodeLengthDelimited hinput).map _
  · exact safe_skipField.map _

theorem passes_frame_decodeField {frame frame' : Frame} {number pos' : Nat} (hpos : pos ≤ input.length)
    (h : Frame.decodeField width input frame number wireType pos = .ok (frame', pos')) :
    ∃ content, Passes width input wireType pos content pos' ∧
      (number = 5 → Fields (asUsize width) false content) := by
  unfold Frame.decodeField at h
  split at h
  · obtain ⟨n, hn⟩ := of_map_read h fun _ _ => rfl
    exact ⟨[], passes_decodeVarintField hn, fun h => by omega⟩
  · obtain ⟨n, hn⟩ := of_map_read h fun _ _ => rfl
    exact ⟨[], passes_decodeVarintField hn, fun h => by omega⟩
  · obtain ⟨n, hn⟩ := of_map_read h fun _ _ => rfl
    exact ⟨[], passes_decodeI32Field hn, fun h => by omega⟩
  · obtain ⟨n, hn⟩ := of_map_read h fun _ _ => rfl
    exact ⟨[], passes_decodeI32Field hn, fun h => by omega⟩
  · split at h
    · cases h
    · rename_i nested pos'' hnested
      obtain ⟨header, hheader, heq⟩ := of_map_eq_ok h
      obtain ⟨-, rfl⟩ := Prod.mk.inj heq
      exact ⟨nested, passes_decodeLengthDelimitedBytes hinput hnested,
        fun _ => (header_decode_spec (nested_lt hinput hnested)).2 header hheader⟩
  · obtain ⟨text, htext⟩ := of_map_read h fun _ _ => rfl
    obtain ⟨content, hpassed⟩ := passes_decodeLengthDelimited hinput htext
    exact ⟨content, hpassed, fun h => by omega⟩
  · obtain ⟨text, htext⟩ := of_map_read h fun _ _ => rfl
    obtain ⟨content, hpassed⟩ := passes_decodeLengthDelimited hinput htext
    exact ⟨content, hpassed, fun h => by omega⟩
  · obtain ⟨bytes, hbytes⟩ := of_map_read h fun _ _ => rfl
    exact ⟨bytes, passes_decodeLengthDelimitedBytes hinput hbytes, fun h => by omega⟩
  · obtain ⟨text, htext⟩ := of_map_read h fun _ _ => rfl
    obtain ⟨content, hpassed⟩ := passes_decodeLengthDelimited hinput htext
    exact ⟨content, hpassed, fun h => by omega⟩
  · rename_i hheader _ _ _ _
    obtain ⟨pos'', hskip, heq⟩ := of_map_eq_ok h
    obtain ⟨-, rfl⟩ := Prod.mk.inj heq
    obtain ⟨content, hpassed⟩ := passes_skipField hinput hpos hskip
    exact ⟨content, hpassed, fun h => absurd h hheader⟩

theorem frame_decode_spec : Safe (Frame.decode width input) ∧
    ∀ frame, Frame.decode width input = .ok frame → Fields (asUsize width) true input := by
  apply decodeFields_spec
  · exact safe_frame_decodeField hinput
  · intro frame number wireType pos frame' pos' hpos h
    obtain ⟨content, hpassed, hheader⟩ := passes_frame_decodeField hinput hpos h
    exact ⟨content, hpassed, fun _ => hheader⟩
  · exact Nat.zero_le _
  · exact Nat.lt_succ_of_le (Nat.sub_le _ _)

end

end Beetle.Channels.Feishu
