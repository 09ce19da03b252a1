import Beetle.Platform.SessionFile

/-! A reader of the JSON text that stored messages are written as. -/
namespace Beetle.Platform.Storage
open Beetle.Lib Beetle.Memory

def hexDigitValue (c : Char) : Nat :=
  if c.isDigit then c.toNat - '0'.toNat else c.toNat - 'a'.toNat + 10

/-- The character that a one-letter escape stands for. -/
def unescapeChar (c : Char) : Char :=
  match c with
  | 'b' => Char.ofNat 8
  | 'f' => Char.ofNat 12
  | 'n' => '\n'
  | 'r' => '\r'
  | 't' => '\t'
  | c => c

/-- The rest of a string up to its closing quote, and what follows it. -/
def readChars : List Char → Option (List Char × List Char)
  | [] => none
  | '"' :: rest => some ([], rest)
  | '\\' :: 'u' :: h₃ :: h₂ :: h₁ :: h₀ :: rest =>
    let n := [h₃, h₂, h₁, h₀].foldl (fun n h => n * 16 + hexDigitValue h) 0
    (readChars rest).map fun (cs, rest) => (Char.ofNat n :: cs, rest)
  | '\\' :: c :: rest => (readChars rest).map fun (cs, rest) => (unescapeChar c :: cs, rest)
  | c :: rest => (readChars rest).map fun (cs, rest) => (c :: cs, rest)

def readField (name : String) (text : List Char) : Option (String × List Char) := do
  let text ← (jsonString name ++ [':', '"']).isPrefixOf? text
  let (value, rest) ← readChars text
  return (String.ofList value, rest)

def readMessage (text : List Char) : Option StoredSessionMessage := do
  let text ← ['\x7b'].isPrefixOf? text
  let (messageId, text) ← readField "message_id" text
  let text ← [','].isPrefixOf? text
  let (role, text) ← readField "role" text
  let text ← [','].isPrefixOf? text
  let (content, text) ← readField "content" text
  if text = ['\x7d'] then return ⟨messageId, role, content⟩ else none

theorem readChars_escapeChar (c : Char) (text : List Char) :
    readChars (escapeChar c ++ text) = (readChars text).map fun (cs, rest) => (c :: cs, rest) := by
  have hcode {n : Nat} (h : c.toNat = n) : c = Char.ofNat n := by rw [← h, Char.ofNat_toNat]
  unfold escapeChar
  split
  case h_1 h | h_2 h | h_3 h | h_4 h | h_5 h | h_6 h | h_7 h =>
    obtain rfl := hcode h
    rfl
  case h_8 hquote hslash _ _ _ _ _ =>
    split
    · rename_i hcontrol
      have hhex : ∀ n < 32, (hex 4 n).foldl (fun n h => n * 16 + hexDigitValue h) 0 = n := by decide
      have hvalue := hhex c.toNat hcontrol
      obtain ⟨h₃, h₂, h₁, h₀, hdigits⟩ : ∃ h₃ h₂ h₁ h₀, hex 4 c.toNat = [h₃, h₂, h₁, h₀] := ⟨_, _, _, _, rfl⟩
      rw [hdigits] at hvalue ⊢
      calc readChars ('\\' :: 'u' :: [h₃, h₂, h₁, h₀] ++ text)
          = (readChars text).map fun (cs, rest) =>
              (Char.ofNat ([h₃, h₂, h₁, h₀].foldl (fun n h => n * 16 + hexDigitValue h) 0) :: cs, rest) := rfl
        _ = (readChars text).map fun (cs, rest) => (c :: cs, rest) := by rw [hvalue, Char.ofNat_toNat]
    · have h₁ : c ≠ '"' := fun h => hquote (by rw [h]; rfl)
      have h₂ : c ≠ '\\' := fun h => hslash (by rw [h]; rfl)
      rw [List.singleton_append]
      conv_lhs => unfold readChars
      split <;> simp_all

theorem readChars_escape (cs text : List Char) :
    readChars (cs.flatMap escapeChar ++ '"' :: text) = some (cs, text) := by
  induction cs with
  | nil => rfl
  | cons c cs ih => rw [List.flatMap_cons, List.append_assoc, readChars_escapeChar, ih]; rfl

theorem readField_jsonField (name value : String) (text : List Char) :
    readField name (jsonField name value ++ text) = some (value, text) := by
  have hsplit : jsonField name value ++ text =
      (jsonString name ++ [':', '"']) ++ (value.toList.flatMap escapeChar ++ '"' :: text) := by
    simp [jsonField, jsonString, escape]
  rw [readField, hsplit, isPrefixOf?_append]
  simp [readChars_escape]

theorem readMessage_toJson (message : StoredSessionMessage) : readMessage message.toJson = some message := by
  have hsplit : message.toJson = ['\x7b'] ++ (jsonField "message_id" message.messageId ++
      ([','] ++ (jsonField "role" message.role ++ ([','] ++ (jsonField "content" message.content ++
        ['\x7d']))))) := by
    simp [StoredSessionMessage.toJson]
  rw [readMessage, hsplit]
  simp only [isPrefixOf?_append, readField_jsonField, Option.bind_eq_bind, Option.bind_some, if_true]
  rfl

/-- `serde_json` as far as it reads what it has written; anything else is an error. -/
def SerdeJson.reader : SerdeJson := ⟨readMessage, fun _ => some none, readMessage_toJson⟩

/-- A reader of just the text that messages are written as. -/
def SerdeJson.exactReader : SerdeJson where
  fromStr text := (readMessage text).filter fun message => message.toJson = text
  firstOfStream text := if text = [] then none else some none
  fromStr_toJson message := by simp [readMessage_toJson]

theorem readMessage_append (message : StoredSessionMessage) {rest : List Char} (h : rest ≠ []) :
    readMessage (message.toJson ++ rest) = none := by
  have hsplit : message.toJson ++ rest = ['\x7b'] ++ (jsonField "message_id" message.messageId ++
      ([','] ++ (jsonField "role" message.role ++ ([','] ++ (jsonField "content" message.content ++
        '\x7d' :: rest))))) := by
    simp [StoredSessionMessage.toJson]
  rw [readMessage, hsplit]
  simp only [isPrefixOf?_append, readField_jsonField, Option.bind_eq_bind, Option.bind_some]
  rw [if_neg (by simp [h])]

end Beetle.Platform.Storage
