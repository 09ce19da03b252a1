import Beetle.Channels.Telegram.Poll

/-! When the mention gate of a group opens. -/
namespace Beetle.Channels.Telegram

/-- The length of a text in units of which a character takes `size`. -/
def textLength (size : Char → Nat) (text : List Char) : Nat := (text.map size).sum

def utf16Size (c : Char) : Nat := if c.toNat < 0x10000 then 1 else 2

/-- The entity covers the mention, where its offset and length count such units. -/
def MessageEntity.Covers (size : Char → Nat) (text mention : List Char) (e : MessageEntity) : Prop :=
  e.type_ = "mention" ∧ ∃ front part back, text = front ++ part ++ back ∧ eqIgnoreAsciiCase part mention ∧
    e.offset = some (textLength size front : Int) ∧ e.length = some (textLength size part : Int)

/-- The mention is somewhere in the text with no letter, digit or underscore behind it. -/
def StandsAlone (isWord : Char → Bool) (text mention : List Char) : Prop :=
  ∃ front back, text = front ++ mention ++ back ∧ ∀ c ∈ back.head?, isWord c = false

/-- What opens the gate for this bot: Telegram counts in UTF-16. -/
def MentionsBot (isWord : Char → Bool) (text : String) (entities : Option (List MessageEntity)) (botUsername : String) : Prop :=
  (∃ e ∈ entities.getD [], e.Covers utf16Size text.toList ('@' :: botUsername.toList)) ∨
    StandsAlone isWord text.toList ('@' :: botUsername.toList)

variable {text mention : List Char} {n : Nat} {e : MessageEntity}

@[simp] theorem textLength_nil (size : Char → Nat) : textLength size [] = 0 := rfl

@[simp] theorem textLength_cons (size : Char → Nat) (c : Char) :
    textLength size (c :: text) = size c + textLength size text := by
  rw [textLength, textLength, List.map_cons, List.sum_cons]

theorem dropBytes_eq_some_iff {rest : List Char} :
    dropBytes text n = some rest ↔ ∃ front, text = front ++ rest ∧ textLength Char.utf8Size front = n := by
  induction text generalizing n with
  | nil =>
    rw [dropBytes]
    constructor
    · intro h
      obtain ⟨rfl, hrest⟩ := Option.ite_none_right_eq_some.mp h
      exact ⟨[], (Option.some.inj hrest), rfl⟩
    · rintro ⟨front, htext, rfl⟩
      obtain ⟨rfl, rfl⟩ := List.append_eq_nil_iff.mp htext.symm
      rfl
  | cons c text ih =>
    have hc := c.utf8Size_pos
    rw [dropBytes]
    constructor
    · intro h
      split at h
      · rename_i hn
        exact ⟨[], Option.some.inj h, hn.symm⟩
      · obtain ⟨hle, h⟩ := Option.ite_none_right_eq_some.mp h
        obtain ⟨front, rfl, hfront⟩ := ih.mp h
        exact ⟨c :: front, rfl, by rw [textLength_cons]; omega⟩
    · rintro ⟨front, htext, hfront⟩
      cases front with
      | nil =>
        obtain rfl : n = 0 := hfront.symm
        rw [if_pos rfl, htext, List.nil_append]
      | cons c' front =>
        obtain ⟨rfl, rfl⟩ := List.cons.inj htext
        rw [textLength_cons] at hfront
        rw [if_neg (by omega), if_pos (by omega), ih]
        exact ⟨front, rfl, by omega⟩

theorem takeBytes_eq_some_iff {part : List Char} :
    takeBytes text n = some part ↔ (∃ back, text = part ++ back) ∧ textLength Char.utf8Size part = n := by
  induction text generalizing n part with
  | nil =>
    rw [takeBytes]
    constructor
    · intro h
      obtain ⟨rfl, hpart⟩ := Option.ite_none_right_eq_some.mp h
      exact ⟨⟨[], by rw [← Option.some.inj hpart]; rfl⟩, by rw [← Option.some.inj hpart]; rfl⟩
    · rintro ⟨⟨back, htext⟩, rfl⟩
      obtain ⟨rfl, rfl⟩ := List.append_eq_nil_iff.mp htext.symm
      rfl
  | cons c text ih =>
    have hc := c.utf8Size_pos
    rw [takeBytes]
    constructor
    · intro h
      split at h
      · rename_i hn
        obtain rfl := Option.some.inj h
        exact ⟨⟨c :: text, rfl⟩, hn.symm⟩
      · obtain ⟨hle, h⟩ := Option.ite_none_right_eq_some.mp h
        obtain ⟨part, hpart, rfl⟩ := Option.map_eq_some_iff.mp h
        obtain ⟨⟨back, rfl⟩, hlength⟩ := ih.mp hpart
        exact ⟨⟨back, rfl⟩, by rw [textLength_cons]; omega⟩
    · rintro ⟨⟨back, htext⟩, hlength⟩
      cases part with
      | nil =>
        obtain rfl : n = 0 := hlength.symm
        rw [if_pos rfl]
      | cons c' part =>
        obtain ⟨rfl, rfl⟩ := List.cons.inj htext
        rw [textLength_cons] at hlength
        rw [if_neg (by omega), if_pos (by omega), ih.mpr ⟨⟨back, rfl⟩, (by omega : _ = n - c.utf8Size)⟩]
        rfl

theorem textLength_pos_of_eqIgnoreAsciiCase {part : List Char} {c : Char} (h : eqIgnoreAsciiCase part (c :: mention) = true) :
    0 < textLength Char.utf8Size part := by
  cases part with
  | nil => cases h
  | cons c' part =>
    rw [textLength_cons]
    exact Nat.add_pos_left c'.utf8Size_pos _

/-- The code takes the offset and the length of an entity for numbers of bytes. -/
theorem messageMentionsBot_iff {text : String} {entities : Option (List MessageEntity)} {botUsername : String}
    (hbot : botUsername ≠ "") : messageMentionsBot text entities botUsername = true ↔
      ('@' :: botUsername.toList) <:+: text.toList ∨
        ∃ e ∈ entities.getD [], e.Covers Char.utf8Size text.toList ('@' :: botUsername.toList) := by
  rw [messageMentionsBot, if_neg hbot]
  dsimp only
  by_cases hin : ('@' :: botUsername.toList) <:+: text.toList
  · simp only [hin, if_true, true_or]
  simp only [hin, if_false, false_or, List.any_eq_true, Bool.and_eq_true, decide_eq_true_eq]
  refine exists_congr fun e => and_congr_right fun _ => and_congr_right fun _ => ?_
  constructor
  · intro h
    split at h
    · rename_i o l ho hl
      simp only [Bool.and_eq_true, decide_eq_true_eq, Option.any_eq_true] at h
      obtain ⟨⟨hoffset, hlength⟩, part, hpart, hsame⟩ := h
      obtain ⟨rest, hrest, hpart⟩ := Option.bind_eq_some_iff.mp hpart
      obtain ⟨front, htext, hfront⟩ := dropBytes_eq_some_iff.mp hrest
      obtain ⟨⟨back, rfl⟩, hpartLength⟩ := takeBytes_eq_some_iff.mp hpart
      refine ⟨front, part, back, by rw [htext, List.append_assoc], hsame, ?_, ?_⟩
      · rw [ho, hfront, Int.toNat_of_nonneg hoffset]
      · rw [hl, hpartLength, Int.toNat_of_nonneg (Int.le_of_lt hlength)]
    · cases h
  · rintro ⟨front, part, back, htext, hsame, ho, hl⟩
    have hpos := textLength_pos_of_eqIgnoreAsciiCase hsame
    have hrest : dropBytes text.toList (textLength Char.utf8Size front) = some (part ++ back) :=
      dropBytes_eq_some_iff.mpr ⟨front, by rw [htext, List.append_assoc], rfl⟩
    have hpart : takeBytes (part ++ back) (textLength Char.utf8Size part) = some part :=
      takeBytes_eq_some_iff.mpr ⟨⟨back, rfl⟩, rfl⟩
    simp only [ho, hl, Int.toNat_natCast, hrest, hpart, Option.bind_some, Option.any_some, hsame, Int.natCast_nonneg,
      Int.natCast_pos, hpos, decide_true, Bool.and_true]

theorem StandsAlone.infix {isWord : Char → Bool} (h : StandsAlone isWord text mention) : mention <:+: text := by
  obtain ⟨front, back, rfl, -⟩ := h
  exact ⟨front, back, rfl⟩

/-- In ASCII text the bytes are the UTF-16 units. -/
theorem covers_iff_of_ascii (hascii : ∀ c ∈ text, c.toNat < 128) :
    e.Covers Char.utf8Size text mention ↔ e.Covers utf16Size text mention := by
  have hsame {part : List Char} (h : ∀ c ∈ part, c.toNat < 128) :
      textLength Char.utf8Size part = textLength utf16Size part := by
    refine congrArg List.sum (List.map_congr_left fun c hc => ?_)
    have hc := h c hc
    rw [utf16Size, if_pos (by omega), Char.utf8Size_eq_one_iff, UInt32.le_iff_toNat_le]
    exact Nat.le_of_lt_succ hc
  refine and_congr_right fun _ => exists_congr fun front => exists_congr fun part => exists_congr fun back =>
    and_congr_right fun htext => and_congr_right fun _ => ?_
  subst htext
  simp only [List.forall_mem_append] at hascii
  rw [hsame hascii.1.1, hsame hascii.1.2]

/-- Where '@username' occurs, the gate is right if that is no part of a longer name everywhere, or an entity covers the
mention all the same; elsewhere, if the entities cover it in bytes as they do in UTF-16, as they do in ASCII text. -/
theorem messageMentionsBot_right_iff (isWord : Char → Bool) {text : String} {entities : Option (List MessageEntity)}
    {botUsername : String} (hbot : botUsername ≠ "") :
    ((messageMentionsBot text entities botUsername = true ↔ MentionsBot isWord text entities botUsername) ↔
      if ('@' :: botUsername.toList) <:+: text.toList then
        StandsAlone isWord text.toList ('@' :: botUsername.toList) ∨
          ∃ e ∈ entities.getD [], e.Covers utf16Size text.toList ('@' :: botUsername.toList)
      else
        (∃ e ∈ entities.getD [], e.Covers Char.utf8Size text.toList ('@' :: botUsername.toList)) ↔
          ∃ e ∈ entities.getD [], e.Covers utf16Size text.toList ('@' :: botUsername.toList)) ∧
    ((∀ c ∈ text.toList, c.toNat < 128) → ∀ e : MessageEntity,
      e.Covers Char.utf8Size text.toList ('@' :: botUsername.toList) ↔
        e.Covers utf16Size text.toList ('@' :: botUsername.toList)) := by
  refine ⟨?_, fun hascii _ => covers_iff_of_ascii hascii⟩
  rw [messageMentionsBot_iff hbot, MentionsBot]
  split
  · rename_i hin
    rw [or_comm (b := StandsAlone _ _ _)]
    exact ⟨fun h => h.mp (.inl hin), fun h => ⟨fun _ => h, fun _ => .inl hin⟩⟩
  · rename_i hin
    have halone : ¬ StandsAlone isWord text.toList ('@' :: botUsername.toList) := fun h => hin h.infix
    simp only [hin, halone, false_or, or_false]

def isWordChar (c : Char) : Bool := c.isAlphanum || c = '_'

/-- The bot is mentioned at the end of an ASCII text. -/
theorem messageMentionsBot_right_hello :
    messageMentionsBot "hello @beetle_bot" none "beetle_bot" = true ↔ MentionsBot isWordChar "hello @beetle_bot" none "beetle_bot" :=
  (messageMentionsBot_right_iff isWordChar (by decide)).1.mpr (by
    rw [if_pos (by decide)]
    exact .inl ⟨"hello ".toList, [], by decide, nofun⟩)

/-- The gate opens for another bot, and stays shut where a letter before the mention has two bytes. -/
theorem messageMentionsBot_wrong :
    (messageMentionsBot "@beetle_bot2" none "beetle_bot" = true ∧
      ¬ MentionsBot isWordChar "@beetle_bot2" none "beetle_bot") ∧
    (messageMentionsBot "é @Beetle_Bot" (some [⟨"mention", some 2, some 11⟩]) "beetle_bot" = false ∧
      MentionsBot isWordChar "é @Beetle_Bot" (some [⟨"mention", some 2, some 11⟩]) "beetle_bot") := by
  refine ⟨⟨by decide, ?_⟩, by decide, .inl ⟨_, List.mem_singleton_self _, rfl, "é ".toList, "@Beetle_Bot".toList, [],
    by decide, by decide, by decide, by decide⟩⟩
  rintro (⟨e, he, -⟩ | ⟨front, back, htext, hback⟩)
  · cases he
  · cases front with
    | nil =>
      have htext : '@' :: "beetle_bot".toList ++ ['2'] = '@' :: "beetle_bot".toList ++ back := htext
      obtain rfl := List.append_cancel_left htext
      exact absurd (hback '2' rfl) (by decide)
    | cons c front =>
      have htail := congrArg List.tail htext
      have hlength := congrArg List.length htail
      cases front with
      | nil => cases htail
      | cons c' front =>
        simp at hlength
        omega

end Beetle.Channels.Telegram
