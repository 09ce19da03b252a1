import Mathlib.Algebra.Order.BigOperators.Group.List
import Mathlib.Algebra.Order.Group.Nat
import Mathlib.Data.List.GetD
import Beetle.Calendar.Ical

/-! Which calendar objects are read without a panic and an overflow, and what their times and durations say. -/
namespace Beetle.Calendar.Caldav
open Beetle.Lib

/-- The result is a value of this kind, or an error. -/
def Sound {α : Type} (Q : α → Prop) : Except Fault α → Prop
  | .ok a => Q a
  | .error (.error _) => True
  | .error _ => False

/-- Neither a panic nor an overflow. -/
abbrev Safe {α : Type} (result : Except Fault α) : Prop := Sound (fun _ => True) result

section
variable {α β : Type} {Q : β → Prop} {result : Except Fault β}

theorem Sound.mono {P : β → Prop} (h : Sound Q result) (himp : ∀ b, Q b → P b) : Sound P result := by
  cases result with
  | ok b => exact himp b h
  | error fault =>
    cases fault with
    | error e => trivial
    | panic | overflow => exact h

theorem Sound.of_ok (h : Sound Q result) {b : β} (hb : result = .ok b) : Q b := by
  subst hb
  exact h

theorem sound_iff : Sound Q result ↔ Safe result ∧ ∀ b, result = .ok b → Q b := by
  constructor
  · exact fun h => ⟨h.mono fun _ _ => trivial, fun b hb => h.of_ok hb⟩
  · rintro ⟨hsafe, hok⟩
    cases result with
    | ok b => exact hok b rfl
    | error fault =>
      cases fault with
      | error e => trivial
      | panic | overflow => exact hsafe

theorem sound_bind {result : Except Fault α} {f : α → Except Fault β} :
    Sound Q (result >>= f) ↔ Sound (fun a => Sound Q (f a)) result := by
  cases result with
  | ok a => rfl
  | error fault => cases fault <;> rfl

/-- A number may be read here: the bytes are whole characters, and where they are a number, the rest holds of it. -/
def Slot (parse : List Char → Option α) (text : List Char) (start stop : Nat) (P : α → Prop) : Prop :=
  ∃ part, slice text start stop = some part ∧ ∀ n, parse part = some n → P n

theorem sound_numberAt {parse : List Char → Option α} {text : List Char} {start stop : Nat} {P : α → Prop} :
    Sound P (numberAt parse text start stop) ↔ Slot parse text start stop P := by
  unfold numberAt Slot
  cases hslice : slice text start stop with
  | none => simp [Sound]
  | some part =>
    cases hparse : parse part with
    | none => simp [Sound, hparse, icalError]
    | some n => simp [Sound, hparse]

end

/-! Dates. -/

structure CalendarTime where
  year : Int
  month : Nat
  day : Nat
  hour : Nat
  min : Nat
  sec : Nat

/-- A day of the calendar and a time of day; the second 60 is a leap second. -/
structure CalendarTime.Valid (t : CalendarTime) : Prop where
  month : 1 ≤ t.month ∧ t.month ≤ 12
  day : 1 ≤ t.day ∧ t.day ≤ (monthDays t.year.natAbs).getD (t.month - 1) 0
  time : t.hour ≤ 23 ∧ t.min ≤ 59 ∧ t.sec ≤ 60

/-- The numbers that `parse_ical_datetime` reads. -/
@[grind =] def denoted (value : List Char) : Except Fault CalendarTime :=
  let trimmed := trim value
  if (utf8 trimmed).length = 8 then do
    let year ← numberAt parseI32 trimmed 0 4
    let month ← numberAt parseU32 trimmed 4 6
    let day ← numberAt parseU32 trimmed 6 8
    .ok ⟨year, month, day, 0, 0, 0⟩
  else if (utf8 trimmed).length < 15 then .error (icalError ("unsupported datetime value: " ++ String.ofList trimmed))
  else do
    let core := trimmed.rdropWhile (· = 'Z')
    let year ← numberAt parseI32 core 0 4
    let month ← numberAt parseU32 core 4 6
    let day ← numberAt parseU32 core 6 8
    let hour ← numberAt parseU32 core 9 11
    let min ← numberAt parseU32 core 11 13
    let sec ← numberAt parseU32 core 13 15
    .ok ⟨year, month, day, hour, min, sec⟩

def CalendarTime.epoch (t : CalendarTime) : Except Fault Nat := ymdhmsToEpoch t.year t.month t.day t.hour t.min t.sec

variable (value : List Char)

theorem parseIcalDatetime_eq (tzid : Option (List Char)) : ∃ zone,
    parseIcalDatetime value tzid = (denoted value >>= fun t => t.epoch >>= fun epoch => .ok (epoch, zone)) := by
  unfold parseIcalDatetime denoted
  dsimp only
  split
  · refine ⟨tzid.getD "UTC".toList, ?_⟩
    rw [bind_assoc]
    refine bind_congr fun year => ?_
    rw [bind_assoc]
    refine bind_congr fun month => ?_
    rw [bind_assoc]
    refine bind_congr fun day => ?_
    rw [except_ok_bind, CalendarTime.epoch]
  · split
    · exact ⟨[], rfl⟩
    · refine ⟨if (trim value).getLast? = some 'Z' then "UTC".toList else tzid.getD "UTC".toList, ?_⟩
      rw [bind_assoc]
      refine bind_congr fun year => ?_
      rw [bind_assoc]
      refine bind_congr fun month => ?_
      rw [bind_assoc]
      refine bind_congr fun day => ?_
      rw [bind_assoc]
      refine bind_congr fun hour => ?_
      rw [bind_assoc]
      refine bind_congr fun min => ?_
      rw [bind_assoc]
      refine bind_congr fun sec => ?_
      rw [except_ok_bind, CalendarTime.epoch]

/-- What a value is asked for: each number up to the first that is none is made of whole characters inside the text
(without the `Z`s at its end, where it has a time), and if all are numbers, they are a time of the calendar. -/
def DatetimeFits (value : List Char) : Prop :=
  let trimmed := trim value
  if (utf8 trimmed).length = 8 then
    Slot parseI32 trimmed 0 4 fun year => Slot parseU32 trimmed 4 6 fun month => Slot parseU32 trimmed 6 8 fun day =>
      CalendarTime.Valid ⟨year, month, day, 0, 0, 0⟩
  else if (utf8 trimmed).length < 15 then True
  else
    let core := trimmed.rdropWhile (· = 'Z')
    Slot parseI32 core 0 4 fun year => Slot parseU32 core 4 6 fun month => Slot parseU32 core 6 8 fun day =>
      Slot parseU32 core 9 11 fun hour => Slot parseU32 core 11 13 fun min => Slot parseU32 core 13 15 fun sec =>
        CalendarTime.Valid ⟨year, month, day, hour, min, sec⟩

theorem sound_denoted {value : List Char} : Sound CalendarTime.Valid (denoted value) ↔ DatetimeFits value := by
  unfold denoted DatetimeFits
  dsimp only
  split
  · simp only [sound_bind, sound_numberAt]
    rfl
  · split
    · exact iff_of_true trivial trivial
    · simp only [sound_bind, sound_numberAt]
      rfl

theorem daysInYear_le (y : Nat) : daysInYear y ≤ 366 := by
  unfold daysInYear
  split <;> omega

theorem sum_take_monthDays_le (y k : Nat) : ((monthDays y).take k).sum ≤ 366 := by
  have htake : ((monthDays y).take k).sum ≤ (monthDays y).sum := List.Sublist.sum_le_sum (List.take_sublist k _) fun _ _ => Nat.zero_le _
  have hsum : (monthDays y).sum ≤ 366 := by
    unfold monthDays
    cases isLeapYear y <;> decide
  exact htake.trans hsum

theorem sum_years_le (n : Nat) : ((List.range' 1970 n).map daysInYear).sum ≤ 366 * n := by
  have hle := List.sum_le_card_nsmul ((List.range' 1970 n).map daysInYear) 366 (by
    intro d hd
    obtain ⟨y, -, rfl⟩ := List.mem_map.mp hd
    exact daysInYear_le y)
  simpa [Nat.mul_comm] using hle

theorem getD_monthDays_le (y k : Nat) : (monthDays y).getD k 0 ≤ 31 := by
  by_cases hk : k < 12
  · have hall : ∀ d ∈ monthDays y, d ≤ 31 := by
      unfold monthDays
      cases isLeapYear y <;> decide
    have hlen : k < (monthDays y).length := hk
    rw [List.getD_eq_getElem _ _ hlen]
    exact hall _ (List.getElem_mem hlen)
  · rw [List.getD_eq_default _ _ (Nat.not_lt.mp hk)]
    exact Nat.zero_le _

/-- A time of the calendar is no more than fits. -/
theorem safe_epoch {t : CalendarTime} (h : t.Valid) (hyear : t.year < 2 ^ 31) : Safe t.epoch := by
  have hmonths := sum_take_monthDays_le t.year.natAbs (t.month - 1)
  have hyears := sum_years_le (t.year.toNat - 1970)
  have hday := h.day.2.trans (getD_monthDays_le _ _)
  have hpos := h.day.1
  obtain ⟨hhour, hmin, hsec⟩ := h.time
  have hbound : t.year.toNat < 2 ^ 31 := by omega
  unfold CalendarTime.epoch ymdhmsToEpoch daysFromEpoch
  dsimp only
  rw [if_neg]
  · trivial
  · generalize ((monthDays t.year.natAbs).take (t.month - 1)).sum = months at hmonths
    generalize ((List.range' 1970 (t.year.toNat - 1970)).map daysInYear).sum = years at hyears
    omega

theorem parseUnsigned_lt {bits n : Nat} {cs : List Char} (h : parseUnsigned bits cs = some n) : n < 2 ^ bits := by
  simp only [parseUnsigned, Option.ite_none_left_eq_some, Option.ite_none_right_eq_some, Option.some.injEq] at h
  obtain ⟨-, hlt, rfl⟩ := h
  exact hlt

theorem parseI32_lt {cs : List Char} {n : Int} (h : parseI32 cs = some n) : n < 2 ^ 31 := by
  unfold parseI32 at h
  split at h
  · split at h
    · cases h
    · obtain ⟨m, hm, rfl⟩ := Option.map_eq_some_iff.mp h
      have := parseUnsigned_lt hm
      omega
  · obtain ⟨m, hm, rfl⟩ := Option.map_eq_some_iff.mp h
    have := parseUnsigned_lt hm
    omega

theorem ok_of_bind {α β : Type} {x : Except Fault α} {f : α → Except Fault β} {b : β} (h : (x >>= f) = .ok b) :
    ∃ a, x = .ok a ∧ f a = .ok b := by
  cases x with
  | ok a => exact ⟨a, rfl, h⟩
  | error fault => cases h

theorem parse_of_numberAt {α : Type} {parse : List Char → Option α} {text : List Char} {start stop : Nat} {n : α}
    (h : numberAt parse text start stop = .ok n) : ∃ part, parse part = some n := by
  unfold numberAt at h
  split at h
  · cases h
  · split at h
    · cases h
    · rename_i part m hparse
      cases h
      exact ⟨_, hparse⟩

theorem year_of_denoted {value : List Char} {t : CalendarTime} (h : denoted value = .ok t) : t.year < 2 ^ 31 := by
  unfold denoted at h
  dsimp only at h
  split at h
  · obtain ⟨year, hyear, h⟩ := ok_of_bind h
    obtain ⟨month, -, h⟩ := ok_of_bind h
    obtain ⟨day, -, h⟩ := ok_of_bind h
    cases h
    exact parseI32_lt (parse_of_numberAt hyear).choose_spec
  · split at h
    · cases h
    · obtain ⟨year, hyear, h⟩ := ok_of_bind h
      obtain ⟨month, -, h⟩ := ok_of_bind h
      obtain ⟨day, -, h⟩ := ok_of_bind h
      obtain ⟨hour, -, h⟩ := ok_of_bind h
      obtain ⟨min, -, h⟩ := ok_of_bind h
      obtain ⟨sec, -, h⟩ := ok_of_bind h
      cases h
      exact parseI32_lt (parse_of_numberAt hyear).choose_spec

/-- A value is read safely, and says a time of the calendar where it is accepted, exactly if it fits. -/
theorem datetime_sound_iff (tzid : Option (List Char)) :
    (Safe (parseIcalDatetime value tzid) ∧ ∀ t, denoted value = .ok t → t.Valid) ↔ DatetimeFits value := by
  obtain ⟨zone, hzone⟩ := parseIcalDatetime_eq value tzid
  rw [← sound_denoted, hzone, sound_iff (Q := CalendarTime.Valid)]
  apply and_congr_left
  intro hvalid
  rw [Safe, sound_bind, sound_iff]
  refine ⟨fun h => h.1, fun hsafe => ⟨hsafe, fun t ht => ?_⟩⟩
  rw [sound_bind]
  exact (safe_epoch (hvalid t ht) (year_of_denoted ht)).mono fun _ _ => trivial

/-! Durations. -/

/-- The text is made of numbers with units, which add up to this; some units are only for the part behind a `T`. -/
inductive Adds : Bool → List Char → Nat → Prop
  | nil (inTime : Bool) : Adds inTime [] 0
  | time (inTime : Bool) {cs : List Char} {total : Nat} (h : Adds true cs total) : Adds inTime ('T' :: cs) total
  | component {inTime : Bool} {number cs : List Char} {unit : Char} {n seconds total : Nat}
      (hdigits : ∀ c ∈ number, c.isDigit = true) (hnumber : parseUnsigned 64 number = some n)
      (hunit : unitSeconds inTime unit = some seconds) (h : Adds inTime cs total) :
      Adds inTime (number ++ unit :: cs) (n * seconds + total)

/-- A number stands before a `T` or at the end. -/
def dangles : List Char → Bool
  | [] => false
  | [c] => c.isDigit
  | c :: next :: rest => (c.isDigit && next = 'T') || dangles (next :: rest)

/-- Where the loop is behind this text, if it comes so far. -/
def durationState : DurationState → List Char → Option DurationState
  | st, [] => some st
  | st, ch :: rest =>
    match durationStep st ch with
    | .ok (some st) => durationState st rest
    | _ => none

/-- The number before this character is not over the range as seconds. -/
def StepFits (st : DurationState) (ch : Char) : Prop :=
  ∀ seconds n, unitSeconds st.inTime ch = some seconds → parseUnsigned 64 st.number = some n → n * seconds < 2 ^ 64

/-- Wherever the loop comes to, the number fits. -/
def LoopFits (st : DurationState) (cs : List Char) : Prop :=
  ∀ front ch rest, cs = front ++ ch :: rest → ∀ st', durationState st front = some st' → StepFits st' ch

/-- What a value is asked for: no number with its unit is over the range, and where the loop goes through the whole text,
no number dangles. -/
def DurationFits (value : List Char) : Prop :=
  ∀ cs, trim value = 'P' :: cs →
    LoopFits ⟨0, [], false⟩ cs ∧ (∀ st, durationState ⟨0, [], false⟩ cs = some st → dangles cs = false)

section
variable {st st' : DurationState} {ch : Char} {cs : List Char} {inTime : Bool} {seconds : Nat}

theorem unitSeconds_digit (h : ch.isDigit = true) : unitSeconds inTime ch = none := by
  have hne (c : Char) (hc : c.isDigit = false) : ch ≠ c := by
    rintro rfl
    rw [hc] at h
    cases h
  rw [unitSeconds, if_neg (hne 'D' rfl)]
  cases inTime with
  | false => rfl
  | true => rw [if_pos rfl, if_neg (hne 'H' rfl), if_neg (hne 'M' rfl), if_neg (hne 'S' rfl)]

theorem unit_ne (h : unitSeconds inTime ch = some seconds) : ch ≠ 'T' ∧ ch.isDigit = false := by
  constructor
  · rintro rfl
    cases inTime <;> cases h
  · by_contra hdigit
    rw [unitSeconds_digit (by simpa using hdigit)] at h
    cases h

theorem safe_durationStep : Safe (durationStep st ch) ↔ StepFits st ch := by
  unfold durationStep
  split
  · rename_i htime
    refine iff_of_true trivial fun seconds n hunit => ?_
    exact absurd htime (unit_ne hunit).1
  · split
    · rename_i hdigit
      refine iff_of_true trivial fun seconds n hunit => ?_
      rw [unitSeconds_digit hdigit] at hunit
      cases hunit
    · unfold StepFits
      cases hunit : unitSeconds st.inTime ch with
      | none => simp [Sound]
      | some seconds =>
        cases hnumber : parseUnsigned 64 st.number with
        | none => simp [Sound]
        | some n =>
          simp only [Option.some.injEq]
          split
          · rename_i hover
            refine iff_of_false (fun h => h) fun h => ?_
            exact absurd (h seconds n rfl rfl) (Nat.not_lt.mpr hover)
          · rename_i hfits
            refine iff_of_true (by split <;> trivial) ?_
            rintro _ _ rfl rfl
            exact Nat.not_le.mp hfits

theorem safe_durationLoop : Safe (durationLoop st cs) ↔ LoopFits st cs := by
  induction cs generalizing st with
  | nil => exact iff_of_true trivial fun front ch rest hsplit => absurd hsplit.symm (by simp)
  | cons ch rest ih =>
    have hstep : LoopFits st (ch :: rest) ↔
        StepFits st ch ∧ ∀ st', durationStep st ch = .ok (some st') → LoopFits st' rest := by
      constructor
      · refine fun h => ⟨h [] ch rest rfl st rfl, fun st' hst' front next more hsplit last hlast => ?_⟩
        refine h (ch :: front) next more (by rw [hsplit, List.cons_append]) last ?_
        simp only [durationState, hst']
        exact hlast
      · rintro ⟨hfits, hlater⟩ front next more hsplit last hlast
        cases front with
        | nil =>
          obtain ⟨rfl, -⟩ := List.cons.inj hsplit
          obtain rfl := Option.some.inj hlast
          exact hfits
        | cons first front =>
          obtain ⟨rfl, hrest⟩ := List.cons.inj hsplit
          rw [durationState] at hlast
          split at hlast
          · rename_i st' hst'
            exact hlater st' hst' front next more hrest last hlast
          · cases hlast
    rw [hstep, ← safe_durationStep, durationLoop]
    cases hresult : durationStep st ch with
    | error fault => cases fault <;> simp [Sound]
    | ok next =>
      cases next with
      | none => simp [Sound]
      | some next => simp [Sound, ← ih]

theorem durationLoop_ok {total : Nat} : durationLoop st cs = .ok (some total) ↔
    ∃ st', durationState st cs = some st' ∧ st'.total = total := by
  induction cs generalizing st with
  | nil => simp [durationLoop, durationState]
  | cons ch rest ih =>
    rw [durationLoop, durationState]
    cases hresult : durationStep st ch with
    | error fault => simp
    | ok next =>
      cases next with
      | none => simp
      | some next => exact ih

/-! Numbers that dangle. -/

theorem dangles_cons_of_not (h : ch.isDigit = false) (cs : List Char) : dangles (ch :: cs) = dangles cs := by
  cases cs with
  | nil => exact h
  | cons next rest => rw [dangles, h, Bool.false_and, Bool.false_or]

theorem dangles_number {number : List Char} (hdigits : ∀ c ∈ number, c.isDigit = true) (hch : ch ≠ 'T' ∧ ch.isDigit = false)
    (cs : List Char) : dangles (number ++ ch :: cs) = dangles cs := by
  induction number with
  | nil => exact dangles_cons_of_not hch.2 cs
  | cons d number ih =>
    rw [List.forall_mem_cons] at hdigits
    cases number with
    | nil =>
      rw [List.singleton_append, dangles, decide_eq_false hch.1, Bool.and_false, Bool.false_or]
      exact dangles_cons_of_not hch.2 cs
    | cons e number =>
      have hne : e ≠ 'T' := by
        rintro rfl
        exact absurd (hdigits.2 'T' List.mem_cons_self) (by decide)
      rw [List.cons_append, List.cons_append, dangles, decide_eq_false hne, Bool.and_false, Bool.false_or]
      exact ih hdigits.2

/-- A number dangles before these. -/
theorem dangles_of_digits {number : List Char} (hdigits : ∀ c ∈ number, c.isDigit = true) (hne : number ≠ [])
    (hcs : cs = [] ∨ cs.head? = some 'T') : dangles (number ++ cs) = true := by
  induction number with
  | nil => exact absurd rfl hne
  | cons d number ih =>
    rw [List.forall_mem_cons] at hdigits
    cases number with
    | nil =>
      rcases hcs with rfl | hhead
      · exact hdigits.1
      · obtain ⟨rest, rfl⟩ : ∃ rest, cs = 'T' :: rest := by
          cases cs with
          | nil => cases hhead
          | cons c rest => exact ⟨rest, by rw [Option.some.inj hhead]⟩
        rw [List.singleton_append, dangles, hdigits.1]
        rfl
    | cons e number =>
      rw [List.cons_append, List.cons_append, dangles, ← List.cons_append, ih hdigits.2 (List.cons_ne_nil _ _), Bool.or_true]

theorem dangles_of_adds {total : Nat} (h : Adds inTime cs total) : dangles cs = false := by
  induction h with
  | nil => rfl
  | time inTime h ih => rwa [dangles_cons_of_not (by decide)]
  | component hdigits hnumber hunit h ih => rwa [dangles_number hdigits (unit_ne hunit)]

/-- Where no number dangles, the loop adds up the components. -/
theorem adds_of_durationState (hdigits : ∀ c ∈ st.number, c.isDigit = true) (hstate : durationState st cs = some st')
    (hdangles : dangles (st.number ++ cs) = false) : ∃ sum, Adds st.inTime (st.number ++ cs) sum ∧ st'.total = st.total + sum := by
  induction cs generalizing st with
  | nil =>
    obtain rfl := Option.some.inj hstate
    have hnone : st.number = [] := by
      by_contra hne
      rw [dangles_of_digits hdigits hne (.inl rfl)] at hdangles
      cases hdangles
    rw [hnone]
    exact ⟨0, .nil _, rfl⟩
  | cons ch rest ih =>
    rw [durationState] at hstate
    split at hstate
    · rename_i next hnext
      unfold durationStep at hnext
      split at hnext
      · rename_i htime
        subst htime
        obtain rfl := Option.some.inj (Except.ok.inj hnext)
        have hnone : st.number = [] := by
          by_contra hne
          rw [dangles_of_digits hdigits hne (.inr rfl)] at hdangles
          cases hdangles
        rw [hnone, List.nil_append] at hdangles ⊢
        rw [dangles_cons_of_not (by decide)] at hdangles
        obtain ⟨sum, hadds, htotal⟩ := @ih ⟨st.total, st.number, true⟩ hdigits hstate (by dsimp only; rw [hnone]; exact hdangles)
        dsimp only at hadds
        rw [hnone] at hadds
        exact ⟨sum, .time _ hadds, htotal⟩
      · split at hnext
        · rename_i hdigit
          obtain rfl := Option.some.inj (Except.ok.inj hnext)
          rw [List.append_cons] at hdangles
          have hall : ∀ c ∈ st.number ++ [ch], c.isDigit = true :=
            List.forall_mem_append.mpr ⟨hdigits, fun c hc => List.mem_singleton.mp hc ▸ hdigit⟩
          rw [List.append_cons]
          exact ih hall hstate hdangles
        · split at hnext
          · cases hnext
          · rename_i seconds hunit
            split at hnext
            · cases hnext
            · rename_i n hnumber
              split at hnext
              · cases hnext
              · split at hnext
                · cases hnext
                · obtain rfl := Option.some.inj (Except.ok.inj hnext)
                  rw [dangles_number hdigits (unit_ne hunit)] at hdangles
                  obtain ⟨sum, hadds, htotal⟩ := ih (fun c hc => absurd hc List.not_mem_nil) hstate hdangles
                  exact ⟨n * seconds + sum, .component hdigits hnumber hunit hadds, by rw [htotal, Nat.add_assoc]⟩
    · cases hstate

end

/-- What an accepted duration should say: the sum of its components. -/
def Summed (value : List Char) (total : Nat) : Prop := ∃ cs, trim value = 'P' :: cs ∧ Adds false cs total

theorem duration_sound_iff :
    (Safe (parseIcalDuration value) ∧ ∀ total, parseIcalDuration value = .ok (some total) → Summed value total) ↔
      DurationFits value := by
  unfold parseIcalDuration DurationFits Summed
  split
  · rename_i rest htrim
    rw [safe_durationLoop]
    constructor
    · rintro ⟨hfits, hsum⟩ cs hcs
      rw [htrim] at hcs
      obtain rfl := (List.cons.inj hcs).2
      refine ⟨hfits, fun st hst => ?_⟩
      obtain ⟨cs, hcs, hadds⟩ := hsum st.total (durationLoop_ok.mpr ⟨st, hst, rfl⟩)
      rw [htrim] at hcs
      obtain rfl := (List.cons.inj hcs).2
      exact dangles_of_adds hadds
    · intro h
      obtain ⟨hfits, hdangles⟩ := h rest htrim
      refine ⟨hfits, fun total htotal => ⟨rest, htrim, ?_⟩⟩
      obtain ⟨st, hst, rfl⟩ := durationLoop_ok.mp htotal
      obtain ⟨sum, hadds, hsum⟩ := adds_of_durationState (fun c hc => absurd hc List.not_mem_nil) hst (hdangles st hst)
      rw [hsum, Nat.zero_add]
      exact hadds
  · rename_i hother
    refine iff_of_true ⟨trivial, fun total h => by cases h⟩ fun cs hcs => absurd hcs (hother cs)

/-! Events. -/

namespace Property

def IsTime (property : Property) : Prop := property.name = "DTSTART".toList ∨ property.name = "DTEND".toList

def IsDuration (property : Property) : Prop := property.name = "DURATION".toList

/-- The property is read without a panic and an overflow. -/
def ReadSafely (property : Property) : Prop :=
  (property.IsTime → Safe (parseIcalDatetime property.value (property.params.get "TZID"))) ∧
    (property.IsDuration → Safe (parseIcalDuration property.value))

/-- A time that is accepted is one of the calendar, and a duration that is accepted is the sum of its components. -/
def Meant (property : Property) : Prop :=
  (property.IsTime → ∀ t, denoted property.value = .ok t → t.Valid) ∧
    (property.IsDuration → ∀ total, parseIcalDuration property.value = .ok (some total) → Summed property.value total)

def Fits (property : Property) : Prop :=
  (property.IsTime → DatetimeFits property.value) ∧ (property.IsDuration → DurationFits property.value)

theorem sound_iff_fits (property : Property) : property.ReadSafely ∧ property.Meant ↔ property.Fits := by
  have htime := datetime_sound_iff property.value (property.params.get "TZID")
  have hduration := duration_sound_iff property.value
  constructor
  · rintro ⟨hsafe, hmeant⟩
    exact ⟨fun h => htime.mp ⟨hsafe.1 h, hmeant.1 h⟩, fun h => hduration.mp ⟨hsafe.2 h, hmeant.2 h⟩⟩
  · rintro ⟨hfits, hfits'⟩
    exact ⟨⟨fun h => (htime.mpr (hfits h)).1, fun h => (hduration.mpr (hfits' h)).1⟩,
      ⟨fun h => (htime.mpr (hfits h)).2, fun h => (hduration.mpr (hfits' h)).2⟩⟩

end Property

/-- The property of a line that the loop looks at. -/
def lineProperty (st : EventState) (raw : List Char) : Option Property :=
  let line := trim raw
  if line = "BEGIN:VEVENT".toList ∨ line = "END:VEVENT".toList ∨ st.inEvent = false ∨ line = [] then none
  else parseIcalProperty line

/-- The properties that the loop comes to: those of the lines from the begin of the event to its end, or to one that is
refused. -/
def reached : EventState → List (List Char) → List Property
  | _, [] => []
  | st, raw :: lines =>
    (lineProperty st raw).toList ++
      match st.readLine raw with
      | .ok (.next st) => reached st lines
      | _ => []

section
variable {st : EventState} {property : Property}

theorem safe_map {α β : Type} {result : Except Fault α} {f : α → β} : Safe (result.map f) ↔ Safe result := by
  cases result with
  | ok a => rfl
  | error fault => cases fault <;> rfl

theorem safe_read : Safe (st.read property) ↔ property.ReadSafely := by
  have hsafe {α β : Type} {result : Except Fault α} {f : α → β} : Safe (result >>= fun a => .ok (f a)) ↔ Safe result := safe_map
  unfold EventState.read
  by_cases htime : property.IsTime
  · have hduration : ¬ property.IsDuration := by
      unfold Property.IsDuration
      rcases htime with h | h <;> rw [h] <;> decide
    have hreads : property.ReadSafely ↔ Safe (parseIcalDatetime property.value (property.params.get "TZID")) :=
      ⟨fun h => h.1 htime, fun h => ⟨fun _ => h, fun h => absurd h hduration⟩⟩
    rw [hreads]
    rcases htime with h | h
    · simp only [h, String.toList_inj, String.reduceEq, if_false, if_true]
      exact hsafe
    · simp only [h, String.toList_inj, String.reduceEq, if_false, if_true]
      exact hsafe
  · have htime' := not_or.mp htime
    by_cases hduration : property.IsDuration
    · have hreads : property.ReadSafely ↔ Safe (parseIcalDuration property.value) :=
        ⟨fun h => h.2 hduration, fun h => ⟨fun h => absurd h htime, fun _ => h⟩⟩
      rw [hreads]
      unfold Property.IsDuration at hduration
      simp only [hduration, String.toList_inj, String.reduceEq, if_false, if_true]
      exact hsafe
    · have hreads : property.ReadSafely := ⟨fun h => absurd h htime, fun h => absurd h hduration⟩
      refine iff_of_true ?_ hreads
      unfold Property.IsDuration at hduration
      rw [if_neg htime'.1, if_neg htime'.2, if_neg hduration]
      split_ifs <;> trivial

theorem safe_readLine {raw : List Char} :
    Safe (st.readLine raw) ↔ ∀ property ∈ lineProperty st raw, property.ReadSafely := by
  unfold EventState.readLine lineProperty
  dsimp only
  split
  · rename_i hbegin
    rw [if_pos (.inl hbegin)]
    exact iff_of_true trivial fun p hp => by cases hp
  · rename_i hbegin
    split
    · rename_i hend
      rw [if_pos (.inr (.inl hend))]
      exact iff_of_true trivial fun p hp => by cases hp
    · rename_i hend
      split
      · rename_i hskip
        rw [if_pos (.inr (.inr (by simpa using hskip)))]
        exact iff_of_true trivial fun p hp => by cases hp
      · rename_i hskip
        have hlooked : ¬ (trim raw = "BEGIN:VEVENT".toList ∨ trim raw = "END:VEVENT".toList ∨ st.inEvent = false ∨ trim raw = []) :=
          fun h => h.elim hbegin fun h => h.elim hend fun h => hskip (h.imp_left fun hout => by rw [hout]; rfl)
        rw [if_neg hlooked]
        cases parseIcalProperty (trim raw) with
        | none => exact iff_of_true trivial fun p hp => by cases hp
        | some property =>
          dsimp only
          rw [safe_map, safe_read]
          simp

theorem safe_readLines {lines : List (List Char)} :
    Safe (readLines st lines) ↔ ∀ property ∈ reached st lines, property.ReadSafely := by
  induction lines generalizing st with
  | nil => exact iff_of_true trivial fun p hp => absurd hp List.not_mem_nil
  | cons raw lines ih =>
    have hline : Safe (st.readLine raw) ↔ ∀ property ∈ lineProperty st raw, property.ReadSafely := safe_readLine
    rw [reached, List.forall_mem_append]
    simp only [Option.mem_toList, ← Option.mem_def]
    rw [← hline, readLines]
    cases st.readLine raw with
    | error fault =>
      cases fault with
      | error e => exact iff_of_true trivial ⟨trivial, fun p hp => absurd hp List.not_mem_nil⟩
      | panic | overflow => exact iff_of_false (fun h => h) fun h => h.1
    | ok turn =>
      cases turn with
      | next st => exact ih.trans (and_iff_right trivial).symm
      | done st => exact iff_of_true trivial ⟨trivial, fun p hp => absurd hp List.not_mem_nil⟩

theorem safe_event (credential : CalendarProviderCredential) (remoteId : Option (List Char)) (now : Nat) :
    Safe (st.event credential remoteId now) := by
  unfold EventState.event
  split
  · trivial
  · split
    · trivial
    · dsimp only
      generalize normalizeCalendarEvent _ = result
      cases result <;> trivial

end

/-- What is asked of the reading of a calendar object. -/
structure ReadsWell (decode : List Char → Option (List Char)) (now : Nat) (credential : CalendarProviderCredential)
    (href ics : List Char) : Prop where
  safe : Safe (parseIcalEvent decode now credential href ics)
  meant : ∀ property ∈ reached .start (unfoldIcalLines ics), property.Meant

/-- A calendar object is read well exactly if the times and durations that the loop comes to fit. -/
theorem readsWell_iff (decode : List Char → Option (List Char)) (now : Nat) (credential : CalendarProviderCredential)
    (href ics : List Char) :
    ReadsWell decode now credential href ics ↔ ∀ property ∈ reached .start (unfoldIcalLines ics), property.Fits := by
  have hsafe : Safe (parseIcalEvent decode now credential href ics) ↔
      ∀ property ∈ reached .start (unfoldIcalLines ics), property.ReadSafely := by
    rw [← safe_readLines, parseIcalEvent, Safe, sound_bind]
    exact ⟨fun h => h.mono fun _ _ => trivial, fun h => h.mono fun st _ => safe_event credential _ now⟩
  constructor
  · rintro ⟨h, hmeant⟩ property hproperty
    exact property.sound_iff_fits.mp ⟨hsafe.mp h property hproperty, hmeant property hproperty⟩
  · intro h
    exact ⟨hsafe.mpr fun p hp => (p.sound_iff_fits.mpr (h p hp)).1, fun p hp => (p.sound_iff_fits.mpr (h p hp)).2⟩

/-- Fifteen bytes with a `Z` at the end have no second digit of the seconds. -/
def cutSeconds : List Char := "BEGIN:VEVENT\r\nDTSTART:20260101T01010Z\r\n".toList

theorem cut_seconds_panic : ¬ ReadsWell some 0 ⟨"caldav", "team"⟩ [] cutSeconds := by
  intro h
  have hsafe := h.safe
  have hpanic : parseIcalEvent some 0 ⟨"caldav", "team"⟩ [] cutSeconds = .error .panic := by rfl
  rw [hpanic] at hsafe
  exact hsafe

end Beetle.Calendar.Caldav
