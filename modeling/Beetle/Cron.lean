import Beetle.Bus
import Beetle.Tools.CronManageRuns
import Mathlib.Order.Bounds.Basic

/-! The persisted cron tasks as the timer fires them. -/
namespace Beetle.Cron
open Beetle.Lib Beetle.Bus Beetle.Tools

inductive Locale where
  | zh
  | en

/-- The text of `Message::CronTaskFired`. -/
def cronTaskFired (id action : String) : Locale → String
  | .zh => "定时任务 [" ++ id ++ "]: " ++ action
  | .en => "Scheduled task [" ++ id ++ "]: " ++ action

def cronMatches (expr : String) (minute hour dom month dow : Nat) : Except Fault Bool :=
  match parseCronFields expr with
  | none => .ok false
  | some fields => fields.map fun fields => fields.matches minute hour dom month dow

/-- The message that a task is fired with. -/
def newCronMessage (maxContentLen : Nat) (locale : Locale) (task : CronTask) : Except Error InboundMsg :=
  PcMsg.newInboundWithIngress maxContentLen task.channel task.chatId (cronTaskFired task.id task.action locale) false
    .system

/-- A task of the list at a tick: what it sends, if anything; `none` for a panic, which
ends the thread. -/
def fireTask (maxContentLen nowSecs : Nat) (locale : Locale) (task : CronTask) : Option (Option InboundMsg) :=
  if !task.enabled then some none
  else
    let t := epochToYmdhms nowSecs
    match cronMatches task.expr t.min t.hour t.day t.month (dayOfWeek nowSecs) with
    | .ok true => some (newCronMessage maxContentLen locale task).toOption
    | .ok false => some none
    | .error (.error _) => some none
    | .error .panic => none

/-- The messages that are sent, each with its task. -/
def firePersistedTasks (maxContentLen nowSecs : Nat) (locale : Locale) :
    List CronTask → Option (List (CronTask × InboundMsg))
  | [] => some []
  | task :: tasks => do
    let msg ← fireTask maxContentLen nowSecs locale task
    let fired ← firePersistedTasks maxContentLen nowSecs locale tasks
    return msg.toList.map (task, ·) ++ fired

section
variable {maxContentLen : Nat} {task : CronTask} {tasks : List CronTask}

theorem length_entry_le {start id separator action : String} (hstart : start.utf8ByteSize ≤ 16)
    (hseparator : separator.utf8ByteSize ≤ 3) (hid : id.utf8ByteSize ≤ 92) (haction : action.utf8ByteSize ≤ 512) :
    (start ++ id ++ separator ++ action).utf8ByteSize ≤ 2048 := by
  simp only [String.utf8ByteSize_append]
  omega

section
variable (hmax : 2048 ≤ maxContentLen)
include hmax

/-- The message of a task that the tool has stored is short enough. -/
theorem newCronMessage_ok (h : task.Checked) (locale : Locale) :
    ∃ msg, newCronMessage maxContentLen locale task = .ok msg := by
  have haction := h.action
  rw [length_utf8_toList, cronTaskMaxActionLen] at haction
  have hid : task.id.utf8ByteSize ≤ 92 := by
    have hlength := length_utf8_le task.id.toList
    rw [length_utf8_toList, String.length_toList] at hlength
    have hshort := h.id
    omega
  have hcontent : (cronTaskFired task.id task.action locale).utf8ByteSize ≤ maxContentLen := by
    cases locale
    · exact (length_entry_le (by decide) (by decide) hid haction).trans hmax
    · exact (length_entry_le (by decide) (by decide) hid haction).trans hmax
  rw [newCronMessage, PcMsg.newInboundWithIngress, PcMsg.build, if_neg (by omega)]
  exact ⟨_, rfl⟩

/-- A task fires when it is enabled and its expression matches. -/
theorem fireTask_checked (h : task.Checked) {fields : CronFields}
    (hfields : task.fields? = some fields) (nowSecs : Nat) (locale : Locale) : ∃ msg, fireTask maxContentLen nowSecs locale task =
      some (if task.enabled && fields.matchesAt nowSecs then some msg else none) := by
  obtain ⟨msg, hmsg⟩ := newCronMessage_ok hmax h locale
  refine ⟨msg, ?_⟩
  have hparse : parseCronFields task.expr = some (.ok fields) := by
    unfold CronTask.fields? at hfields
    obtain ⟨result, hresult, hok⟩ := Option.bind_eq_some_iff.mp hfields
    cases result with
    | error fault => cases hok
    | ok fields' =>
      cases hok
      exact hresult
  have hmatches : cronMatches task.expr (epochToYmdhms nowSecs).min (epochToYmdhms nowSecs).hour
      (epochToYmdhms nowSecs).day (epochToYmdhms nowSecs).month (dayOfWeek nowSecs) =
      .ok (fields.matchesAt nowSecs) := by
    simp only [cronMatches, hparse]
    rfl
  unfold fireTask
  cases task.enabled with
  | false => rfl
  | true =>
    simp only [hmatches, hmsg, Bool.not_true, Bool.false_eq_true, if_false, Bool.true_and]
    cases fields.matchesAt nowSecs <;> rfl

/-- A tick goes through the whole list, and fires a task as often as the list has it. -/
theorem firePersistedTasks_checked (h : ∀ task ∈ tasks, task.Checked) (nowSecs : Nat) (locale : Locale) :
    ∃ fired, firePersistedTasks maxContentLen nowSecs locale tasks = some fired ∧
      ∀ task fields, task.enabled = true → task.fields? = some fields →
        (fired.map (·.1)).count task = if fields.matchesAt nowSecs then tasks.count task else 0 := by
  induction tasks with
  | nil => exact ⟨[], rfl, fun task fields _ _ => by simp⟩
  | cons head tasks ih =>
    have hhead : head.Checked := h head List.mem_cons_self
    obtain ⟨fired, hfired, hcount⟩ := ih fun task htask => h task (List.mem_cons_of_mem head htask)
    obtain ⟨fields, hfields⟩ := Option.isSome_iff_exists.mp hhead.valid
    obtain ⟨msg, hmsg⟩ := fireTask_checked hmax hhead hfields nowSecs locale
    refine ⟨_, by rw [firePersistedTasks, hmsg, hfired]; rfl, ?_⟩
    intro task fields' henabled hfields'
    rw [List.map_append, List.count_append, hcount task fields' henabled hfields']
    by_cases heq : head = task
    · subst heq
      obtain rfl : fields = fields' := by
        rw [hfields] at hfields'
        exact Option.some.inj hfields'
      rw [henabled]
      cases fields.matchesAt nowSecs with
      | true => simp [Nat.add_comm]
      | false => simp
    · rw [List.count_cons_of_ne heq]
      split <;> simp [heq]

end

end

/-! The next trigger that is announced for a cron expression, the minutes at which the scheduler fires, and the days
that five-field cron means by the expression. -/

/-- `{:0width}` of a number. -/
def zeroPadded (width n : Nat) : List Char := List.leftpad width '0' (Lib.decimal n)

def unixToIso (secs : Nat) : List Char :=
  let t := epochToYmdhms secs
  zeroPadded 4 t.year ++ ['-'] ++ zeroPadded 2 t.month ++ ['-'] ++ zeroPadded 2 t.day ++ ['T'] ++ zeroPadded 2 t.hour ++
    [':'] ++ zeroPadded 2 t.min ++ [':'] ++ zeroPadded 2 t.sec ++ ['Z']

/-- What one turn of the loop of `next_cron_trigger` asks of its minute. -/
def triggersAt (fields : CronFields) (secs : Nat) : Bool :=
  let t := epochToYmdhms secs
  let dowActual := dayOfWeek secs
  let monthOk := decide (t.month ∈ fields.months)
  let domOk := decide (t.day ∈ fields.doms)
  let dowOk := decide (dowActual ∈ fields.dows)
  let dayOk := domOk || dowOk
  let hourOk := decide (t.hour ∈ fields.hours)
  let minOk := decide (t.min ∈ fields.minutes)
  monthOk && dayOk && hourOk && minOk

def triggerLoop (fields : CronFields) (secs limit : Nat) : Except Fault (Nat × List Char) :=
  if _h : secs < limit then
    if triggersAt fields secs then .ok (secs, unixToIso secs) else triggerLoop fields (secs + 60) limit
  else .error (cronError "no matching time within 1 year")
termination_by limit - secs

def oneYearSecs : Nat := 366 * 86400

/-- `next_cron_trigger`: the time and its text. -/
def announcedTrigger (expr : String) (nowSecs : Nat) : Except Fault (Nat × List Char) :=
  match parseCronFields expr with
  | none => .error (cronError "expr must have exactly 5 fields: min hour dom month dow")
  | some fields => do
    let fields ← fields
    triggerLoop fields ((nowSecs / 60 + 1) * 60) (nowSecs + oneYearSecs)

/-- The expression matches the calendar fields of a time, as the scheduler asks at a tick. -/
def firesAt (expr : String) (secs : Nat) : Prop :=
  let t := epochToYmdhms secs
  cronMatches expr t.min t.hour t.day t.month (dayOfWeek secs) = .ok true

/-- The minutes after `nowSecs`, within a year, at which the scheduler fires. -/
def futureMinutes (expr : String) (nowSecs : Nat) : Set Nat :=
  {t | 60 ∣ t ∧ nowSecs < t ∧ t < nowSecs + oneYearSecs ∧ firesAt expr t}

section
variable {expr : String} {fields : CronFields}

/-- The two ways of asking agree. -/
theorem triggersAt_eq (fields : CronFields) (secs : Nat) : triggersAt fields secs = fields.matchesAt secs := by
  simp only [triggersAt, CronFields.matchesAt, CronFields.matches]
  cases decide ((epochToYmdhms secs).month ∈ fields.months) <;> cases decide ((epochToYmdhms secs).hour ∈ fields.hours) <;>
    cases decide ((epochToYmdhms secs).min ∈ fields.minutes) <;> simp

theorem firesAt_iff (hparse : parseCronFields expr = some (.ok fields)) (secs : Nat) :
    firesAt expr secs ↔ triggersAt fields secs = true := by
  rw [triggersAt_eq]
  simp only [firesAt, cronMatches, hparse, Except.map, CronFields.matchesAt, Except.ok.injEq]

/-- The loop goes from minute to minute, and ends at the first that triggers. -/
theorem triggerLoop_cases (fields : CronFields) (secs limit : Nat) :
    (∃ k, triggerLoop fields secs limit = .ok (secs + 60 * k, unixToIso (secs + 60 * k)) ∧ secs + 60 * k < limit ∧
      triggersAt fields (secs + 60 * k) = true ∧ ∀ j < k, triggersAt fields (secs + 60 * j) = false) ∨
    (∃ e, triggerLoop fields secs limit = .error (.error e)) ∧
      ∀ k, secs + 60 * k < limit → triggersAt fields (secs + 60 * k) = false := by
  fun_induction triggerLoop fields secs limit with
  | case1 secs hlt htrigger =>
    exact .inl ⟨0, rfl, hlt, htrigger, fun j hj => absurd hj (Nat.not_lt_zero j)⟩
  | case2 secs hlt htrigger ih =>
    have hfirst : triggersAt fields secs = false := Bool.eq_false_iff.mpr htrigger
    rcases ih with ⟨k, hloop, hlimit, hk, hbefore⟩ | ⟨herror, hnone⟩
    · rw [show secs + 60 + 60 * k = secs + 60 * (k + 1) by omega] at hloop hlimit hk
      refine .inl ⟨k + 1, hloop, hlimit, hk, fun j hj => ?_⟩
      cases j with
      | zero => exact hfirst
      | succ j =>
        have hj' := hbefore j (Nat.lt_of_succ_lt_succ hj)
        rwa [show secs + 60 + 60 * j = secs + 60 * (j + 1) by omega] at hj'
    · refine .inr ⟨herror, fun k hk => ?_⟩
      cases k with
      | zero => exact hfirst
      | succ k =>
        have hk' := hnone k (by omega)
        rwa [show secs + 60 + 60 * k = secs + 60 * (k + 1) by omega] at hk'
  | case3 secs hlt =>
    exact .inr ⟨⟨_, rfl⟩, fun k hk => absurd hk (by omega)⟩

/-- The minutes that come after a time are those that the loop goes through. -/
theorem minute_after_iff {nowSecs t : Nat} : 60 ∣ t ∧ nowSecs < t ↔ ∃ k, t = (nowSecs / 60 + 1) * 60 + 60 * k := by
  constructor
  · rintro ⟨⟨m, rfl⟩, hlt⟩
    exact ⟨m - (nowSecs / 60 + 1), by omega⟩
  · rintro ⟨k, rfl⟩
    exact ⟨⟨nowSecs / 60 + 1 + k, by omega⟩, by omega⟩

theorem mem_futureMinutes_iff (hparse : parseCronFields expr = some (.ok fields)) {nowSecs t : Nat} :
    t ∈ futureMinutes expr nowSecs ↔ ∃ k, t = (nowSecs / 60 + 1) * 60 + 60 * k ∧ t < nowSecs + oneYearSecs ∧
      triggersAt fields t = true := by
  rw [futureMinutes, Set.mem_ofPred_eq, ← and_assoc, minute_after_iff, firesAt_iff hparse]
  exact exists_and_right.symm

/-- The trigger that is announced is the first minute at which the scheduler fires; an error says that there is none. -/
theorem announcedTrigger_isLeast (hparse : parseCronFields expr = some (.ok fields)) (nowSecs : Nat) :
    ((futureMinutes expr nowSecs).Nonempty →
      ∃ t, announcedTrigger expr nowSecs = .ok (t, unixToIso t) ∧ IsLeast (futureMinutes expr nowSecs) t) ∧
    ((∃ e, announcedTrigger expr nowSecs = .error (.error e)) ↔ futureMinutes expr nowSecs = ∅) := by
  have hloop : announcedTrigger expr nowSecs =
      triggerLoop fields ((nowSecs / 60 + 1) * 60) (nowSecs + oneYearSecs) := by
    unfold announcedTrigger
    rw [hparse]
    exact except_ok_bind fields _
  rw [hloop]
  rcases triggerLoop_cases fields ((nowSecs / 60 + 1) * 60) (nowSecs + oneYearSecs) with
    ⟨k, hk, hlimit, htrigger, hbefore⟩ | ⟨⟨e, he⟩, hnone⟩
  · have hmem : (nowSecs / 60 + 1) * 60 + 60 * k ∈ futureMinutes expr nowSecs :=
      (mem_futureMinutes_iff hparse).mpr ⟨k, rfl, hlimit, htrigger⟩
    refine ⟨fun _ => ⟨_, hk, hmem, fun t ht => ?_⟩, ?_⟩
    · obtain ⟨j, rfl, -, hj⟩ := (mem_futureMinutes_iff hparse).mp ht
      by_contra hlt
      rw [hbefore j (by omega)] at hj
      cases hj
    · rw [hk]
      refine iff_of_false nofun fun hempty => ?_
      rw [hempty] at hmem
      exact hmem
  · have hempty : futureMinutes expr nowSecs = ∅ := by
      rw [Set.eq_empty_iff_forall_notMem]
      intro t ht
      obtain ⟨j, rfl, hlimit, hj⟩ := (mem_futureMinutes_iff hparse).mp ht
      rw [hnone j hlimit] at hj
      cases hj
    refine ⟨fun hne => ?_, iff_of_true ⟨e, he⟩ hempty⟩
    rw [hempty] at hne
    exact absurd hne Set.not_nonempty_empty

/-- The day rule of five-field cron: where one of the day fields is written as a star, the other one selects the day, and
where both are restricted, either does. -/
def StandardDay (domText dowText : List Char) (fields : CronFields) (dom dow : Nat) : Prop :=
  if domText = ['*'] then dow ∈ fields.dows
  else if dowText = ['*'] then dom ∈ fields.doms
  else dom ∈ fields.doms ∨ dow ∈ fields.dows

def StandardMatches (domText dowText : List Char) (fields : CronFields) (minute hour dom month dow : Nat) : Prop :=
  minute ∈ fields.minutes ∧ hour ∈ fields.hours ∧ month ∈ fields.months ∧ StandardDay domText dowText fields dom dow

/-- A star in one of the day fields lets through a day that the other field bars. -/
def StarOverrides (domText dowText : List Char) (fields : CronFields) (dom dow : Nat) : Prop :=
  domText = ['*'] ∧ dow ∉ fields.dows ∨ dowText = ['*'] ∧ dom ∉ fields.doms

theorem parseCronField_star (minVal maxVal : Nat) :
    parseCronField ['*'] minVal maxVal = .ok (List.range' minVal (maxVal + 1 - minVal)) := rfl

/-- The fields of an expression, each read from its text. -/
theorem fields_of_parse {minuteText hourText domText monthText dowText : List Char}
    (htexts : splitWhitespace expr.toList = [minuteText, hourText, domText, monthText, dowText])
    (hparse : parseCronFields expr = some (.ok fields)) :
    parseCronField domText 1 31 = .ok fields.doms ∧ parseCronField dowText 0 6 = .ok fields.dows := by
  simp only [parseCronFields, htexts, Option.some.injEq] at hparse
  obtain ⟨minutes, -, hparse⟩ := except_bind_ok hparse
  obtain ⟨hours, -, hparse⟩ := except_bind_ok hparse
  obtain ⟨doms, hdoms, hparse⟩ := except_bind_ok hparse
  obtain ⟨months, -, hparse⟩ := except_bind_ok hparse
  obtain ⟨dows, hdows, hparse⟩ := except_bind_ok hparse
  obtain rfl := Except.ok.inj hparse
  exact ⟨hdoms, hdows⟩

/-- Asking for either day is the rule of five-field cron, unless a star brings in a day that the other field bars. -/
theorem either_day_iff {minuteOk hourOk monthOk domOk dowOk domStar dowStar : Prop} [Decidable domStar] [Decidable dowStar]
    (hdom : domStar → domOk) (hdow : dowStar → dowOk) :
    ((minuteOk ∧ hourOk ∧ (domOk ∨ dowOk) ∧ monthOk ↔
      minuteOk ∧ hourOk ∧ monthOk ∧ if domStar then dowOk else if dowStar then domOk else domOk ∨ dowOk) ↔
    ¬ (minuteOk ∧ hourOk ∧ monthOk ∧ (domStar ∧ ¬ dowOk ∨ dowStar ∧ ¬ domOk))) := by
  by_cases hd : domStar
  · rw [if_pos hd]
    have := hdom hd
    tauto
  · rw [if_neg hd]
    by_cases hw : dowStar
    · rw [if_pos hw]
      have := hdow hw
      tauto
    · rw [if_neg hw]
      tauto

/-- The rule of the code is that of five-field cron exactly where no star overrides the other day field. -/
theorem cronMatches_standard_iff {minuteText hourText domText monthText dowText : List Char}
    (htexts : splitWhitespace expr.toList = [minuteText, hourText, domText, monthText, dowText])
    (hparse : parseCronFields expr = some (.ok fields)) (minute hour month : Nat) {dom dow : Nat}
    (hdom : 1 ≤ dom ∧ dom ≤ 31) (hdow : dow ≤ 6) :
    (cronMatches expr minute hour dom month dow = .ok true ↔
      StandardMatches domText dowText fields minute hour dom month dow) ↔
    ¬ (minute ∈ fields.minutes ∧ hour ∈ fields.hours ∧ month ∈ fields.months ∧
      StarOverrides domText dowText fields dom dow) := by
  obtain ⟨hdoms, hdows⟩ := fields_of_parse htexts hparse
  have hdomStar : domText = ['*'] → dom ∈ fields.doms := by
    rintro rfl
    rw [← Except.ok.inj ((parseCronField_star 1 31).symm.trans hdoms), List.mem_range'_1]
    omega
  have hdowStar : dowText = ['*'] → dow ∈ fields.dows := by
    rintro rfl
    rw [← Except.ok.inj ((parseCronField_star 0 6).symm.trans hdows), List.mem_range'_1]
    omega
  have hmatches : cronMatches expr minute hour dom month dow = .ok true ↔
      minute ∈ fields.minutes ∧ hour ∈ fields.hours ∧ (dom ∈ fields.doms ∨ dow ∈ fields.dows) ∧ month ∈ fields.months := by
    simp [cronMatches, hparse, Except.map, CronFields.matches, and_assoc]
  rw [hmatches]
  exact either_day_iff hdomStar hdowStar

end

/-- Nine o'clock on Mondays, as it is written with a star for the day of the month. -/
def mondayFields : CronFields := ⟨[0], [9], List.range' 1 31, List.range' 1 12, [1]⟩

theorem parse_monday : parseCronFields "0 9 * * 1" = some (.ok mondayFields) := rfl

theorem announcedTrigger_monday : parseCronFields "0 9 * * 1" = some (.ok mondayFields) ∧
    (((futureMinutes "0 9 * * 1" 0).Nonempty →
      ∃ t, announcedTrigger "0 9 * * 1" 0 = .ok (t, unixToIso t) ∧ IsLeast (futureMinutes "0 9 * * 1" 0) t) ∧
    ((∃ e, announcedTrigger "0 9 * * 1" 0 = .error (.error e)) ↔ futureMinutes "0 9 * * 1" 0 = ∅)) :=
  ⟨parse_monday, announcedTrigger_isLeast parse_monday 0⟩

theorem cronMatches_standard_monday :
    splitWhitespace "0 9 * * 1".toList = [['0'], ['9'], ['*'], ['*'], ['1']] ∧
      parseCronFields "0 9 * * 1" = some (.ok mondayFields) ∧ (1 ≤ 5 ∧ 5 ≤ 31) ∧ 1 ≤ 6 ∧
    ((cronMatches "0 9 * * 1" 0 9 5 1 1 = .ok true ↔ StandardMatches ['*'] ['1'] mondayFields 0 9 5 1 1) ↔
      ¬ (0 ∈ mondayFields.minutes ∧ 9 ∈ mondayFields.hours ∧ 1 ∈ mondayFields.months ∧
        StarOverrides ['*'] ['1'] mondayFields 5 1)) :=
  ⟨rfl, parse_monday, by decide, by decide, cronMatches_standard_iff rfl parse_monday 0 9 1 (by decide) (by decide)⟩

/-- On the Tuesday after the first Monday of the epoch, at nine o'clock. -/
theorem monday_fires_on_tuesday : firesAt "0 9 * * 1" 464400 ∧ dayOfWeek 464400 = 2 ∧
    ¬ (cronMatches "0 9 * * 1" 0 9 6 1 2 = .ok true ↔ StandardMatches ['*'] ['1'] mondayFields 0 9 6 1 2) := by
  have hfires : cronMatches "0 9 * * 1" 0 9 6 1 2 = .ok true := rfl
  refine ⟨?_, by decide, fun h => ?_⟩
  · rw [firesAt_iff parse_monday, triggersAt_eq]
    decide +kernel
  · obtain ⟨-, -, -, hday⟩ := h.mp hfires
    rw [StandardDay, if_pos rfl] at hday
    exact absurd hday (by decide)

end Beetle.Cron
