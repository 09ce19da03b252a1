import Beetle.BgTimer

/-! When every run of the timer fires each cron task once for every minute that matches. -/
namespace Beetle.BgTimer
open Beetle.Lib Beetle.Bus Beetle.Tools Beetle.Cron

/-- The note is one that the tool wrote, and nothing in it or in the cache makes a tick panic. -/
structure CronTimer.Sound (timer : CronTimer) : Prop where
  note : ∃ tasks, NoteHolds timer.note tasks
  stored : ∀ task ∈ storedTasks timer.note, task.Checked
  cached : ∀ task ∈ timer.cache, task.Checked

/-- Unless the flag says otherwise the cache is what the note has. -/
def CronTimer.Synced (timer : CronTimer) : Prop := timer.dirty = false → timer.cache = storedTasks timer.note

section
variable {cfg : BgTimerConfig} {tool : CronManageTool} {timer : CronTimer}

theorem sound_new (start : Nat) : (CronTimer.new start).Sound where
  note := ⟨[], .inl ⟨rfl, rfl⟩⟩
  stored := List.forall_mem_nil _
  cached := List.forall_mem_nil _

/-- The list that a tick goes through. -/
theorem CronTimer.Sound.loaded (h : timer.Sound) (pass : LoopPass) :
    ∀ task ∈ (if timer.dirty then loadPersistedCronTasks timer.note pass.readFails else timer.cache), task.Checked := by
  intro task htask
  split at htask
  · cases hread : pass.readFails with
    | true => simp [hread, loadPersistedCronTasks, getDailyNote] at htask
    | false =>
      rw [hread] at htask
      exact h.stored task htask
  · exact h.cached task htask

theorem CronTimer.Sound.manage (h : timer.Sound) {call : CronManageCall} (hclock : call.now < 2 ^ 64) :
    (timer.manage tool call).Sound := by
  obtain ⟨tasks, hnote⟩ := h.note
  have heffect := hnote.execute tool call
  have hchecked : ∀ task ∈ tasks, task.Checked := by
    rw [← hnote.stored]
    exact h.stored
  exact ⟨heffect.noteHolds hnote, heffect.checked hnote hclock hchecked, h.cached⟩

theorem CronTimer.Synced.manage (hsound : timer.Sound) (h : timer.Synced) (call : CronManageCall) :
    (timer.manage tool call).Synced := by
  obtain ⟨tasks, hnote⟩ := hsound.note
  intro hclean
  obtain ⟨hclean, hunsaved⟩ : timer.dirty = false ∧ saved (tool.execute timer.note call).2 = false := by
    simpa [CronTimer.manage] using hclean
  have hsame : (tool.execute timer.note call).1 = timer.note := by
    generalize hresult : tool.execute timer.note call = result at hunsaved
    have heffect : CallEffect timer.note tasks call result := hresult ▸ hnote.execute tool call
    cases heffect with
    | kept hkeeps => rfl
    | added htask hroom hshort => cases hunsaved
    | removed id hsome => cases hunsaved
    | updated front back fields htasks hupdate => cases hunsaved
  show timer.cache = storedTasks (tool.execute timer.note call).1
  rw [hsame, h hclean]

/-- What a tick leaves. -/
theorem CronTimer.Sound.cronTick (h : timer.Sound) (cfg : BgTimerConfig) (pass : LoopPass) :
    ∃ fired, timer.cronTick cfg pass = some { timer with
        dirty := false, ticks := timer.ticks ++ [pass.unixSecs], fired := timer.fired ++ fired
        cache := if timer.dirty then loadPersistedCronTasks timer.note pass.readFails else timer.cache } ∧
      ∀ task fields, task.enabled = true → task.fields? = some fields →
        (fired.map (·.1)).count task = if fields.matchesAt pass.unixSecs then
          (if timer.dirty then loadPersistedCronTasks timer.note pass.readFails else timer.cache).count task else 0 := by
  obtain ⟨fired, hfired, hcount⟩ :=
    firePersistedTasks_checked cfg.roomy (h.loaded pass) pass.unixSecs pass.locale
  exact ⟨fired, by rw [CronTimer.cronTick, hfired]; rfl, hcount⟩

/-- No step panics. -/
theorem CronTimer.Sound.step (h : timer.Sound) (action : TimerAction) :
    ∃ after, timer.step cfg tool action = some after ∧ after.Sound := by
  cases action with
  | manage call hclock => exact ⟨_, rfl, h.manage hclock⟩
  | pass pass =>
    simp only [CronTimer.step, CronTimer.runPass]
    split
    · obtain ⟨fired, htick, -⟩ := h.cronTick cfg pass
      rw [htick]
      exact ⟨_, rfl, h.note, h.stored, h.loaded pass⟩
    · split
      · exact ⟨_, rfl, h.note, h.stored, h.cached⟩
      · exact ⟨_, rfl, h⟩

/-- The minute of the next deadline. -/
def CronTimer.nextMinute (timer : CronTimer) (epoch : Nat) : Nat := (epoch + timer.nextCronAt) / nanosPerMin

/-- So far each matching minute from the first tick to the next deadline has fired the task,
and the minutes since the last tick do not match. -/
structure CronTimer.Counted (epoch : Nat) (task : CronTask) (fields : CronFields) (n : Nat) (timer : CronTimer) :
    Prop where
  idle : timer.ticks = [] → timer.firedFor task = 0
  ticked : ∀ first last, timer.ticks.head? = some first → timer.ticks.getLast? = some last →
    first / 60 ≤ last / 60 ∧ last / 60 < timer.nextMinute epoch ∧
      matchingBetween fields (first / 60) (last / 60 + 1) =
        matchingBetween fields (first / 60) (timer.nextMinute epoch) ∧
      timer.firedFor task = n * matchingBetween fields (first / 60) (timer.nextMinute epoch)

variable {epoch n : Nat} {task : CronTask} {fields : CronFields} {pass : LoopPass}

section
variable (h : OnTime epoch task fields n timer pass)
include h

/-- A pass in the minute of its deadline moves the deadline by a minute. -/
theorem OnTime.advance (hdue : timer.nextCronAt ≤ pass.now) :
    (timer.advanceCron pass.now).nextCronAt = timer.nextCronAt + cronInterval ∧
      (timer.advanceCron pass.now).nextMinute epoch = timer.nextMinute epoch + 1 := by
  have hclock := h.clock
  have hminute := h.sameMinute
  have hlate : pass.now < timer.nextCronAt + cronInterval := by
    simp only [nanosPerSec, nanosPerMin, cronInterval, cronIntervalSecs] at *
    omega
  have hnext : (timer.advanceCron pass.now).nextCronAt = timer.nextCronAt + cronInterval :=
    advancePeriodicDeadline_once (by decide) hdue hlate
  refine ⟨hnext, ?_⟩
  rw [CronTimer.nextMinute, hnext, CronTimer.nextMinute]
  simp only [nanosPerSec, nanosPerMin, cronInterval, cronIntervalSecs]
  omega

theorem OnTime.matchesAt : fields.matchesAt pass.unixSecs = fields.matchesAt (60 * timer.nextMinute epoch) := by
  rw [fields.matchesAt_minute pass.unixSecs, h.sameMinute, Nat.mul_comm, CronTimer.nextMinute]

theorem OnTime.loaded (hsynced : timer.Synced) :
    (if timer.dirty then loadPersistedCronTasks timer.note pass.readFails else timer.cache) =
      storedTasks timer.note := by
  rw [h.readable]
  cases hdirty : timer.dirty with
  | true => rfl
  | false => exact hsynced hdirty

end

/-- A pass that does not tick because the mode does not allow it. -/
theorem CronTimer.Counted.skip (hcounted : timer.Counted epoch task fields n)
    (h : OnTime epoch task fields n timer pass) (hdue : timer.nextCronAt ≤ pass.now)
    (hclosed : pass.allowPeriodicMaintenance = false) :
    (timer.advanceCron pass.now).Counted epoch task fields n := by
  have hnext := (h.advance hdue).2
  have hmatch : fields.matchesAt (60 * timer.nextMinute epoch) = false := by
    rw [← h.matchesAt]
    by_contra hmatches
    simp [h.allowed (by simpa using hmatches)] at hclosed
  refine ⟨hcounted.idle, fun first last hfirst hlast => ?_⟩
  obtain ⟨hle, hlt, hsame, hfired⟩ := hcounted.ticked first last hfirst hlast
  have hsucc : matchingBetween fields (first / 60) (timer.nextMinute epoch + 1) =
      matchingBetween fields (first / 60) (timer.nextMinute epoch) := by
    rw [matchingBetween_succ fields (by omega), hmatch]
    rfl
  rw [hnext, hsucc]
  exact ⟨hle, by omega, hsame, hfired⟩

/-- A tick counts its own minute. -/
theorem CronTimer.Counted.tick {timer after : CronTimer} (hcounted : timer.Counted epoch task fields n)
    (h : OnTime epoch task fields n timer pass) (hticks : after.ticks = timer.ticks ++ [pass.unixSecs])
    (hfired : after.firedFor task = timer.firedFor task + if fields.matchesAt pass.unixSecs then n else 0)
    (hnext : after.nextMinute epoch = timer.nextMinute epoch + 1) : after.Counted epoch task fields n := by
  have hminute : pass.unixSecs / 60 = timer.nextMinute epoch := h.sameMinute
  constructor
  · intro hnone
    simp [hticks] at hnone
  · intro first last hfirst hlast
    obtain rfl : pass.unixSecs = last := by simpa [hticks] using hlast
    rw [hnext, hminute, hfired, h.matchesAt]
    cases hold : timer.ticks with
    | nil =>
      obtain rfl : pass.unixSecs = first := by simpa [hticks, hold] using hfirst
      rw [hminute, hcounted.idle hold, matchingBetween_succ fields le_rfl]
      refine ⟨le_rfl, by omega, rfl, ?_⟩
      simp [matchingBetween]
    | cons first' ticks =>
      obtain rfl : first' = first := by simpa [hticks, hold] using hfirst
      have hlast' : timer.ticks.getLast? = some ((first' :: ticks).getLast (List.cons_ne_nil _ _)) := by
        rw [hold, List.getLast?_eq_some_getLast]
      obtain ⟨hle, hlt, -, hcount⟩ := hcounted.ticked first' _ (by rw [hold]; rfl) hlast'
      refine ⟨by omega, by omega, rfl, ?_⟩
      rw [hcount, matchingBetween_succ fields (by omega)]
      split <;> simp [Nat.mul_add]

/-- What the steps on time of a run keep. -/
structure CronTimer.OnSchedule (epoch : Nat) (task : CronTask) (fields : CronFields) (n : Nat) (timer : CronTimer) :
    Prop where
  sound : timer.Sound
  synced : timer.Synced
  counted : timer.Counted epoch task fields n

section
variable (hs : timer.OnSchedule epoch task fields n)
include hs

theorem CronTimer.OnSchedule.runPass {after : CronTimer}
    (henabled : task.enabled = true) (hfields : task.fields? = some fields)
    (honTime : timer.nextCronAt ≤ pass.now → OnTime epoch task fields n timer pass)
    (hrun : timer.runPass cfg pass = some after) : after.OnSchedule epoch task fields n := by
  unfold CronTimer.runPass at hrun
  split at hrun
  · rename_i htick
    have h := honTime htick.1
    obtain ⟨fired, hfired, hcount⟩ := hs.sound.cronTick cfg pass
    rw [h.loaded hs.synced] at hfired hcount
    rw [hfired] at hrun
    obtain rfl := Option.some.inj hrun
    refine ⟨⟨hs.sound.note, hs.sound.stored, hs.sound.stored⟩, fun _ => rfl, ?_⟩
    refine hs.counted.tick h rfl ?_ (h.advance htick.1).2
    have hnew : ((timer.fired ++ fired).map (·.1)).count task =
        timer.firedFor task + (fired.map (·.1)).count task := by
      rw [List.map_append, List.count_append, CronTimer.firedFor]
    refine hnew.trans ?_
    rw [hcount task fields henabled hfields, h.persisted]
  · split at hrun
    · rename_i htick hdue
      obtain rfl := Option.some.inj hrun
      have hclosed : pass.allowPeriodicMaintenance = false := by
        by_contra hopen
        exact htick ⟨hdue, by simpa using hopen⟩
      refine ⟨⟨hs.sound.note, hs.sound.stored, hs.sound.cached⟩, hs.synced, ?_⟩
      exact hs.counted.skip (honTime hdue) hdue hclosed
    · obtain rfl := Option.some.inj hrun
      exact hs

theorem CronTimer.OnSchedule.step {after : CronTimer}
    (henabled : task.enabled = true) (hfields : task.fields? = some fields) {action : TimerAction}
    (honTime : PassesDue (OnTime epoch task fields n) timer action) (hstep : timer.step cfg tool action = some after) :
    after.OnSchedule epoch task fields n := by
  cases action with
  | manage call hclock =>
    obtain rfl := Option.some.inj hstep
    exact ⟨hs.sound.manage hclock, hs.synced.manage hs.sound call, hs.counted.idle, hs.counted.ticked⟩
  | pass pass => exact hs.runPass henabled hfields honTime hstep

end

theorem onSchedule_new (start : Nat) : (CronTimer.new start).OnSchedule epoch task fields n where
  sound := sound_new start
  synced := fun hclean => by cases hclean
  counted := ⟨fun _ => rfl, fun first last hfirst _ => by cases hfirst⟩

/-- At any time of its run the timer has fired for all the matching minutes of its ticks. -/
theorem CronTimer.Counted.firedFor (h : timer.Counted epoch task fields n) :
    timer.firedFor task = n * timer.matchingMinutes fields := by
  unfold CronTimer.matchingMinutes
  cases hfirst : timer.ticks.head? with
  | none => exact h.idle (List.head?_eq_none_iff.mp hfirst)
  | some first =>
    cases hlast : timer.ticks.getLast? with
    | none => simp [List.getLast?_eq_none_iff.mp hlast] at hfirst
    | some last =>
      obtain ⟨-, -, hsame, hfired⟩ := h.ticked first last hfirst hlast
      rw [hfired, ← hsame]

end

/-- Every run goes through, and where its passes are on time it fires a valid enabled task
once for every minute from the first tick to the last that matches, times the number of
entries that it has in the list. -/
theorem cron_fires_once_per_matching_minute (cfg : BgTimerConfig) (tool : CronManageTool) (epoch start n : Nat)
    (task : CronTask) (fields : CronFields) (henabled : task.enabled = true) (hfields : task.fields? = some fields)
    (actions : List TimerAction)
    (honTime : Meets (CronTimer.step cfg tool) (PassesDue (OnTime epoch task fields n)) actions (.new start)) :
    ∃ timer, exec (CronTimer.step cfg tool) actions (.new start) = some timer ∧
      timer.firedFor task = n * timer.matchingMinutes fields := by
  obtain ⟨timer, hrun⟩ := exec_of_enabled (fun timer action (h : timer.Sound) => h.step action) actions _ (sound_new start)
  refine ⟨timer, hrun, ?_⟩
  have halways : Always (CronTimer.step cfg tool) (CronTimer.OnSchedule epoch task fields n) actions (.new start) := by
    refine always_of_meets ?_ (fun timer h => h) actions _ (onSchedule_new start) honTime
    intro timer action after hs hcond hstep
    exact hs.step henabled hfields hcond hstep
  exact (halways.last hrun).counted.firedFor

/-! Runs that are not on time. -/

/-- With passes like these a task that stays in the list fires once per matching minute. -/
def FiresOncePerMinute (C : Nat → CronTimer → LoopPass → Prop) : Prop :=
  ∀ (cfg : BgTimerConfig) (tool : CronManageTool) (epoch start : Nat) (task : CronTask) (fields : CronFields)
    (actions : List TimerAction), task.enabled = true → task.fields? = some fields →
    Meets (CronTimer.step cfg tool)
      (PassesDue fun timer pass => C epoch timer pass ∧ (storedTasks timer.note).count task = 1) actions (.new start) →
    ∀ timer, exec (CronTimer.step cfg tool) actions (.new start) = some timer →
      timer.firedFor task = timer.matchingMinutes fields

/-- The pass comes in the minute of its deadline. -/
def InMinute (epoch : Nat) (timer : CronTimer) (pass : LoopPass) : Prop :=
  (epoch + pass.now) / nanosPerSec = pass.unixSecs ∧ pass.unixSecs / 60 = (epoch + timer.nextCronAt) / nanosPerMin

/-- The pass comes less than a minute after its deadline. -/
def WithinMinute (epoch : Nat) (timer : CronTimer) (pass : LoopPass) : Prop :=
  (epoch + pass.now) / nanosPerSec = pass.unixSecs ∧ pass.now < timer.nextCronAt + cronInterval

instance (epoch : Nat) (task : CronTask) (fields : CronFields) (n : Nat) (timer : CronTimer) (pass : LoopPass) :
    Decidable (OnTime epoch task fields n timer pass) :=
  decidable_of_iff (_ ∧ _ ∧ _ ∧ _ ∧ _) ⟨fun ⟨clock, sameMinute, allowed, readable, persisted⟩ =>
    ⟨clock, sameMinute, allowed, readable, persisted⟩, fun h =>
    ⟨h.clock, h.sameMinute, h.allowed, h.readable, h.persisted⟩⟩

instance (epoch : Nat) (timer : CronTimer) (pass : LoopPass) : Decidable (InMinute epoch timer pass) :=
  inferInstanceAs (Decidable (_ ∧ _))

instance (epoch : Nat) (timer : CronTimer) (pass : LoopPass) : Decidable (WithinMinute epoch timer pass) :=
  inferInstanceAs (Decidable (_ ∧ _))

/-- A pass at a second of the clock, with instants that count from its start. -/
def passAt (secs : Nat) (allow readFails : Bool) : TimerAction := .pass ⟨secs * nanosPerSec, secs, allow, readFails, .en⟩

def everyMinuteFields : CronFields :=
  ⟨List.range' 0 60, List.range' 0 24, List.range' 1 31, List.range' 1 12, List.range' 0 7⟩

/-- A task is added for every minute, and then come the passes. -/
def everyMinuteRun (passes : List TimerAction) : List TimerAction :=
  .manage (everyMinute 10 false) (by decide) :: passes

theorem everyMinuteTask_fields? : (everyMinuteTask 10).fields? = some everyMinuteFields := by decide +kernel

/-- A run that meets the condition and does not fire as often as there are matching minutes. -/
theorem not_firesOncePerMinute {C : Nat → CronTimer → LoopPass → Prop} (start : Nat) (passes : List TimerAction)
    (hmeets : Meets (CronTimer.step bgTimerConfigHost ⟨fun _ => ""⟩)
      (PassesDue fun timer pass => C 0 timer pass ∧ (storedTasks timer.note).count (everyMinuteTask 10) = 1)
      (everyMinuteRun passes) (.new start))
    (hcount : (exec (CronTimer.step bgTimerConfigHost ⟨fun _ => ""⟩) (everyMinuteRun passes) (.new start)).map
      (fun timer => decide (timer.firedFor (everyMinuteTask 10) = timer.matchingMinutes everyMinuteFields)) =
        some false) :
    ¬ FiresOncePerMinute C := by
  intro h
  obtain ⟨timer, hrun, hdiffer⟩ := Option.map_eq_some_iff.mp hcount
  have hsame := h bgTimerConfigHost ⟨fun _ => ""⟩ 0 start (everyMinuteTask 10) everyMinuteFields _ rfl
    everyMinuteTask_fields? hmeets timer hrun
  exact of_decide_eq_false hdiffer hsame

/-- A pass in which the mode does not allow maintenance skips its minute; after a failed
read nothing is fired until the list is next written; and passes that are late by less than a
minute can come twice in a minute of the clock. -/
theorem cron_skips_and_repeats_minutes :
    (¬ FiresOncePerMinute fun epoch timer pass => InMinute epoch timer pass ∧ pass.readFails = false) ∧
    (¬ FiresOncePerMinute fun epoch timer pass =>
      InMinute epoch timer pass ∧ pass.allowPeriodicMaintenance = true) ∧
    (¬ FiresOncePerMinute fun epoch timer pass => WithinMinute epoch timer pass ∧
      pass.allowPeriodicMaintenance = true ∧ pass.readFails = false) := by
  refine ⟨?_, ?_, ?_⟩
  · exact not_firesOncePerMinute 0 [passAt 60 true false, passAt 120 false false, passAt 180 true false]
      (by decide +kernel) (by decide +kernel)
  · exact not_firesOncePerMinute 0 [passAt 60 true true] (by decide +kernel) (by decide +kernel)
  · exact not_firesOncePerMinute (50 * nanosPerSec) [passAt 125 true false, passAt 175 true false]
      (by decide +kernel) (by decide +kernel)

/-- Two minutes on time, one tick in each. -/
theorem everyMinute_fires_twice :
    ∃ timer, exec (CronTimer.step bgTimerConfigHost ⟨fun _ => ""⟩)
        (everyMinuteRun [passAt 60 true false, passAt 61 true false, passAt 125 true false]) (.new 0) = some timer ∧
      timer.firedFor (everyMinuteTask 10) = 1 * timer.matchingMinutes everyMinuteFields := by
  refine cron_fires_once_per_matching_minute bgTimerConfigHost ⟨fun _ => ""⟩ 0 0 1 (everyMinuteTask 10)
    everyMinuteFields rfl everyMinuteTask_fields? _ ?_
  decide +kernel

end Beetle.BgTimer
