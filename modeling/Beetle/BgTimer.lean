import Beetle.Cron

/-! The cron schedule of the background timer. Instants are in nanoseconds; the clock
that the expressions are matched with is in seconds. -/
namespace Beetle.BgTimer
open Beetle.Lib Beetle.Bus Beetle.Tools Beetle.Cron

def nanosPerSec : Nat := 10 ^ 9
def nanosPerMin : Nat := 60 * nanosPerSec
def cronIntervalSecs : Nat := 60
def cronInterval : Nat := cronIntervalSecs * nanosPerSec

def advancePeriodicDeadline (interval : Nat) (hpos : 0 < interval) (deadline now : Nat) : Nat :=
  if _h : deadline ≤ now then advancePeriodicDeadline interval hpos (deadline + interval) now else deadline
termination_by now + 1 - deadline

structure BgTimerConfig where
  maxContentLen : Nat
  roomy : 2048 ≤ maxContentLen

def bgTimerConfigHost : BgTimerConfig := ⟨256 * 1024, by decide⟩
def bgTimerConfigEsp : BgTimerConfig := ⟨64 * 1024, by decide⟩

/-- The note, the flag that it was written, and what the loop keeps. `ticks` has the time
of each tick and `fired` each message that was sent, with its task. -/
structure CronTimer where
  note : Option (List Char)
  dirty : Bool
  cache : List CronTask
  nextCronAt : Nat
  ticks : List Nat
  fired : List (CronTask × InboundMsg)

/-- A timer that is started over an empty store. -/
def CronTimer.new (now : Nat) : CronTimer := ⟨none, true, [], now + cronInterval, [], []⟩

/-- A pass of the loop: the instant it reads, the clock that a tick in it reads, whether
the mode allows periodic maintenance, and whether the note can be read. -/
structure LoopPass where
  now : Nat
  unixSecs : Nat
  allowPeriodicMaintenance : Bool
  readFails : Bool
  locale : Cron.Locale

inductive TimerAction where
  | manage (call : CronManageCall) (hclock : call.now < 2 ^ 64)
  | pass (pass : LoopPass)

/-- The answers that come after a save, which sets the flag. -/
def saved : Except Fault CronManageReply → Bool
  | .ok (.added _) | .ok (.removed _) | .ok (.updated _ _) => true
  | _ => false

namespace CronTimer
variable (cfg : BgTimerConfig) (tool : CronManageTool) (timer : CronTimer)

def manage (call : CronManageCall) : CronTimer :=
  let (note, answer) := tool.execute timer.note call
  { timer with note, dirty := timer.dirty || saved answer }

def cronTick (pass : LoopPass) : Option CronTimer :=
  let cache := if timer.dirty then loadPersistedCronTasks timer.note pass.readFails else timer.cache
  (firePersistedTasks cfg.maxContentLen pass.unixSecs pass.locale cache).map fun fired =>
    { timer with
      dirty := false, cache, ticks := timer.ticks ++ [pass.unixSecs], fired := timer.fired ++ fired }

def advanceCron (now : Nat) : CronTimer :=
  { timer with nextCronAt := advancePeriodicDeadline cronInterval (by decide) timer.nextCronAt now }

/-- What a pass of the loop does for cron. -/
def runPass (pass : LoopPass) : Option CronTimer :=
  if timer.nextCronAt ≤ pass.now ∧ pass.allowPeriodicMaintenance then
    (timer.cronTick cfg pass).map fun timer => timer.advanceCron pass.now
  else if timer.nextCronAt ≤ pass.now then some (timer.advanceCron pass.now)
  else some timer

/-- A step of the tool or of the loop; `none` where the thread panics. -/
@[grind =] def step : TimerAction → Option CronTimer
  | .manage call _ => some (timer.manage tool call)
  | .pass pass => timer.runPass cfg pass

end CronTimer

/-- The messages that were sent for a task. -/
def CronTimer.firedFor (timer : CronTimer) (task : CronTask) : Nat := (timer.fired.map (·.1)).count task

/-- The minutes from `first` on and before `next` that match. -/
def matchingBetween (fields : CronFields) (first next : Nat) : Nat :=
  (List.range' first (next - first)).countP fun minute => fields.matchesAt (60 * minute)

/-- The matching minutes from the first tick to the last. -/
def CronTimer.matchingMinutes (timer : CronTimer) (fields : CronFields) : Nat :=
  match timer.ticks.head?, timer.ticks.getLast? with
  | some first, some last => matchingBetween fields (first / 60) (last / 60 + 1)
  | _, _ => 0

/-- A pass that finds the deadline reached comes in the minute of the deadline, with a clock
that has gone on as the instants have; in a minute that matches it finds periodic
maintenance allowed; and at a tick the note can be read and has the task `n` times. -/
structure OnTime (epoch : Nat) (task : CronTask) (fields : CronFields) (n : Nat) (timer : CronTimer)
    (pass : LoopPass) : Prop where
  clock : (epoch + pass.now) / nanosPerSec ≤ pass.unixSecs
  sameMinute : pass.unixSecs / 60 = (epoch + timer.nextCronAt) / nanosPerMin
  allowed : fields.matchesAt pass.unixSecs = true → pass.allowPeriodicMaintenance = true
  readable : pass.readFails = false
  persisted : (storedTasks timer.note).count task = n

/-- A condition on the passes that find the deadline reached. -/
def PassesDue (C : CronTimer → LoopPass → Prop) (timer : CronTimer) : TimerAction → Prop
  | .manage _ _ => True
  | .pass pass => timer.nextCronAt ≤ pass.now → C timer pass

instance {C : CronTimer → LoopPass → Prop} [∀ timer pass, Decidable (C timer pass)] (timer : CronTimer) :
    (action : TimerAction) → Decidable (PassesDue C timer action)
  | .manage _ _ => .isTrue trivial
  | .pass pass => inferInstanceAs (Decidable (timer.nextCronAt ≤ pass.now → C timer pass))

/-! One pass. -/

/-- A deadline that is late by less than the interval moves by one interval. -/
theorem advancePeriodicDeadline_once {interval deadline now : Nat} (hpos : 0 < interval) (hdue : deadline ≤ now)
    (hlate : now < deadline + interval) : advancePeriodicDeadline interval hpos deadline now = deadline + interval := by
  rw [advancePeriodicDeadline, dif_pos hdue, advancePeriodicDeadline, dif_neg (by omega)]

theorem matchingBetween_succ (fields : CronFields) {first next : Nat} (h : first ≤ next) :
    matchingBetween fields first (next + 1) =
      matchingBetween fields first next + if fields.matchesAt (60 * next) then 1 else 0 := by
  have hlength : next + 1 - first = (next - first) + 1 := by omega
  have hlast : first + 1 * (next - first) = next := by omega
  rw [matchingBetween, hlength, List.range'_concat, List.countP_append, hlast, List.countP_singleton, matchingBetween]

/-! How the loop of the background timer waits for its next deadline, and the writers of the
stores that wake it. Instants are in nanoseconds. -/

def unixDeadlineToInstant (nextDueAt : Option Nat) (nowUnixSecs now : Nat) : Option Nat :=
  nextDueAt.map fun dueAt =>
    if dueAt ≤ nowUnixSecs then now else now + (dueAt - nowUnixSecs) * nanosPerSec

/-- What a pass of the loop reads before the stores: the clocks and the mode, and the deadlines
that it has kept from the passes before. -/
structure WakePass where
  now : Nat
  nowUnixSecs : Nat
  allowDueUserTimers : Bool
  nextHeartbeatAt : Nat
  nextCronAt : Nat
  nextAgentGuardAt : Nat
  nextReminderSweepRetryAt : Option Nat
  nextTaskSweepRetryAt : Option Nat
  deriving DecidableEq

/-- The deadline of a store; one that cannot be read gives none. -/
def WakePass.storeDeadline (pass : WakePass) (retryAt : Option Nat) (nextDueAt : Except Unit (Option Nat)) :
    Option Nat :=
  if !pass.allowDueUserTimers then none
  else match retryAt with
    | some retryAt => some retryAt
    | none => unixDeadlineToInstant (nextDueAt.toOption.join) pass.nowUnixSecs pass.now

/-- Where the loop stands in a pass. `waiting` is the time within `wait_timeout`, when the lock
is free; `woken` says that it has been notified there. -/
inductive WakePc where
  | top
  | readTask (pass : WakePass) (nextRemindAt : Option Nat)
  | readDelayed (pass : WakePass) (nextRemindAt nextTaskAt : Option Nat)
  | sample (deadline : Nat)
  | slice (deadline observedGeneration : Nat)
  | waiting (deadline observedGeneration : Nat) (woken : Bool)
  | returned
  deriving DecidableEq

/-- The generation under its lock, the earliest times in the two stores, the writers that have
changed a store and not yet notified, and the loop. `missed` and `heard` count the
notifications since the loop read the stores: those before the wait has sampled the
generation, and those since. -/
structure WakeState where
  generation : Nat
  remindDueAt : Option Nat
  taskDueAt : Option Nat
  writers : Nat
  pc : WakePc
  missed : Nat
  heard : Nat
  deriving DecidableEq

inductive WakeEvent where
  /-- A writer changes a store; it notifies later. -/
  | storeChange (remindDueAt taskDueAt : Option Nat)
  | notifyDeadlineChanged
  | readRemind (pass : WakePass) (fails : Bool)
  | readTask (fails : Bool)
  | readDelayed (nextDelayedTaskWait : Nat)
  | sample
  | slice (now : Nat)
  /-- `wait_timeout` returns: notified, after its time, or for no reason. -/
  | wake
  /-- The rest of the pass. -/
  | service

def readStore (fails : Bool) (dueAt : Option Nat) : Except Unit (Option Nat) :=
  if fails then .error () else .ok dueAt

namespace WakeState

def new (remindDueAt taskDueAt : Option Nat) : WakeState :=
  ⟨0, remindDueAt, taskDueAt, 0, .top, 0, 0⟩

variable (state : WakeState)

/-- The generation goes up; the loop is woken where it waits. -/
def notifyDeadlineChanged : WakeState :=
  let notified := { state with generation := (state.generation + 1) % 2 ^ 64, writers := state.writers - 1 }
  match state.pc with
  | .readDelayed _ _ _ | .sample _ => { notified with missed := state.missed + 1 }
  | .slice _ _ => { notified with heard := state.heard + 1 }
  | .waiting deadline observed _ =>
    { notified with heard := state.heard + 1, pc := .waiting deadline observed true }
  | .top | .readTask _ _ | .returned => notified

/-- The minimum of the deadlines. -/
def nextWakeAt (pass : WakePass) (nextRemindAt nextTaskAt : Option Nat) (nextDelayedTaskWait : Nat) : Nat :=
  ([some pass.nextHeartbeatAt, some pass.nextCronAt, nextRemindAt, nextTaskAt,
    some (pass.now + nextDelayedTaskWait), some pass.nextAgentGuardAt].filterMap id).min?.getD
      (pass.now + 30 * nanosPerSec)

@[grind =] def step : WakeEvent → Option WakeState
  | .storeChange remindDueAt taskDueAt => some { state with remindDueAt, taskDueAt, writers := state.writers + 1 }
  | .notifyDeadlineChanged => if state.writers = 0 then none else some state.notifyDeadlineChanged
  | .readRemind pass fails =>
    match state.pc with
    | .top =>
      let nextRemindAt :=
        pass.storeDeadline pass.nextReminderSweepRetryAt (readStore fails state.remindDueAt)
      some { state with pc := .readTask pass nextRemindAt }
    | _ => none
  | .readTask fails =>
    match state.pc with
    | .readTask pass nextRemindAt =>
      let nextTaskAt := pass.storeDeadline pass.nextTaskSweepRetryAt (readStore fails state.taskDueAt)
      some { state with pc := .readDelayed pass nextRemindAt nextTaskAt, missed := 0, heard := 0 }
    | _ => none
  | .readDelayed nextDelayedTaskWait =>
    match state.pc with
    | .readDelayed pass nextRemindAt nextTaskAt =>
      some { state with pc := .sample (nextWakeAt pass nextRemindAt nextTaskAt nextDelayedTaskWait) }
    | _ => none
  | .sample =>
    match state.pc with
    | .sample deadline => some { state with pc := .slice deadline state.generation }
    | _ => none
  | .slice now =>
    match state.pc with
    | .slice deadline observed =>
      if deadline ≤ now then some { state with pc := .returned }
      else if state.generation ≠ observed then some { state with pc := .returned }
      else some { state with pc := .waiting deadline observed false }
    | _ => none
  | .wake =>
    match state.pc with
    | .waiting deadline observed _ =>
      if state.generation ≠ observed then some { state with pc := .returned }
      else some { state with pc := .slice deadline state.generation }
    | _ => none
  | .service =>
    match state.pc with
    | .returned => some { state with pc := .top }
    | _ => none

/-- The loop waits and nobody has woken it. -/
def Blocked : Prop := ∃ deadline observed, state.pc = .waiting deadline observed false

/-- Once notified, after it has read the stores, the loop does not go on waiting. -/
def ReturnsOnceNotified : Prop := state.Blocked → state.missed = 0 ∧ state.heard = 0

/-- A slice of a wait that is not over by its deadline finds the generation changed if there
was a notification since the stores were read. -/
def NoticedIn : WakeEvent → Prop
  | .slice now => ∀ deadline observed, state.pc = .slice deadline observed → now < deadline →
      0 < state.missed + state.heard → ¬2 ^ 64 ∣ state.heard
  | _ => True

/-- The generation has gone up by the notifications since it was sampled. -/
structure Counts (state : WakeState) (sampled : Nat) : Prop where
  bounded : sampled < 2 ^ 64
  generation : state.generation = (sampled + state.heard) % 2 ^ 64

/-- What holds at each place of the loop. -/
def Placed (state : WakeState) : Prop :=
  match state.pc with
  | .top | .readTask _ _ | .returned => True
  | .readDelayed _ _ _ | .sample _ => state.heard = 0
  | .slice _ observed => state.Counts observed
  | .waiting _ observed woken =>
    state.Counts observed ∧ (woken = false → state.missed = 0 ∧ state.heard = 0)

structure Sampled (state : WakeState) : Prop where
  bounded : state.generation < 2 ^ 64
  placed : state.Placed

variable {state after : WakeState} {event : WakeEvent} {observed : Nat}

theorem Counts.notify (h : state.Counts observed) :
    (state.generation + 1) % 2 ^ 64 = (observed + (state.heard + 1)) % 2 ^ 64 := by
  rw [h.generation, Nat.mod_add_mod, Nat.add_assoc]

/-- The generation is the one observed where the notifications have gone round. -/
theorem Counts.unchanged_iff (h : state.Counts observed) :
    state.generation = observed ↔ 2 ^ 64 ∣ state.heard := by
  have hbounded := h.bounded
  rw [h.generation]
  omega

theorem sampled_new (remindDueAt taskDueAt : Option Nat) : (new remindDueAt taskDueAt).Sampled :=
  ⟨Nat.two_pow_pos 64, trivial⟩

section
variable (h : state.Sampled)
include h

theorem Sampled.returnsOnceNotified : state.ReturnsOnceNotified := by
  rintro ⟨deadline, observed, hpc⟩
  have hplaced := h.placed
  rw [Placed, hpc] at hplaced
  exact hplaced.2 rfl

theorem Sampled.notify : state.notifyDeadlineChanged.Sampled := by
  have hbounded : (state.generation + 1) % 2 ^ 64 < 2 ^ 64 := Nat.mod_lt _ (Nat.two_pow_pos 64)
  obtain ⟨-, hplaced⟩ := h
  obtain ⟨generation, remindDueAt, taskDueAt, writers, pc, missed, heard⟩ := state
  cases pc with
  | top | readTask | returned => exact ⟨hbounded, trivial⟩
  | readDelayed | sample => exact ⟨hbounded, hplaced⟩
  | slice deadline observed => exact ⟨hbounded, hplaced.bounded, hplaced.notify⟩
  | waiting deadline observed woken =>
    exact ⟨hbounded, ⟨hplaced.1.bounded, hplaced.1.notify⟩, fun hwoken => nomatch hwoken⟩

/-- A step that notices what it should keeps the loop from waiting on. -/
theorem Sampled.step (hnoticed : state.NoticedIn event) (hstep : state.step event = some after) : after.Sampled := by
  obtain ⟨hbounded, hplaced⟩ := h
  obtain ⟨generation, remindDueAt, taskDueAt, writers, pc, missed, heard⟩ := state
  cases event with
  | storeChange =>
    cases hstep
    cases pc with
    | top | readTask | readDelayed | sample | returned => exact ⟨hbounded, hplaced⟩
    | slice => exact ⟨hbounded, hplaced.bounded, hplaced.generation⟩
    | waiting => exact ⟨hbounded, ⟨hplaced.1.bounded, hplaced.1.generation⟩, hplaced.2⟩
  | notifyDeadlineChanged =>
    simp only [WakeState.step] at hstep
    split_ifs at hstep
    cases hstep
    exact Sampled.notify ⟨hbounded, hplaced⟩
  | readRemind pass fails =>
    cases pc with
    | top => cases hstep; exact ⟨hbounded, trivial⟩
    | _ => cases hstep
  | readTask fails =>
    cases pc with
    | readTask => cases hstep; exact ⟨hbounded, rfl⟩
    | _ => cases hstep
  | readDelayed nextDelayedTaskWait =>
    cases pc with
    | readDelayed => cases hstep; exact ⟨hbounded, hplaced⟩
    | _ => cases hstep
  | sample =>
    cases pc with
    | sample deadline =>
      cases hstep
      have hunheard : heard = 0 := hplaced
      refine ⟨hbounded, hbounded, ?_⟩
      show generation = (generation + heard) % 2 ^ 64
      rw [hunheard, Nat.add_zero, Nat.mod_eq_of_lt hbounded]
    | _ => cases hstep
  | slice now =>
    cases pc with
    | slice deadline observed =>
      simp only [WakeState.step] at hstep
      split_ifs at hstep with hdeadline hgeneration
      · cases hstep; exact ⟨hbounded, trivial⟩
      · cases hstep; exact ⟨hbounded, trivial⟩
      · cases hstep
        have hcounts : Counts ⟨generation, remindDueAt, taskDueAt, writers, .slice deadline observed,
          missed, heard⟩ observed := hplaced
        have hround := hcounts.unchanged_iff.mp (not_not.mp hgeneration)
        have hnone : ¬0 < missed + heard := fun hsome =>
          hnoticed deadline observed rfl (Nat.not_le.mp hdeadline) hsome hround
        exact ⟨hbounded, ⟨hcounts.bounded, hcounts.generation⟩, fun _ => by simp only; omega⟩
    | _ => cases hstep
  | wake =>
    cases pc with
    | waiting deadline observed woken =>
      simp only [WakeState.step] at hstep
      split_ifs at hstep with hgeneration
      · cases hstep; exact ⟨hbounded, trivial⟩
      · cases hstep
        have hsame : generation = observed := not_not.mp hgeneration
        refine ⟨hbounded, hbounded, ?_⟩
        show generation = (generation + heard) % 2 ^ 64
        rw [hsame]
        exact hsame.symm.trans hplaced.1.generation
    | _ => cases hstep
  | service =>
    cases pc with
    | returned => cases hstep; exact ⟨hbounded, trivial⟩
    | _ => cases hstep

/-- A slice that does not notice is waited in. -/
theorem Sampled.blocks (hstep : state.step event = some after)
    (hunnoticed : ¬state.NoticedIn event) : ¬after.ReturnsOnceNotified := by
  cases event with
  | slice now =>
    simp only [NoticedIn, not_forall, not_not] at hunnoticed
    obtain ⟨deadline, observed, hpc, hnow, hsome, hround⟩ := hunnoticed
    have hplaced := h.placed
    rw [Placed, hpc] at hplaced
    have hgeneration := hplaced.unchanged_iff.mpr hround
    simp only [WakeState.step, hpc, if_neg (Nat.not_le.mpr hnow), hgeneration, ne_eq, not_true_eq_false,
      if_false] at hstep
    cases hstep
    intro hreturns
    obtain ⟨hmissed, hheard⟩ := hreturns ⟨deadline, observed, rfl⟩
    simp only at hmissed hheard
    omega
  | _ => exact absurd trivial hunnoticed

end

end WakeState

/-- After a notification the loop waits no further, as long as no slice of its waits misses it. -/
theorem returns_once_notified_iff (remindDueAt taskDueAt : Option Nat) (events : List WakeEvent) :
    Always WakeState.step WakeState.ReturnsOnceNotified events (.new remindDueAt taskDueAt) ↔
      Meets WakeState.step WakeState.NoticedIn events (.new remindDueAt taskDueAt) :=
  always_iff_meets (fun _ _ _ h hnoticed hstep => h.step hnoticed hstep)
    (fun _ h => h.returnsOnceNotified) (fun _ _ _ h hstep hunnoticed => h.blocks hstep hunnoticed)
    events _ (WakeState.sampled_new remindDueAt taskDueAt)

/-- A pass in which nothing but the heartbeat, in 30 seconds, is near. -/
def quietPass : WakePass where
  now := 0
  nowUnixSecs := 1700000000
  allowDueUserTimers := true
  nextHeartbeatAt := 30 * nanosPerSec
  nextCronAt := 60 * nanosPerSec
  nextAgentGuardAt := 40 * nanosPerSec
  nextReminderSweepRetryAt := none
  nextTaskSweepRetryAt := none

/-- A reminder due in two seconds is stored, and its writer notifies, just before the wait
samples the generation. -/
def lateReminder : List WakeEvent :=
  [.readRemind quietPass false, .readTask false, .readDelayed (30 * nanosPerSec),
    .storeChange (some 1700000002) none, .notifyDeadlineChanged, .sample, .slice 1000]

theorem notified_before_sample_waits_on :
    ¬∀ (remindDueAt taskDueAt : Option Nat) (events : List WakeEvent),
      Always WakeState.step WakeState.ReturnsOnceNotified events (.new remindDueAt taskDueAt) := by
  intro hreturns
  have hwaits : exec WakeState.step lateReminder (.new none none) =
      some ⟨1, some 1700000002, none, 0, .waiting (30 * nanosPerSec) 1 false, 1, 0⟩ := by
    decide
  obtain ⟨hmissed, -⟩ := (hreturns none none lateReminder).last hwaits ⟨_, _, rfl⟩
  exact absurd hmissed (by decide)

end Beetle.BgTimer
