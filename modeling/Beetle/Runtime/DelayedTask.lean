import Mathlib.Data.List.MinMax
import Mathlib.Data.List.Sort
import Beetle.Lib.Lists

/-! The queue of delayed tasks that the runtime threads poll. -/
namespace Beetle.Runtime
open Beetle.Lib

/-- Nanoseconds on the monotonic clock. -/
abbrev Instant := Nat

inductive DelayedTaskPriority where
  | bestEffort
  | critical
  deriving DecidableEq

inductive DelayedTaskServiceScope where
  | allEligible
  | criticalOnly
  deriving DecidableEq

/-- A job with its task, which is there from the scheduling to the execution. -/
structure DelayedTaskJob (τ : Type) where
  dueAt : Instant
  firstScheduledAt : Instant
  priority : DelayedTaskPriority
  coalesceKey : Option String
  task : τ

/-- `DELAYED_TASK_BEST_EFFORT_MAX`, `DELAYED_TASK_CRITICAL_RESERVED` and the last
instant that the clock can show. -/
structure DelayedTaskLimits where
  bestEffortMax : Nat
  criticalReserved : Nat
  instantMax : Instant

def DelayedTaskLimits.totalMax (limits : DelayedTaskLimits) : Nat :=
  limits.bestEffortMax + limits.criticalReserved

def delayedTaskLimitsEsp : DelayedTaskLimits := ⟨16, 4, 2 ^ 63 * 10 ^ 9 - 1⟩
def delayedTaskLimitsHost : DelayedTaskLimits := ⟨64, 8, 2 ^ 63 * 10 ^ 9 - 1⟩

section
variable {τ : Type} {pending : List (DelayedTaskJob τ)} {job : DelayedTaskJob τ} {coalesceKey : Option String}

/-- The tasks in the order in which they are run. -/
def executeJobs (due : List (DelayedTaskJob τ)) : List τ :=
  (due.insertionSort fun a b => a.dueAt ≤ b.dueAt).map (·.task)

/-- The pending jobs and the due ones. -/
def takeDueJobsLocked (pending : List (DelayedTaskJob τ)) (now : Instant) :
    List (DelayedTaskJob τ) × List (DelayedTaskJob τ) :=
  drainSwap (fun job => job.dueAt ≤ now) pending 0

def takeDueJobsLockedWithPolicy (pending : List (DelayedTaskJob τ)) (now : Instant)
    (scope : DelayedTaskServiceScope) (allowBestEffort : Bool) :
    List (DelayedTaskJob τ) × List (DelayedTaskJob τ) :=
  if scope = .allEligible ∧ allowBestEffort = true then takeDueJobsLocked pending now
  else drainSwap (fun job => decide (job.dueAt ≤ now) && decide (job.priority = .critical)) pending 0

def bestEffortCount (pending : List (DelayedTaskJob τ)) : Nat :=
  pending.countP (·.priority = .bestEffort)

def oldestBestEffortIndex (pending : List (DelayedTaskJob τ)) : Option Nat :=
  ((pending.zipIdx.filter (·.1.priority = .bestEffort)).argmin (·.1.dueAt)).map Prod.snd

/-- `Instant::checked_add`. -/
def DelayedTaskLimits.checkedAdd (limits : DelayedTaskLimits) (at_ : Instant) (d : Nat) : Option Instant :=
  if at_ + d ≤ limits.instantMax then some (at_ + d) else none

/-- What a call leaves pending, its answer, with a refused task in it, and whether
it wakes the timer. -/
structure Scheduled (τ : Type) where
  pending : List (DelayedTaskJob τ)
  result : Except τ Unit
  notifyDeadlineChanged : Bool

/-- The due time of a job that replaces one scheduled first at `firstScheduledAt`. -/
def boundedDueAt (limits : DelayedTaskLimits) (dueAt : Instant) (maxDeferFromFirst : Option Nat)
    (firstScheduledAt : Instant) : Instant :=
  match maxDeferFromFirst.bind (limits.checkedAdd firstScheduledAt) with
  | some deadline => min dueAt deadline
  | none => dueAt

/-- The pending job that a new one with this key replaces. -/
def coalesced (pending : List (DelayedTaskJob τ)) (coalesceKey : Option String) : Option (DelayedTaskJob τ) :=
  coalesceKey.bind fun key => pending.find? (·.coalesceKey = some key)

/-- `now` is what the clock shows where a job is pushed. -/
def scheduleDelayedTask (limits : DelayedTaskLimits) (pending : List (DelayedTaskJob τ)) (now dueAt : Instant)
    (priority : DelayedTaskPriority) (coalesceKey : Option String) (maxDeferFromFirst : Option Nat) (task : τ) :
    Scheduled τ :=
  match coalesced pending coalesceKey with
  | some existing =>
    let due := boundedDueAt limits dueAt maxDeferFromFirst existing.firstScheduledAt
    let pending := modifyFirst (·.coalesceKey = coalesceKey)
      (fun job => { job with dueAt := due, priority, task }) pending
    ⟨pending, .ok (), due < existing.dueAt⟩
  | none =>
    let job : DelayedTaskJob τ := ⟨dueAt, now, priority, coalesceKey, task⟩
    match priority with
    | .bestEffort =>
      if bestEffortCount pending < limits.bestEffortMax ∧ pending.length < limits.totalMax then
        ⟨pending ++ [job], .ok (), true⟩
      else ⟨pending, .error task, false⟩
    | .critical =>
      let pending :=
        if limits.totalMax ≤ pending.length then
          match oldestBestEffortIndex pending with
          | some idx => swapRemove pending idx
          | none => pending
        else pending
      if pending.length < limits.totalMax then ⟨pending ++ [job], .ok (), true⟩
      else ⟨pending, .error task, false⟩

/-- How long the timer may wait for the next job that it can run. -/
def nextDelayedTaskWaitWithPolicy (pending : List (DelayedTaskJob τ)) (now : Instant) (maxWait : Nat)
    (allowBestEffort : Bool) : Nat :=
  let waits := (pending.filter fun job => allowBestEffort || decide (job.priority = .critical)).map
    fun job => job.dueAt - now
  match waits.min? with
  | some wait => min wait maxWait
  | none => maxWait

theorem perm_executeJobs (due : List (DelayedTaskJob τ)) : (executeJobs due).Perm (due.map (·.task)) :=
  (List.perm_insertionSort _ due).map _

/-- The jobs that a service call may run at all. -/
def DelayedTaskServiceScope.Serves (scope : DelayedTaskServiceScope) (allowBestEffort : Bool)
    (job : DelayedTaskJob τ) : Prop :=
  (scope = .allEligible ∧ allowBestEffort = true) ∨ job.priority = .critical

section
variable {pending : List (DelayedTaskJob τ)} {now : Instant} {scope : DelayedTaskServiceScope}
  {allowBestEffort : Bool}

theorem perm_takeDueJobsLockedWithPolicy (pending : List (DelayedTaskJob τ)) (now : Instant)
    (scope : DelayedTaskServiceScope) (allowBestEffort : Bool) :
    ((takeDueJobsLockedWithPolicy pending now scope allowBestEffort).2 ++
      (takeDueJobsLockedWithPolicy pending now scope allowBestEffort).1).Perm pending := by
  unfold takeDueJobsLockedWithPolicy
  split
  · exact perm_drainSwap _ pending 0
  · exact perm_drainSwap _ pending 0

/-- What a service call leaves is not due or not for it. -/
theorem not_due_of_mem_takeDueJobs {job : DelayedTaskJob τ}
    (h : job ∈ (takeDueJobsLockedWithPolicy pending now scope allowBestEffort).1) :
    ¬ (job.dueAt ≤ now ∧ scope.Serves allowBestEffort job) := by
  unfold takeDueJobsLockedWithPolicy at h
  split at h
  · have hjob := rejected_of_mem_drainSwap (by simp) h
    rintro ⟨hdue, -⟩
    simp [hdue] at hjob
  · rename_i hall
    have hjob := rejected_of_mem_drainSwap (by simp) h
    rintro ⟨hdue, hserves | hcritical⟩
    · exact hall hserves
    · simp [hdue, hcritical] at hjob

/-- A service call runs the jobs that are due and for it. -/
theorem mem_takeDueJobs_iff : job ∈ (takeDueJobsLockedWithPolicy pending now scope allowBestEffort).2 ↔
    job ∈ pending ∧ job.dueAt ≤ now ∧ scope.Serves allowBestEffort job := by
  have hperm := perm_takeDueJobsLockedWithPolicy pending now scope allowBestEffort
  constructor
  · intro h
    refine ⟨hperm.subset (List.mem_append_left _ h), ?_⟩
    unfold takeDueJobsLockedWithPolicy at h
    split at h
    · rename_i hall
      rw [takeDueJobsLocked] at h
      have hjob := accepted_of_mem_drainSwap h
      exact ⟨of_decide_eq_true hjob, .inl hall⟩
    · have hjob := accepted_of_mem_drainSwap h
      rw [Bool.and_eq_true, decide_eq_true_eq, decide_eq_true_eq] at hjob
      exact ⟨hjob.1, .inr hjob.2⟩
  · rintro ⟨hmem, hdue⟩
    rcases List.mem_append.mp (hperm.symm.subset hmem) with h | h
    · exact h
    · exact absurd hdue (not_due_of_mem_takeDueJobs h)

/-- The timer waits for the jobs that a call for all eligible ones serves. -/
theorem allEligible_serves_iff : DelayedTaskServiceScope.allEligible.Serves allowBestEffort job ↔
    (allowBestEffort || decide (job.priority = .critical)) = true := by
  simp [DelayedTaskServiceScope.Serves]

variable {maxWait : Nat}

theorem nextDelayedTaskWait_le_maxWait :
    nextDelayedTaskWaitWithPolicy pending now maxWait allowBestEffort ≤ maxWait := by
  rw [nextDelayedTaskWaitWithPolicy]
  split
  · exact min_le_right _ _
  · rfl

theorem nextDelayedTaskWait_le_dueAt (hjob : job ∈ pending)
    (hserves : DelayedTaskServiceScope.allEligible.Serves allowBestEffort job) :
    nextDelayedTaskWaitWithPolicy pending now maxWait allowBestEffort ≤ job.dueAt - now := by
  have hmem : job.dueAt - now ∈ (pending.filter fun job => allowBestEffort || decide (job.priority = .critical)).map
      fun job => job.dueAt - now :=
    List.mem_map_of_mem (List.mem_filter.mpr ⟨hjob, allEligible_serves_iff.mp hserves⟩)
  rw [nextDelayedTaskWaitWithPolicy]
  split
  · rename_i first hfirst
    exact (min_le_left _ _).trans ((List.min?_eq_some_iff.mp hfirst).2 _ hmem)
  · rename_i hnone
    rw [List.min?_eq_none_iff.mp hnone] at hmem
    cases hmem

/-- A wait that was cut short ends at the due time of a job. -/
theorem exists_of_nextDelayedTaskWait_lt
    (h : nextDelayedTaskWaitWithPolicy pending now maxWait allowBestEffort < maxWait) :
    ∃ job ∈ pending, DelayedTaskServiceScope.allEligible.Serves allowBestEffort job ∧
      nextDelayedTaskWaitWithPolicy pending now maxWait allowBestEffort = job.dueAt - now := by
  generalize hwait : nextDelayedTaskWaitWithPolicy pending now maxWait allowBestEffort = wait at h ⊢
  rw [nextDelayedTaskWaitWithPolicy] at hwait
  split at hwait
  · rename_i first hfirst
    obtain ⟨job, hjob, rfl⟩ := List.mem_map.mp (List.min?_eq_some_iff.mp hfirst).1
    obtain ⟨hmem, heligible⟩ := List.mem_filter.mp hjob
    have hmin : min (job.dueAt - now) maxWait = wait := hwait
    exact ⟨job, hmem, allEligible_serves_iff.mpr heligible, by omega⟩
  · exact absurd hwait h.ne'

end

/-- The timer sleeps up to the first job that a service call would run, or as long as it may. -/
theorem nextDelayedTaskWait_exact (pending : List (DelayedTaskJob τ)) (now : Instant) (maxWait : Nat)
    (allowBestEffort : Bool) :
    nextDelayedTaskWaitWithPolicy pending now maxWait allowBestEffort ≤ maxWait ∧
    (∀ t, now ≤ t → t < now + nextDelayedTaskWaitWithPolicy pending now maxWait allowBestEffort →
      (takeDueJobsLockedWithPolicy pending t .allEligible allowBestEffort).2 = []) ∧
    (nextDelayedTaskWaitWithPolicy pending now maxWait allowBestEffort < maxWait →
      (takeDueJobsLockedWithPolicy pending (now + nextDelayedTaskWaitWithPolicy pending now maxWait allowBestEffort)
        .allEligible allowBestEffort).2 ≠ []) := by
  refine ⟨nextDelayedTaskWait_le_maxWait, fun t hnow ht => ?_, fun hlt => ?_⟩
  · refine List.eq_nil_iff_forall_not_mem.mpr fun job hjob => ?_
    obtain ⟨hmem, hdue, hserves⟩ := mem_takeDueJobs_iff.mp hjob
    have hle : nextDelayedTaskWaitWithPolicy pending now maxWait allowBestEffort ≤ job.dueAt - now :=
      nextDelayedTaskWait_le_dueAt hmem hserves
    have hwaited : nextDelayedTaskWaitWithPolicy pending now maxWait allowBestEffort ≤ t - now :=
      hle.trans (Nat.sub_le_sub_right hdue now)
    exact absurd ht (Nat.not_lt.mpr (Nat.add_le_of_le_sub' hnow hwaited))
  · obtain ⟨job, hmem, hserves, hwait⟩ := exists_of_nextDelayedTaskWait_lt hlt
    refine List.ne_nil_of_mem (mem_takeDueJobs_iff.mpr ⟨hmem, ?_, hserves⟩)
    rw [hwait]
    exact Nat.sub_le_iff_le_add'.mp (Nat.le_refl _)

theorem oldestBestEffortIndex_eq_some {idx : Nat} (h : oldestBestEffortIndex pending = some idx) :
    ∃ _ : idx < pending.length, pending[idx].priority = .bestEffort := by
  obtain ⟨⟨job, i⟩, harg, rfl⟩ := Option.map_eq_some_iff.mp h
  have hmem := List.mem_filter.mp (List.argmin_mem harg)
  obtain ⟨hi, hjob⟩ := List.getElem?_eq_some_iff.mp (List.mk_mem_zipIdx_iff_getElem?.mp hmem.1)
  exact ⟨hi, by simpa [hjob] using hmem.2⟩

theorem oldestBestEffortIndex_eq_none (h : oldestBestEffortIndex pending = none) (hjob : job ∈ pending) :
    job.priority = .critical := by
  have hempty := List.argmin_eq_none.mp (Option.map_eq_none_iff.mp h)
  obtain ⟨i, hi, rfl⟩ := List.getElem_of_mem hjob
  have hnot := List.filter_eq_nil_iff.mp hempty (pending[i], i) (List.mk_mem_zipIdx_iff_getElem?.mpr (by simp))
  cases hp : pending[i].priority with
  | critical => rfl
  | bestEffort => simp [hp] at hnot

theorem coalesced_eq_some (h : coalesced pending coalesceKey = some job) :
    coalesceKey.isSome ∧ job.coalesceKey = coalesceKey := by
  obtain ⟨key, rfl, hfind⟩ := Option.bind_eq_some_iff.mp h
  exact ⟨rfl, by simpa using List.find?_some hfind⟩

theorem coalesced_eq_none (h : coalesced pending coalesceKey = none) {key : String} (hkey : coalesceKey = some key) :
    key ∉ pending.filterMap (·.coalesceKey) := by
  subst hkey
  intro hmem
  obtain ⟨job, hjob, heq⟩ := List.mem_filterMap.mp hmem
  have hnone := List.find?_eq_none.mp (show pending.find? (·.coalesceKey = some key) = none from h) job hjob
  simp [heq] at hnone

/-- The ways in which a call can end that finds the queue no longer than it may be. -/
inductive Schedules (limits : DelayedTaskLimits) (pending : List (DelayedTaskJob τ))
    (priority : DelayedTaskPriority) (coalesceKey : Option String) (task : τ) :
    List (DelayedTaskJob τ) → Except τ Unit → Prop
  | replaced (front back : List (DelayedTaskJob τ)) (old : DelayedTaskJob τ) (dueAt : Instant)
      (hpending : pending = front ++ old :: back) (hfound : coalesced pending coalesceKey = some old) :
      Schedules limits pending priority coalesceKey task
        (front ++ { old with dueAt, priority, task } :: back) (.ok ())
  | pushed (dueAt now : Instant) (hnew : coalesced pending coalesceKey = none)
      (hroom : pending.length < limits.totalMax)
      (hbest : priority = .bestEffort → bestEffortCount pending < limits.bestEffortMax) :
      Schedules limits pending priority coalesceKey task
        (pending ++ [⟨dueAt, now, priority, coalesceKey, task⟩]) (.ok ())
  | evicted (victim : DelayedTaskJob τ) (rest : List (DelayedTaskJob τ)) (dueAt now : Instant)
      (hnew : coalesced pending coalesceKey = none) (hperm : (victim :: rest).Perm pending)
      (hvictim : victim.priority = .bestEffort) (hcritical : priority = .critical)
      (hfull : pending.length = limits.totalMax) :
      Schedules limits pending priority coalesceKey task
        (rest ++ [⟨dueAt, now, priority, coalesceKey, task⟩]) (.ok ())
  | refused (hnew : coalesced pending coalesceKey = none)
      (hcritical : priority = .critical → ∀ job ∈ pending, job.priority = .critical) :
      Schedules limits pending priority coalesceKey task pending (.error task)

theorem eq_append_of_find? {p : DelayedTaskJob τ → Bool} {f : DelayedTaskJob τ → DelayedTaskJob τ}
    {l : List (DelayedTaskJob τ)} {a : DelayedTaskJob τ} (h : l.find? p = some a) :
    ∃ front back, l = front ++ a :: back ∧ modifyFirst p f l = front ++ f a :: back := by
  induction l with
  | nil => cases h
  | cons b l ih =>
    rcases hb : p b with _ | _
    · rw [List.find?_cons, hb] at h
      obtain ⟨front, back, rfl, hmodify⟩ := ih h
      exact ⟨b :: front, back, rfl, by simp [modifyFirst, hb, hmodify]⟩
    · rw [List.find?_cons, hb] at h
      cases h
      exact ⟨[], l, rfl, by simp [modifyFirst, hb]⟩

theorem schedules_scheduleDelayedTask {limits : DelayedTaskLimits}
    (hlength : pending.length ≤ limits.totalMax) (now dueAt : Instant) (priority : DelayedTaskPriority)
    (coalesceKey : Option String) (maxDeferFromFirst : Option Nat) (task : τ) :
    Schedules limits pending priority coalesceKey task
      (scheduleDelayedTask limits pending now dueAt priority coalesceKey maxDeferFromFirst task).pending
      (scheduleDelayedTask limits pending now dueAt priority coalesceKey maxDeferFromFirst task).result := by
  unfold scheduleDelayedTask
  cases hnew : coalesced pending coalesceKey with
  | some existing =>
    obtain ⟨key, rfl, hfind⟩ := Option.bind_eq_some_iff.mp hnew
    obtain ⟨front, back, hpending, hmodify⟩ := eq_append_of_find? (f := fun job => { job with
      dueAt := boundedDueAt limits dueAt maxDeferFromFirst existing.firstScheduledAt, priority, task }) hfind
    dsimp only
    rw [hmodify]
    exact .replaced front back existing _ hpending hnew
  | none =>
    dsimp only
    cases priority with
    | bestEffort =>
      dsimp only
      split
      · rename_i hroom
        exact .pushed dueAt now hnew hroom.2 fun _ => hroom.1
      · exact .refused hnew nofun
    | critical =>
      dsimp only
      by_cases hfull : limits.totalMax ≤ pending.length
      · rw [if_pos hfull]
        cases holdest : oldestBestEffortIndex pending with
        | some idx =>
          obtain ⟨hidx, hbest⟩ := oldestBestEffortIndex_eq_some holdest
          have hshort : (swapRemove pending idx).length < limits.totalMax := by
            rw [length_swapRemove]
            omega
          dsimp only
          rw [if_pos hshort]
          exact .evicted pending[idx] _ dueAt now hnew (perm_swapRemove hidx).1 hbest rfl (by omega)
        | none =>
          dsimp only
          rw [if_neg (by omega)]
          exact .refused hnew fun _ _ => oldestBestEffortIndex_eq_none holdest
      · rw [if_neg hfull, if_pos (by omega)]
        exact .pushed dueAt now hnew (by omega) nofun

end
end Beetle.Runtime
