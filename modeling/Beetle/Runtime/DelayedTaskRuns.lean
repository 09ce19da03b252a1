import Beetle.Lib.Run
import Beetle.Runtime.DelayedTask

/-! When no run of scheduling and service loses a job, runs one twice or goes past
the bounds of the queue. -/
namespace Beetle.Runtime
open Beetle.Lib

/-- The calls on the queue, each with what the clock shows. -/
inductive DelayedTaskAction where
  | schedule (now dueAt : Instant) (priority : DelayedTaskPriority) (coalesceKey : Option String)
    (maxDeferFromFirst : Option Nat)
  | service (now : Instant) (scope : DelayedTaskServiceScope) (allowBestEffort : Bool)

/-- A job that left the queue before it was run, with what is needed to tell why:
the call that it left at, and how long the queue was. -/
structure LostJob where
  job : DelayedTaskJob Nat
  priority : DelayedTaskPriority
  coalesceKey : Option String
  pendingLen : Nat

/-- The queue with its history. The tasks are numbered in the order of the calls
that bring them. -/
structure DelayedTaskHistory where
  pending : List (DelayedTaskJob Nat)
  calls : Nat
  accepted : List Nat
  executed : List Nat
  lost : List LostJob

def DelayedTaskHistory.new : DelayedTaskHistory := ⟨[], 0, [], [], []⟩

def tasks (jobs : List (DelayedTaskJob Nat)) : List Nat := jobs.map (·.task)

def DelayedTaskHistory.step (limits : DelayedTaskLimits) (w : DelayedTaskHistory) :
    DelayedTaskAction → Option DelayedTaskHistory
  | .schedule now dueAt priority coalesceKey maxDeferFromFirst =>
    let out := scheduleDelayedTask limits w.pending now dueAt priority coalesceKey maxDeferFromFirst w.calls
    let gone := w.pending.filter fun job => job.task ∉ tasks out.pending
    some
      { w with
        pending := out.pending
        calls := w.calls + 1
        accepted := if out.result.isOk then w.accepted ++ [w.calls] else w.accepted
        lost := w.lost ++ gone.map fun job => ⟨job, priority, coalesceKey, w.pending.length⟩ }
  | .service now scope allowBestEffort =>
    let (pending, due) := takeDueJobsLockedWithPolicy w.pending now scope allowBestEffort
    some { w with pending, executed := w.executed ++ executeJobs due }

/-- Replaced by a later job with its key, or a best-effort job that made room for
a critical one in a full queue. -/
def LostJob.Excused (limits : DelayedTaskLimits) (lost : LostJob) : Prop :=
  (lost.coalesceKey.isSome ∧ lost.job.coalesceKey = lost.coalesceKey) ∨
    (lost.priority = .critical ∧ lost.job.priority = .bestEffort ∧ lost.pendingLen = limits.totalMax)

/-- No key is there twice. -/
def KeysDistinct (pending : List (DelayedTaskJob Nat)) : Prop := (pending.filterMap (·.coalesceKey)).Nodup

/-- Each accepted job is pending, executed or lost, just one of these and just once. -/
structure Accounted (limits : DelayedTaskLimits) (w : DelayedTaskHistory) : Prop where
  perm : w.accepted.Perm (tasks w.pending ++ w.executed ++ tasks (w.lost.map (·.job)))
  once : w.accepted.Nodup
  known : ∀ task ∈ w.accepted, task < w.calls
  excused : ∀ lost ∈ w.lost, lost.Excused limits

/-- What the queue is to guarantee in every state. -/
structure QueueSafe (limits : DelayedTaskLimits) (w : DelayedTaskHistory) : Prop where
  bestEffort : bestEffortCount w.pending ≤ limits.bestEffortMax
  total : w.pending.length ≤ limits.totalMax
  keys : KeysDistinct w.pending
  accounted : Accounted limits w
  refusal : ∀ now dueAt coalesceKey maxDeferFromFirst, (scheduleDelayedTask limits w.pending now dueAt .critical
    coalesceKey maxDeferFromFirst w.calls).result.isOk = false → ∀ job ∈ w.pending, job.priority = .critical
  served : ∀ now scope allowBestEffort job, job ∈ w.pending → job.dueAt ≤ now →
    scope.Serves allowBestEffort job →
    job.task ∈ executeJobs (takeDueJobsLockedWithPolicy w.pending now scope allowBestEffort).2

/-- No call turns a pending critical job into one best-effort job too many. -/
def NoDemotion (limits : DelayedTaskLimits) (w : DelayedTaskHistory) : DelayedTaskAction → Prop
  | .schedule _ _ priority coalesceKey _ =>
    ¬ (priority = .bestEffort ∧ limits.bestEffortMax ≤ bestEffortCount w.pending ∧
      ∃ job, coalesced w.pending coalesceKey = some job ∧ job.priority = .critical)
  | .service _ _ _ => True

@[simp] theorem tasks_append (a b : List (DelayedTaskJob Nat)) : tasks (a ++ b) = tasks a ++ tasks b :=
  List.map_append

@[simp] theorem tasks_cons (job : DelayedTaskJob Nat) (jobs : List (DelayedTaskJob Nat)) :
    tasks (job :: jobs) = job.task :: tasks jobs := rfl

@[simp] theorem tasks_nil : tasks [] = [] := rfl

section
variable {limits : DelayedTaskLimits} {w : DelayedTaskHistory} {t : DelayedTaskHistory} {a : DelayedTaskAction}

/-- The jobs whose tasks are gone are those that were not kept. -/
theorem perm_gone {pending pending' lost kept : List (DelayedTaskJob Nat)} {new : List Nat}
    (hnodup : (tasks pending).Nodup) (hfresh : ∀ task ∈ new, task ∉ tasks pending)
    (hold : (lost ++ kept).Perm pending) (hnew : (tasks pending').Perm (tasks kept ++ new)) :
    (pending.filter fun job => job.task ∉ tasks pending').Perm lost := by
  have hparts : (tasks lost ++ tasks kept).Nodup := by
    rw [← tasks_append]
    exact (hold.map _).nodup_iff.mpr hnodup
  have hdisjoint := List.disjoint_of_nodup_append hparts
  have hlost : lost.filter (fun job => job.task ∉ tasks pending') = lost := by
    refine List.filter_eq_self.mpr fun job hjob => ?_
    have htask : job.task ∈ tasks lost := List.mem_map_of_mem hjob
    have hpending : job.task ∈ tasks pending := (hold.map (·.task)).subset (by simp [List.mem_map_of_mem hjob])
    simp only [decide_eq_true_eq]
    rw [hnew.mem_iff, List.mem_append, not_or]
    exact ⟨hdisjoint htask, fun h => hfresh _ h hpending⟩
  have hkept : kept.filter (fun job => job.task ∉ tasks pending') = [] := by
    refine List.filter_eq_nil_iff.mpr fun job hjob => ?_
    have htask : job.task ∈ tasks pending' := hnew.mem_iff.mpr (by simp [tasks, List.mem_map_of_mem hjob])
    simp [htask]
  have hfilter := (hold.filter fun job => job.task ∉ tasks pending').symm
  rwa [List.filter_append, hlost, hkept, List.append_nil] at hfilter

section
variable (h : Accounted limits w)
include h

theorem Accounted.nodup_pending : (tasks w.pending).Nodup := by
  have hall := h.perm.nodup_iff.mp h.once
  rw [List.append_assoc] at hall
  exact (List.nodup_append.mp hall).1

theorem Accounted.pending_lt {task : Nat} (ht : task ∈ tasks w.pending) : task < w.calls :=
  h.known task (h.perm.mem_iff.mpr (by simp [ht]))

/-- A call that takes up its task, or not, keeps the account, if it had an excuse
for what it dropped. -/
theorem Accounted.schedule (ok : Bool) (lost kept : List (DelayedTaskJob Nat))
    {pending' : List (DelayedTaskJob Nat)} {priority : DelayedTaskPriority} {coalesceKey : Option String}
    (hold : (lost ++ kept).Perm w.pending) (hnew : (tasks pending').Perm (tasks kept ++ if ok then [w.calls] else []))
    (hexcuse : ∀ job ∈ lost, LostJob.Excused limits ⟨job, priority, coalesceKey, w.pending.length⟩) :
    Accounted limits
      { w with
        pending := pending'
        calls := w.calls + 1
        accepted := if ok then w.accepted ++ [w.calls] else w.accepted
        lost := w.lost ++ (w.pending.filter fun job => job.task ∉ tasks pending').map fun job =>
          ⟨job, priority, coalesceKey, w.pending.length⟩ } := by
  have hcalls : w.calls ∉ w.accepted := fun hmem => absurd (h.known _ hmem) (lt_irrefl _)
  have hfresh : ∀ task ∈ (if ok then [w.calls] else []), task ∉ tasks w.pending := by
    intro task ht hmem
    have hlt := h.pending_lt hmem
    cases ok with
    | false => simp at ht
    | true =>
      obtain rfl : task = w.calls := by simpa using ht
      exact lt_irrefl _ hlt
  have hgone := perm_gone h.nodup_pending hfresh hold hnew
  refine ⟨?_, ?_, fun task ht => ?_, fun l hl => ?_⟩
  · have htasks : ((w.pending.filter fun job => job.task ∉ tasks pending').map fun job =>
        (⟨job, priority, coalesceKey, w.pending.length⟩ : LostJob).job).Perm lost := by simpa using hgone
    refine List.perm_iff_count.mpr fun task => ?_
    have hpermCount := h.perm.count_eq task
    have holdCount := (hold.map (·.task)).count_eq task
    have hnewCount := hnew.count_eq task
    have hlostCount := (htasks.map (·.task)).count_eq task
    simp only [tasks, List.map_append, List.map_map, List.count_append] at hpermCount holdCount hnewCount hlostCount ⊢
    cases ok <;> simp_all [Function.comp_def] <;> omega
  · cases ok with
    | false => exact h.once
    | true => exact List.nodup_append.mpr ⟨h.once, by simp, by
        rintro a ha b hb rfl
        simp only [List.mem_singleton] at hb
        exact hcalls (hb ▸ ha)⟩
  · have hor : task ∈ w.accepted ∨ task = w.calls := by
      cases ok with
      | false => exact .inl ht
      | true => simpa using ht
    rcases hor with hmem | rfl
    · exact (h.known task hmem).trans (Nat.lt_succ_self _)
    · exact Nat.lt_succ_self _
  · rcases List.mem_append.mp hl with hl | hl
    · exact h.excused l hl
    · obtain ⟨job, hjob, rfl⟩ := List.mem_map.mp hl
      exact hexcuse job (hgone.subset hjob)

theorem Accounted.service (now : Instant) (scope : DelayedTaskServiceScope) (allowBestEffort : Bool) :
    Accounted limits
      { w with
        pending := (takeDueJobsLockedWithPolicy w.pending now scope allowBestEffort).1
        executed := w.executed ++ executeJobs (takeDueJobsLockedWithPolicy w.pending now scope allowBestEffort).2 } := by
  refine ⟨?_, h.once, h.known, h.excused⟩
  have htaken := perm_takeDueJobsLockedWithPolicy w.pending now scope allowBestEffort
  generalize takeDueJobsLockedWithPolicy w.pending now scope allowBestEffort = taken at htaken
  obtain ⟨pending, due⟩ := taken
  refine List.perm_iff_count.mpr fun task => ?_
  have hpermCount := h.perm.count_eq task
  have htakenCount := (htaken.map (·.task)).count_eq task
  have hrunCount := (perm_executeJobs due).count_eq task
  simp only [tasks, List.map_append, List.count_append] at hpermCount htakenCount ⊢
  omega

end

/-- What the queue keeps from call to call; the rest of the guarantee follows from it. -/
structure QueueInv (limits : DelayedTaskLimits) (w : DelayedTaskHistory) : Prop where
  bestEffort : bestEffortCount w.pending ≤ limits.bestEffortMax
  total : w.pending.length ≤ limits.totalMax
  keys : KeysDistinct w.pending
  accounted : Accounted limits w

theorem QueueInv.safe (h : QueueInv limits w) : QueueSafe limits w := by
  refine ⟨h.bestEffort, h.total, h.keys, h.accounted, fun now dueAt coalesceKey maxDefer hrefused => ?_,
    fun now scope allowBestEffort job hjob hdue hserves => ?_⟩
  · have hcases := schedules_scheduleDelayedTask h.total now dueAt .critical coalesceKey maxDefer w.calls
    generalize scheduleDelayedTask limits w.pending now dueAt .critical coalesceKey maxDefer w.calls = out
      at hcases hrefused
    obtain ⟨pending, result, notify⟩ := out
    cases hcases with
    | replaced => cases hrefused
    | pushed => cases hrefused
    | evicted => cases hrefused
    | refused _ hcritical => exact hcritical rfl
  · have htaken := perm_takeDueJobsLockedWithPolicy w.pending now scope allowBestEffort
    rcases List.mem_append.mp (htaken.mem_iff.mpr hjob) with hrun | hleft
    · exact (perm_executeJobs _).mem_iff.mpr (List.mem_map_of_mem hrun)
    · exact absurd ⟨hdue, hserves⟩ (not_due_of_mem_takeDueJobs hleft)

theorem bestEffortCount_perm {a b : List (DelayedTaskJob Nat)} (h : a.Perm b) :
    bestEffortCount a = bestEffortCount b := h.countP_eq _

theorem keysDistinct_concat {pending : List (DelayedTaskJob Nat)} {job : DelayedTaskJob Nat}
    (h : KeysDistinct pending)
    (hnew : ∀ key, job.coalesceKey = some key → key ∉ pending.filterMap (·.coalesceKey)) :
    KeysDistinct (pending ++ [job]) := by
  unfold KeysDistinct
  rw [List.filterMap_append]
  cases hkey : job.coalesceKey with
  | none =>
    have hone : [job].filterMap (·.coalesceKey) = [] := by simp [hkey]
    rw [hone, List.append_nil]
    exact h
  | some key =>
    have hfresh := hnew key hkey
    have hone : [job].filterMap (·.coalesceKey) = [key] := by simp [hkey]
    rw [hone]
    refine List.nodup_append.mpr ⟨h, List.nodup_singleton key, ?_⟩
    rintro a ha b hb rfl
    obtain rfl := List.mem_singleton.mp hb
    exact hfresh ha

theorem keysDistinct_of_perm_cons {victim : DelayedTaskJob Nat} {rest pending : List (DelayedTaskJob Nat)}
    (h : KeysDistinct pending) (hperm : (victim :: rest).Perm pending) : KeysDistinct rest := by
  have hall : ((victim :: rest).filterMap (·.coalesceKey)).Nodup := (hperm.filterMap _).nodup_iff.mpr h
  exact hall.sublist ((List.sublist_cons_self victim rest).filterMap _)

/-- How a scheduling call that replaces a job changes the number of best-effort jobs. -/
theorem bestEffortCount_replaced (front back : List (DelayedTaskJob Nat)) (old new : DelayedTaskJob Nat) :
    bestEffortCount (front ++ new :: back) + (if old.priority = .bestEffort then 1 else 0) =
      bestEffortCount (front ++ old :: back) + (if new.priority = .bestEffort then 1 else 0) := by
  simp only [bestEffortCount, List.countP_append, List.countP_cons, decide_eq_true_eq]
  omega

theorem QueueInv.step (h : QueueInv limits w) (hsafe : NoDemotion limits w a)
    (hstep : w.step limits a = some t) : QueueInv limits t := by
  cases a with
  | service now scope allowBestEffort =>
    have haccounted := h.accounted.service now scope allowBestEffort
    have hperm := perm_takeDueJobsLockedWithPolicy w.pending now scope allowBestEffort
    simp only [DelayedTaskHistory.step, Option.some.injEq] at hstep
    generalize takeDueJobsLockedWithPolicy w.pending now scope allowBestEffort = taken at hperm haccounted hstep
    obtain ⟨pending, due⟩ := taken
    subst hstep
    have hkeys : ((due ++ pending).filterMap (·.coalesceKey)).Nodup := (hperm.filterMap _).nodup_iff.mpr h.keys
    have hcount := bestEffortCount_perm hperm
    have hlength := hperm.length_eq
    have hbest := h.bestEffort
    have htotal := h.total
    simp only [bestEffortCount, List.countP_append, List.length_append] at hcount hlength hbest
    refine ⟨?_, ?_, ?_, haccounted⟩
    · simp only [bestEffortCount]
      omega
    · simp only
      omega
    · rw [List.filterMap_append] at hkeys
      exact (List.nodup_append.mp hkeys).2.1
  | schedule now dueAt priority coalesceKey maxDefer =>
    have hcases := schedules_scheduleDelayedTask h.total now dueAt priority coalesceKey maxDefer w.calls
    simp only [DelayedTaskHistory.step, Option.some.injEq] at hstep
    generalize scheduleDelayedTask limits w.pending now dueAt priority coalesceKey maxDefer w.calls = out
      at hcases hstep
    obtain ⟨pending, result, notify⟩ := out
    subst hstep
    dsimp only at hcases ⊢
    have hbest := h.bestEffort
    have htotal := h.total
    cases hcases with
    | replaced front back old due hpending hfound =>
      obtain ⟨hsome, hkey⟩ := coalesced_eq_some hfound
      have hcount := bestEffortCount_replaced front back old { old with dueAt := due, priority, task := w.calls }
      rw [← hpending] at hcount
      refine ⟨?_, ?_, ?_, ?_⟩
      · by_cases hnew : priority = .bestEffort
        · by_cases hold : old.priority = .bestEffort
          · simp only [hnew, hold, if_true] at hcount ⊢
            omega
          · have hroom : bestEffortCount w.pending < limits.bestEffortMax := by
              by_contra hfull
              refine hsafe ⟨hnew, by omega, old, hfound, ?_⟩
              cases hp : old.priority with
              | critical => rfl
              | bestEffort => exact absurd hp hold
            simp only [hnew, hold, if_true, if_false] at hcount ⊢
            omega
        · simp only [hnew, if_false] at hcount ⊢
          omega
      · simpa [hpending] using htotal
      · have hkeys := h.keys
        simpa [KeysDistinct, hpending, List.filterMap_append, List.filterMap_cons] using hkeys
      · refine h.accounted.schedule true [old] (front ++ back) ?_ ?_ ?_
        · rw [hpending, List.singleton_append]
          exact List.perm_middle.symm
        · simpa using (List.perm_middle (a := w.calls)).trans (List.perm_append_singleton _ _).symm
        · intro job hjob
          obtain rfl := List.mem_singleton.mp hjob
          exact .inl ⟨hsome, hkey⟩
    | pushed due at_ hnew hroom hfew =>
      refine ⟨?_, by simp; omega, keysDistinct_concat h.keys fun key hkey => coalesced_eq_none hnew hkey, ?_⟩
      · simp only [bestEffortCount, List.countP_append, List.countP_singleton] at hbest hfew ⊢
        by_cases hnewBest : priority = .bestEffort
        · have hfew := hfew hnewBest
          simp only [hnewBest, decide_true, if_true]
          omega
        · simp only [hnewBest, decide_false, Bool.false_eq_true, if_false]
          omega
      · exact h.accounted.schedule true [] w.pending (by simp) (by simp) (by simp)
    | evicted victim rest due at_ hnew hperm hvictim hcritical hfull =>
      have hlength := hperm.length_eq
      have hcount := bestEffortCount_perm hperm
      simp only [List.length_cons] at hlength
      simp only [bestEffortCount, List.countP_cons, hvictim, decide_true, if_true] at hcount
      refine ⟨?_, by simp; omega, ?_, ?_⟩
      · simp only [bestEffortCount, List.countP_append, List.countP_singleton, hcritical, reduceCtorEq,
          decide_false, Bool.false_eq_true, if_false] at hbest ⊢
        omega
      · refine keysDistinct_concat (keysDistinct_of_perm_cons h.keys hperm) fun key hkey hmem => ?_
        refine coalesced_eq_none hnew hkey ((hperm.filterMap _).subset ?_)
        exact ((List.sublist_cons_self victim rest).filterMap _).subset hmem
      · refine h.accounted.schedule true [victim] rest hperm (by simp) ?_
        intro job hjob
        obtain rfl := List.mem_singleton.mp hjob
        exact .inr ⟨hcritical, hvictim, hfull⟩
    | refused =>
      exact ⟨hbest, htotal, h.keys,
        h.accounted.schedule false [] w.pending (by simp) (by simp) (by simp)⟩

/-- A demotion too many is one best-effort job too many. -/
theorem QueueSafe.noDemotion (h : QueueSafe limits w)
    (hstep : w.step limits a = some t) (hdemotes : ¬ NoDemotion limits w a) : ¬ QueueSafe limits t := by
  cases a with
  | service now scope allowBestEffort => exact absurd trivial hdemotes
  | schedule now dueAt priority coalesceKey maxDefer =>
    obtain ⟨rfl, hfull, job, hfound, hcritical⟩ := not_not.mp hdemotes
    have hcases := schedules_scheduleDelayedTask h.total now dueAt .bestEffort coalesceKey maxDefer w.calls
    simp only [DelayedTaskHistory.step, Option.some.injEq] at hstep
    generalize scheduleDelayedTask limits w.pending now dueAt .bestEffort coalesceKey maxDefer w.calls = out
      at hcases hstep
    obtain ⟨pending, result, notify⟩ := out
    subst hstep
    intro ht
    have hbest := ht.bestEffort
    dsimp only at hcases hbest
    cases hcases with
    | replaced front back old due hpending hold =>
      obtain rfl : job = old := Option.some.inj (hfound.symm.trans hold)
      have hcount := bestEffortCount_replaced front back job
        { job with dueAt := due, priority := .bestEffort, task := w.calls }
      rw [← hpending] at hcount
      simp only [hcritical, reduceCtorEq, if_true, if_false] at hcount
      omega
    | pushed _ _ hnew => simp [hfound] at hnew
    | evicted _ _ _ _ hnew => simp [hfound] at hnew
    | refused hnew => simp [hfound] at hnew

end

theorem queueInv_new (limits : DelayedTaskLimits) : QueueInv limits .new :=
  ⟨Nat.zero_le _, Nat.zero_le _, List.nodup_nil, ⟨List.Perm.nil, List.nodup_nil, by simp [DelayedTaskHistory.new],
    by simp [DelayedTaskHistory.new]⟩⟩

/-- The guarantee holds throughout just those runs without a demotion too many. -/
theorem delayed_tasks_safe_iff (limits : DelayedTaskLimits) (actions : List DelayedTaskAction) :
    Always (DelayedTaskHistory.step limits) (QueueSafe limits) actions .new ↔
      Meets (DelayedTaskHistory.step limits) (NoDemotion limits) actions .new := by
  constructor
  · intro hsafe
    refine meets_of_always_self ?_ actions _ hsafe
    intro w a t hw hstep hdemotes
    exact hw.noDemotion hstep hdemotes
  · intro hmeets
    refine always_of_meets ?_ ?_ actions _ (queueInv_new limits) hmeets
    · intro w a t hw hkept hstep
      exact hw.step hkept hstep
    · intro w hw
      exact hw.safe

/-- A best-effort job takes the place of a critical one with its key although as
many best-effort jobs are pending as there may be. -/
theorem demotion_exceeds_best_effort_max :
    ¬ Always (DelayedTaskHistory.step delayedTaskLimitsHost) (QueueSafe delayedTaskLimitsHost)
      (List.replicate 64 (.schedule 0 1 .bestEffort none none) ++
        [.schedule 0 1 .critical (some "k") none, .schedule 0 1 .bestEffort (some "k") none]) .new := by
  intro h
  have hrun : (exec (DelayedTaskHistory.step delayedTaskLimitsHost)
      (List.replicate 64 (.schedule 0 1 .bestEffort none none) ++
        [.schedule 0 1 .critical (some "k") none, .schedule 0 1 .bestEffort (some "k") none]) .new).map
      (fun w => bestEffortCount w.pending) = some 65 := by
    decide +kernel
  obtain ⟨w, hw, hcount⟩ := Option.map_eq_some_iff.mp hrun
  have hbest := (h.last hw).bestEffort
  rw [hcount] at hbest
  exact absurd hbest (by decide)

end Beetle.Runtime
