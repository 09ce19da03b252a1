import Beetle.Lib.Run
import Beetle.Lib.Token
import Beetle.Runtime.WriteBack.Scheduler

/-! When the write-back plane can be left with queued jobs and nothing to wake it. -/
namespace Beetle.Runtime.WriteBack.Scheduler
open Beetle.Lib

/-- The worker, or the call that is about to spawn it. -/
@[simp] def Pc.IsWorker : Pc → Prop
  | .spawning => True
  | .polling _ => True
  | .taken _ _ => True
  | .leasing _ _ => True
  | .running _ _ => True
  | .deferring _ _ => True
  | _ => False

/-- The worker runs. -/
@[simp] def Pc.Live : Pc → Prop
  | .spawning => False
  | p => p.IsWorker

/-- The thread will see to the jobs in the queue. Between the first look for due
jobs and the spawn that holds only while a job is due. -/
@[simp] def State.WokenBy (s : State) : Pc → Prop
  | .scheduled => True
  | .servicing => True
  | .waiting _ => True
  | .refused _ => True
  | .retrying _ => True
  | .admitting => duePending s.jobs s.now = true
  | .serviceAdmitting => duePending s.jobs s.now = true
  | .ensuring => duePending s.jobs s.now = true
  | .ensureAdmitting => duePending s.jobs s.now = true
  | .starting => duePending s.jobs s.now = true
  | p => p.IsWorker

/-- No call is in progress; the worker may be. -/
def AtRest (s : State) : Prop := ∀ i, s.threads i = .idle ∨ (s.threads i).Live

/-- At rest, queued jobs have a live worker or a pending retry. -/
def WakeSource (s : State) : Prop :=
  AtRest s → s.jobs ≠ [] →
    s.workerStarted = true ∧ (∃ i, (s.threads i).Live) ∨
      s.retryScheduled = true ∧ ∃ dueAt, s.retryDueAt = some dueAt ∧ dueAt ∈ s.retryTasks

/-- Thread `i` may leave the jobs alone. -/
def LeftInCare (s : State) (i : Nat) : Prop :=
  s.jobs = [] ∨ s.retryScheduled = true ∨ ∃ j, j ≠ i ∧ s.WokenBy (s.threads j)

/-- A second refusal of admission, and a stop of the idle worker, come only where
the jobs are in the care of a retry or of another thread. -/
def CareKept (cfg : Config) (s : State) : Action → Prop
  | .admission i (some _) => s.threads i = .ensureAdmitting → LeftInCare s i
  | .poll i => match s.threads i with
    | .polling idleStarted =>
      (takeDueWriteBackJobs cfg s.jobs s.now).1 = [] → cfg.idleStopMs ≤ s.now - idleStarted → LeftInCare s i
    | _ => True
  | _ => True

/-- The timer has a task for the due time of the retry, or is about to get it. -/
def RetryArmed (s : State) : Prop :=
  s.retryScheduled = true →
    ∃ dueAt, s.retryDueAt = some dueAt ∧ (dueAt ∈ s.retryTasks ∨ ∃ i, s.threads i = .arming dueAt)

/-- Queued jobs have a retry or a thread that sees to them. -/
def Cared (s : State) : Prop :=
  s.jobs ≠ [] → s.retryScheduled = true ∨ ∃ i, s.WokenBy (s.threads i)

/-- `worker_started` stands for the one worker, and the jobs are seen to. -/
structure Tended (s : State) : Prop where
  worker : OneToken s.workerStarted 0 Pc.IsWorker s.threads
  retry : RetryArmed s
  cared : Cared s

theorem Pc.isWorker_of_live {p : Pc} (h : p.Live) : p.IsWorker := by
  cases p <;> simp at h ⊢

theorem State.wokenBy_of_isWorker {s : State} {p : Pc} (h : p.IsWorker) : s.WokenBy p := by
  cases p <;> simp at h ⊢

theorem tended_init : Tended .init where
  worker :=
    { flag_iff := by simp [State.init]
      queued_le := Nat.zero_le _
      exclusive := by simp
      unique := by simp [State.init] }
  retry := by simp [RetryArmed, State.init]
  cared h := absurd rfl h

theorem wakeSource_of_tended {s : State} (hs : Tended s) : WakeSource s := by
  intro hrest hjobs
  rcases hs.cared hjobs with hretry | ⟨i, hi⟩
  · obtain ⟨dueAt, hdue, hmem | ⟨j, hj⟩⟩ := hs.retry hretry
    · exact .inr ⟨hretry, dueAt, hdue, hmem⟩
    · rcases hrest j with hidle | hlive
      · simp [hj] at hidle
      · simp [hj] at hlive
  · rcases hrest i with hidle | hlive
    · simp [hidle] at hi
    · exact .inl ⟨hs.worker.flag_iff.mpr (.inr ⟨i, Pc.isWorker_of_live hlive⟩), i, hlive⟩

variable {jobs : List WriteBackJob}

theorem duePending_mono {now now' : Nat} (hle : now ≤ now')
    (h : duePending jobs now = true) : duePending jobs now' = true := by
  simp only [duePending, List.any_eq_true, decide_eq_true_eq] at h ⊢
  obtain ⟨job, hmem, hdue⟩ := h
  exact ⟨job, hmem, by omega⟩

theorem duePending_coalesce {label : String} {dueAt now : Nat}
    (h : duePending jobs now = true) : duePending (coalesce label dueAt jobs) now = true := by
  induction jobs with
  | nil => exact h
  | cons job jobs ih =>
    simp only [duePending, List.any_cons, Bool.or_eq_true, decide_eq_true_eq] at h ih ⊢
    unfold coalesce
    split
    · simp only [List.any_cons, Bool.or_eq_true, decide_eq_true_eq]
      exact h.imp (by omega) id
    · simp only [List.any_cons, Bool.or_eq_true, decide_eq_true_eq]
      exact h.imp id ih

theorem coalesce_eq_nil {label : String} {dueAt : Nat} : coalesce label dueAt jobs = [] ↔ jobs = [] := by
  cases jobs with
  | nil => rfl
  | cons job jobs =>
    unfold coalesce
    split <;> simp

theorem nextWriteBackWait_eq_none {now : Nat} : nextWriteBackWait jobs now = none ↔ jobs = [] := by
  simp [nextWriteBackWait]

theorem takeDueLoop_length (now turns index : Nat) (jobs due : List WriteBackJob) :
    due.length ≤ (takeDueLoop now turns index jobs due).1.length := by
  induction turns generalizing index jobs due with
  | zero => exact Nat.le_refl _
  | succ turns ih =>
    unfold takeDueLoop
    split
    · split
      · exact Nat.le_refl _
      · rename_i job _
        split
        · have h := ih index (swapRemove jobs index) (due ++ [job])
          rw [List.length_append] at h
          exact Nat.le_trans (Nat.le_add_right _ _) h
        · exact ih (index + 1) jobs due
    · exact Nat.le_refl _

theorem takeDueLoop_jobs {now turns index : Nat} {jobs due : List WriteBackJob}
    (h : (takeDueLoop now turns index jobs due).1 = []) : (takeDueLoop now turns index jobs due).2 = jobs := by
  induction turns generalizing index with
  | zero => rfl
  | succ turns ih =>
    unfold takeDueLoop at h ⊢
    split at h
    · rename_i hroom
      simp only [hroom, if_true]
      split at h
      · rename_i hnone
        simp
      · rename_i job hjob
        split at h
        · have hlen := takeDueLoop_length now turns index (swapRemove jobs index) (due ++ [job])
          rw [h] at hlen
          simp at hlen
        · rename_i hlate
          simp only [hlate, if_false]
          exact ih h
    · rename_i hroom
      simp [hroom]

theorem takeDueWriteBackJobs_jobs {cfg : Config} {now : Nat}
    (h : (takeDueWriteBackJobs cfg jobs now).1 = []) : (takeDueWriteBackJobs cfg jobs now).2 = jobs := by
  have hdue : (takeDueLoop now jobs.length 0 jobs []).1 = [] := by
    have hperm := List.perm_insertionSort (fun (a b : WriteBackJob) => a.dueAt ≤ b.dueAt)
      (takeDueLoop now jobs.length 0 jobs []).1
    simp only [takeDueWriteBackJobs] at h
    rw [h] at hperm
    exact hperm.symm.eq_nil
  simp only [takeDueWriteBackJobs, hdue, takeDueLoop_jobs hdue]
  rfl

section
variable {cfg : Config} {s t : State} {a : Action} {i : Nat} {s' : State} {q : Pc}

theorem worker_step (hs : OneToken s.workerStarted 0 Pc.IsWorker s.threads) (h : Fires cfg s a t) :
    OneToken t.workerStarted 0 Pc.IsWorker t.threads := by
  cases h with
  | tick => exact hs
  | due i p q hi _ hpq =>
    refine hs.keep ?_
    rcases hpq with ⟨rfl, rfl⟩ | ⟨rfl, rfl⟩ | ⟨rfl, rfl⟩ <;> simp [hi]
  | notDue i hi => exact hs.keep (by rcases hi with hi | hi <;> simp [hi])
  | admitted i p q hi hpq =>
    refine hs.keep ?_
    rcases hpq with ⟨rfl | rfl, rfl⟩ | ⟨rfl, rfl⟩ <;> simp [hi]
  | startWorker i _ hdown =>
    rw [hdown] at hs
    exact hs.create trivial
  | stop i _ hi => exact hs.release (i := i) (by simp [hi]) id
  | deferJobs i _ _ _ hi => exact hs.release (i := i) (by simp [hi]) id
  | worker i a p q hi hpq =>
    refine hs.keep ?_
    rcases hpq with ⟨_, _, _, rfl, rfl⟩ | ⟨_, _, rfl, rfl⟩ | ⟨_, _, _, rfl, rfl⟩ | ⟨_, _, rfl, rfl⟩ |
      ⟨_, _, rfl, rfl⟩ <;> simp [hi]
  | coalesce i _ _ hi | queueFull i _ _ hi | push i _ _ hi | serviceTasks i hi | wake i _ hi
  | staleWake i _ hi | noLongerDue i hi | nextWait i _ _ hi | noWait i _ hi | refuse i _ hi
  | refuseService i _ hi | refuseAgain i _ hi | noJobs i _ hi | pendingJobs i _ hi
  | retryScheduled i _ _ hi | scheduleRetry i _ _ hi | armRetry i _ hi | startNothing i hi
  | alreadyStarted i hi | spawnWorker i hi | take i _ hi | sleep i _ hi => exact hs.keep (by simp [hi])

theorem RetryArmed.moved (hs : RetryArmed s)
    (hsched : s'.retryScheduled = s.retryScheduled) (hdue : s'.retryDueAt = s.retryDueAt)
    (htasks : ∀ dueAt, s.retryDueAt = some dueAt → dueAt ∈ s.retryTasks → dueAt ∈ s'.retryTasks)
    (hthreads : s'.threads = s.threads)
    (hi : ∀ dueAt, s.threads i = .arming dueAt → dueAt ∈ s'.retryTasks) : RetryArmed (s'.at i q) := by
  intro hup
  obtain ⟨dueAt, hcur, hmem | ⟨j, hj⟩⟩ := hs (hsched ▸ hup)
  · exact ⟨dueAt, hdue.trans hcur, .inl (htasks dueAt hcur hmem)⟩
  · by_cases hji : j = i
    · subst hji
      exact ⟨dueAt, hdue.trans hcur, .inl (hi dueAt hj)⟩
    · exact ⟨dueAt, hdue.trans hcur, .inr ⟨j, by simpa [State.at, hji, hthreads] using hj⟩⟩

theorem retryArmed_step (hs : RetryArmed s) (h : Fires cfg s a t) : RetryArmed t := by
  cases h with
  | tick => exact hs
  | wake i dueAt _ _ => exact fun hup => nomatch hup
  | staleWake i dueAt hi hcur =>
    refine hs.moved rfl rfl (fun d hd hmem => ?_) rfl (by simp [hi])
    have hne : d ≠ dueAt := by
      rintro rfl
      exact hcur hd
    exact (List.mem_erase_of_ne hne).mpr hmem
  | scheduleRetry i _ dueAt _ => exact fun _ => ⟨dueAt, rfl, .inr ⟨i, by simp [State.at]⟩⟩
  | armRetry i dueAt hi =>
    refine hs.moved rfl rfl (fun d _ hmem => List.mem_cons_of_mem _ hmem) rfl (fun d hd => ?_)
    obtain rfl : dueAt = d := by simpa [hi] using hd
    exact List.mem_cons_self
  | due i p q hi _ hpq =>
    refine hs.moved rfl rfl (fun _ _ => id) rfl ?_
    rcases hpq with ⟨rfl, -⟩ | ⟨rfl, -⟩ | ⟨rfl, -⟩ <;> simp [hi]
  | notDue i hi => exact hs.moved rfl rfl (fun _ _ => id) rfl (by rcases hi with hi | hi <;> simp [hi])
  | admitted i p q hi hpq =>
    refine hs.moved rfl rfl (fun _ _ => id) rfl ?_
    rcases hpq with ⟨rfl | rfl, -⟩ | ⟨rfl, -⟩ <;> simp [hi]
  | worker i a p q hi hpq =>
    refine hs.moved rfl rfl (fun _ _ => id) rfl ?_
    rcases hpq with ⟨_, _, _, rfl, -⟩ | ⟨_, _, rfl, -⟩ | ⟨_, _, _, rfl, -⟩ | ⟨_, _, rfl, -⟩ |
      ⟨_, _, rfl, -⟩ <;> simp [hi]
  | coalesce i _ _ hi | queueFull i _ _ hi | push i _ _ hi | serviceTasks i hi | noLongerDue i hi
  | nextWait i _ _ hi | noWait i _ hi | refuse i _ hi | refuseService i _ hi | refuseAgain i _ hi
  | noJobs i _ hi | pendingJobs i _ hi | retryScheduled i _ _ hi | startNothing i hi
  | alreadyStarted i hi | startWorker i hi | spawnWorker i hi | take i _ hi | sleep i _ hi
  | stop i _ hi | deferJobs i _ _ _ hi => exact hs.moved rfl rfl (fun _ _ => id) rfl (by simp [hi])

theorem wokenBy_mono {s : State} (s' : State) (h : duePending s.jobs s.now = true → duePending s'.jobs s'.now = true)
    {p : Pc} (hp : s.WokenBy p) : s'.WokenBy p := by
  cases p <;> simp at hp ⊢ <;> exact h hp

/-- A thread that now sees to the jobs itself. -/
theorem cared_of_wokenBy (hq : s'.WokenBy q) : Cared (s'.at i q) :=
  fun _ => .inr ⟨i, by simpa [State.at] using wokenBy_mono (s'.at i q) id hq⟩

/-- A thread that leaves the jobs to others. -/
theorem cared_of_leftInCare (hs : LeftInCare s i)
    (hjobs : s'.jobs ≠ [] → s.jobs ≠ []) (hretry : s'.retryScheduled = s.retryScheduled)
    (hthreads : s'.threads = s.threads)
    (hdue : duePending s.jobs s.now = true → duePending s'.jobs s'.now = true) : Cared (s'.at i q) := by
  intro hsome
  rcases hs with hnone | hup | ⟨j, hji, hj⟩
  · exact absurd hnone (hjobs hsome)
  · exact .inl (hretry.trans hup)
  · refine .inr ⟨j, ?_⟩
    have hj' : (s'.at i q).threads j = s.threads j := by simp [State.at, hji, hthreads]
    rw [hj']
    exact wokenBy_mono (s'.at i q) hdue hj

theorem leftInCare_of_not_wokenBy (hs : Cared s) (hi : ¬ s.WokenBy (s.threads i)) : LeftInCare s i := by
  by_cases hnone : s.jobs = []
  · exact .inl hnone
  rcases hs hnone with hup | ⟨j, hj⟩
  · exact .inr (.inl hup)
  · refine .inr (.inr ⟨j, ?_, hj⟩)
    rintro rfl
    exact hi hj

theorem cared_step (hworker : OneToken s.workerStarted 0 Pc.IsWorker s.threads) (hs : Cared s)
    (hc : CareKept cfg s a) (h : Fires cfg s a t) : Cared t := by
  have idle {s' : State} {i : Nat} {q : Pc} (hi : ¬ s.WokenBy (s.threads i)) (hjobs : s'.jobs = s.jobs)
      (hretry : s'.retryScheduled = s.retryScheduled) (hthreads : s'.threads = s.threads)
      (hnow : s'.now = s.now) : Cared (s'.at i q) :=
    cared_of_leftInCare (leftInCare_of_not_wokenBy hs hi) (by simp [hjobs]) hretry hthreads
      (by simp [hjobs, hnow])
  cases h with
  | tick ms =>
    intro hsome
    have hlater := @duePending_mono s.jobs _ _ (Nat.le_add_right s.now ms)
    exact (hs hsome).imp id fun ⟨i, hi⟩ => ⟨i, wokenBy_mono { s with now := s.now + ms } hlater hi⟩
  | coalesce i label dueAt hi =>
    exact cared_of_leftInCare (leftInCare_of_not_wokenBy hs (by simp [hi]))
      (fun h => mt coalesce_eq_nil.mpr h) rfl rfl duePending_coalesce
  | queueFull i _ _ hi => exact idle (by simp [hi]) rfl rfl rfl rfl
  | staleWake i _ hi _ => exact idle (by simp [hi]) rfl rfl rfl rfl
  | armRetry i _ hi => exact idle (by simp [hi]) rfl rfl rfl rfl
  | due i p q hi hdue hpq =>
    apply cared_of_wokenBy
    rcases hpq with ⟨rfl, rfl⟩ | ⟨rfl, rfl⟩ | ⟨rfl, rfl⟩ <;> simpa using hdue
  | noLongerDue i hi hdue => exact idle (by simp [hi, hdue]) rfl rfl rfl rfl
  | noWait i now hi hnone => exact fun hsome => absurd (nextWriteBackWait_eq_none.mp hnone) hsome
  | admitted i p q hi hpq =>
    -- admitted, but the jobs that were due may be gone by now
    by_cases hdue : duePending s.jobs s.now = true
    · apply cared_of_wokenBy
      rcases hpq with ⟨-, rfl⟩ | ⟨-, rfl⟩ <;> simpa using hdue
    · refine idle ?_ rfl rfl rfl rfl
      rcases hpq with ⟨rfl | rfl, -⟩ | ⟨rfl, -⟩ <;> simpa [hi] using hdue
  | refuseAgain i delay hi => exact cared_of_leftInCare (hc hi) id rfl rfl id
  | noJobs i _ _ hnone => exact fun hsome => absurd hnone hsome
  | retryScheduled i _ _ _ hcur _ => exact fun _ => .inl hcur
  | scheduleRetry i _ _ _ => exact fun _ => .inl rfl
  | startNothing i hi hnone =>
    rcases hnone with hnone | hdue
    · exact fun hsome => absurd hnone hsome
    · exact idle (by simp [hi, hdue]) rfl rfl rfl rfl
  | alreadyStarted i hi hup =>
    obtain ⟨j, hj⟩ := (hworker.flag_iff.mp hup).resolve_left (Nat.lt_irrefl 0)
    refine cared_of_leftInCare (.inr (.inr ⟨j, ?_, State.wokenBy_of_isWorker hj⟩)) id rfl rfl id
    rintro rfl
    simp [hi] at hj
  | stop i idleStarted hi hidle hnone =>
    have hjobs := takeDueWriteBackJobs_jobs hnone
    have hleft : LeftInCare s i := by
      simp only [CareKept, hi] at hc
      exact hc hnone hidle
    exact cared_of_leftInCare hleft (by simp [hjobs]) rfl rfl (by simp [hjobs])
  | worker i a p q hi hpq =>
    apply cared_of_wokenBy
    rcases hpq with ⟨_, _, _, -, rfl⟩ | ⟨_, _, -, rfl⟩ | ⟨_, _, _, -, rfl⟩ | ⟨_, _, -, rfl⟩ |
      ⟨_, _, -, rfl⟩ <;> trivial
  | push | serviceTasks | wake | notDue | nextWait | refuse | refuseService | pendingJobs
  | startWorker | spawnWorker | take | sleep | deferJobs => exact cared_of_wokenBy trivial

theorem tended_step (hs : Tended s) (hc : CareKept cfg s a) (h : Fires cfg s a t) : Tended t :=
  ⟨worker_step hs.worker h, retryArmed_step hs.retry h, cared_step hs.worker hs.cared hc h⟩

end

/-- In a run that never leaves the jobs without care, there is always a wake
source for them. -/
theorem wake_source_kept (cfg : Config) (as : List Action)
    (h : Meets (step cfg) (CareKept cfg) as .init) : Always (step cfg) WakeSource as .init := by
  apply always_of_meets (I := Tended) (fun _ _ _ hs hc ht => tended_step hs hc (fires_of_step ht))
    (fun _ => wakeSource_of_tended)
  · exact tended_init
  · exact h

/-- The second admission refuses what the first let through. -/
def refusedTwiceRun : List Action :=
  [.scheduleTask 0 "session_store" 0, .checkDue 0, .admission 0 none, .checkDue 0,
    .admission 0 (some 2000)]

theorem jobs_without_wake_source : ¬ Always (step .host) WakeSource refusedTwiceRun .init := by
  intro h
  have hlast := h.last rfl
  refine (hlast (fun i => .inl ?_) (by decide)).elim (fun hup => absurd hup.1 (by decide))
    fun hup => absurd hup.1 (by decide)
  simp only [State.at, State.init, Function.update_apply]
  split_ifs <;> rfl

theorem wake_source_kept_not_due :
    Always (step .host) WakeSource
      [.scheduleTask 0 "session_store" 25, .checkDue 0, .nextWait 0, .scheduleRetry 0, .armRetry 0] .init :=
  wake_source_kept _ _ fun _ _ => ⟨trivial, fun _ _ => ⟨trivial, fun _ _ => ⟨trivial,
    fun _ _ => ⟨trivial, fun _ _ => ⟨trivial, trivial⟩⟩⟩⟩⟩

end Beetle.Runtime.WriteBack.Scheduler
