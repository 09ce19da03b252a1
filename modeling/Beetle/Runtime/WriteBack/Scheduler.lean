import Mathlib.Data.List.Sort

/-! The write-back plane: the queue of delayed jobs, its lazily started worker
and its retry wake-ups, each lock-guarded block of a call one step. -/
namespace Beetle.Runtime.WriteBack.Scheduler

structure WriteBackJob where
  label : String
  dueAt : Nat

/-- Times are in milliseconds of one clock. -/
structure Config where
  queueMax : Nat
  idleStopMs : Nat
  drainYieldMs : Nat
  retryBackoffMs : Nat

def Config.esp : Config := ⟨30 + 8, 1500, 100, 2000⟩
def Config.host : Config := ⟨30 + 40, 1000, 100, 2000⟩

def drainBatchMax : Nat := 4

def isCoalescibleWriteBackLabel (label : String) : Bool :=
  label ∈ ["execution_state_write_back", "self_model_write_back", "self_authored_core_write_back",
    "relationship_constitution_write_back", "world_sense_write_back", "outer_voice_write_back",
    "autonomy_strategy_write_back", "inner_life_write_back", "self_continuity_write_back",
    "felt_significance_write_back", "temperament_continuity_write_back", "inner_conflict_write_back",
    "mental_privacy_write_back", "relationship_portfolio_write_back",
    "relationship_topology_write_back", "long_term_extraction_state_write_back",
    "active_work_write_back", "session_summary_write_back", "session_store",
    "session_gc_write_back", "due_reminder_sweep_write_back", "due_task_sweep_write_back",
    "self_runtime_idle_tick_write_back", "initiative_tick_write_back"]

/-- Where a thread stands. -/
inductive Pc where
  | idle
  /-- In `schedule_write_back_task`, the job in the queue. -/
  | scheduled
  /-- In `service_write_back_tasks`, called or woken. -/
  | servicing
  /-- No job was due at this time: about to look when the next one is. -/
  | waiting (now : Nat)
  | admitting
  | serviceAdmitting
  /-- Refused with this delay: about to look whether there is a job at all. -/
  | refused (delay : Nat)
  /-- In `schedule_write_back_retry`, before its lock and after it. -/
  | retrying (delay : Nat)
  | arming (dueAt : Nat)
  /-- In `ensure_write_back_worker_started_inner`: before the check for due
  jobs, before the second admission, before the lock, before the spawn. -/
  | ensuring
  | ensureAdmitting
  | starting
  | spawning
  /-- The worker at the head of its loop. -/
  | polling (idleStarted : Nat)
  | taken (due : List WriteBackJob) (idleStarted : Nat)
  | leasing (due : List WriteBackJob) (idleStarted : Nat)
  | running (due : List WriteBackJob) (idleStarted : Nat)
  | deferring (due : List WriteBackJob) (delay : Nat)

/-- `retryTasks` are the delayed tasks handed to the timer, `now` its clock. -/
structure State where
  jobs : List WriteBackJob
  workerStarted : Bool
  retryScheduled : Bool
  retryDueAt : Option Nat
  retryTasks : List Nat
  now : Nat
  threads : Nat → Pc

def State.init : State := ⟨[], false, false, none, [], 0, fun _ => .idle⟩

inductive Action where
  | tick (ms : Nat)
  | scheduleTask (i : Nat) (label : String) (dueAt : Nat)
  | serviceTasks (i : Nat)
  | fireRetry (i : Nat) (dueAt : Nat)
  | checkDue (i : Nat)
  | nextWait (i : Nat)
  | admission (i : Nat) (refused : Option Nat)
  | pendingJobs (i : Nat)
  | scheduleRetry (i : Nat)
  | armRetry (i : Nat)
  | startWorker (i : Nat)
  | spawnWorker (i : Nat)
  | poll (i : Nat)
  | workerAdmission (i : Nat) (refused : Option Nat)
  | acquireLease (i : Nat) (granted : Bool)
  | deferJobs (i : Nat)
  | runJobs (i : Nat)

@[grind =] def State.at (s : State) (i : Nat) (pc : Pc) : State :=
  { s with threads := Function.update s.threads i pc }

def duePending (jobs : List WriteBackJob) (now : Nat) : Bool :=
  jobs.any fun job => job.dueAt ≤ now

/-- `Vec::swap_remove`. -/
def swapRemove {α : Type} (l : List α) (index : Nat) : List α :=
  match l.getLast? with
  | none => []
  | some last => (l.set index last).dropLast

/-- The loop of `take_due_write_back_jobs`; each turn moves the index or takes a
job out, so as many turns as there are jobs are enough. -/
def takeDueLoop (now : Nat) : Nat → Nat → List WriteBackJob → List WriteBackJob →
    List WriteBackJob × List WriteBackJob
  | 0, _, jobs, due => (due, jobs)
  | turns + 1, index, jobs, due =>
    if due.length < drainBatchMax then
      match jobs[index]? with
      | none => (due, jobs)
      | some job =>
        if job.dueAt ≤ now then takeDueLoop now turns index (swapRemove jobs index) (due ++ [job])
        else takeDueLoop now turns (index + 1) jobs due
    else (due, jobs)

def takeDueWriteBackJobs (cfg : Config) (jobs : List WriteBackJob) (now : Nat) :
    List WriteBackJob × List WriteBackJob :=
  let (due, jobs) := takeDueLoop now jobs.length 0 jobs []
  let jobs :=
    if due.length ≥ drainBatchMax then
      jobs.map fun job => if job.dueAt ≤ now then { job with dueAt := now + cfg.drainYieldMs } else job
    else jobs
  (due.insertionSort fun (a b : WriteBackJob) => a.dueAt ≤ b.dueAt, jobs)

def nextWriteBackWait (jobs : List WriteBackJob) (now : Nat) : Option Nat :=
  (jobs.map fun job => job.dueAt - now).min?

/-- Lower the due time of the first job of this label. -/
def coalesce (label : String) (dueAt : Nat) : List WriteBackJob → List WriteBackJob
  | [] => []
  | job :: jobs =>
    if job.label = label then { job with dueAt := min dueAt job.dueAt } :: jobs
    else job :: coalesce label dueAt jobs

def step (cfg : Config) (s : State) : Action → Option State
  | .tick ms => some { s with now := s.now + ms }
  | .scheduleTask i label dueAt =>
    match s.threads i with
    | .idle =>
      if isCoalescibleWriteBackLabel label ∧ s.jobs.any (·.label = label) then
        some ({ s with jobs := coalesce label dueAt s.jobs }.at i .idle)
      else if s.jobs.length ≥ cfg.queueMax then some (s.at i .idle)
      else some ({ s with jobs := s.jobs ++ [WriteBackJob.mk label dueAt] }.at i .scheduled)
    | _ => none
  | .serviceTasks i =>
    match s.threads i with
    | .idle => some (s.at i .servicing)
    | _ => none
  | .fireRetry i dueAt =>
    match s.threads i with
    | .idle =>
      if dueAt ∈ s.retryTasks ∧ dueAt ≤ s.now then
        let s := { s with retryTasks := s.retryTasks.erase dueAt }
        if s.retryDueAt = some dueAt then
          some ({ s with retryScheduled := false, retryDueAt := none }.at i .servicing)
        else some (s.at i .idle)
      else none
    | _ => none
  | .checkDue i =>
    match s.threads i with
    | .scheduled => some (s.at i (if duePending s.jobs s.now then .admitting else .waiting s.now))
    | .servicing => some (s.at i (if duePending s.jobs s.now then .serviceAdmitting else .waiting s.now))
    | .ensuring => some (s.at i (if duePending s.jobs s.now then .ensureAdmitting else .idle))
    | _ => none
  | .nextWait i =>
    match s.threads i with
    | .waiting now =>
      match nextWriteBackWait s.jobs now with
      | some delay => some (s.at i (.retrying delay))
      | none => some (s.at i .idle)
    | _ => none
  | .admission i refused =>
    match s.threads i with
    | .admitting =>
      match refused with
      | some delay => some (s.at i (.retrying delay))
      | none => some (s.at i .ensuring)
    | .serviceAdmitting =>
      match refused with
      | some delay => some (s.at i (.refused delay))
      | none => some (s.at i .ensuring)
    | .ensureAdmitting =>
      match refused with
      | some _ => some (s.at i .idle)
      | none => some (s.at i .starting)
    | _ => none
  | .pendingJobs i =>
    match s.threads i with
    | .refused delay => if s.jobs = [] then some (s.at i .idle) else some (s.at i (.retrying delay))
    | _ => none
  | .scheduleRetry i =>
    match s.threads i with
    | .retrying delay =>
      let dueAt := s.now + delay
      if s.retryDueAt.any fun existing => s.retryScheduled ∧ existing ≤ dueAt then some (s.at i .idle)
      else some ({ s with retryScheduled := true, retryDueAt := some dueAt }.at i (.arming dueAt))
    | _ => none
  | .armRetry i =>
    match s.threads i with
    | .arming dueAt => some ({ s with retryTasks := dueAt :: s.retryTasks }.at i .idle)
    | _ => none
  | .startWorker i =>
    match s.threads i with
    | .starting =>
      if s.jobs = [] then some (s.at i .idle)
      else if duePending s.jobs s.now = false then some (s.at i .idle)
      else if s.workerStarted then some (s.at i .idle)
      else some ({ s with workerStarted := true }.at i .spawning)
    | _ => none
  | .spawnWorker i =>
    match s.threads i with
    -- the caller is done, the worker goes on in its place
    | .spawning => some (s.at i (.polling s.now))
    | _ => none
  | .poll i =>
    match s.threads i with
    | .polling idleStarted =>
      let (due, jobs) := takeDueWriteBackJobs cfg s.jobs s.now
      if due ≠ [] then some ({ s with jobs }.at i (.taken due s.now))
      else if s.now - idleStarted ≥ cfg.idleStopMs then
        some ({ s with jobs, workerStarted := false }.at i .idle)
      else some ({ s with jobs }.at i (.polling idleStarted))
    | _ => none
  | .workerAdmission i refused =>
    match s.threads i with
    | .taken due idleStarted =>
      match refused with
      | some delay => some (s.at i (.deferring due delay))
      | none => some (s.at i (.leasing due idleStarted))
    | _ => none
  | .acquireLease i granted =>
    match s.threads i with
    | .leasing due idleStarted =>
      if granted then some (s.at i (.running due idleStarted))
      else some (s.at i (.deferring due cfg.retryBackoffMs))
    | _ => none
  | .deferJobs i =>
    match s.threads i with
    | .deferring due delay =>
      let deferred := due.map fun job => { job with dueAt := s.now + delay }
      some ({ s with jobs := s.jobs ++ deferred, workerStarted := false }.at i (.retrying delay))
    | _ => none
  | .runJobs i =>
    match s.threads i with
    | .running _ idleStarted => some (s.at i (.polling idleStarted))
    | _ => none

/-- All that a step can be. -/
inductive Fires (cfg : Config) (s : State) : Action → State → Prop where
  | tick (ms : Nat) : Fires cfg s (.tick ms) { s with now := s.now + ms }
  | coalesce (i : Nat) (label : String) (dueAt : Nat) (hi : s.threads i = .idle) :
      Fires cfg s (.scheduleTask i label dueAt) ({ s with jobs := Scheduler.coalesce label dueAt s.jobs }.at i .idle)
  | queueFull (i : Nat) (label : String) (dueAt : Nat) (hi : s.threads i = .idle) :
      Fires cfg s (.scheduleTask i label dueAt) (s.at i .idle)
  | push (i : Nat) (label : String) (dueAt : Nat) (hi : s.threads i = .idle) :
      Fires cfg s (.scheduleTask i label dueAt)
        ({ s with jobs := s.jobs ++ [WriteBackJob.mk label dueAt] }.at i .scheduled)
  | serviceTasks (i : Nat) (hi : s.threads i = .idle) : Fires cfg s (.serviceTasks i) (s.at i .servicing)
  | wake (i dueAt : Nat) (hi : s.threads i = .idle) (hcur : s.retryDueAt = some dueAt) :
      Fires cfg s (.fireRetry i dueAt)
        ({ s with
            retryTasks := s.retryTasks.erase dueAt, retryScheduled := false, retryDueAt := none }.at i .servicing)
  | staleWake (i dueAt : Nat) (hi : s.threads i = .idle) (hcur : s.retryDueAt ≠ some dueAt) :
      Fires cfg s (.fireRetry i dueAt) ({ s with retryTasks := s.retryTasks.erase dueAt }.at i .idle)
  | due (i : Nat) (p q : Pc) (hi : s.threads i = p) (hdue : duePending s.jobs s.now = true)
      (hpq : p = .scheduled ∧ q = .admitting ∨ p = .servicing ∧ q = .serviceAdmitting ∨
        p = .ensuring ∧ q = .ensureAdmitting) : Fires cfg s (.checkDue i) (s.at i q)
  | notDue (i : Nat) (hi : s.threads i = .scheduled ∨ s.threads i = .servicing) :
      Fires cfg s (.checkDue i) (s.at i (.waiting s.now))
  | noLongerDue (i : Nat) (hi : s.threads i = .ensuring) (hdue : duePending s.jobs s.now = false) :
      Fires cfg s (.checkDue i) (s.at i .idle)
  | nextWait (i now delay : Nat) (hi : s.threads i = .waiting now) :
      Fires cfg s (.nextWait i) (s.at i (.retrying delay))
  | noWait (i now : Nat) (hi : s.threads i = .waiting now) (hnone : nextWriteBackWait s.jobs now = none) :
      Fires cfg s (.nextWait i) (s.at i .idle)
  | admitted (i : Nat) (p q : Pc) (hi : s.threads i = p)
      (hpq : (p = .admitting ∨ p = .serviceAdmitting) ∧ q = .ensuring ∨ p = .ensureAdmitting ∧ q = .starting) :
      Fires cfg s (.admission i none) (s.at i q)
  | refuse (i delay : Nat) (hi : s.threads i = .admitting) :
      Fires cfg s (.admission i (some delay)) (s.at i (.retrying delay))
  | refuseService (i delay : Nat) (hi : s.threads i = .serviceAdmitting) :
      Fires cfg s (.admission i (some delay)) (s.at i (.refused delay))
  | refuseAgain (i delay : Nat) (hi : s.threads i = .ensureAdmitting) :
      Fires cfg s (.admission i (some delay)) (s.at i .idle)
  | noJobs (i delay : Nat) (hi : s.threads i = .refused delay) (hnone : s.jobs = []) :
      Fires cfg s (.pendingJobs i) (s.at i .idle)
  | pendingJobs (i delay : Nat) (hi : s.threads i = .refused delay) :
      Fires cfg s (.pendingJobs i) (s.at i (.retrying delay))
  | retryScheduled (i delay existing : Nat) (hi : s.threads i = .retrying delay)
      (hcur : s.retryScheduled = true) (hdue : s.retryDueAt = some existing) :
      Fires cfg s (.scheduleRetry i) (s.at i .idle)
  | scheduleRetry (i delay dueAt : Nat) (hi : s.threads i = .retrying delay) :
      Fires cfg s (.scheduleRetry i)
        ({ s with retryScheduled := true, retryDueAt := some dueAt }.at i (.arming dueAt))
  | armRetry (i dueAt : Nat) (hi : s.threads i = .arming dueAt) :
      Fires cfg s (.armRetry i) ({ s with retryTasks := dueAt :: s.retryTasks }.at i .idle)
  | startNothing (i : Nat) (hi : s.threads i = .starting)
      (hnone : s.jobs = [] ∨ duePending s.jobs s.now = false) : Fires cfg s (.startWorker i) (s.at i .idle)
  | alreadyStarted (i : Nat) (hi : s.threads i = .starting) (hup : s.workerStarted = true) :
      Fires cfg s (.startWorker i) (s.at i .idle)
  | startWorker (i : Nat) (hi : s.threads i = .starting) (hdown : s.workerStarted = false) :
      Fires cfg s (.startWorker i) ({ s with workerStarted := true }.at i .spawning)
  | spawnWorker (i : Nat) (hi : s.threads i = .spawning) :
      Fires cfg s (.spawnWorker i) (s.at i (.polling s.now))
  | take (i idleStarted : Nat) (hi : s.threads i = .polling idleStarted) (due jobs : List WriteBackJob) :
      Fires cfg s (.poll i) ({ s with jobs }.at i (.taken due s.now))
  | sleep (i idleStarted : Nat) (hi : s.threads i = .polling idleStarted) (jobs : List WriteBackJob) :
      Fires cfg s (.poll i) ({ s with jobs }.at i (.polling idleStarted))
  | stop (i idleStarted : Nat) (hi : s.threads i = .polling idleStarted)
      (hidle : cfg.idleStopMs ≤ s.now - idleStarted) (hnone : (takeDueWriteBackJobs cfg s.jobs s.now).1 = []) :
      Fires cfg s (.poll i)
        ({ s with jobs := (takeDueWriteBackJobs cfg s.jobs s.now).2, workerStarted := false }.at i .idle)
  | worker (i : Nat) (a : Action) (p q : Pc) (hi : s.threads i = p)
      (hpq : (∃ due t delay, p = .taken due t ∧ q = .deferring due delay) ∨
        (∃ due t, p = .taken due t ∧ q = .leasing due t) ∨
        (∃ due t delay, p = .leasing due t ∧ q = .deferring due delay) ∨
        (∃ due t, p = .leasing due t ∧ q = .running due t) ∨ ∃ due t, p = .running due t ∧ q = .polling t) :
      Fires cfg s a (s.at i q)
  | deferJobs (i delay : Nat) (due jobs : List WriteBackJob) (hi : s.threads i = .deferring due delay) :
      Fires cfg s (.deferJobs i) ({ s with jobs, workerStarted := false }.at i (.retrying delay))

theorem fires_of_step {cfg : Config} {s t : State} {a : Action} (h : step cfg s a = some t) :
    Fires cfg s a t := by
  cases a with
  | tick ms =>
    cases h
    exact .tick ms
  | scheduleTask i label dueAt =>
    simp only [step] at h
    split at h
    · split at h
      · cases h
        exact .coalesce i label dueAt ‹_›
      · split at h
        · cases h
          exact .queueFull i label dueAt ‹_›
        · cases h
          exact .push i label dueAt ‹_›
    · cases h
  | serviceTasks i =>
    simp only [step] at h
    split at h
    · cases h
      exact .serviceTasks i ‹_›
    · cases h
  | fireRetry i dueAt =>
    simp only [step] at h
    split at h
    · split at h
      · split at h
        · cases h
          exact .wake i dueAt ‹_› ‹_›
        · cases h
          exact .staleWake i dueAt ‹_› ‹_›
      · cases h
    · cases h
  | checkDue i =>
    simp only [step] at h
    by_cases hdue : duePending s.jobs s.now = true
    · simp only [hdue, if_true] at h
      split at h
      · cases h
        exact .due i _ _ ‹_› hdue (.inl ⟨rfl, rfl⟩)
      · cases h
        exact .due i _ _ ‹_› hdue (.inr (.inl ⟨rfl, rfl⟩))
      · cases h
        exact .due i _ _ ‹_› hdue (.inr (.inr ⟨rfl, rfl⟩))
      · cases h
    · simp only [hdue] at h
      split at h
      · cases h
        exact .notDue i (.inl ‹_›)
      · cases h
        exact .notDue i (.inr ‹_›)
      · cases h
        exact .noLongerDue i ‹_› (Bool.eq_false_iff.mpr hdue)
      · cases h
  | nextWait i =>
    simp only [step] at h
    split at h
    · split at h
      · cases h
        exact .nextWait i _ _ ‹_›
      · cases h
        exact .noWait i _ ‹_› ‹_›
    · cases h
  | admission i refused =>
    simp only [step] at h
    cases refused with
    | none =>
      split at h
      · cases h
        exact .admitted i _ _ ‹_› (.inl ⟨.inl rfl, rfl⟩)
      · cases h
        exact .admitted i _ _ ‹_› (.inl ⟨.inr rfl, rfl⟩)
      · cases h
        exact .admitted i _ _ ‹_› (.inr ⟨rfl, rfl⟩)
      · cases h
    | some delay =>
      split at h
      · cases h
        exact .refuse i delay ‹_›
      · cases h
        exact .refuseService i delay ‹_›
      · cases h
        exact .refuseAgain i delay ‹_›
      · cases h
  | pendingJobs i =>
    simp only [step] at h
    split at h
    · split at h
      · cases h
        exact .noJobs i _ ‹_› ‹_›
      · cases h
        exact .pendingJobs i _ ‹_›
    · cases h
  | scheduleRetry i =>
    simp only [step] at h
    split at h
    · rename_i delay hi
      split at h
      · rename_i hcur
        cases h
        cases hdue : s.retryDueAt with
        | none => simp [hdue] at hcur
        | some existing =>
          have hboth : s.retryScheduled = true ∧ existing ≤ s.now + delay := by simpa [hdue] using hcur
          exact .retryScheduled i delay existing hi hboth.1 hdue
      · cases h
        exact .scheduleRetry i delay _ hi
    · cases h
  | armRetry i =>
    simp only [step] at h
    split at h
    · cases h
      exact .armRetry i _ ‹_›
    · cases h
  | startWorker i =>
    simp only [step] at h
    split at h
    · split at h
      · cases h
        exact .startNothing i ‹_› (.inl ‹_›)
      · split at h
        · cases h
          exact .startNothing i ‹_› (.inr ‹_›)
        · split at h
          · cases h
            exact .alreadyStarted i ‹_› ‹_›
          · cases h
            exact .startWorker i ‹_› (Bool.eq_false_iff.mpr ‹_›)
    · cases h
  | spawnWorker i =>
    simp only [step] at h
    split at h
    · cases h
      exact .spawnWorker i ‹_›
    · cases h
  | poll i =>
    simp only [step] at h
    split at h
    · split at h
      · cases h
        exact .take i _ ‹_› _ _
      · rename_i hnone
        split at h
        · cases h
          exact .stop i _ ‹_› ‹_› (not_not.mp hnone)
        · cases h
          exact .sleep i _ ‹_› _
    · cases h
  | workerAdmission i refused =>
    simp only [step] at h
    split at h
    · cases refused with
      | none =>
        cases h
        exact .worker i _ _ _ ‹_› (.inr (.inl ⟨_, _, rfl, rfl⟩))
      | some delay =>
        cases h
        exact .worker i _ _ _ ‹_› (.inl ⟨_, _, _, rfl, rfl⟩)
    · cases h
  | acquireLease i granted =>
    simp only [step] at h
    split at h
    · split at h
      · cases h
        exact .worker i _ _ _ ‹_› (.inr (.inr (.inr (.inl ⟨_, _, rfl, rfl⟩))))
      · cases h
        exact .worker i _ _ _ ‹_› (.inr (.inr (.inl ⟨_, _, _, rfl, rfl⟩)))
    · cases h
  | deferJobs i =>
    simp only [step] at h
    split at h
    · cases h
      exact .deferJobs i _ _ _ ‹_›
    · cases h
  | runJobs i =>
    simp only [step] at h
    split at h
    · cases h
      exact .worker i _ _ _ ‹_› (.inr (.inr (.inr (.inr ⟨_, _, rfl, rfl⟩))))
    · cases h

end Beetle.Runtime.WriteBack.Scheduler
