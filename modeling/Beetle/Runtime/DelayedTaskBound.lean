import Beetle.Runtime.DelayedTaskRuns

/-! How long a keyed job can be put off: the bound of its coalesced calls, from its first scheduling on. -/
namespace Beetle.Runtime
open Beetle.Lib

/-- `schedule_bounded_keyed_system_inbound_msg`. -/
def scheduleBoundedKeyed (now dueAt : Instant) (coalesceKey : String) (maxDeferFromFirst : Nat) : DelayedTaskAction :=
  .schedule now dueAt .bestEffort (some coalesceKey) (some maxDeferFromFirst)

/-- What its task does when the inbound queue is full: `called` is what the clock shows before the call. -/
def retryBoundedKeyed (called now : Instant) (retryDelay : Nat) (coalesceKey : String) (maxDeferFromFirst : Nat) :
    DelayedTaskAction :=
  scheduleBoundedKeyed now (called + retryDelay) coalesceKey maxDeferFromFirst

/-- The queue, and when the job with the watched key was scheduled first, while there is one. -/
structure KeyWatch where
  pending : List (DelayedTaskJob Unit)
  since : Option Instant

def KeyWatch.new : KeyWatch := ⟨[], none⟩

def Pending (key : String) (pending : List (DelayedTaskJob Unit)) : Prop := ∃ job ∈ pending, job.coalesceKey = some key

instance (key : String) (pending : List (DelayedTaskJob Unit)) : Decidable (Pending key pending) :=
  inferInstanceAs (Decidable (∃ job ∈ pending, job.coalesceKey = some key))

/-- The calls with the watched key are all made with the bound `maxDefer`, and no time is later than the clock can show. -/
def KeyWatch.step (limits : DelayedTaskLimits) (key : String) (maxDefer : Nat) (w : KeyWatch) :
    DelayedTaskAction → Option KeyWatch
  | .schedule now dueAt priority coalesceKey maxDeferFromFirst =>
    if dueAt ≤ limits.instantMax ∧ (coalesceKey = some key → maxDeferFromFirst = some maxDefer) then
      let pending := (scheduleDelayedTask limits w.pending now dueAt priority coalesceKey maxDeferFromFirst ()).pending
      some ⟨pending, if Pending key pending then w.since.or (some now) else none⟩
    else none
  | .service now scope allowBestEffort =>
    let pending := (takeDueJobsLockedWithPolicy w.pending now scope allowBestEffort).1
    some ⟨pending, if Pending key pending then w.since else none⟩

/-- The pending job is due within the bound from its first scheduling. -/
def KeepsDeadline (key : String) (maxDefer : Nat) (w : KeyWatch) : Prop :=
  ∀ job ∈ w.pending, job.coalesceKey = some key → ∃ first, w.since = some first ∧ job.dueAt ≤ first + maxDefer

/-- A new job of this priority is taken into the queue. -/
def HasRoom (limits : DelayedTaskLimits) (pending : List (DelayedTaskJob Unit)) : DelayedTaskPriority → Prop
  | .bestEffort => bestEffortCount pending < limits.bestEffortMax ∧ pending.length < limits.totalMax
  | .critical => pending.length < limits.totalMax ∨ ∃ job ∈ pending, job.priority = .bestEffort

/-- A call that finds no job of the key, and room for one, asks for a time within the bound. -/
def FitsDeadline (limits : DelayedTaskLimits) (key : String) (maxDefer : Nat) (w : KeyWatch) : DelayedTaskAction → Prop
  | .schedule now dueAt priority coalesceKey _ =>
    coalesceKey = some key → ¬ Pending key w.pending → HasRoom limits w.pending priority → dueAt ≤ now + maxDefer
  | .service _ _ _ => True

/-- What the queue knows of its jobs. -/
structure DeadlineInv (limits : DelayedTaskLimits) (key : String) (maxDefer : Nat) (w : KeyWatch) : Prop where
  length : w.pending.length ≤ limits.totalMax
  first : ∀ job ∈ w.pending, job.coalesceKey = some key → w.since = some job.firstScheduledAt
  bounded : ∀ job ∈ w.pending, job.coalesceKey = some key → job.dueAt ≤ job.firstScheduledAt + maxDefer
  idle : ¬ Pending key w.pending → w.since = none

section
variable {limits : DelayedTaskLimits} {key : String} {maxDefer : Nat} {w : KeyWatch}
  {pending : List (DelayedTaskJob Unit)} {now dueAt : Instant} {priority : DelayedTaskPriority}
  {coalesceKey : Option String} {maxDeferFromFirst : Option Nat} {a : DelayedTaskAction}

theorem DeadlineInv.keeps (h : DeadlineInv limits key maxDefer w) : KeepsDeadline key maxDefer w :=
  fun job hjob hkey => ⟨job.firstScheduledAt, h.first job hjob hkey, h.bounded job hjob hkey⟩

theorem coalesced_of_not_pending (h : ¬ Pending key pending) : coalesced pending (some key) = none := by
  cases hfound : coalesced pending (some key) with
  | none => rfl
  | some job =>
    obtain ⟨-, hkey⟩ := coalesced_eq_some hfound
    exact absurd ⟨job, List.mem_of_find?_eq_some hfound, hkey⟩ h

/-- A call that finds a job puts its own in the place of that one. -/
theorem pending_of_coalesced {existing : DelayedTaskJob Unit} (h : coalesced pending coalesceKey = some existing) :
    ∃ front back, pending = front ++ existing :: back ∧
      (scheduleDelayedTask limits pending now dueAt priority coalesceKey maxDeferFromFirst ()).pending =
        front ++ { existing with
          dueAt := boundedDueAt limits dueAt maxDeferFromFirst existing.firstScheduledAt, priority, task := () } :: back := by
  have hcoalesced := h
  obtain ⟨k, rfl, hfind⟩ := Option.bind_eq_some_iff.mp h
  obtain ⟨front, back, hpending, hmodify⟩ := eq_append_of_find? (f := fun job => { job with
    dueAt := boundedDueAt limits dueAt maxDeferFromFirst existing.firstScheduledAt, priority, task := () }) hfind
  refine ⟨front, back, hpending, ?_⟩
  simp only [scheduleDelayedTask, hcoalesced]
  exact hmodify

/-- One that finds none adds its job where there is room, and leaves the queue as it is where there is not. -/
theorem pending_of_new (hlength : pending.length ≤ limits.totalMax) (h : coalesced pending coalesceKey = none) :
    (HasRoom limits pending priority ∧ ∃ kept, kept ⊆ pending ∧ kept.length < limits.totalMax ∧
      (scheduleDelayedTask limits pending now dueAt priority coalesceKey maxDeferFromFirst ()).pending =
        kept ++ [⟨dueAt, now, priority, coalesceKey, ()⟩]) ∨
    ¬ HasRoom limits pending priority ∧
      (scheduleDelayedTask limits pending now dueAt priority coalesceKey maxDeferFromFirst ()).pending = pending := by
  simp only [scheduleDelayedTask, h]
  cases priority with
  | bestEffort =>
    dsimp only
    split
    · rename_i hroom
      exact .inl ⟨hroom, pending, List.Subset.refl _, hroom.2, rfl⟩
    · rename_i hroom
      exact .inr ⟨hroom, rfl⟩
  | critical =>
    dsimp only
    by_cases hfull : limits.totalMax ≤ pending.length
    · rw [if_pos hfull]
      cases holdest : oldestBestEffortIndex pending with
      | some idx =>
        obtain ⟨hidx, hbest⟩ := oldestBestEffortIndex_eq_some holdest
        have hperm := (perm_swapRemove hidx).1
        have hshort : (swapRemove pending idx).length < limits.totalMax := by
          rw [length_swapRemove]
          omega
        dsimp only
        rw [if_pos hshort]
        refine .inl ⟨.inr ⟨pending[idx], List.getElem_mem hidx, hbest⟩, swapRemove pending idx, ?_, hshort, rfl⟩
        exact fun job hjob => hperm.subset (List.mem_cons_of_mem _ hjob)
      | none =>
        dsimp only
        rw [if_neg (by omega)]
        refine .inr ⟨?_, rfl⟩
        rintro (hlt | ⟨job, hjob, hbest⟩)
        · omega
        · rw [oldestBestEffortIndex_eq_none holdest hjob] at hbest
          cases hbest
    · rw [if_neg hfull, if_pos (by omega)]
      exact .inl ⟨.inl (by omega), pending, List.Subset.refl _, by omega, rfl⟩

/-- The due time of a coalesced job is within the bound, whatever was asked for. -/
theorem boundedDueAt_le (hdue : dueAt ≤ limits.instantMax) (first : Instant) :
    boundedDueAt limits dueAt (some maxDefer) first ≤ first + maxDefer := by
  by_cases hfits : first + maxDefer ≤ limits.instantMax
  · have hdeadline : limits.checkedAdd first maxDefer = some (first + maxDefer) := if_pos hfits
    simp only [boundedDueAt, Option.bind_some, hdeadline]
    exact Nat.min_le_right _ _
  · have hnone : limits.checkedAdd first maxDefer = none := if_neg hfits
    simp only [boundedDueAt, Option.bind_some, hnone]
    exact hdue.trans (Nat.le_of_not_le hfits)

section
variable (h : DeadlineInv limits key maxDefer w)
include h

/-- Jobs that are still pending have been since the same time. -/
theorem DeadlineInv.shrink (hsubset : pending ⊆ w.pending) (hlength : pending.length ≤ limits.totalMax) :
    DeadlineInv limits key maxDefer ⟨pending, if Pending key pending then w.since else none⟩ := by
  constructor
  · exact hlength
  · intro job hjob hkey
    have hpending : Pending key pending := ⟨job, hjob, hkey⟩
    rw [if_pos hpending]
    exact h.first job (hsubset hjob) hkey
  · exact fun job hjob => h.bounded job (hsubset hjob)
  · exact fun hnot => if_neg hnot

/-- A job in the place of another one with its key. -/
theorem DeadlineInv.replace {front back : List (DelayedTaskJob Unit)}
    {old : DelayedTaskJob Unit} (hpending : w.pending = front ++ old :: back) (new : DelayedTaskJob Unit)
    (hkey : new.coalesceKey = old.coalesceKey) (hfirst : new.firstScheduledAt = old.firstScheduledAt)
    (hdue : new.coalesceKey = some key → new.dueAt ≤ new.firstScheduledAt + maxDefer) (now : Instant) :
    DeadlineInv limits key maxDefer
      ⟨front ++ new :: back, if Pending key (front ++ new :: back) then w.since.or (some now) else none⟩ := by
  have hold : ∀ job ∈ front ++ new :: back, job.coalesceKey = some key →
      w.since = some job.firstScheduledAt ∧ job.dueAt ≤ job.firstScheduledAt + maxDefer := by
    intro job hjob hjobKey
    rw [List.mem_append, List.mem_cons] at hjob
    rcases hjob with hjob | rfl | hjob
    · exact ⟨h.first job (by simp [hpending, hjob]) hjobKey, h.bounded job (by simp [hpending, hjob]) hjobKey⟩
    · refine ⟨?_, hdue hjobKey⟩
      rw [hfirst]
      exact h.first old (by simp [hpending]) (hkey ▸ hjobKey)
    · exact ⟨h.first job (by simp [hpending, hjob]) hjobKey, h.bounded job (by simp [hpending, hjob]) hjobKey⟩
  constructor
  · have hlength := h.length
    simpa only [hpending, List.length_append, List.length_cons] using hlength
  · intro job hjob hjobKey
    have hpend : Pending key (front ++ new :: back) := ⟨job, hjob, hjobKey⟩
    rw [if_pos hpend, (hold job hjob hjobKey).1]
    rfl
  · exact fun job hjob hjobKey => (hold job hjob hjobKey).2
  · exact fun hnot => if_neg hnot

/-- A new job at the end of the queue. -/
theorem DeadlineInv.push {kept : List (DelayedTaskJob Unit)}
    {new : DelayedTaskJob Unit} (hsubset : kept ⊆ w.pending) (hlength : kept.length < limits.totalMax)
    (hnew : new.coalesceKey = some key → ¬ Pending key w.pending)
    (hdue : new.coalesceKey = some key → new.dueAt ≤ new.firstScheduledAt + maxDefer) :
    DeadlineInv limits key maxDefer ⟨kept ++ [new],
      if Pending key (kept ++ [new]) then w.since.or (some new.firstScheduledAt) else none⟩ := by
  have hold : ∀ job ∈ kept ++ [new], job.coalesceKey = some key →
      w.since.or (some new.firstScheduledAt) = some job.firstScheduledAt ∧ job.dueAt ≤ job.firstScheduledAt + maxDefer := by
    intro job hjob hjobKey
    rcases List.mem_append.mp hjob with hjob | hjob
    · rw [h.first job (hsubset hjob) hjobKey]
      exact ⟨rfl, h.bounded job (hsubset hjob) hjobKey⟩
    · obtain rfl := List.mem_singleton.mp hjob
      rw [h.idle (hnew hjobKey)]
      exact ⟨rfl, hdue hjobKey⟩
  constructor
  · rw [List.length_append, List.length_singleton]
    omega
  · intro job hjob hjobKey
    have hpend : Pending key (kept ++ [new]) := ⟨job, hjob, hjobKey⟩
    rw [if_pos hpend]
    exact (hold job hjob hjobKey).1
  · exact fun job hjob hjobKey => (hold job hjob hjobKey).2
  · exact fun hnot => if_neg hnot

/-- A call that is refused leaves the jobs as they were. -/
theorem DeadlineInv.stay (now : Instant) : DeadlineInv limits key maxDefer
    ⟨w.pending, if Pending key w.pending then w.since.or (some now) else none⟩ := by
  constructor
  · exact h.length
  · intro job hjob hkey
    have hpending : Pending key w.pending := ⟨job, hjob, hkey⟩
    rw [if_pos hpending, h.first job hjob hkey]
    rfl
  · exact h.bounded
  · exact fun hnot => if_neg hnot

theorem DeadlineInv.step {t : KeyWatch}
    (hfits : FitsDeadline limits key maxDefer w a) (hstep : w.step limits key maxDefer a = some t) :
    DeadlineInv limits key maxDefer t := by
  cases a with
  | service now scope allowBestEffort =>
    obtain rfl := Option.some.inj hstep
    have hperm := perm_takeDueJobsLockedWithPolicy w.pending now scope allowBestEffort
    apply h.shrink
    · exact fun job hjob => hperm.subset (List.mem_append_right _ hjob)
    · have hlength := hperm.length_eq
      rw [List.length_append] at hlength
      have := h.length
      omega
  | schedule now dueAt priority coalesceKey maxDeferFromFirst =>
    rw [KeyWatch.step, Option.ite_none_right_eq_some] at hstep
    obtain ⟨⟨hdue, hbound⟩, hstep⟩ := hstep
    obtain rfl := Option.some.inj hstep
    cases hfound : coalesced w.pending coalesceKey with
    | some existing =>
      obtain ⟨front, back, hpending, hout⟩ :=
        @pending_of_coalesced limits w.pending now dueAt priority coalesceKey maxDeferFromFirst existing hfound
      rw [hout]
      refine h.replace hpending { existing with
        dueAt := boundedDueAt limits dueAt maxDeferFromFirst existing.firstScheduledAt, priority } rfl rfl (fun hkey => ?_) now
      have hsame : coalesceKey = some key := (coalesced_eq_some hfound).2.symm.trans hkey
      rw [hbound hsame]
      exact boundedDueAt_le hdue _
    | none =>
      have hnew : coalesceKey = some key → ¬ Pending key w.pending := by
        rintro rfl ⟨job, hjob, hkey⟩
        exact coalesced_eq_none hfound rfl (List.mem_filterMap.mpr ⟨job, hjob, hkey⟩)
      rcases @pending_of_new limits w.pending now dueAt priority coalesceKey maxDeferFromFirst h.length hfound with
        ⟨hroom, kept, hsubset, hlength, hout⟩ | ⟨-, hout⟩
      · rw [hout]
        exact h.push hsubset hlength hnew fun hkey => hfits hkey (hnew hkey) hroom
      · rw [hout]
        exact h.stay now

/-- A first call with a time past the bound puts a job into the queue that is due too late. -/
theorem DeadlineInv.misses {t : KeyWatch}
    (hstep : w.step limits key maxDefer a = some t) (hmisses : ¬ FitsDeadline limits key maxDefer w a) :
    ¬ KeepsDeadline key maxDefer t := by
  cases a with
  | service now scope allowBestEffort => exact absurd trivial hmisses
  | schedule now dueAt priority coalesceKey maxDeferFromFirst =>
    simp only [FitsDeadline, not_forall, Nat.not_le] at hmisses
    obtain ⟨rfl, hnew, hroom, hlate⟩ := hmisses
    rw [KeyWatch.step, Option.ite_none_right_eq_some] at hstep
    obtain ⟨-, hstep⟩ := hstep
    obtain rfl := Option.some.inj hstep
    rcases @pending_of_new limits w.pending now dueAt priority (some key) maxDeferFromFirst h.length
      (coalesced_of_not_pending hnew) with ⟨-, kept, -, -, hout⟩ | ⟨hno, -⟩
    · intro hkeeps
      rw [hout] at hkeeps
      have hmem : ⟨dueAt, now, priority, some key, ()⟩ ∈ kept ++
          [(⟨dueAt, now, priority, some key, ()⟩ : DelayedTaskJob Unit)] := List.mem_append_right _ (List.mem_singleton_self _)
      obtain ⟨first, hfirst, hle⟩ := hkeeps _ hmem rfl
      have hpend : Pending key (kept ++ [⟨dueAt, now, priority, some key, ()⟩]) := ⟨_, hmem, rfl⟩
      simp only [if_pos hpend, h.idle hnew, Option.none_or, Option.some.injEq] at hfirst
      subst hfirst
      exact absurd hle (Nat.not_le.mpr hlate)
    · exact absurd hroom hno

end

end

theorem deadlineInv_new (limits : DelayedTaskLimits) (key : String) (maxDefer : Nat) :
    DeadlineInv limits key maxDefer .new := by
  constructor
  · exact Nat.zero_le _
  · intro job hjob
    cases hjob
  · intro job hjob
    cases hjob
  · exact fun _ => rfl

/-- The deadline is kept throughout just those runs whose first calls ask for times within the bound. -/
theorem deadline_kept_iff (limits : DelayedTaskLimits) (key : String) (maxDefer : Nat) (actions : List DelayedTaskAction) :
    Always (KeyWatch.step limits key maxDefer) (KeepsDeadline key maxDefer) actions .new ↔
      Meets (KeyWatch.step limits key maxDefer) (FitsDeadline limits key maxDefer) actions .new := by
  apply always_iff_meets (I := DeadlineInv limits key maxDefer)
  · intro w a t hw hfits hstep
    exact hw.step hfits hstep
  · intro w hw
    exact hw.keeps
  · intro w a t hw hstep hmisses
    exact hw.misses hstep hmisses
  · exact deadlineInv_new limits key maxDefer

/-- A first call that asks for a minute is not put forward to the bound of half a minute. -/
theorem first_call_past_deadline : ¬ Always (KeyWatch.step delayedTaskLimitsHost "k" 30000)
    (KeepsDeadline "k" 30000) [scheduleBoundedKeyed 0 60000 "k" 30000] .new := by
  intro h
  have hrun : exec (KeyWatch.step delayedTaskLimitsHost "k" 30000) [scheduleBoundedKeyed 0 60000 "k" 30000] .new =
      some ⟨[⟨60000, 0, .bestEffort, some "k", ()⟩], some 0⟩ := rfl
  obtain ⟨first, hfirst, hdue⟩ := h.last hrun _ (List.mem_singleton_self _) rfl
  obtain rfl := Option.some.inj hfirst
  exact absurd hdue (by decide)

end Beetle.Runtime
