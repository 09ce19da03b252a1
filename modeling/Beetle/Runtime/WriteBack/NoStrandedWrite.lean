import Beetle.Lib.Token
import Beetle.Runtime.WriteBack.MapBuffer

/-! When a write to a buffer can be left without a flush that will come for it. -/
namespace Beetle.Runtime.WriteBack
open Beetle.Lib
variable {V : Type}

/-- The thread, and nobody else, is to take the flag down or hand it to a job. -/
@[simp] def Pc.HoldsFlag : Pc V → Prop
  | .scheduling => True
  | .rejected => True
  | .taking => True
  | .clearingEmpty => True
  | .applying _ _ => True
  | .clearing => True
  | _ => False

/-- The thread will still try to schedule a flush, or drain or look at the map. -/
@[simp] def Pc.WillLook : Pc V → Prop
  | .marking => True
  | .scheduling => True
  | .taking => True
  | .applying _ _ => True
  | .clearing => True
  | .checking => True
  | _ => False

/-- No writer call and no flush is in progress. -/
@[simp] def Pc.AtRest : Pc V → Prop
  | .idle => True
  | .reading _ => True
  | _ => False

/-- The flag stands for one flush: to be queued, queued, or running. -/
def FlagIsToken (s : BufferState V) : Prop :=
  OneToken s.flushScheduled s.jobs Pc.HoldsFlag s.threads

/-- At rest, what is pending has a flush coming for it. -/
def NoStrandedWrite (s : BufferState V) : Prop :=
  (∀ i, (s.threads i).AtRest) → s.pending ≠ ∅ → s.flushScheduled = true ∧ 0 < s.jobs

/-- A flush that drained nothing takes the flag down only where nothing came in
meanwhile, or where some thread has yet to try the flag or to look at the map. -/
def EmptyClearSafe (s : BufferState V) : Action V → Prop
  | .clearScheduled i => match s.threads i with
    | .clearingEmpty => s.pending = ∅ ∨ ∃ j, s.threads j = .marking ∨ s.threads j = .checking
    | _ => True
  | _ => True

/-- `schedule_write_back_task` takes every job. -/
def Action.Accepted : Action V → Prop
  | .scheduleTask _ accepted => accepted = true
  | _ => True

theorem flagIsToken_init (inner : HashMap String V) : FlagIsToken (.init inner) where
  flag_iff := by simp [BufferState.init]
  queued_le := Nat.zero_le _
  exclusive := by simp [BufferState.init]
  unique := by simp [BufferState.init]

section
variable [DecidableEq V] {cfg : BufferConfig} {s t : BufferState V} {a : Action V}

theorem flagIsToken_step (hs : FlagIsToken s) (h : Fires cfg s a t) : FlagIsToken t := by
  have down {i p} (hi : (s.threads i).HoldsFlag) (hp : ¬ Pc.HoldsFlag p) :
      OneToken false s.jobs Pc.HoldsFlag (Function.update s.threads i p) := hs.release hi hp
  cases h with
  | storeSet i _ _ hi => exact hs.keep (by simp [hi])
  | storeClear i _ hi => exact hs.keep (by simp [hi])
  | alreadyMarked i hi _ => exact hs.keep (by simp [hi])
  | mark i hi hdown =>
    unfold FlagIsToken at hs
    rw [hdown] at hs
    exact hs.create trivial
  | coalesce i hi hjobs =>
    have hzero := hs.exclusive i (by simp [hi])
    omega
  | schedule i hi => exact hs.enqueue (by simp [hi]) id
  | reject i hi => exact hs.keep (by simp [hi])
  | startJob i _ hjobs => exact hs.dequeue hjobs trivial
  | takeNone i hi _ => exact hs.keep (by simp [hi])
  | takeAll i hi _ => exact hs.keep (by simp [hi])
  | apply i _ _ _ _ _ hi _ => exact hs.keep (by simp [hi])
  | applyFailed i _ _ _ _ _ _ hi => exact hs.keep (by simp [hi])
  | restoreMissing i _ hi _ => exact hs.keep (by simp [hi])
  | clearRejected i hi => exact down (by simp [hi]) id
  | clearEmpty i hi => exact down (by simp [hi]) id
  | clearFlushed i hi => exact down (by rcases hi with hi | hi <;> simp [hi]) id
  | noPending i hi _ => exact hs.keep (by simp [hi])
  | hasPending i hi _ => exact hs.keep (by simp [hi])
  | peekHit i _ hi _ => exact hs.keep (by simp [hi])
  | peekMiss i _ hi _ => exact hs.keep (by simp [hi])
  | innerGet i _ hi => exact hs.keep (by simp [hi])

/-- A thread that attends to what is pending: it will come to look, or is about
to take the flag down after an empty drain. -/
def Pc.Attends (p : Pc V) : Prop := p.WillLook ∨ p = .clearingEmpty

/-- What is pending has a queued flush or a thread that attends to it. -/
structure Attended (s : BufferState V) : Prop where
  token : FlagIsToken s
  notRejected : ∀ i, s.threads i ≠ .rejected
  looked : s.pending ≠ ∅ → 0 < s.jobs ∨ ∃ i, (s.threads i).Attends

omit [DecidableEq V] in
theorem noStrandedWrite_of_attended (hs : Attended s) : NoStrandedWrite s := by
  intro hrest hsome
  have hjobs : 0 < s.jobs := by
    rcases hs.looked hsome with hjobs | ⟨i, hi⟩
    · exact hjobs
    · have hidle := hrest i
      cases hpc : s.threads i <;> simp [hpc, Pc.Attends] at hi hidle
  exact ⟨hs.token.flag_iff.mpr (.inl hjobs), hjobs⟩

omit [DecidableEq V] in
/-- Thread `i` moves from `p` to `q` and is not the last to attend. -/
theorem Attended.moved {s' : BufferState V} {i : Nat} {q : Pc V} (hs : Attended s)
    (htoken : FlagIsToken (s'.at i q)) (hthreads : s'.threads = s.threads) (hq : q ≠ .rejected)
    (hlooked : s'.pending ≠ ∅ → 0 < s'.jobs ∨ q.Attends ∨ (∃ j, j ≠ i ∧ (s.threads j).Attends) ∨
      s.pending ≠ ∅ ∧ s.jobs ≤ s'.jobs ∧ ¬ (s.threads i).Attends) : Attended (s'.at i q) where
  token := htoken
  notRejected := by
    intro j
    by_cases hji : j = i
    · subst hji
      simpa [BufferState.at] using hq
    · simpa [BufferState.at, hji, hthreads] using hs.notRejected j
  looked := by
    intro hsome
    rcases hlooked hsome with hjobs | hnow | ⟨j, hji, hj⟩ | ⟨hbefore, hjobs, hi⟩
    · exact .inl hjobs
    · exact .inr (exists_update_iff.mpr (.inl hnow))
    · exact .inr (exists_update_iff.mpr (.inr ⟨j, hji, hthreads ▸ hj⟩))
    · rcases hs.looked hbefore with hpos | ⟨j, hj⟩
      · exact .inl (Nat.lt_of_lt_of_le hpos hjobs)
      · have hji : j ≠ i := by
          rintro rfl
          exact hi hj
        exact .inr (exists_update_iff.mpr (.inr ⟨j, hji, hthreads ▸ hj⟩))

omit [DecidableEq V] in
theorem attends_of_holdsFlag {p : Pc V} (hp : p.HoldsFlag) (hr : p ≠ .rejected) : p.Attends := by
  cases p <;> simp [Pc.Attends] at hp hr ⊢

theorem attended_step (hs : Attended s) (hc : EmptyClearSafe s a) (hacc : a.Accepted)
    (h : Fires cfg s a t) : Attended t := by
  have htoken := flagIsToken_step hs.token h
  cases h with
  | storeSet i _ _ hi => exact hs.moved htoken rfl (by simp) fun _ => .inr (.inl (by simp [Pc.Attends]))
  | storeClear i _ hi => exact hs.moved htoken rfl (by simp) fun _ => .inr (.inl (by simp [Pc.Attends]))
  | alreadyMarked i hi hup =>
    -- the flag that stopped this thread has its holder
    refine hs.moved htoken rfl (by simp) fun _ => ?_
    rcases hs.token.flag_iff.mp hup with hjobs | ⟨j, hj⟩
    · exact .inl hjobs
    · refine .inr (.inr (.inl ⟨j, ?_, attends_of_holdsFlag hj (hs.notRejected j)⟩))
      rintro rfl
      simp [hi] at hj
  | mark i hi hdown => exact hs.moved htoken rfl (by simp) fun _ => .inr (.inl (by simp [Pc.Attends]))
  | coalesce i hi hjobs => exact hs.moved htoken rfl (by simp) fun _ => .inl hjobs
  | schedule i hi => exact hs.moved htoken rfl (by simp) fun _ => .inl (Nat.succ_pos _)
  | reject i hi => cases hacc
  | startJob i hi hjobs => exact hs.moved htoken rfl (by simp) fun _ => .inr (.inl (by simp [Pc.Attends]))
  | takeNone i hi hempty => exact hs.moved htoken rfl (by simp) fun hsome => absurd hempty hsome
  | takeAll i hi hsome => exact hs.moved htoken rfl (by simp) fun hsome => absurd rfl hsome
  | apply i _ _ _ _ _ hi _ => exact hs.moved htoken rfl (by simp) fun _ => .inr (.inl (by simp [Pc.Attends]))
  | applyFailed i _ _ _ _ _ _ hi =>
    exact hs.moved htoken rfl (by simp) fun _ => .inr (.inl (by simp [Pc.Attends]))
  | restoreMissing i _ hi _ =>
    exact hs.moved htoken rfl (by simp) fun _ => .inr (.inl (by simp [Pc.Attends]))
  | clearRejected i hi => exact absurd hi (hs.notRejected i)
  | clearEmpty i hi =>
    refine hs.moved htoken rfl (by simp) fun hsome => ?_
    simp only [EmptyClearSafe, hi] at hc
    obtain ⟨j, hj⟩ := hc.resolve_left hsome
    refine .inr (.inr (.inl ⟨j, ?_, ?_⟩))
    · rintro rfl
      simp [hi] at hj
    · rcases hj with hj | hj <;> simp [hj, Pc.Attends]
  | clearFlushed i hi => exact hs.moved htoken rfl (by simp) fun _ => .inr (.inl (by simp [Pc.Attends]))
  | noPending i hi hempty => exact hs.moved htoken rfl (by simp) fun hsome => absurd hempty hsome
  | hasPending i hi hsome => exact hs.moved htoken rfl (by simp) fun _ => .inr (.inl (by simp [Pc.Attends]))
  | peekHit i _ hi _ =>
    exact hs.moved htoken rfl (by simp) fun hsome =>
      .inr (.inr (.inr ⟨hsome, Nat.le_refl _, by simp [hi, Pc.Attends]⟩))
  | peekMiss i _ hi _ =>
    exact hs.moved htoken rfl (by simp) fun hsome =>
      .inr (.inr (.inr ⟨hsome, Nat.le_refl _, by simp [hi, Pc.Attends]⟩))
  | innerGet i _ hi =>
    exact hs.moved htoken rfl (by simp) fun hsome =>
      .inr (.inr (.inr ⟨hsome, Nat.le_refl _, by simp [hi, Pc.Attends]⟩))

/-- Where the condition fails, the flush leaves everybody at rest, the flag down
and a write in the map. -/
theorem stranded_of_not_emptyClearSafe (hs : FlagIsToken s) (hc : ¬ EmptyClearSafe s a)
    (h : Fires cfg s a t) : ¬ NoStrandedWrite t := by
  cases h with
  | clearEmpty i hi =>
    simp only [EmptyClearSafe, hi, not_or, not_exists] at hc
    obtain ⟨hsome, hothers⟩ := hc
    intro ht
    have hrest : ∀ j, (Function.update s.threads i Pc.idle j).AtRest := by
      intro j
      by_cases hji : j = i
      · subst hji
        simp
      · have hfree := hs.not_held_of_ne (i := i) (by simp [hi]) hji
        have hpoint := hothers j
        rw [Function.update_of_ne hji]
        cases hpc : s.threads j <;> simp [hpc] at hfree hpoint ⊢
    exact Bool.false_ne_true (ht hrest hsome).1
  | clearRejected i hi => simp [EmptyClearSafe, hi] at hc
  | clearFlushed i hi => rcases hi with hi | hi <;> simp [EmptyClearSafe, hi] at hc
  | _ => exact absurd trivial hc

/-- With every job taken by the queue, no write is ever stranded exactly when
every flush that drained nothing is safe in taking the flag down. -/
theorem no_stranded_write_iff (cfg : BufferConfig) (inner : HashMap String V) (as : List (Action V))
    (hacc : ∀ a ∈ as, a.Accepted) :
    Always (step cfg) NoStrandedWrite as (.init inner) ↔ Meets (step cfg) EmptyClearSafe as (.init inner) := by
  constructor
  · apply meets_of_always (J := FlagIsToken)
      (fun _ _ _ hs ht => flagIsToken_step hs (fires_of_step cfg ht))
      (fun _ _ _ hs ht hc => stranded_of_not_emptyClearSafe hs hc (fires_of_step cfg ht))
    exact flagIsToken_init inner
  · intro h
    apply always_of_meets (I := Attended) (C := fun s a => EmptyClearSafe s a ∧ a.Accepted)
      (fun _ _ _ hs hc ht => attended_step hs hc.1 hc.2 (fires_of_step cfg ht))
      (fun _ => noStrandedWrite_of_attended)
    · exact ⟨flagIsToken_init inner, by simp [BufferState.init], fun hsome => absurd rfl hsome⟩
    · exact h.mono fun s a ha hc => ⟨hc, hacc a ha⟩

/-- Writers 0, 1 and 2 and a worker 9. Writer 1 stores before the first flush
drains and tries the flag after it, so its own flush finds the map empty; writer
2 stores and tries the flag before that flush takes the flag down. -/
def strandingRun : List (Action Nat) :=
  [.storeSet 0 "a" 1, .tryMarkScheduled 0, .scheduleTask 0 true, .storeSet 1 "b" 2,
    .startJob 9, .takeAll 9, .apply 9 "a" (.done fun _ => none), .apply 9 "b" (.done fun _ => none),
    .clearScheduled 9, .hasPending 9, .tryMarkScheduled 1, .scheduleTask 1 true,
    .startJob 9, .takeAll 9, .storeSet 2 "c" 3, .tryMarkScheduled 2, .clearScheduled 9]

theorem write_stranded_by_empty_flush :
    (∀ a ∈ strandingRun, a.Accepted) ∧
      ¬ Always (step ⟨true, 8⟩) NoStrandedWrite strandingRun (.init ∅) := by
  refine ⟨by simp [strandingRun, Action.Accepted], fun h => ?_⟩
  have hlast := h.last rfl
  refine absurd (hlast (fun i => ?_) (by decide)).1 (by decide)
  simp only [BufferState.at, BufferState.init, Function.update_apply]
  split_ifs <;> trivial

theorem no_stranded_write_two_writers :
    Always (step ⟨true, 8⟩) NoStrandedWrite (strandingRun.take 10) (.init ∅) ↔
      Meets (step ⟨true, 8⟩) EmptyClearSafe (strandingRun.take 10) (.init ∅) :=
  no_stranded_write_iff _ _ _ (by simp [strandingRun, Action.Accepted])

end
end Beetle.Runtime.WriteBack

/-! What a reader of a buffered store gets after a write, while flushes run. -/
namespace Beetle.Runtime.WriteBack
open Beetle.Lib
variable {V : Type} {chatId : String} {p : Pc V} {i : Nat}

/-- A buffer with its history: the last write to each chat, which of the running
`get` calls have seen a write to their chat begin since, and the `get` that the
last step returned from, if it did. -/
structure Watched (V : Type) where
  buffer : BufferState V
  lastWrite : String → Option (PendingValue V)
  overtaken : Nat → Bool
  answer : Option (String × Option V × Bool)

def Watched.init (inner : HashMap String V) : Watched V :=
  ⟨.init inner, fun _ => none, fun _ => false, none⟩

def Pc.reads (chatId : String) : Pc V → Bool
  | .reading c => c = chatId
  | _ => false

/-- What a flush has drained and not applied yet. -/
@[grind =] def Pc.drained : Pc V → PendingMap V
  | .applying remaining _ => remaining
  | _ => ∅

def Watched.wrote (w : Watched V) (chatId : String) (x : PendingValue V) : Watched V :=
  { w with
    lastWrite := Function.update w.lastWrite chatId (some x)
    overtaken := fun j => w.overtaken j || (w.buffer.threads j).reads chatId }

def Watched.note (w : Watched V) : Action V → Watched V
  | .storeSet _ chatId value => { w.wrote chatId (.set value) with answer := none }
  | .storeClear _ chatId => { w.wrote chatId .clear with answer := none }
  | .peek i chatId =>
    match w.buffer.pending.lookup chatId with
    | some x => { w with answer := some (chatId, x.get, true) }
    | none => { w with overtaken := Function.update w.overtaken i false, answer := none }
  | .innerGet i =>
    match w.buffer.threads i with
    | .reading chatId => { w with answer := some (chatId, w.buffer.inner.lookup chatId, !w.overtaken i) }
    | _ => { w with answer := none }
  | _ => { w with answer := none }

def watch [DecidableEq V] (cfg : BufferConfig) (w : Watched V) (a : Action V) : Option (Watched V) :=
  (step cfg w.buffer a).map fun buffer => { w.note a with buffer }

/-- A `get` that no write to the chat overtook returns the last write. -/
def ReadsLastWrite (chatId : String) (w : Watched V) : Prop :=
  ∀ value x, w.answer = some (chatId, value, true) → w.lastWrite chatId = some x → value = x.get

def Action.Succeeds : Action V → Prop
  | .apply _ _ (.failed _ _) => False
  | _ => True

/-- The chat's value is in no flush, between draining and applying. -/
def NotDrained (chatId : String) (s : BufferState V) : Prop :=
  ∀ i, chatId ∉ (s.threads i).drained

/-- No lookup in the wrapped store falls between the drain of the chat's value
and its being applied, and the wrapped store does not evict the chat while the
buffer has nothing for it. -/
def ReadSafe (cfg : BufferConfig) (chatId : String) (w : Watched V) : Action V → Prop
  | .innerGet i => w.buffer.threads i = .reading chatId → w.overtaken i = false →
      NotDrained chatId w.buffer
  | .apply _ c (.done first) => w.lastWrite chatId ≠ none → chatId ∉ w.buffer.pending →
      NotDrained chatId w.buffer → c ∉ w.buffer.inner → cfg.maxEntries ≤ w.buffer.inner.keys.card →
      first w.buffer.inner ≠ some chatId
  | _ => True

/-- A value that a reader of the chat is to see is pending, or drained, or in the
wrapped store with neither in the way. -/
def Shows (chatId : String) (x : PendingValue V) (s : BufferState V) : Prop :=
  s.pending.lookup chatId = some x ∨ chatId ∉ s.pending ∧
    ((∃ i, (s.threads i).drained.lookup chatId = some x) ∨
      NotDrained chatId s ∧ s.inner.lookup chatId = x.get)

structure Coherent (chatId : String) (w : Watched V) : Prop where
  token : FlagIsToken w.buffer
  noneFailed : ∀ i remaining failed, w.buffer.threads i = .applying remaining failed → failed = ∅
  shows : ∀ x, w.lastWrite chatId = some x → Shows chatId x w.buffer
  missed : ∀ i, w.buffer.threads i = .reading chatId → w.overtaken i = false → chatId ∉ w.buffer.pending

theorem holdsFlag_of_drained (h : chatId ∈ p.drained) : p.HoldsFlag := by
  cases p <;> simp [Pc.drained, Finmap.notMem_empty] at h ⊢

theorem Shows.moved {x : PendingValue V} {s s' : BufferState V}
    (h : Shows chatId x s) (hthreads : s'.threads = s.threads)
    (hpending : s'.pending.lookup chatId = s.pending.lookup chatId)
    (hinner : s'.inner.lookup chatId = s.inner.lookup chatId)
    (hp : p.drained.lookup chatId = (s.threads i).drained.lookup chatId) : Shows chatId x (s'.at i p) := by
  have hdrained : ∀ j, ((s'.at i p).threads j).drained.lookup chatId =
      (s.threads j).drained.lookup chatId := by
    intro j
    by_cases hji : j = i
    · subst hji
      simpa [BufferState.at] using hp
    · simp [BufferState.at, hji, hthreads]
  have hmem : ∀ j, chatId ∈ ((s'.at i p).threads j).drained ↔ chatId ∈ (s.threads j).drained := by
    intro j
    rw [← Finmap.lookup_isSome, ← Finmap.lookup_isSome, hdrained]
  have hnone : chatId ∈ s'.pending ↔ chatId ∈ s.pending := by
    rw [← Finmap.lookup_isSome, ← Finmap.lookup_isSome, hpending]
  rcases h with h | ⟨habsent, ⟨j, hj⟩ | ⟨hfree, h⟩⟩
  · exact .inl (hpending.trans h)
  · exact .inr ⟨mt hnone.mp habsent, .inl ⟨j, (hdrained j).trans hj⟩⟩
  · exact .inr ⟨mt hnone.mp habsent, .inr ⟨fun j => mt (hmem j).mp (hfree j), hinner.trans h⟩⟩

/-- Thread `i` moves to `p`. What is left to show is that the chat's value still
shows and that readers on their way still have nothing pending before them. -/
theorem Coherent.moved {w w' : Watched V} {s' : BufferState V}
    (hs : Coherent chatId w) (hw : w'.buffer = s'.at i p) (htoken : FlagIsToken w'.buffer)
    (hthreads : s'.threads = w.buffer.threads) (hshows : ∀ x, w'.lastWrite chatId = some x → Shows chatId x w'.buffer)
    (hfailed : ∀ remaining failed, p = .applying remaining failed → failed = ∅)
    (hreads : p = .reading chatId → chatId ∉ s'.pending)
    (hover : ∀ j, w.buffer.threads j = .reading chatId → w'.overtaken j = false → j ≠ i →
      w.overtaken j = false ∧ (chatId ∈ s'.pending → chatId ∈ w.buffer.pending)) : Coherent chatId w' where
  token := htoken
  noneFailed := by
    intro j remaining failed hj
    rw [hw] at hj
    by_cases hji : j = i
    · subst hji
      exact hfailed remaining failed (by simpa [BufferState.at] using hj)
    · exact hs.noneFailed j remaining failed (by simpa [BufferState.at, hji, hthreads] using hj)
  shows := hshows
  missed := by
    intro j hj hfresh
    rw [hw] at hj ⊢
    by_cases hji : j = i
    · subst hji
      exact hreads (by simpa [BufferState.at] using hj)
    · have hj' : w.buffer.threads j = .reading chatId := by
        simpa [BufferState.at, hji, hthreads] using hj
      obtain ⟨hbefore, hmem⟩ := hover j hj' hfresh hji
      exact mt hmem (hs.missed j hj' hbefore)

/-- As `moved`, where nothing that concerns the chat changes. -/
theorem Coherent.stays {w w' : Watched V} {s' : BufferState V}
    (hs : Coherent chatId w) (hw : w'.buffer = s'.at i p) (htoken : FlagIsToken w'.buffer)
    (hthreads : s'.threads = w.buffer.threads) (hpending : s'.pending.lookup chatId = w.buffer.pending.lookup chatId)
    (hinner : s'.inner = w.buffer.inner) (hdrained : p.drained = (w.buffer.threads i).drained)
    (hlast : w'.lastWrite chatId = w.lastWrite chatId)
    (hover : ∀ j, w.buffer.threads j = .reading chatId → w'.overtaken j = false → j ≠ i →
      w.overtaken j = false) (hfailed : ∀ remaining failed, p ≠ .applying remaining failed)
    (hreads : p = .reading chatId → chatId ∉ w.buffer.pending) : Coherent chatId w' := by
  have hmem : chatId ∈ s'.pending ↔ chatId ∈ w.buffer.pending := by
    rw [← Finmap.lookup_isSome, ← Finmap.lookup_isSome, hpending]
  refine hs.moved hw htoken hthreads (fun x hx => ?_) (fun r f hp => absurd hp (hfailed r f))
    (fun hp => mt hmem.mp (hreads hp)) (fun j hj hfresh hji => ⟨hover j hj hfresh hji, hmem.mp⟩)
  rw [hlast] at hx
  rw [hw]
  exact (hs.shows x hx).moved hthreads hpending (by rw [hinner]) (by rw [hdrained])

section
variable [DecidableEq V] {cfg : BufferConfig} {chatId : String}

theorem lookup_applyPending_self (inner : HashMap String V) (first : HashMap String V → Option String)
    (x : PendingValue V) : (applyPending cfg inner first chatId x).lookup chatId = x.get := by
  cases x with
  | set value =>
    by_cases hsame : inner.lookup chatId = some value
    · simp [applyPending, Platform.Storage.ChatScopedCachedJsonMapStore.setOwnedClosure, hsame,
        PendingValue.get]
    · simp [applyPending, Platform.Storage.ChatScopedCachedJsonMapStore.setOwnedClosure, hsame,
        PendingValue.get]
  | clear =>
    by_cases hmem : chatId ∈ inner
    · simp [applyPending, Platform.Storage.ChatScopedCachedJsonMapStore.clear, hmem, PendingValue.get]
    · simp [applyPending, Platform.Storage.ChatScopedCachedJsonMapStore.clear, hmem, PendingValue.get,
        Finmap.lookup_eq_none]

theorem lookup_applyPending_of_ne {c : String} (hne : chatId ≠ c) (inner : HashMap String V)
    (first : HashMap String V → Option String) (x : PendingValue V)
    (hkept : c ∉ inner → cfg.maxEntries ≤ inner.keys.card → first inner ≠ some chatId) :
    (applyPending cfg inner first c x).lookup chatId = inner.lookup chatId := by
  cases x with
  | set value =>
    simp only [applyPending, Platform.Storage.ChatScopedCachedJsonMapStore.setOwnedClosure]
    by_cases hsame : inner.lookup c = some value
    · simp [hsame]
    · simp only [hsame, if_false]
      rw [Finmap.lookup_insert_of_ne _ hne]
      by_cases hfull : c ∉ inner ∧ inner.keys.card ≥ cfg.maxEntries
      · rw [if_pos hfull]
        have hfirst := hkept hfull.1 hfull.2
        cases hkey : first inner with
        | none => rfl
        | some key =>
          apply Finmap.lookup_erase_ne
          rintro rfl
          exact hfirst hkey
      · rw [if_neg hfull]
  | clear =>
    by_cases hmem : c ∈ inner
    · simp [applyPending, Platform.Storage.ChatScopedCachedJsonMapStore.clear, hmem,
        Finmap.lookup_erase_ne hne]
    · simp [applyPending, Platform.Storage.ChatScopedCachedJsonMapStore.clear, hmem]

omit [DecidableEq V] in
/-- A write to a chat, this one or another. -/
theorem coherent_wrote {w w' : Watched V} {i : Nat} {c : String} {x : PendingValue V}
    (hs : Coherent chatId w)
    (hw : w'.buffer = { w.buffer with pending := w.buffer.pending.insert c x }.at i .marking)
    (htoken : FlagIsToken w'.buffer) (hlast : w'.lastWrite = (w.wrote c x).lastWrite)
    (hover : w'.overtaken = (w.wrote c x).overtaken) (hi : w.buffer.threads i = .idle) :
    Coherent chatId w' := by
  by_cases hc : chatId = c
  · subst hc
    refine hs.moved hw htoken rfl (fun y hy => ?_) (by simp) (by simp) fun j hj hfresh _ => ?_
    · obtain rfl : x = y := by simpa [hlast, Watched.wrote] using hy
      rw [hw]
      exact .inl (by simp [BufferState.at])
    · simp [hover, Watched.wrote, hj, Pc.reads] at hfresh
  · refine hs.stays hw htoken rfl (Finmap.lookup_insert_of_ne _ hc) rfl (by simp [hi, Pc.drained])
      (by simp [hlast, Watched.wrote, hc]) (fun j _ hfresh _ => ?_) (by simp) (by simp)
    have hboth : w.overtaken j = false ∧ (w.buffer.threads j).reads c = false := by
      simpa [hover, Watched.wrote] using hfresh
    exact hboth.1

omit [DecidableEq V] in
theorem coherent_takeAll {w w' : Watched V} {i : Nat} (hs : Coherent chatId w)
    (hw : w'.buffer = { w.buffer with pending := ∅ }.at i (.applying w.buffer.pending ∅))
    (htoken : FlagIsToken w'.buffer) (hlast : w'.lastWrite = w.lastWrite)
    (hover : w'.overtaken = w.overtaken) (hi : w.buffer.threads i = .taking) : Coherent chatId w' := by
  have hnone : ∀ j, j ≠ i → chatId ∉ (w.buffer.threads j).drained := fun j hji hj =>
    hs.token.not_held_of_ne (i := i) (by simp [hi]) hji (holdsFlag_of_drained hj)
  refine hs.moved hw htoken rfl (fun x hx => ?_) (fun _ _ hp => (Pc.applying.inj hp).2.symm) (by simp)
    (fun j _ hfresh _ => ⟨by simpa [hover] using hfresh, fun h => absurd h Finmap.notMem_empty⟩)
  rw [hlast] at hx
  rw [hw]
  refine .inr ⟨Finmap.notMem_empty, ?_⟩
  rcases hs.shows x hx with h | ⟨habsent, ⟨j, hj⟩ | ⟨hfree, h⟩⟩
  · exact .inl ⟨i, by simpa [BufferState.at, Pc.drained] using h⟩
  · have hmem := Finmap.mem_of_lookup_eq_some hj
    by_cases hji : j = i
    · subst hji
      simp [hi, Pc.drained, Finmap.notMem_empty] at hmem
    · exact absurd hmem (hnone j hji)
  · refine .inr ⟨fun j => ?_, h⟩
    by_cases hji : j = i
    · subst hji
      simpa [BufferState.at, Pc.drained] using habsent
    · simpa [BufferState.at, hji] using hfree j

theorem coherent_apply {w w' : Watched V} {i : Nat} {c : String}
    {first : HashMap String V → Option String} {remaining failed : PendingMap V} {y : PendingValue V}
    (hs : Coherent chatId w)
    (hw : w'.buffer = { w.buffer with inner := applyPending cfg w.buffer.inner first c y }.at i
      (.applying (remaining.erase c) failed))
    (htoken : FlagIsToken w'.buffer) (hlast : w'.lastWrite = w.lastWrite)
    (hover : w'.overtaken = w.overtaken) (hi : w.buffer.threads i = .applying remaining failed)
    (hy : remaining.lookup c = some y) (hc : ReadSafe cfg chatId w (.apply i c (.done first))) :
    Coherent chatId w' := by
  have hnone : ∀ j, j ≠ i → chatId ∉ (w.buffer.threads j).drained := fun j hji hj =>
    hs.token.not_held_of_ne (i := i) (by simp [hi]) hji (holdsFlag_of_drained hj)
  have hfree' (h : chatId ∉ remaining.erase c) : NotDrained chatId w'.buffer := by
    intro j
    rw [hw]
    by_cases hji : j = i
    · subst hji
      simpa [BufferState.at, Pc.drained] using h
    · simpa [BufferState.at, hji] using hnone j hji
  refine hs.moved hw htoken rfl (fun x hx => ?_) ?_ (by simp)
    (fun j _ hfresh _ => ⟨by simpa [hover] using hfresh, id⟩)
  · rw [hlast] at hx
    rcases hs.shows x hx with h | ⟨habsent, ⟨j, hj⟩ | ⟨hfree, h⟩⟩
    · exact .inl (by rw [hw]; exact h)
    · -- the value is in this flush, as there is only one
      obtain rfl : j = i := by
        by_contra hji
        exact hnone j hji (Finmap.mem_of_lookup_eq_some hj)
      rw [hi] at hj
      refine .inr ⟨by rw [hw]; exact habsent, ?_⟩
      by_cases hcc : chatId = c
      · subst hcc
        obtain rfl : y = x := Option.some.inj (hy.symm.trans hj)
        refine .inr ⟨hfree' Finmap.notMem_erase_self, ?_⟩
        rw [hw]
        exact lookup_applyPending_self _ _ _
      · refine .inl ⟨j, ?_⟩
        rw [hw]
        simpa [BufferState.at, Pc.drained, Finmap.lookup_erase_ne hcc] using hj
    · have hcc : chatId ≠ c := by
        rintro rfl
        have := hfree i
        rw [hi] at this
        exact this (Finmap.mem_of_lookup_eq_some hy)
      refine .inr ⟨by rw [hw]; exact habsent, .inr ⟨hfree' ?_, ?_⟩⟩
      · have := hfree i
        rw [hi] at this
        exact fun hmem => this (Finmap.mem_erase.mp hmem).2
      · rw [hw]
        refine (lookup_applyPending_of_ne hcc _ _ _ ?_).trans h
        exact hc (by simp [hx]) habsent hfree
  · rintro _ _ ⟨⟩
    exact hs.noneFailed i remaining failed hi

omit [DecidableEq V] in
theorem coherent_init (inner : HashMap String V) : Coherent chatId (Watched.init inner) where
  token := flagIsToken_init inner
  noneFailed := by simp [Watched.init, BufferState.init]
  shows := by simp [Watched.init]
  missed := by simp [Watched.init, BufferState.init]

theorem coherent_step {w w' : Watched V} {a : Action V} (hs : Coherent chatId w)
    (hc : ReadSafe cfg chatId w a) (hsucc : a.Succeeds) (h : watch cfg w a = some w') :
    Coherent chatId w' := by
  obtain ⟨t, ht, rfl⟩ := Option.map_eq_some_iff.mp h
  have hfires := fires_of_step cfg ht
  have htoken := flagIsToken_step hs.token hfires
  have hsame : ∀ j, w.buffer.threads j = .reading chatId → w.overtaken j = false → j ≠ j →
      w.overtaken j = false := fun _ _ hfresh _ => hfresh
  cases hfires with
  | storeSet i c value hi => exact coherent_wrote hs rfl htoken rfl rfl hi
  | storeClear i c hi => exact coherent_wrote hs rfl htoken rfl rfl hi
  | takeAll i hi hsome => exact coherent_takeAll hs rfl htoken rfl rfl hi
  | apply i c first remaining failed y hi hy => exact coherent_apply hs rfl htoken rfl rfl hi hy hc
  | applyFailed => cases hsucc
  | restoreMissing i failed hi hfailed => exact absurd (hs.noneFailed i _ _ hi) hfailed
  | peekMiss i c hi habsent =>
    have hlookup : w.buffer.pending.lookup c = none := Finmap.lookup_eq_none.mpr habsent
    refine hs.stays rfl htoken rfl rfl rfl (by simp [hi, Pc.drained]) (by simp [Watched.note, hlookup])
      (fun j _ hfresh hji => ?_) (by simp) ?_
    · simpa [Watched.note, hlookup, hji] using hfresh
    · rintro ⟨⟩
      exact habsent
  | peekHit i c hi hmem =>
    obtain ⟨x, hx⟩ := Finmap.mem_iff.mp hmem
    exact hs.stays rfl htoken rfl rfl rfl (by simp [hi, Pc.drained]) (by simp [Watched.note, hx])
      (fun j _ hfresh _ => by simpa [Watched.note, hx] using hfresh) (by simp) (by simp)
  | innerGet i c hi =>
    exact hs.stays rfl htoken rfl rfl rfl (by simp [hi, Pc.drained]) (by simp [Watched.note, hi])
      (fun j _ hfresh _ => by simpa [Watched.note, hi] using hfresh) (by simp) (by simp)
  | clearFlushed i hi =>
    exact hs.stays rfl htoken rfl rfl rfl (by rcases hi with hi | hi <;> simp [hi, Pc.drained]) rfl
      (fun _ _ hfresh _ => hfresh) (by simp) (by simp)
  | alreadyMarked i hi | mark i hi | coalesce i hi | schedule i hi | reject i hi | startJob i hi
  | takeNone i hi | clearRejected i hi | clearEmpty i hi | noPending i hi | hasPending i hi =>
    exact hs.stays rfl htoken rfl rfl rfl (by simp [hi, Pc.drained]) rfl
      (fun _ _ hfresh _ => hfresh) (by simp) (by simp)

theorem readsLastWrite_step {w w' : Watched V} {a : Action V} (hs : Coherent chatId w)
    (hc : ReadSafe cfg chatId w a) (h : watch cfg w a = some w') : ReadsLastWrite chatId w' := by
  obtain ⟨t, ht, rfl⟩ := Option.map_eq_some_iff.mp h
  have hfires := fires_of_step cfg ht
  intro value x hanswer hlast
  cases hfires with
  | peekHit i c hi hmem =>
    obtain ⟨y, hy⟩ := Finmap.mem_iff.mp hmem
    simp only [Watched.note, hy] at hanswer hlast
    obtain ⟨rfl, rfl⟩ : c = chatId ∧ y.get = value := by simpa using hanswer
    rcases hs.shows x hlast with hx | ⟨habsent, -⟩
    · rw [Option.some.inj (hy.symm.trans hx)]
    · exact absurd hmem habsent
  | peekMiss i c hi habsent =>
    simp [Watched.note, Finmap.lookup_eq_none.mpr habsent] at hanswer
  | innerGet i c hi =>
    simp only [Watched.note, hi, Option.some.injEq, Prod.mk.injEq, Bool.not_eq_true'] at hanswer hlast
    obtain ⟨rfl, rfl, hfresh⟩ := hanswer
    have habsent := hs.missed i hi hfresh
    have hfree := hc hi hfresh
    rcases hs.shows x hlast with hx | ⟨-, ⟨j, hj⟩ | ⟨-, hx⟩⟩
    · exact absurd (Finmap.mem_of_lookup_eq_some hx) habsent
    · exact absurd (Finmap.mem_of_lookup_eq_some hj) (hfree j)
    · exact hx
  | _ => cases hanswer

/-- In a run whose wrapped-store writes succeed and whose steps are safe for the
chat, every `get` of the chat returns the last write to it. -/
theorem reads_last_write (cfg : BufferConfig) (chatId : String) (inner : HashMap String V)
    (as : List (Action V)) (hsucc : ∀ a ∈ as, a.Succeeds)
    (h : Meets (watch cfg) (ReadSafe cfg chatId) as (.init inner)) :
    Always (watch cfg) (ReadsLastWrite chatId) as (.init inner) := by
  apply always_of_meets (I := fun w => Coherent chatId w ∧ ReadsLastWrite chatId w)
    (C := fun w a => ReadSafe cfg chatId w a ∧ a.Succeeds)
    (fun _ _ _ hs hc hw => ⟨coherent_step hs.1 hc.1 hc.2 hw, readsLastWrite_step hs.1 hc.1 hw⟩)
    (fun _ hs => hs.2)
  · exact ⟨coherent_init inner, fun _ _ h => nomatch h⟩
  · exact h.mono fun w a ha hc => ⟨hc, hsucc a ha⟩

/-- Thread 0 sets the value and returns, the worker drains it, and thread 1 looks
into the wrapped store before the value is there. -/
def straddlingRun : List (Action Nat) :=
  [.storeSet 0 "a" 1, .tryMarkScheduled 0, .scheduleTask 0 true, .startJob 9, .takeAll 9,
    .peek 1 "a", .innerGet 1]

theorem read_misses_drained_write :
    (∀ a ∈ straddlingRun, a.Succeeds) ∧
      ¬ Always (watch ⟨true, 8⟩) (ReadsLastWrite "a") straddlingRun (.init ∅) := by
  refine ⟨by simp [straddlingRun, Action.Succeeds], fun h => ?_⟩
  have hread := h.last rfl
  exact absurd (hread none (.set 1) (by decide) rfl) (by decide)

theorem reads_last_write_pending :
    Always (watch ⟨true, 8⟩) (ReadsLastWrite "a") [.storeSet 0 "a" 1, .peek 1 "a"] (.init ∅) :=
  reads_last_write _ _ _ _ (by simp [Action.Succeeds])
    fun _ _ => ⟨trivial, fun _ _ => ⟨trivial, trivial⟩⟩

end
end Beetle.Runtime.WriteBack
