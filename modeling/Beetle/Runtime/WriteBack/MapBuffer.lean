import Beetle.Platform.CachedJson

/-! The write-back buffer in front of a chat-keyed store: any number of threads
that write, read and flush, each lock-guarded block or atomic access one step. -/
namespace Beetle.Runtime.WriteBack
open Beetle.Lib

/-- Errors that a later try cannot cure: bad configuration, and among the I/O
errors ENOENT, ENOSPC, ENAMETOOLONG and their BSD and newlib codes. -/
def shouldRetryWriteBackError : Error → Bool
  | .config _ _ => false
  | .io source _ => source.rawOsError ∉ [some 2, some 28, some 36, some 63, some 91]
  | _ => true

inductive PendingValue (V : Type) where
  | set (value : V)
  | clear
  deriving DecidableEq

/-- What a reader is to get. -/
def PendingValue.get {V : Type} : PendingValue V → Option V
  | set value => some value
  | clear => none

abbrev PendingMap (V : Type) := HashMap String (PendingValue V)

/-- Where a thread stands: `set`, `clear` and `schedule_map_flush` between the
store and the return, `flush_map` between its start and its end, or `get`
between its two lookups. -/
inductive Pc (V : Type) where
  | idle
  | marking
  | scheduling
  | rejected
  | taking
  | clearingEmpty
  | applying (remaining failed : PendingMap V)
  | clearing
  | checking
  | reading (chatId : String)

/-- `jobs` counts the queued flush jobs of this buffer, `inner` is the map of the
wrapped store. -/
structure BufferState (V : Type) where
  pending : PendingMap V
  flushScheduled : Bool
  jobs : Nat
  inner : HashMap String V
  threads : Nat → Pc V

def BufferState.init {V : Type} (inner : HashMap String V) : BufferState V :=
  ⟨∅, false, 0, inner, fun _ => .idle⟩

/-- How one call of the wrapped store ends; `first` is the key it may evict. -/
inductive ApplyOutcome (V : Type) where
  | done (first : HashMap String V → Option String)
  | failed (error : Error) (left : HashMap String V)

inductive Action (V : Type) where
  | storeSet (i : Nat) (chatId : String) (value : V)
  | storeClear (i : Nat) (chatId : String)
  | tryMarkScheduled (i : Nat)
  | scheduleTask (i : Nat) (accepted : Bool)
  | startJob (i : Nat)
  | takeAll (i : Nat)
  | apply (i : Nat) (chatId : String) (outcome : ApplyOutcome V)
  | restoreMissing (i : Nat)
  | clearScheduled (i : Nat)
  | hasPending (i : Nat)
  | peek (i : Nat) (chatId : String)
  | innerGet (i : Nat)

/-- The fixed part: whether a second job of this label is dropped in favour of
the queued one, and the size limit of the wrapped store. -/
structure BufferConfig where
  coalescible : Bool
  maxEntries : Nat

section
variable {V : Type} [DecidableEq V] (cfg : BufferConfig)

def applyPending (inner : HashMap String V) (first : HashMap String V → Option String)
    (chatId : String) : PendingValue V → HashMap String V
  | .set value => (Platform.Storage.ChatScopedCachedJsonMapStore.setOwnedClosure cfg.maxEntries first chatId value inner).1
  | .clear => ((Platform.Storage.ChatScopedCachedJsonMapStore.clear chatId).closure inner).1

/-- Move thread `i` to a new place. -/
def BufferState.at (s : BufferState V) (i : Nat) (pc : Pc V) : BufferState V :=
  { s with threads := Function.update s.threads i pc }

def step (s : BufferState V) : Action V → Option (BufferState V)
  | .storeSet i chatId value =>
    match s.threads i with
    | .idle => some ({ s with pending := s.pending.insert chatId (.set value) }.at i .marking)
    | _ => none
  | .storeClear i chatId =>
    match s.threads i with
    | .idle => some ({ s with pending := s.pending.insert chatId .clear }.at i .marking)
    | _ => none
  | .tryMarkScheduled i =>
    match s.threads i with
    | .marking =>
      if s.flushScheduled then some (s.at i .idle)
      else some ({ s with flushScheduled := true }.at i .scheduling)
    | _ => none
  | .scheduleTask i accepted =>
    match s.threads i with
    | .scheduling =>
      if accepted then
        if cfg.coalescible ∧ 0 < s.jobs then some (s.at i .idle)
        else some ({ s with jobs := s.jobs + 1 }.at i .idle)
      else some (s.at i .rejected)
    | _ => none
  | .startJob i =>
    match s.threads i with
    | .idle => if 0 < s.jobs then some ({ s with jobs := s.jobs - 1 }.at i .taking) else none
    | _ => none
  | .takeAll i =>
    match s.threads i with
    | .taking =>
      if s.pending = ∅ then some (s.at i .clearingEmpty)
      else some ({ s with pending := ∅ }.at i (.applying s.pending ∅))
    | _ => none
  | .apply i chatId outcome =>
    match s.threads i with
    | .applying remaining failed =>
      match remaining.lookup chatId with
      | some value =>
        match outcome with
        | .done first =>
          some ({ s with inner := applyPending cfg s.inner first chatId value }.at i
            (.applying (remaining.erase chatId) failed))
        | .failed error left =>
          some ({ s with inner := left }.at i (.applying (remaining.erase chatId)
            (if shouldRetryWriteBackError error then failed.insert chatId value else failed)))
      | none => none
    | _ => none
  | .restoreMissing i =>
    match s.threads i with
    | .applying remaining failed =>
      if remaining = ∅ ∧ failed ≠ ∅ then
        -- what came in since the drain stays as it is
        some ({ s with pending := s.pending ∪ failed }.at i .clearing)
      else none
    | _ => none
  | .clearScheduled i =>
    match s.threads i with
    | .rejected => some ({ s with flushScheduled := false }.at i .idle)
    | .clearingEmpty => some ({ s with flushScheduled := false }.at i .idle)
    | .applying remaining failed =>
      if remaining = ∅ ∧ failed = ∅ then some ({ s with flushScheduled := false }.at i .checking) else none
    | .clearing => some ({ s with flushScheduled := false }.at i .checking)
    | _ => none
  | .hasPending i =>
    match s.threads i with
    | .checking => if s.pending = ∅ then some (s.at i .idle) else some (s.at i .marking)
    | _ => none
  | .peek i chatId =>
    match s.threads i with
    | .idle => if chatId ∈ s.pending then some (s.at i .idle) else some (s.at i (.reading chatId))
    | _ => none
  | .innerGet i =>
    match s.threads i with
    | .reading _ => some (s.at i .idle)
    | _ => none

/-- All that a step can be, each with the state it is taken in. -/
inductive Fires (s : BufferState V) : Action V → BufferState V → Prop where
  | storeSet (i : Nat) (chatId : String) (value : V) (hi : s.threads i = .idle) :
      Fires s (.storeSet i chatId value)
        ({ s with pending := s.pending.insert chatId (.set value) }.at i .marking)
  | storeClear (i : Nat) (chatId : String) (hi : s.threads i = .idle) :
      Fires s (.storeClear i chatId) ({ s with pending := s.pending.insert chatId .clear }.at i .marking)
  | alreadyMarked (i : Nat) (hi : s.threads i = .marking) (hup : s.flushScheduled = true) :
      Fires s (.tryMarkScheduled i) (s.at i .idle)
  | mark (i : Nat) (hi : s.threads i = .marking) (hdown : s.flushScheduled = false) :
      Fires s (.tryMarkScheduled i) ({ s with flushScheduled := true }.at i .scheduling)
  | coalesce (i : Nat) (hi : s.threads i = .scheduling) (hjobs : 0 < s.jobs) :
      Fires s (.scheduleTask i true) (s.at i .idle)
  | schedule (i : Nat) (hi : s.threads i = .scheduling) :
      Fires s (.scheduleTask i true) ({ s with jobs := s.jobs + 1 }.at i .idle)
  | reject (i : Nat) (hi : s.threads i = .scheduling) :
      Fires s (.scheduleTask i false) (s.at i .rejected)
  | startJob (i : Nat) (hi : s.threads i = .idle) (hjobs : 0 < s.jobs) :
      Fires s (.startJob i) ({ s with jobs := s.jobs - 1 }.at i .taking)
  | takeNone (i : Nat) (hi : s.threads i = .taking) (hempty : s.pending = ∅) :
      Fires s (.takeAll i) (s.at i .clearingEmpty)
  | takeAll (i : Nat) (hi : s.threads i = .taking) (hsome : s.pending ≠ ∅) :
      Fires s (.takeAll i) ({ s with pending := ∅ }.at i (.applying s.pending ∅))
  | apply (i : Nat) (chatId : String) (first : HashMap String V → Option String)
      (remaining failed : PendingMap V) (value : PendingValue V)
      (hi : s.threads i = .applying remaining failed) (hvalue : remaining.lookup chatId = some value) :
      Fires s (.apply i chatId (.done first))
        ({ s with inner := applyPending cfg s.inner first chatId value }.at i
          (.applying (remaining.erase chatId) failed))
  | applyFailed (i : Nat) (chatId : String) (error : Error) (left : HashMap String V)
      (remaining failed failed' : PendingMap V) (hi : s.threads i = .applying remaining failed) :
      Fires s (.apply i chatId (.failed error left))
        ({ s with inner := left }.at i (.applying (remaining.erase chatId) failed'))
  | restoreMissing (i : Nat) (failed : PendingMap V) (hi : s.threads i = .applying ∅ failed)
      (hfailed : failed ≠ ∅) :
      Fires s (.restoreMissing i) ({ s with pending := s.pending ∪ failed }.at i .clearing)
  | clearRejected (i : Nat) (hi : s.threads i = .rejected) :
      Fires s (.clearScheduled i) ({ s with flushScheduled := false }.at i .idle)
  | clearEmpty (i : Nat) (hi : s.threads i = .clearingEmpty) :
      Fires s (.clearScheduled i) ({ s with flushScheduled := false }.at i .idle)
  | clearFlushed (i : Nat) (hi : s.threads i = .applying ∅ ∅ ∨ s.threads i = .clearing) :
      Fires s (.clearScheduled i) ({ s with flushScheduled := false }.at i .checking)
  | noPending (i : Nat) (hi : s.threads i = .checking) (hempty : s.pending = ∅) :
      Fires s (.hasPending i) (s.at i .idle)
  | hasPending (i : Nat) (hi : s.threads i = .checking) (hsome : s.pending ≠ ∅) :
      Fires s (.hasPending i) (s.at i .marking)
  | peekHit (i : Nat) (chatId : String) (hi : s.threads i = .idle) (hmem : chatId ∈ s.pending) :
      Fires s (.peek i chatId) (s.at i .idle)
  | peekMiss (i : Nat) (chatId : String) (hi : s.threads i = .idle) (hmem : chatId ∉ s.pending) :
      Fires s (.peek i chatId) (s.at i (.reading chatId))
  | innerGet (i : Nat) (chatId : String) (hi : s.threads i = .reading chatId) :
      Fires s (.innerGet i) (s.at i .idle)

theorem fires_of_step {s t : BufferState V} {a : Action V} (h : step cfg s a = some t) :
    Fires cfg s a t := by
  cases a with
  | storeSet i chatId value =>
    simp only [step] at h
    split at h
    · cases h
      exact .storeSet i chatId value ‹_›
    · cases h
  | storeClear i chatId =>
    simp only [step] at h
    split at h
    · cases h
      exact .storeClear i chatId ‹_›
    · cases h
  | tryMarkScheduled i =>
    simp only [step] at h
    split at h
    · split at h
      · cases h
        exact .alreadyMarked i ‹_› ‹_›
      · cases h
        exact .mark i ‹_› (Bool.eq_false_iff.mpr ‹_›)
    · cases h
  | scheduleTask i accepted =>
    simp only [step] at h
    split at h
    · cases accepted with
      | false =>
        cases h
        exact .reject i ‹_›
      | true =>
        simp only [if_true] at h
        split at h
        · rename_i hjobs
          cases h
          exact .coalesce i ‹_› hjobs.2
        · cases h
          exact .schedule i ‹_›
    · cases h
  | startJob i =>
    simp only [step] at h
    split at h
    · split at h
      · cases h
        exact .startJob i ‹_› ‹_›
      · cases h
    · cases h
  | takeAll i =>
    simp only [step] at h
    split at h
    · split at h
      · cases h
        exact .takeNone i ‹_› ‹_›
      · cases h
        exact .takeAll i ‹_› ‹_›
    · cases h
  | apply i chatId outcome =>
    simp only [step] at h
    split at h
    · split at h
      · cases outcome with
        | done first =>
          cases h
          exact .apply i chatId first _ _ _ ‹_› ‹_›
        | failed error left =>
          cases h
          exact .applyFailed i chatId error left _ _ _ ‹_›
      · cases h
    · cases h
  | restoreMissing i =>
    simp only [step] at h
    split at h
    · rename_i hi
      split at h
      · rename_i hdone
        obtain ⟨rfl, hfailed⟩ := hdone
        cases h
        exact .restoreMissing i _ hi hfailed
      · cases h
    · cases h
  | clearScheduled i =>
    simp only [step] at h
    split at h
    · cases h
      exact .clearRejected i ‹_›
    · cases h
      exact .clearEmpty i ‹_›
    · rename_i hi
      split at h
      · rename_i hdone
        obtain ⟨rfl, rfl⟩ := hdone
        cases h
        exact .clearFlushed i (.inl hi)
      · cases h
    · cases h
      exact .clearFlushed i (.inr ‹_›)
    · cases h
  | hasPending i =>
    simp only [step] at h
    split at h
    · split at h
      · cases h
        exact .noPending i ‹_› ‹_›
      · cases h
        exact .hasPending i ‹_› ‹_›
    · cases h
  | peek i chatId =>
    simp only [step] at h
    split at h
    · split at h
      · cases h
        exact .peekHit i chatId ‹_› ‹_›
      · cases h
        exact .peekMiss i chatId ‹_› ‹_›
    · cases h
  | innerGet i =>
    simp only [step] at h
    split at h
    · cases h
      exact .innerGet i _ ‹_›
    · cases h

end
end Beetle.Runtime.WriteBack
