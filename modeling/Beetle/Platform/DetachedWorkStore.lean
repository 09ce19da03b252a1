import Beetle.Agent.ActiveWork
import Beetle.Platform.CachedJson

/-! The store of detached work: one record a key, with a revision that counts on
while the record is there. -/
namespace Beetle.Platform.Storage
open Beetle.Lib Beetle.Agent

def maxDetachedWorkItems : Nat := 96

def u64Max : Nat := 2 ^ 64 - 1

def saturatingAdd (a b : Nat) : Nat := min (a + b) u64Max

theorem saturatingAdd_of_lt {a : Nat} (h : a < u64Max) : saturatingAdd a 1 = a + 1 :=
  Nat.min_eq_left h

abbrev StoredDetachedWorkMap (J : Type) := HashMap String (DetachedWorkRecord J)

namespace StorageDetachedWorkStore
variable {J : Type}

/-- The key has no record and the map is full. -/
def NeedsRoom (map : StoredDetachedWorkMap J) (storageKey : String) : Prop :=
  storageKey ∉ map ∧ maxDetachedWorkItems ≤ map.keys.card

instance (map : StoredDetachedWorkMap J) (storageKey : String) : Decidable (NeedsRoom map storageKey) :=
  inferInstanceAs (Decidable (_ ∧ _))

/-- No record is older, which is all that `min_by_key` over the map tells. -/
def isOldest (map : StoredDetachedWorkMap J) (storageKey : String) : Bool :=
  (map.lookup storageKey).any fun record => decide (∀ entry ∈ map.entries, record.updatedAtMs ≤ entry.2.updatedAtMs)

section
variable [DecidableEq J]

/-- The record already asks for this. -/
def asAsked (current : DetachedWorkRecord J) (job : J) (wakeAtMs : Nat) (reason : String) : Bool :=
  current.job = job && current.wakeAtMs = wakeAtMs && current.lastReason = reason && current.state = .pending

/-- `oldestKey` is the record that makes room where room is needed. -/
def upsertClosure (key : DetachedWorkKey) (job : J) (wakeAtMs : Nat) (reason oldestKey : String) (now : Nat)
    (map : StoredDetachedWorkMap J) :
    StoredDetachedWorkMap J × Except Error (StoreOp (DetachedWorkUpsertOutcome J)) :=
  let reason := trimStr reason
  let store (map : StoredDetachedWorkMap J) (revision : Nat) :=
    let record := ⟨key, job, .pending, wakeAtMs, revision, reason, now⟩
    (map.insert key.storageKey record, .ok (.changed ⟨true, record⟩))
  match map.lookup key.storageKey with
  | some current =>
    if asAsked current job wakeAtMs reason then (map, .ok (.clean ⟨false, current⟩))
    else store map (saturatingAdd current.revision 1)
  | none => store (if NeedsRoom map key.storageKey then map.erase oldestKey else map) 1

end

def markQueuedClosure (key : DetachedWorkKey) (revision now : Nat) (map : StoredDetachedWorkMap J) :
    StoredDetachedWorkMap J × Except Error (StoreOp Bool) :=
  match map.lookup key.storageKey with
  | none => (map, .ok (.clean false))
  | some record =>
    if record.revision ≠ revision ∨ record.state ≠ .pending then (map, .ok (.clean false))
    else (map.insert key.storageKey { record with state := .queued, updatedAtMs := now }, .ok (.changed true))

def claimRunningClosure (key : DetachedWorkKey) (revision now : Nat) (map : StoredDetachedWorkMap J) :
    StoredDetachedWorkMap J × Except Error (StoreOp (Option (DetachedWorkRecord J))) :=
  match map.lookup key.storageKey with
  | none => (map, .ok (.clean none))
  | some record =>
    if record.revision ≠ revision ∨ ¬ (record.state = .pending ∨ record.state = .queued) then
      (map, .ok (.clean none))
    else
      let record := { record with state := .running, updatedAtMs := now }
      (map.insert key.storageKey record, .ok (.changed (some record)))

def rescheduleClosure (key : DetachedWorkKey) (revision wakeAtMs : Nat) (reason : String) (now : Nat)
    (map : StoredDetachedWorkMap J) :
    StoredDetachedWorkMap J × Except Error (StoreOp (Option (DetachedWorkRecord J))) :=
  match map.lookup key.storageKey with
  | none => (map, .ok (.clean none))
  | some record =>
    if record.revision ≠ revision then (map, .ok (.clean none))
    else
      let record := { record with
        revision := saturatingAdd record.revision 1
        state := .pending
        wakeAtMs
        lastReason := trimStr reason
        updatedAtMs := now }
      (map.insert key.storageKey record, .ok (.changed (some record)))

def finishClosure (key : DetachedWorkKey) (revision : Nat) (map : StoredDetachedWorkMap J) :
    StoredDetachedWorkMap J × Except Error (StoreOp Unit) :=
  if (map.lookup key.storageKey).any fun record => record.revision = revision then
    (map.erase key.storageKey, .ok (.changed ()))
  else (map, .ok (.clean ()))

end StorageDetachedWorkStore

/-! Who holds which job: the claims on the records over whole runs of the store. -/

inductive WorkAction (J : Type) where
  | upsert (key : DetachedWorkKey) (job : J) (wakeAtMs : Nat) (reason oldestKey : String) (now : Nat)
  | markQueued (key : DetachedWorkKey) (revision now : Nat)
  | claimRunning (key : DetachedWorkKey) (revision now : Nat)
  | reschedule (key : DetachedWorkKey) (revision wakeAtMs : Nat) (reason : String) (now : Nat)
  | finish (key : DetachedWorkKey) (revision : Nat)

/-- A call of `claim_running` that returned a record. -/
structure WorkClaim where
  key : String
  revision : Nat
  claimedAt : Nat

/-- A claimant of the revision that a `finish` removed, and the job it removed. -/
structure FinishedWork where
  claimedAt : Nat
  upsertedAt : Nat

/-- The store with the number of calls so far, the last upsert of each key, the
claims granted, and what calls of `finish` have removed under them. -/
structure WatchedWorks (J : Type) where
  state : StoreState (StoredDetachedWorkMap J)
  clock : Nat
  upserted : String → Nat
  claims : List WorkClaim
  finished : List FinishedWork

def WatchedWorks.init {J : Type} (disk : Option Bytes) : WatchedWorks J := ⟨⟨none, disk⟩, 0, fun _ => 0, [], []⟩

namespace StorageDetachedWorkStore
variable {J : Type} [DecidableEq J] (store : CachedJsonFileStore (StoredDetachedWorkMap J)) {w : WatchedWorks Nat}

/-- What is known of the calls before and after one more call. -/
def watchFinish (w : WatchedWorks J) (faults : Faults) (key : DetachedWorkKey) (revision : Nat) : List FinishedWork :=
  match store.seen w.state faults with
  | .error _ => []
  | .ok map =>
    if (map.lookup key.storageKey).any fun record => record.revision = revision then
      (w.claims.filter fun claim => claim.key = key.storageKey ∧ claim.revision = revision).map fun claim =>
        ⟨claim.claimedAt, w.upserted key.storageKey⟩
    else []

/-- Room is made by the removal of an oldest record. -/
def roomIsMade (w : WatchedWorks J) (faults : Faults) (key : DetachedWorkKey) (oldestKey : String) : Bool :=
  match store.seen w.state faults with
  | .error _ => true
  | .ok map => !decide (NeedsRoom map key.storageKey) || isOldest map oldestKey

@[grind =] def step (w : WatchedWorks J) (a : WorkAction J × Faults) : Option (WatchedWorks J) :=
  match a.1 with
  | .upsert key job wakeAtMs reason oldestKey now =>
    if roomIsMade store w a.2 key oldestKey then
      some { w with
        state := (store.withCachedMut w.state a.2 (upsertClosure key job wakeAtMs reason oldestKey now)).1
        clock := w.clock + 1
        upserted := if (store.seen w.state a.2).isOk then Function.update w.upserted key.storageKey w.clock
          else w.upserted }
    else none
  | .markQueued key revision now =>
    some { w with
      state := (store.withCachedMut w.state a.2 (markQueuedClosure key revision now)).1
      clock := w.clock + 1 }
  | .claimRunning key revision now =>
    let (state, result) := store.withCachedMut w.state a.2 (claimRunningClosure key revision now)
    let claims :=
      match result with
      | .ok (some _) => ⟨key.storageKey, revision, w.clock⟩ :: w.claims
      | _ => w.claims
    some { w with state, clock := w.clock + 1, claims }
  | .reschedule key revision wakeAtMs reason now =>
    some { w with
      state := (store.withCachedMut w.state a.2 (rescheduleClosure key revision wakeAtMs reason now)).1
      clock := w.clock + 1 }
  | .finish key revision =>
    some { w with
      state := (store.withCachedMut w.state a.2 (finishClosure key revision)).1
      clock := w.clock + 1
      finished := watchFinish store w a.2 key revision ++ w.finished }

/-- No revision of a key is claimed twice, and no claimant's `finish` removes a
job that is newer than its claim. -/
structure ClaimsExclusive (w : WatchedWorks J) : Prop where
  once : (w.claims.map fun claim => (claim.key, claim.revision)).Nodup
  older : ∀ work ∈ w.finished, work.upsertedAt ≤ work.claimedAt

/-- An upsert makes a record anew only where none was claimed before, and no
revision at the end of the number range is to be counted on. -/
def KeepsRevisions (w : WatchedWorks J) (a : WorkAction J × Faults) : Prop :=
  ∀ map, store.seen w.state a.2 = .ok map →
    match a.1 with
    | .upsert key job wakeAtMs reason _ _ =>
      match map.lookup key.storageKey with
      | none => ∀ claim ∈ w.claims, claim.key ≠ key.storageKey
      | some current => asAsked current job wakeAtMs (trimStr reason) = true ∨ current.revision < u64Max
    | .reschedule key revision _ _ _ => key.storageKey ∈ map → revision < u64Max
    | _ => True

/-! What holds of the map throughout. -/

/-- The claims on the record of a key are on its revision or on earlier ones, and
one on its revision is on a running job that was there by then. -/
def HeldBy (claims : List WorkClaim) (upsertedAt : Nat) (key : String) (record : DetachedWorkRecord J) : Prop :=
  ∀ claim ∈ claims, claim.key = key → claim.revision ≤ record.revision ∧
    (claim.revision = record.revision → record.state = .running ∧ upsertedAt ≤ claim.claimedAt)

def Held (claims : List WorkClaim) (upserted : String → Nat) (map : StoredDetachedWorkMap J) : Prop :=
  ∀ key record, map.lookup key = some record → HeldBy claims (upserted key) key record

structure ClaimsCoherent (w : WatchedWorks J) : Prop where
  exclusive : ClaimsExclusive w
  upserted : ∀ key, w.upserted key ≤ w.clock
  held : ∀ map, store.cachedValue w.state = .ok map → Held w.claims w.upserted map

section
omit [DecidableEq J]
variable {claims : List WorkClaim} {upserted : String → Nat} {map : StoredDetachedWorkMap J} {key : String}
  {record : DetachedWorkRecord J} {record' : DetachedWorkRecord J}

section
variable (h : Held claims upserted map)
include h

theorem Held.insert_update {time : Nat} (hrecord : HeldBy claims time key record) :
    Held claims (Function.update upserted key time) (map.insert key record) := by
  intro other current hcurrent
  by_cases heq : other = key
  · subst heq
    obtain rfl : record = current := by simpa using hcurrent
    rw [Function.update_self]
    exact hrecord
  · have hlookup : (map.insert key record).lookup other = map.lookup other := Finmap.lookup_insert_of_ne map heq
    rw [Function.update_of_ne heq]
    exact h other current (hlookup.symm.trans hcurrent)

theorem Held.insert (hrecord : HeldBy claims (upserted key) key record) :
    Held claims upserted (map.insert key record) := by
  have hinsert := h.insert_update hrecord
  rwa [Function.update_eq_self] at hinsert

theorem Held.erase (key : String) : Held claims upserted (map.erase key) := by
  intro other current hcurrent
  by_cases heq : other = key
  · subst heq
    simp at hcurrent
  · have hlookup : (map.erase key).lookup other = map.lookup other := Finmap.lookup_erase_ne heq
    exact h other current (hlookup.symm.trans hcurrent)

/-- A later upsert leaves the other keys as they are. -/
theorem Held.update (time : Nat) (hrecord : ∀ record, map.lookup key = some record → HeldBy claims time key record) :
    Held claims (Function.update upserted key time) map := by
  intro other current hcurrent
  by_cases heq : other = key
  · subst heq
    rw [Function.update_self]
    exact hrecord current hcurrent
  · rw [Function.update_of_ne heq]
    exact h other current hcurrent

end

/-- A record that is not running is held by nobody yet. -/
theorem HeldBy.of_not_running {time time' : Nat} (h : HeldBy claims time key record)
    (hstate : record.state ≠ .running) (hrevision : record'.revision = record.revision) :
    HeldBy claims time' key record' := by
  intro claim hclaim hkey
  obtain ⟨hle, heq⟩ := h claim hclaim hkey
  rw [hrevision]
  exact ⟨hle, fun hr => absurd (heq hr).1 hstate⟩

/-- Counting the revision on leaves all claims behind. -/
theorem HeldBy.of_next {time time' : Nat} (h : HeldBy claims time key record)
    (hrevision : record'.revision = record.revision + 1) : HeldBy claims time' key record' := by
  intro claim hclaim hkey
  have hle := (h claim hclaim hkey).1
  rw [hrevision]
  exact ⟨by omega, fun hr => by omega⟩

theorem heldBy_of_unclaimed {time : Nat} (h : ∀ claim ∈ claims, claim.key ≠ key) :
    HeldBy claims time key record :=
  fun claim hclaim hkey => absurd hkey (h claim hclaim)

/-! What each closure makes of it. -/

section
variable (h : Held claims upserted map)
include h

theorem held_markQueued (key : DetachedWorkKey) (revision now : Nat) :
    Held claims upserted (markQueuedClosure key revision now map).1 := by
  unfold markQueuedClosure
  split
  · exact h
  · rename_i record hrecord
    split
    · exact h
    · rename_i hpending
      have hstate : record.state = .pending := by
        by_contra hne
        exact hpending (.inr hne)
      refine h.insert ((h _ record hrecord).of_not_running ?_ rfl)
      simp [hstate]

theorem held_reschedule (key : DetachedWorkKey) (revision wakeAtMs : Nat)
    (reason : String) (now : Nat) (hlt : key.storageKey ∈ map → revision < u64Max) :
    Held claims upserted (rescheduleClosure key revision wakeAtMs reason now map).1 := by
  unfold rescheduleClosure
  split
  · exact h
  · rename_i record hrecord
    split
    · exact h
    · rename_i hrevision
      have heq : record.revision = revision := not_not.mp hrevision
      have hmax := hlt (Finmap.mem_of_lookup_eq_some hrecord)
      refine h.insert ((h _ record hrecord).of_next ?_)
      exact saturatingAdd_of_lt (heq ▸ hmax)

theorem held_finish (key : DetachedWorkKey) (revision : Nat) :
    Held claims upserted (finishClosure key revision map).1 := by
  unfold finishClosure
  split
  · exact h.erase key.storageKey
  · exact h

end

/-- A record to be claimed is not running, and has the revision of the claim. -/
theorem claimRunning_cases (key : DetachedWorkKey) (revision now : Nat) (map : StoredDetachedWorkMap J) :
    claimRunningClosure key revision now map = (map, .ok (.clean none)) ∨
      ∃ record, map.lookup key.storageKey = some record ∧ record.revision = revision ∧ record.state ≠ .running ∧
        claimRunningClosure key revision now map =
          (map.insert key.storageKey { record with state := .running, updatedAtMs := now },
            .ok (.changed (some { record with state := .running, updatedAtMs := now }))) := by
  unfold claimRunningClosure
  split
  · exact .inl rfl
  · rename_i record hrecord
    split
    · exact .inl rfl
    · rename_i hfree
      obtain ⟨hrevision, hstate⟩ := not_or.mp hfree
      refine .inr ⟨record, hrecord, not_not.mp hrevision, ?_, rfl⟩
      rcases not_not.mp hstate with hs | hs
      · simp [hs]
      · simp [hs]

theorem held_claimRunning (h : Held claims upserted map) (key : DetachedWorkKey) (revision now : Nat) :
    Held claims upserted (claimRunningClosure key revision now map).1 := by
  rcases claimRunning_cases key revision now map with hnone | ⟨record, hrecord, -, hstate, hclaim⟩
  · rw [hnone]
    exact h
  · rw [hclaim]
    exact h.insert ((h _ record hrecord).of_not_running hstate rfl)

/-- A claim that is granted is held from then on. -/
theorem held_claimed (h : Held claims upserted map) {key : DetachedWorkKey} {revision now clock : Nat}
    (hclock : upserted key.storageKey ≤ clock) {record : DetachedWorkRecord J}
    (hrecord : map.lookup key.storageKey = some record) (hrevision : record.revision = revision)
    (hstate : record.state ≠ .running) :
    Held (⟨key.storageKey, revision, clock⟩ :: claims) upserted
      (map.insert key.storageKey { record with state := .running, updatedAtMs := now }) := by
  have hrunning : HeldBy claims (upserted key.storageKey) key.storageKey
      { record with state := .running, updatedAtMs := now } := (h _ record hrecord).of_not_running hstate rfl
  have hkept := h.insert hrunning
  intro other current hcurrent claim hclaim hkey
  rcases List.mem_cons.mp hclaim with rfl | hclaim
  · obtain rfl : key.storageKey = other := hkey
    obtain rfl : { record with state := .running, updatedAtMs := now } = current := by simpa using hcurrent
    exact ⟨hrevision.ge, fun _ => ⟨rfl, hclock⟩⟩
  · exact hkept other current hcurrent claim hclaim hkey

end

theorem held_upsert {claims : List WorkClaim} {upserted : String → Nat} {map : StoredDetachedWorkMap J}
    (h : Held claims upserted map) (key : DetachedWorkKey) (job : J) (wakeAtMs : Nat) (reason oldestKey : String)
    (now clock : Nat)
    (hfresh : match map.lookup key.storageKey with
      | none => ∀ claim ∈ claims, claim.key ≠ key.storageKey
      | some current => asAsked current job wakeAtMs (trimStr reason) = true ∨ current.revision < u64Max) :
    Held claims (Function.update upserted key.storageKey clock)
      (upsertClosure key job wakeAtMs reason oldestKey now map).1 := by
  unfold upsertClosure
  cases hlookup : map.lookup key.storageKey with
  | none =>
    simp only [hlookup] at hfresh ⊢
    split
    · exact (h.erase oldestKey).insert_update (heldBy_of_unclaimed hfresh)
    · exact h.insert_update (heldBy_of_unclaimed hfresh)
  | some current =>
    simp only [hlookup] at hfresh ⊢
    split
    · rename_i hasked
      refine h.update clock fun record hrecord => ?_
      obtain rfl : current = record := Option.some.inj (hlookup.symm.trans hrecord)
      have hstate : current.state = .pending := by
        simp only [asAsked, Bool.and_eq_true, decide_eq_true_eq] at hasked
        exact hasked.2
      exact (h _ current hlookup).of_not_running (by simp [hstate]) rfl
    · rename_i hasked
      have hlt := hfresh.resolve_left hasked
      exact h.insert_update ((h _ current hlookup).of_next (saturatingAdd_of_lt hlt))

/-! What a step keeps. -/

section
variable {store : CachedJsonFileStore (StoredDetachedWorkMap J)} {w : WatchedWorks J}

omit [DecidableEq J] in
/-- A call hands on what its closure makes of the map. -/
theorem held_call {R : Type} {claims : List WorkClaim} {upserted : String → Nat} {faults : Faults}
    {f : StoredDetachedWorkMap J → StoredDetachedWorkMap J × Except Error (StoreOp R)}
    (hread : ∀ map, store.seen w.state faults = .ok map → Held claims upserted (f map).1)
    (hunread : ∀ e, store.seen w.state faults = .error e →
      ∀ map, store.cachedValue w.state = .ok map → Held claims upserted map)
    (map : StoredDetachedWorkMap J) (hmap : store.cachedValue (store.withCachedMut w.state faults f).1 = .ok map) :
    Held claims upserted map := by
  cases hseen : store.seen w.state faults with
  | error e =>
    have hsame : (store.withCachedMut w.state faults f).1 = w.state := by
      simp [CachedJsonFileStore.withCachedMut, hseen]
    rw [hsame] at hmap
    exact hunread e hseen map hmap
  | ok value =>
    rw [store.cachedValue_withCachedMut f hseen] at hmap
    obtain rfl := Except.ok.inj hmap
    exact hread value hseen

omit [DecidableEq J] in
theorem older_watchFinish (hw : ClaimsCoherent store w) (faults : Faults) (key : DetachedWorkKey) (revision : Nat) :
    ∀ work ∈ watchFinish store w faults key revision, work.upsertedAt ≤ work.claimedAt := by
  intro work hwork
  unfold watchFinish at hwork
  split at hwork
  · cases hwork
  · rename_i map hseen
    split at hwork
    · rename_i hremoved
      obtain ⟨record, hrecord, hrevision⟩ := (Option.any_eq_true _ _).mp hremoved
      obtain ⟨claim, hclaim, rfl⟩ := List.mem_map.mp hwork
      obtain ⟨hmem, hclaim⟩ := List.mem_filter.mp hclaim
      simp only [decide_eq_true_eq] at hclaim hrevision
      have hheld := hw.held map (store.seen_eq_ok hseen) _ record hrecord claim hmem hclaim.1
      exact (hheld.2 (hclaim.2.trans hrevision.symm)).2
    · cases hwork

theorem claimsCoherent_step {a : WorkAction J × Faults} {t : WatchedWorks J} (hw : ClaimsCoherent store w)
    (hc : KeepsRevisions store w a) (ht : step store w a = some t) : ClaimsCoherent store t := by
  obtain ⟨action, faults⟩ := a
  have hread {map : StoredDetachedWorkMap J} (hseen : store.seen w.state faults = .ok map) :
      Held w.claims w.upserted map := hw.held map (store.seen_eq_ok hseen)
  have hlater (key : String) : w.upserted key ≤ w.clock + 1 := (hw.upserted key).trans (Nat.le_succ _)
  cases action with
  | upsert key job wakeAtMs reason oldestKey now =>
    simp only [step] at ht
    split at ht
    · cases ht
      have hupserted (other : String) : (if (store.seen w.state faults).isOk then
          Function.update w.upserted key.storageKey w.clock else w.upserted) other ≤ w.clock + 1 := by
        split
        · by_cases heq : other = key.storageKey
          · rw [heq, Function.update_self]
            exact Nat.le_succ _
          · rw [Function.update_of_ne heq]
            exact hlater other
        · exact hlater other
      refine ⟨⟨hw.exclusive.once, hw.exclusive.older⟩, hupserted, held_call (fun map hseen => ?_) fun e hseen => ?_⟩
      · have hfresh := hc map hseen
        simp only [hseen, Except.isOk, Except.toBool, if_true]
        exact held_upsert (hread hseen) key job wakeAtMs reason oldestKey now w.clock hfresh
      · simp only [hseen, Except.isOk, Except.toBool, Bool.false_eq_true, if_false]
        exact hw.held
    · cases ht
  | markQueued key revision now =>
    cases ht
    exact ⟨⟨hw.exclusive.once, hw.exclusive.older⟩, hlater, held_call (fun map hseen => held_markQueued (hread hseen) key revision now)
      fun e _ => hw.held⟩
  | reschedule key revision wakeAtMs reason now =>
    cases ht
    refine ⟨⟨hw.exclusive.once, hw.exclusive.older⟩, hlater, held_call (fun map hseen => ?_) fun e _ => hw.held⟩
    exact held_reschedule (hread hseen) key revision wakeAtMs reason now (hc map hseen)
  | finish key revision =>
    cases ht
    refine ⟨⟨hw.exclusive.once, fun work hwork => ?_⟩, hlater,
      held_call (fun map hseen => held_finish (hread hseen) key revision) fun e _ => hw.held⟩
    rcases List.mem_append.mp hwork with hwork | hwork
    · exact older_watchFinish hw faults key revision work hwork
    · exact hw.exclusive.older work hwork
  | claimRunning key revision now =>
    simp only [step, Option.some.injEq] at ht
    subst ht
    cases hresult : (store.withCachedMut w.state faults (claimRunningClosure key revision now)).2 with
    | error e =>
      exact ⟨⟨hw.exclusive.once, hw.exclusive.older⟩, hlater, held_call (fun map hseen => held_claimRunning (hread hseen) key revision now)
        fun e _ => hw.held⟩
    | ok answer =>
      cases answer with
      | none =>
        exact ⟨⟨hw.exclusive.once, hw.exclusive.older⟩, hlater, held_call (fun map hseen => held_claimRunning (hread hseen) key revision now)
          fun e _ => hw.held⟩
      | some claimed =>
        obtain ⟨map, op, hseen, hop, hclaimed⟩ := store.withCachedMut_eq_ok hresult
        rcases claimRunning_cases key revision now map with hnone | ⟨record, hrecord, hrevision, hstate, hclaim⟩
        · rw [hnone] at hop
          cases hop
          cases hclaimed
        · refine ⟨⟨?_, hw.exclusive.older⟩, hlater, fun map' hmap' => ?_⟩
          · refine List.nodup_cons.mpr ⟨fun hmem => ?_, hw.exclusive.once⟩
            obtain ⟨claim, hmem, heq⟩ := List.mem_map.mp hmem
            obtain ⟨hkey, hrev⟩ := Prod.mk.inj heq
            have hheld := hread hseen _ record hrecord claim hmem hkey
            exact hstate (hheld.2 (hrev.trans hrevision.symm)).1
          · rw [store.cachedValue_withCachedMut _ hseen, hclaim] at hmap'
            obtain rfl := Except.ok.inj hmap'
            exact held_claimed (hread hseen) (hw.upserted _) hrecord hrevision hstate

omit [DecidableEq J] in
theorem claimsCoherent_init (disk : Option Bytes) : ClaimsCoherent store (.init disk) := by
  refine ⟨⟨List.nodup_nil, ?_⟩, fun _ => Nat.le_refl _, fun map _ key record _ claim hclaim => ?_⟩
  · intro work hwork
    cases hwork
  · cases hclaim

end

/-- In a run that keeps the revisions of its keys every claim is exclusive, and
what a claimant finishes is what it claimed or older. -/
theorem claims_exclusive (store : CachedJsonFileStore (StoredDetachedWorkMap J)) (disk : Option Bytes)
    (actions : List (WorkAction J × Faults))
    (h : Meets (step store) (KeepsRevisions store) actions (.init disk)) :
    Always (step store) ClaimsExclusive actions (.init disk) := by
  apply always_of_meets (I := ClaimsCoherent store)
  · exact fun w a t hw hc ht => claimsCoherent_step hw hc ht
  · exact fun w hw => hw.exclusive
  · exact claimsCoherent_init disk
  · exact h

/-! One job, finished and asked for once more. -/

def workKey : DetachedWorkKey := ⟨"qq", "1", .idleMemoryForge⟩

def workRecord (state : DetachedWorkState) : DetachedWorkRecord Nat := ⟨workKey, 7, state, 0, 1, "", 0⟩

def workMap (state : DetachedWorkState) : StoredDetachedWorkMap Nat :=
  Finmap.singleton workKey.storageKey (workRecord state)

def workJsonHead : String :=
  "\x7b\"qq\\u001f|1\\u001f|idle_memory_forge\":\x7b\"key\":\x7b\"owner_channel\":\"qq\",\"owner_chat_id\":\"1\"," ++
    "\"kind\":\"idle_memory_forge\"\x7d,\"job\":7,\"state\":\""

def workJsonRest : String :=
  "\",\"wake_at_ms\":0,\"revision\":1,\"last_reason\":\"\",\"updated_at_ms\":0\x7d\x7d"

def workJson (state : String) : Bytes := utf8 workJsonHead.toList ++ utf8 state.toList ++ utf8 workJsonRest.toList

theorem length_workJson {state : String} (h : state.utf8ByteSize = 7) :
    2 < (workJson state).length ∧ (workJson state).length ≤ maxWriteSizeHost := by
  have hhead : workJsonHead.utf8ByteSize ≤ 200 := by decide +kernel
  have hrest : workJsonRest.utf8ByteSize ≤ 200 := by decide
  simp only [workJson, List.length_append, length_utf8_toList, maxWriteSizeHost, h]
  omega

theorem workJson_ne : workJson "running" ≠ workJson "pending" := by
  intro h
  have hstate := List.append_cancel_left (List.append_cancel_right h)
  exact absurd hstate (by decide)

def workCodec : JsonCodec (StoredDetachedWorkMap Nat) :=
  JsonCodec.ofTwoMaps (workMap .pending) (workMap .running) (workJson "pending") (workJson "running")
    (length_workJson (by decide)).1 (length_workJson (by decide)).1 workJson_ne

def workStore : CachedJsonFileStore (StoredDetachedWorkMap Nat) where
  maxWriteSize := maxWriteSizeHost
  toVec := workCodec.toVec
  loadFn := loadJsonOrDefault workCodec
  stageCache := "detached_work_cache"
  stagePersist := "detached_work_persist"
  load_toVec := loadJsonOrDefault_toVec workCodec
  load_error := loadJsonOrDefault_error workCodec

def upsertWork : WorkAction Nat × Faults := (.upsert workKey 7 0 "" "" 0, ⟨none, .done⟩)
def claimWork : WorkAction Nat × Faults := (.claimRunning workKey 1 0, ⟨none, .done⟩)
def finishWork : WorkAction Nat × Faults := (.finish workKey 1, ⟨none, .done⟩)

theorem toVec_workMap : workStore.toVec (workMap .pending) = .ok (workJson "pending") ∧
    workStore.toVec (workMap .running) = .ok (workJson "running") ∧ workStore.toVec ∅ = .ok [123, 125] := by
  have hpending : workMap .pending ≠ ∅ := by decide
  have hrunning : workMap .running ≠ ∅ := by decide
  have hne : workMap .running ≠ workMap .pending := by decide
  simp [workStore, workCodec, JsonCodec.ofTwoMaps, hpending, hrunning, hne]

theorem step_upsertWork (h : workStore.seen w.state ⟨none, .done⟩ = .ok ∅) :
    step workStore w upsertWork = some { w with
      state := ⟨some (workMap .pending), some (workJson "pending")⟩
      clock := w.clock + 1
      upserted := Function.update w.upserted workKey.storageKey w.clock } := by
  have hmap : upsertClosure workKey 7 0 "" "" 0 ∅ =
      (workMap .pending, .ok (.changed ⟨true, workRecord .pending⟩)) := by rfl
  have hcall := workStore.withCachedMut_of_written h hmap toVec_workMap.1
    (length_workJson (by decide)).2 rfl
  have hroom : roomIsMade workStore w ⟨none, .done⟩ workKey "" = true := by
    rw [roomIsMade, h]
    decide
  simp [step, upsertWork, hroom, hcall, h, Except.isOk, Except.toBool]

theorem step_claimWork (h : workStore.seen w.state ⟨none, .done⟩ = .ok (workMap .pending)) :
    step workStore w claimWork = some { w with
      state := ⟨some (workMap .running), some (workJson "running")⟩
      clock := w.clock + 1
      claims := ⟨workKey.storageKey, 1, w.clock⟩ :: w.claims } := by
  have hmap : claimRunningClosure workKey 1 0 (workMap .pending) =
      (workMap .running, .ok (.changed (some (workRecord .running)))) := by rfl
  have hcall := workStore.withCachedMut_of_written h hmap toVec_workMap.2.1
    (length_workJson (by decide)).2 rfl
  simp [step, claimWork, hcall]

theorem step_finishWork (h : workStore.seen w.state ⟨none, .done⟩ = .ok (workMap .running)) :
    step workStore w finishWork = some { w with
      state := ⟨some ∅, some [123, 125]⟩
      clock := w.clock + 1
      finished := watchFinish workStore w ⟨none, .done⟩ workKey 1 ++ w.finished } := by
  have hmap : finishClosure workKey 1 (workMap .running) = (∅, .ok (.changed ())) := by rfl
  have hcall := workStore.withCachedMut_of_written h hmap toVec_workMap.2.2
    (by decide) rfl
  simp [step, finishWork, hcall]

theorem revision_claimed_twice :
    ¬ Always (step workStore) ClaimsExclusive [upsertWork, claimWork, finishWork, upsertWork, claimWork]
      (.init none) := by
  intro h
  have hend := ((((h.2 _ (step_upsertWork rfl)).2 _ (step_claimWork rfl)).2 _ (step_finishWork rfl)).2 _
    (step_upsertWork rfl)).2 _ (step_claimWork rfl)
  exact absurd hend.once (by decide)

theorem claims_exclusive_of_one_job :
    Always (step workStore) ClaimsExclusive [upsertWork, claimWork, finishWork] (.init none) := by
  apply claims_exclusive
  refine fun t ht => ⟨?_, fun u hu => ⟨?_, fun v _ => ⟨?_, trivial⟩⟩⟩
  · rintro map ⟨⟩ claim hclaim
    cases hclaim
  · exact fun _ _ => trivial
  · exact fun _ _ => trivial

end StorageDetachedWorkStore
end Beetle.Platform.Storage
