import Beetle.Lib.Run
import Beetle.Runtime.Lease

/-! Safety of the lease registry over whole runs of acquire and release calls
with non-decreasing timestamps. -/
namespace Beetle.Runtime.Lease
open Beetle.Lib

/-- One call of the registry's interface; only acquisitions carry a timestamp. -/
inductive Call where
  | tryAcquireWithPolicyAt (kind : LeaseKind) (owner : LeaseOwner) (mode : LeaseMode)
      (ttlMs : Option Nat) (nowMs : Nat) (replacePolicy : LeaseReplacePolicy)
  | tryAcquireExclusiveOnceAt (kind : LeaseKind) (owner : LeaseOwner) (ttlMs : Option Nat)
      (nowMs : Nat) (replacePolicy : LeaseReplacePolicy)
  | release (kind : LeaseKind) (owner : LeaseOwner)
  | releaseToken (kind : LeaseKind) (owner : LeaseOwner) (token : Nat)
  | releaseOwner (owner : LeaseOwner)
  | releaseKind (kind : LeaseKind)

/-- The registry between two calls, the latest timestamp passed to it, and what
the last call answered if it was an acquisition, with the ttl it asked for. -/
structure State where
  registry : LeaseRegistry
  nowMs : Nat
  last : Option (Option Nat × LeaseDecision)
  deriving DecidableEq

def State.init : State := ⟨.empty, 0, none⟩

/-- Carry out one call; a timestamp older than an earlier one is not accepted. -/
def step (s : State) : Call → Option State
  | .tryAcquireWithPolicyAt kind owner mode ttlMs nowMs policy =>
    if nowMs < s.nowMs then none else
      let (decision, registry) :=
        tryAcquireWithPolicyAt s.registry kind owner mode ttlMs nowMs policy
      some ⟨registry, nowMs, some (ttlMs, decision)⟩
  | .tryAcquireExclusiveOnceAt kind owner ttlMs nowMs policy =>
    if nowMs < s.nowMs then none else
      let (decision, registry) := tryAcquireExclusiveOnceAt s.registry kind owner ttlMs nowMs policy
      some ⟨registry, nowMs, some (ttlMs, decision)⟩
  | .release kind owner => some { s with registry := (release s.registry kind owner).2, last := none }
  | .releaseToken kind owner token =>
    some { s with registry := (releaseToken s.registry kind owner token).2, last := none }
  | .releaseOwner owner => some { s with registry := (releaseOwner s.registry owner).2, last := none }
  | .releaseKind kind => some { s with registry := (releaseKind s.registry kind).2, last := none }

/-- A lease that was given no time at all. -/
def LeaseRecord.zeroTtl (record : LeaseRecord) : Prop :=
  record.expiresAtMs = some record.acquiredAtMs

/-- The record an acquisition hands out is unexpired, unless its ttl is zero. -/
def Unexpired (nowMs : Nat) : Option (Option Nat × LeaseDecision) → Prop
  | some (ttlMs, .acquired record) => ttlMs ≠ some 0 → isExpired record nowMs = false
  | some (ttlMs, .replacedExpired _ record) => ttlMs ≠ some 0 → isExpired record nowMs = false
  | some (_, .reentered record) => ¬ record.zeroTtl → isExpired record nowMs = false
  | _ => True

/-- What the registry promises at the timestamp of the last call. -/
structure Safe (s : State) : Prop where
  alone : ∀ kind, ∀ r ∈ activeForKindAt s.registry kind s.nowMs,
    r.mode = .exclusive → activeForKindAt s.registry kind s.nowMs = [r]
  once : (s.registry.records.map (fun r => (r.kind, r.owner))).Nodup
  tokens : (s.registry.records.map (·.token)).Nodup
  held : ∀ r ∈ s.registry.records, 1 ≤ r.holdCount
  answer : Unexpired s.nowMs s.last

/-- Two records may be held together: both shared, or one of them expired. -/
def Compatible (nowMs : Nat) (a b : LeaseRecord) : Prop :=
  a.kind = b.kind → isExpired a nowMs = false → isExpired b nowMs = false →
    a.mode = .shared ∧ b.mode = .shared

/-- The registry invariant at a timestamp; unlike `Safe` it is inductive. -/
structure Consistent (registry : LeaseRegistry) (nowMs : Nat) : Prop where
  compatible : registry.records.Pairwise (Compatible nowMs)
  once : (registry.records.map (fun r => (r.kind, r.owner))).Nodup
  tokens : (registry.records.map (·.token)).Nodup
  below : ∀ r ∈ registry.records, r.token < registry.nextToken ∨ registry.nextToken = u64Max
  held : ∀ r ∈ registry.records, 1 ≤ r.holdCount

variable {r : LeaseRecord} {registry : LeaseRegistry} {nowMs : Nat} {kind : LeaseKind} {owner : LeaseOwner}
  {policy : LeaseReplacePolicy} {mode : LeaseMode} {records : List LeaseRecord}

theorem isExpired_mono {a b : Nat} (h : a ≤ b) (hb : isExpired r b = false) : isExpired r a = false := by
  unfold isExpired at *
  cases he : r.expiresAtMs with
  | none => rfl
  | some e =>
    rw [he] at hb
    simp only [Option.any_some, decide_eq_false_iff_not] at *
    omega

theorem Consistent.later {a b : Nat} (h : Consistent registry a) (hab : a ≤ b) : Consistent registry b where
  compatible := h.compatible.imp fun hc hk hx hy =>
    hc hk (isExpired_mono hab hx) (isExpired_mono hab hy)
  once := h.once
  tokens := h.tokens
  below := h.below
  held := h.held

/-- Dropping records keeps the invariant: purges and releases are of this kind. -/
theorem Consistent.sublist (h : Consistent registry nowMs) (hs : records.Sublist registry.records) :
    Consistent { registry with records } nowMs where
  compatible := h.compatible.sublist hs
  once := h.once.sublist (hs.map _)
  tokens := h.tokens.sublist (hs.map _)
  below r hr := h.below r (hs.subset hr)
  held r hr := h.held r (hs.subset hr)

theorem Consistent.purge (h : Consistent registry nowMs) (kind : LeaseKind) (policy : LeaseReplacePolicy) :
    Consistent (purgeByPolicy registry kind nowMs policy).2 nowMs := by
  have hs := h.sublist (purgeByPolicy_records registry kind nowMs policy)
  have he : (purgeByPolicy registry kind nowMs policy).2 =
      { registry with records := (purgeByPolicy registry kind nowMs policy).2.records } := by
    rw [← purgeByPolicy_nextToken registry kind nowMs policy]
  rw [he]
  exact hs

/-- What `Compatible`, `Consistent.once` and `Consistent.tokens` look at. -/
@[simps] def LeaseRecord.forget (r : LeaseRecord) : LeaseRecord := { r with holdCount := 0 }

section
variable (h : Consistent registry nowMs)
include h

/-- Changing only a hold count, and not below one, keeps the invariant. -/
theorem Consistent.modifyHold (p : LeaseRecord → Bool) (f : LeaseRecord → LeaseRecord)
    (hf : ∀ r, (f r).forget = r.forget) (hc : ∀ r, registry.records.find? p = some r → 1 ≤ (f r).holdCount) :
    Consistent { registry with records := modifyFirst p f registry.records } nowMs where
  compatible := by
    have compat (l : List LeaseRecord) : (l.map LeaseRecord.forget).Pairwise (Compatible nowMs) ↔
        l.Pairwise (Compatible nowMs) := List.pairwise_map
    rw [← compat, map_modifyFirst fun r _ => hf r, compat]
    exact h.compatible
  once := by
    rw [map_modifyFirst fun r _ => congrArg (fun r : LeaseRecord => (r.kind, r.owner)) (hf r)]
    exact h.once
  tokens := by
    have hk (r : LeaseRecord) : (f r).token = r.token := by simpa using congrArg (·.token) (hf r)
    rw [map_modifyFirst fun r _ => hk r]
    exact h.tokens
  below r hr := by
    rcases mem_modifyFirst hr with hr | ⟨a, ha, rfl⟩
    · exact h.below r hr
    · rw [show (f a).token = a.token by simpa using congrArg (·.token) (hf a)]
      exact h.below a (List.mem_of_find?_eq_some ha)
  held r hr := by
    rcases mem_modifyFirst hr with hr | ⟨a, ha, rfl⟩
    · exact h.held r hr
    · exact hc a ha

theorem Consistent.release (kind : LeaseKind) (owner : LeaseOwner) (token : Option Nat) :
    Consistent (releaseLocked registry kind owner token).2 nowMs := by
  unfold releaseLocked
  cases hfind : registry.records.find? (holds kind owner token) with
  | none => exact h
  | some record =>
    dsimp only
    split
    · rename_i hmany
      refine h.modifyHold _ _ (fun _ => rfl) fun r hr => ?_
      cases hfind.symm.trans hr
      show 1 ≤ record.holdCount - 1
      omega
    · exact h.sublist List.eraseP_sublist

theorem Consistent.reenter (kind : LeaseKind) (owner : LeaseOwner) :
    Consistent { registry with
      records := modifyFirst (ownedBy kind owner) reenter registry.records } nowMs := by
  refine h.modifyHold _ _ (fun _ => rfl) fun r hr => ?_
  have hr1 := h.held r (List.mem_of_find?_eq_some hr)
  simp only [Lease.reenter, saturatingAdd, u32Max]
  omega

end

/-- The token the next record gets is not in the registry. -/
def TokenFree (registry : LeaseRegistry) : Prop :=
  ∀ r ∈ registry.records, r.token ≠ registry.nextToken

/-- A new record of a kind keeps the invariant when nothing active conflicts
with it, its owner has none of the kind and its token is free. -/
theorem Consistent.grant (h : Consistent registry nowMs)
    (previous : Option LeaseRecord) (kind : LeaseKind) (owner : LeaseOwner) (mode : LeaseMode)
    (ttlMs : Option Nat) (hfree : TokenFree registry) (hnone : registry.records.find? (ownedBy kind owner) = none)
    (hconf : ∀ r ∈ registry.records, r.kind = kind → isExpired r nowMs = false →
      r.mode = .shared ∧ mode = .shared) :
    Consistent (grant previous registry kind owner mode ttlMs nowMs).2 nowMs := by
  set current := (newRecord registry kind owner mode ttlMs nowMs).1 with hcur
  have hrec : (Lease.grant previous registry kind owner mode ttlMs nowMs).2 =
      ⟨registry.records ++ [current], (nextToken registry).2.nextToken⟩ := by
    unfold Lease.grant
    cases previous <;> rfl
  have hmem {r} (hr : r ∈ registry.records ++ [current]) : r ∈ registry.records ∨ r = current := by
    simpa using hr
  rw [hrec]
  refine ⟨?_, ?_, ?_, ?_, ?_⟩
  · refine List.pairwise_append.mpr ⟨h.compatible, List.pairwise_singleton _ _, ?_⟩
    intro a ha b hb hk hx _
    rw [List.mem_singleton.mp hb] at hk ⊢
    exact hconf a ha hk hx
  · rw [List.map_append, List.nodup_append]
    refine ⟨h.once, by simp, ?_⟩
    intro x hx y hy
    obtain ⟨a, ha, rfl⟩ := List.mem_map.mp hx
    have := List.find?_eq_none.mp hnone a ha
    simp only [List.map_cons, List.map_nil, List.mem_singleton] at hy
    rw [hy]
    simpa [ownedBy, hcur, newRecord, nextToken] using this
  · rw [List.map_append, List.nodup_append]
    refine ⟨h.tokens, by simp, ?_⟩
    intro x hx y hy
    obtain ⟨a, ha, rfl⟩ := List.mem_map.mp hx
    simp only [List.map_cons, List.map_nil, List.mem_singleton] at hy
    rw [hy]
    exact hfree a ha
  · intro r hr
    have hnext : (nextToken registry).2.nextToken = min (registry.nextToken + 1) u64Max := by
      simp only [nextToken, saturatingAdd, u64Max]
      omega
    rw [hnext]
    rcases hmem hr with hr | rfl
    · rcases h.below r hr with hb | hb <;> omega
    · show registry.nextToken < _ ∨ _
      omega
  · intro r hr
    rcases hmem hr with hr | rfl
    · exact h.held r hr
    · exact Nat.le_refl 1

/-- Under `never` an expired record is only passed over when an active one of
the same kind stands beside it. -/
theorem active_of_not_denied (h : denyExpiredReplacementIfForbidden registry kind owner nowMs .never = none)
    (hr : r ∈ registry.records) (hk : r.kind = kind) (he : isExpired r nowMs) :
    ∃ a ∈ registry.records, isActive kind nowMs a := by
  unfold denyExpiredReplacementIfForbidden at h
  split at h
  · rename_i hc
    simp only [ne_eq, not_true_eq_false, decide_false, Bool.false_or, Bool.or_eq_true,
      Bool.not_eq_true', List.any_eq_false, List.any_eq_true] at hc
    rcases hc with hc | hc
    · exact absurd (by simp [hk, he]) (hc r hr)
    · exact hc
  · cases h

theorem not_denied_of_active (owner : LeaseOwner)
    (policy : LeaseReplacePolicy) {a : LeaseRecord} (ha : a ∈ registry.records) (hact : isActive kind nowMs a) :
    denyExpiredReplacementIfForbidden registry kind owner nowMs policy = none := by
  unfold denyExpiredReplacementIfForbidden
  rw [if_pos]
  simp only [Bool.or_eq_true, List.any_eq_true]
  exact .inr ⟨a, ha, hact⟩

theorem denied_decision {decision : LeaseDecision}
    (h : denyExpiredReplacementIfForbidden registry kind owner nowMs policy = some decision) :
    ∃ denial, decision = .denied denial := by
  unfold denyExpiredReplacementIfForbidden at h
  split at h
  · cases h
  · exact ⟨_, (Option.some.inj h).symm⟩

/-- A policy acquisition gets as far as making a new record. -/
def Grants (registry : LeaseRegistry) (kind : LeaseKind) (owner : LeaseOwner) (mode : LeaseMode)
    (nowMs : Nat) (policy : LeaseReplacePolicy) : Prop :=
  denyExpiredReplacementIfForbidden registry kind owner nowMs policy = none ∧
    (purgeByPolicy registry kind nowMs policy).2.records.find? (ownedBy kind owner) = none ∧
    firstActiveConflict (purgeByPolicy registry kind nowMs policy).2.records kind mode nowMs = none

/-- An exclusive-once acquisition gets as far as making a new record. -/
def GrantsOnce (registry : LeaseRegistry) (kind : LeaseKind) (owner : LeaseOwner) (nowMs : Nat)
    (policy : LeaseReplacePolicy) : Prop :=
  denyExpiredReplacementIfForbidden registry kind owner nowMs policy = none ∧
    (purgeByPolicy registry kind nowMs policy).2.records.find? (isActive kind nowMs) = none

/-- Everything a policy acquisition can do: refuse, reenter or grant. -/
theorem acquire_cases (registry : LeaseRegistry) (kind : LeaseKind) (owner : LeaseOwner)
    (mode : LeaseMode) (ttlMs : Option Nat) (nowMs : Nat) (policy : LeaseReplacePolicy) :
    let purged := purgeByPolicy registry kind nowMs policy
    let result := tryAcquireWithPolicyAt registry kind owner mode ttlMs nowMs policy
    (∃ denial, result.1 = .denied denial ∧ (result.2 = registry ∨ result.2 = purged.2)) ∨
    (∃ record, denyExpiredReplacementIfForbidden registry kind owner nowMs policy = none ∧
      purged.2.records.find? (ownedBy kind owner) = some record ∧ record.mode = mode ∧
      result = (.reentered (reenter record),
        { purged.2 with records := modifyFirst (ownedBy kind owner) reenter purged.2.records })) ∨
    (Grants registry kind owner mode nowMs policy ∧
      result = grant purged.1 purged.2 kind owner mode ttlMs nowMs) := by
  unfold tryAcquireWithPolicyAt Grants
  cases hdeny : denyExpiredReplacementIfForbidden registry kind owner nowMs policy with
  | some decision =>
    obtain ⟨denial, rfl⟩ := denied_decision hdeny
    exact .inl ⟨denial, rfl, .inl rfl⟩
  | none =>
    dsimp only
    cases hfind : (purgeByPolicy registry kind nowMs policy).2.records.find? (ownedBy kind owner) with
    | some record =>
      dsimp only
      split
      · exact .inl ⟨_, rfl, .inr rfl⟩
      · rename_i hmode
        exact .inr (.inl ⟨record, rfl, rfl, not_not.mp hmode, rfl⟩)
    | none =>
      dsimp only
      cases hconf : firstActiveConflict (purgeByPolicy registry kind nowMs policy).2.records
          kind mode nowMs with
      | some conflict => exact .inl ⟨_, rfl, .inr rfl⟩
      | none => exact .inr (.inr ⟨⟨rfl, rfl, rfl⟩, rfl⟩)

theorem acquire_of_grants (ttlMs : Option Nat) (h : Grants registry kind owner mode nowMs policy) :
    tryAcquireWithPolicyAt registry kind owner mode ttlMs nowMs policy =
      grant (purgeByPolicy registry kind nowMs policy).1
        (purgeByPolicy registry kind nowMs policy).2 kind owner mode ttlMs nowMs := by
  simp [tryAcquireWithPolicyAt, h.1, h.2.1, h.2.2]

/-- Everything an exclusive-once acquisition can do: refuse or grant. -/
theorem exclusiveOnce_cases (registry : LeaseRegistry) (kind : LeaseKind) (owner : LeaseOwner)
    (ttlMs : Option Nat) (nowMs : Nat) (policy : LeaseReplacePolicy) :
    let purged := purgeByPolicy registry kind nowMs policy
    let result := tryAcquireExclusiveOnceAt registry kind owner ttlMs nowMs policy
    (∃ denial, result.1 = .denied denial ∧ (result.2 = registry ∨ result.2 = purged.2)) ∨
    (GrantsOnce registry kind owner nowMs policy ∧
      result = grant purged.1 purged.2 kind owner .exclusive ttlMs nowMs) := by
  unfold tryAcquireExclusiveOnceAt GrantsOnce
  cases hdeny : denyExpiredReplacementIfForbidden registry kind owner nowMs policy with
  | some decision =>
    obtain ⟨denial, rfl⟩ := denied_decision hdeny
    exact .inl ⟨denial, rfl, .inl rfl⟩
  | none =>
    dsimp only
    cases hfind : (purgeByPolicy registry kind nowMs policy).2.records.find? (isActive kind nowMs) with
    | some conflict => exact .inl ⟨_, rfl, .inr rfl⟩
    | none => exact .inr ⟨⟨rfl, rfl⟩, rfl⟩

/-- A new record gets a token of its own and a deadline that is still ahead. -/
def GrantSound (registry : LeaseRegistry) (ttlMs : Option Nat) (nowMs : Nat) : Prop :=
  TokenFree registry ∧ (nowMs < u64Max ∨ ttlMs = none ∨ ttlMs = some 0)

theorem newRecord_expired_iff (registry : LeaseRegistry) (kind : LeaseKind) (owner : LeaseOwner)
    (mode : LeaseMode) (ttlMs : Option Nat) (nowMs : Nat) :
    (ttlMs ≠ some 0 → isExpired (newRecord registry kind owner mode ttlMs nowMs).1 nowMs = false) ↔
      (nowMs < u64Max ∨ ttlMs = none ∨ ttlMs = some 0) := by
  cases ttlMs with
  | none => simp [newRecord, isExpired]
  | some ttl =>
    simp only [newRecord, isExpired, Option.map_some, Option.any_some, saturatingAdd,
      decide_eq_false_iff_not, ne_eq, Option.some.injEq, reduceCtorEq, false_or]
    omega

theorem unexpired_grant_iff (previous : Option LeaseRecord) (registry : LeaseRegistry)
    (kind : LeaseKind) (owner : LeaseOwner) (mode : LeaseMode) (ttlMs : Option Nat) (nowMs : Nat) :
    Unexpired nowMs (some (ttlMs, (grant previous registry kind owner mode ttlMs nowMs).1)) ↔
      (nowMs < u64Max ∨ ttlMs = none ∨ ttlMs = some 0) := by
  rw [← newRecord_expired_iff registry kind owner mode]
  cases previous <;> rfl

theorem grant_tokens (previous : Option LeaseRecord) (registry : LeaseRegistry) (kind : LeaseKind)
    (owner : LeaseOwner) (mode : LeaseMode) (ttlMs : Option Nat) (nowMs : Nat) :
    (grant previous registry kind owner mode ttlMs nowMs).2.records.map (·.token) =
      registry.records.map (·.token) ++ [registry.nextToken] := by
  unfold grant
  cases previous <;> simp [newRecord, nextToken]

/-- An owner gets back its own expired record, of the mode it asks for, because
the policy keeps expired records and another record of the kind is active. -/
def StaleReentry (registry : LeaseRegistry) (kind : LeaseKind) (owner : LeaseOwner)
    (mode : LeaseMode) (nowMs : Nat) (policy : LeaseReplacePolicy) : Prop :=
  policy = .never ∧ (∃ a ∈ registry.records, isActive kind nowMs a) ∧
    ∃ r, registry.records.find? (ownedBy kind owner) = some r ∧ r.mode = mode ∧
      isExpired r nowMs ∧ ¬ r.zeroTtl

theorem staleReentry_answer (ttlMs : Option Nat) (h : StaleReentry registry kind owner mode nowMs policy) :
    ¬ Unexpired nowMs
      (some (ttlMs, (tryAcquireWithPolicyAt registry kind owner mode ttlMs nowMs policy).1)) := by
  obtain ⟨rfl, ⟨a, ha, hact⟩, r, hfind, hmode, he, httl⟩ := h
  have hresult : (tryAcquireWithPolicyAt registry kind owner mode ttlMs nowMs .never).1 =
      .reentered (reenter r) := by
    simp [tryAcquireWithPolicyAt, not_denied_of_active owner .never ha hact, purgeByPolicy, hfind,
      hmode]
  rw [hresult]
  intro h
  have := h httl
  simp [show isExpired (reenter r) nowMs = isExpired r nowMs from rfl, he] at this

/-- The calls the registry answers as promised: no owner asks under `never` for
a kind whose record it let expire beside an active one, and a new record finds
its token free and its deadline ahead of the last `u64`. -/
def Honoured (s : State) : Call → Prop
  | .tryAcquireWithPolicyAt kind owner mode ttlMs nowMs policy =>
    ¬ StaleReentry s.registry kind owner mode nowMs policy ∧
      (Grants s.registry kind owner mode nowMs policy →
        GrantSound (purgeByPolicy s.registry kind nowMs policy).2 ttlMs nowMs)
  | .tryAcquireExclusiveOnceAt kind owner ttlMs nowMs policy =>
    GrantsOnce s.registry kind owner nowMs policy →
      GrantSound (purgeByPolicy s.registry kind nowMs policy).2 ttlMs nowMs
  | _ => True

theorem acquire_consistent (h : Consistent registry nowMs) (kind : LeaseKind) (owner : LeaseOwner) (mode : LeaseMode)
    (ttlMs : Option Nat) (policy : LeaseReplacePolicy) (hsound : Grants registry kind owner mode nowMs policy →
      GrantSound (purgeByPolicy registry kind nowMs policy).2 ttlMs nowMs) :
    Consistent (tryAcquireWithPolicyAt registry kind owner mode ttlMs nowMs policy).2 nowMs := by
  have hp := h.purge kind policy
  obtain ⟨_, _, he | he⟩ | ⟨record, _, _, _, he⟩ | ⟨hgrants, he⟩ :=
    acquire_cases registry kind owner mode ttlMs nowMs policy
  · rw [he]; exact h
  · rw [he]; exact hp
  · rw [he]; exact hp.reenter kind owner
  · rw [he]
    refine hp.grant _ _ _ _ _ (hsound hgrants).1 hgrants.2.1 fun r hr hk hx => ?_
    have hr' : r ∈ (purgeByPolicy registry kind nowMs policy).2.records.filter (isActive kind nowMs) :=
      List.mem_filter.mpr ⟨hr, by simp [isActive, hk, hx]⟩
    have := List.find?_eq_none.mp hgrants.2.2 r hr'
    cases hm : r.mode <;> cases mode <;> simp_all

theorem acquire_unexpired (kind : LeaseKind)
    (owner : LeaseOwner) (mode : LeaseMode) (ttlMs : Option Nat) (policy : LeaseReplacePolicy)
    (hstale : ¬ StaleReentry registry kind owner mode nowMs policy)
    (hsound : Grants registry kind owner mode nowMs policy →
      GrantSound (purgeByPolicy registry kind nowMs policy).2 ttlMs nowMs) :
    Unexpired nowMs
      (some (ttlMs, (tryAcquireWithPolicyAt registry kind owner mode ttlMs nowMs policy).1)) := by
  obtain ⟨_, he, _⟩ | ⟨record, hdeny, hfind, hmode, he⟩ | ⟨hgrants, he⟩ :=
    acquire_cases registry kind owner mode ttlMs nowMs policy
  · rw [he]; trivial
  · rw [he]
    intro httl
    show isExpired record nowMs = false
    have hown := List.find?_some hfind
    have hmem := List.mem_of_find?_eq_some hfind
    simp only [ownedBy, Bool.and_eq_true, decide_eq_true_eq] at hown
    cases policy with
    | replaceExpired => exact purge_leaves_active registry kind nowMs record hmem hown.1
    | never =>
      -- nothing was purged: an expired record here would be a stale reentry
      simp only [purgeByPolicy, reduceCtorEq, if_false] at hfind hmem
      by_contra hx
      have hx : isExpired record nowMs = true := by simpa using hx
      exact hstale ⟨rfl, active_of_not_denied hdeny hmem hown.1 hx, record, hfind, hmode, hx, httl⟩
  · rw [he]
    exact (unexpired_grant_iff _ _ _ _ _ _ _).mpr (hsound hgrants).2

theorem exclusiveOnce_consistent
    (h : Consistent registry nowMs) (kind : LeaseKind) (owner : LeaseOwner) (ttlMs : Option Nat)
    (policy : LeaseReplacePolicy) (hsound : GrantsOnce registry kind owner nowMs policy →
      GrantSound (purgeByPolicy registry kind nowMs policy).2 ttlMs nowMs) :
    Consistent (tryAcquireExclusiveOnceAt registry kind owner ttlMs nowMs policy).2 nowMs := by
  have hp := h.purge kind policy
  obtain ⟨_, _, he | he⟩ | ⟨hgrants, he⟩ :=
    exclusiveOnce_cases registry kind owner ttlMs nowMs policy
  · rw [he]; exact h
  · rw [he]; exact hp
  · have hidle (r) (hr : r ∈ (purgeByPolicy registry kind nowMs policy).2.records) :
        ¬ isActive kind nowMs r := List.find?_eq_none.mp hgrants.2 r hr
    -- an expired record of the kind would have been purged, or refused the call
    have hkind : ∀ r ∈ (purgeByPolicy registry kind nowMs policy).2.records, r.kind ≠ kind := by
      intro r hr hk
      have hx : isExpired r nowMs = true := by simpa [isActive, hk] using hidle r hr
      cases policy with
      | replaceExpired => simp [purge_leaves_active registry kind nowMs r hr hk] at hx
      | never =>
        simp only [purgeByPolicy, reduceCtorEq, if_false] at hr hidle
        obtain ⟨a, ha, hact⟩ := active_of_not_denied hgrants.1 hr hk hx
        exact hidle a ha hact
    rw [he]
    refine hp.grant _ _ _ _ _ (hsound hgrants).1 ?_ fun r hr hk => absurd hk (hkind r hr)
    exact List.find?_eq_none.mpr fun r hr => by simp [ownedBy, hkind r hr]

theorem exclusiveOnce_unexpired (registry : LeaseRegistry) (kind : LeaseKind) (owner : LeaseOwner)
    (ttlMs : Option Nat) (nowMs : Nat) (policy : LeaseReplacePolicy)
    (hsound : GrantsOnce registry kind owner nowMs policy →
      GrantSound (purgeByPolicy registry kind nowMs policy).2 ttlMs nowMs) :
    Unexpired nowMs
      (some (ttlMs, (tryAcquireExclusiveOnceAt registry kind owner ttlMs nowMs policy).1)) := by
  obtain ⟨_, he, _⟩ | ⟨hgrants, he⟩ := exclusiveOnce_cases registry kind owner ttlMs nowMs policy
  · rw [he]; trivial
  · rw [he]
    exact (unexpired_grant_iff _ _ _ _ _ _ _).mpr (hsound hgrants).2

/-- The inductive invariant of runs whose calls are all honoured. -/
def Inv (s : State) : Prop := Consistent s.registry s.nowMs ∧ Unexpired s.nowMs s.last

theorem inv_init : Inv .init :=
  ⟨⟨.nil, .nil, .nil, fun _ h => absurd h (by simp [State.init, LeaseRegistry.empty]),
    fun _ h => absurd h (by simp [State.init, LeaseRegistry.empty])⟩, trivial⟩

theorem inv_step {s t : State} {call : Call} (h : Inv s) (hc : Honoured s call)
    (hs : step s call = some t) : Inv t := by
  cases call with
  | tryAcquireWithPolicyAt kind owner mode ttlMs nowMs policy =>
    simp only [step] at hs
    split at hs
    · cases hs
    · rename_i hle
      cases hs
      exact ⟨acquire_consistent (h.1.later (by omega)) kind owner mode ttlMs policy hc.2,
        acquire_unexpired kind owner mode ttlMs policy hc.1 hc.2⟩
  | tryAcquireExclusiveOnceAt kind owner ttlMs nowMs policy =>
    simp only [step] at hs
    split at hs
    · cases hs
    · rename_i hle
      cases hs
      exact ⟨exclusiveOnce_consistent (h.1.later (by omega)) kind owner ttlMs policy hc,
        exclusiveOnce_unexpired _ kind owner ttlMs _ policy hc⟩
  | release kind owner =>
    cases hs
    exact ⟨h.1.release kind owner none, trivial⟩
  | releaseToken kind owner token =>
    cases hs
    exact ⟨h.1.release kind owner (some token), trivial⟩
  | releaseOwner owner =>
    cases hs
    exact ⟨h.1.sublist List.filter_sublist, trivial⟩
  | releaseKind kind =>
    cases hs
    exact ⟨h.1.sublist List.filter_sublist, trivial⟩

/-- A grant whose record repeats a token, or is handed out expired, breaks a promise. -/
theorem grant_breaks {previous : Option LeaseRecord} {ttlMs : Option Nat}
    (hbad : ¬ GrantSound registry ttlMs nowMs) {result : LeaseDecision × LeaseRegistry}
    (he : result = grant previous registry kind owner mode ttlMs nowMs) :
    ¬ Safe ⟨result.2, nowMs, some (ttlMs, result.1)⟩ := by
  subst he
  intro hsafe
  refine hbad ⟨fun r hr htok => ?_, (unexpired_grant_iff _ _ _ _ _ _ _).mp hsafe.answer⟩
  have htokens := hsafe.tokens
  rw [grant_tokens, List.nodup_append] at htokens
  exact htokens.2.2 r.token (List.mem_map_of_mem hr) _ (by simp) htok

theorem broken_of_not_honoured {s t : State} {call : Call} (hs : step s call = some t)
    (hc : ¬ Honoured s call) : ¬ Safe t := by
  cases call with
  | tryAcquireWithPolicyAt kind owner mode ttlMs nowMs policy =>
    simp only [step] at hs
    split at hs
    · cases hs
    cases hs
    by_cases hstale : StaleReentry s.registry kind owner mode nowMs policy
    · exact fun hsafe => staleReentry_answer ttlMs hstale hsafe.answer
    · have hbad : Grants s.registry kind owner mode nowMs policy ∧
          ¬ GrantSound (purgeByPolicy s.registry kind nowMs policy).2 ttlMs nowMs := by
        by_contra hnot
        exact hc ⟨hstale, fun hg => not_not.mp fun hb => hnot ⟨hg, hb⟩⟩
      exact grant_breaks hbad.2 (acquire_of_grants ttlMs hbad.1)
  | tryAcquireExclusiveOnceAt kind owner ttlMs nowMs policy =>
    simp only [step] at hs
    split at hs
    · cases hs
    cases hs
    have hbad : GrantsOnce s.registry kind owner nowMs policy ∧
        ¬ GrantSound (purgeByPolicy s.registry kind nowMs policy).2 ttlMs nowMs := by
      by_contra hnot
      exact hc fun hg => not_not.mp fun hb => hnot ⟨hg, hb⟩
    have hgrant : tryAcquireExclusiveOnceAt s.registry kind owner ttlMs nowMs policy =
        grant (purgeByPolicy s.registry kind nowMs policy).1
          (purgeByPolicy s.registry kind nowMs policy).2 kind owner .exclusive ttlMs nowMs := by
      simp [tryAcquireExclusiveOnceAt, hbad.1.1, hbad.1.2]
    exact grant_breaks hbad.2 hgrant
  | release | releaseToken | releaseOwner | releaseKind => exact absurd trivial hc

/-- Among compatible records an active exclusive one is alone. -/
theorem alone_of_compatible (h : records.Pairwise (Compatible nowMs))
    (hr : r ∈ records.filter (isActive kind nowMs)) (hm : r.mode = .exclusive) :
    records.filter (isActive kind nowMs) = [r] := by
  have hact {a} (ha : a ∈ records.filter (isActive kind nowMs)) :
      a.kind = kind ∧ isExpired a nowMs = false := by
    simpa [isActive] using (List.mem_filter.mp ha).2
  have hpair := h.sublist (List.filter_sublist (p := isActive kind nowMs))
  generalize records.filter (isActive kind nowMs) = active at hr hact hpair
  obtain ⟨before, after, rfl⟩ := List.append_of_mem hr
  obtain ⟨-, hra, hcross⟩ := List.pairwise_append.mp hpair
  have hbefore : before = [] := by
    refine List.eq_nil_iff_forall_not_mem.mpr fun a ha => ?_
    have ha' := hact (a := a) (by simp [ha])
    have := (hcross a ha r (by simp) (by rw [ha'.1, (hact hr).1]) ha'.2 (hact hr).2).2
    simp [hm] at this
  have hafter : after = [] := by
    refine List.eq_nil_iff_forall_not_mem.mpr fun a ha => ?_
    have ha' := hact (a := a) (by simp [ha])
    have := (List.rel_of_pairwise_cons hra ha (by rw [ha'.1, (hact hr).1]) (hact hr).2 ha'.2).1
    simp [hm] at this
  simp [hbefore, hafter]

theorem Inv.safe {s : State} (h : Inv s) : Safe s where
  alone _ _ hr hm := alone_of_compatible h.1.compatible hr hm
  once := h.1.once
  tokens := h.1.tokens
  held := h.1.held
  answer := h.2

/-- A run from the empty registry keeps every promise after each of its calls
exactly when all its calls are honoured. -/
theorem lease_registry_safe_iff (calls : List Call) :
    Always step Safe calls .init ↔ Meets step Honoured calls .init := by
  constructor
  · exact meets_of_always (J := fun _ => True) (fun _ _ _ _ _ => trivial)
      (fun _ _ _ _ hs hc => broken_of_not_honoured hs hc) calls .init trivial
  · exact always_of_meets (fun _ _ _ hi hc hs => inv_step hi hc hs) (fun _ hi => hi.safe) calls
      .init inv_init

/-- Two shared owners, the first with a ttl of 10 ms. At 20 ms the first asks
again under `never` and is handed its expired lease as reentered. -/
theorem expired_lease_reentered :
    let left : LeaseOwner := ⟨"diag", "snapshot"⟩
    let right : LeaseOwner := ⟨"diag", "status"⟩
    ¬ Always step Safe
      [.tryAcquireWithPolicyAt .diagnosticHttpWorker left .shared (some 10) 0 .replaceExpired,
        .tryAcquireWithPolicyAt .diagnosticHttpWorker right .shared none 0 .replaceExpired,
        .tryAcquireWithPolicyAt .diagnosticHttpWorker left .shared (some 10) 20 .never] .init := by
  intro left right h
  have hsafe := h.last (t := ⟨⟨[⟨1, .diagnosticHttpWorker, left, .shared, 0, some 10, 2⟩,
    ⟨2, .diagnosticHttpWorker, right, .shared, 0, none, 1⟩], 3⟩, 20,
    some (some 10, .reentered ⟨1, .diagnosticHttpWorker, left, .shared, 0, some 10, 2⟩)⟩) (by decide)
  exact absurd (hsafe.answer (by simp [LeaseRecord.zeroTtl])) (by decide)

end Beetle.Runtime.Lease
