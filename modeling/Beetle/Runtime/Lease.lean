import Beetle.Lib.Lists

/-! The runtime lease registry: the records, the two ways to acquire a lease
and the four ways to give it back. -/
namespace Beetle.Runtime.Lease
open Beetle.Lib

/-- Resource kind governed by the central lease registry. -/
inductive LeaseKind where
  | display | cameraFrame | audioInput | audioOutput | voiceExclusive | externalWss
  | configReadBurst | snapshotHttpWorker | chatHistoryHttpWorker | configHttpWorker
  | diagnosticHttpWorker | storageSessionWrite | agentHeavyTurn | tlsHandshake
  deriving DecidableEq

structure LeaseOwner where
  plane : String
  name : String
  deriving DecidableEq

inductive LeaseMode where
  | exclusive | shared
  deriving DecidableEq

inductive LeaseReplacePolicy where
  | replaceExpired | never
  deriving DecidableEq

structure LeaseRecord where
  token : Nat
  kind : LeaseKind
  owner : LeaseOwner
  mode : LeaseMode
  acquiredAtMs : Nat
  expiresAtMs : Option Nat
  holdCount : Nat
  deriving DecidableEq

structure LeaseDenial where
  kind : LeaseKind
  owner : LeaseOwner
  heldBy : Option LeaseOwner
  reason : String
  deriving DecidableEq

inductive LeaseDecision where
  | acquired (record : LeaseRecord)
  | reentered (record : LeaseRecord)
  | replacedExpired (previous current : LeaseRecord)
  | denied (denial : LeaseDenial)
  deriving DecidableEq

structure LeaseRegistry where
  records : List LeaseRecord
  nextToken : Nat
  deriving DecidableEq

def LeaseRegistry.empty : LeaseRegistry := ⟨[], 1⟩

/-- The largest `u64`; tokens and timestamps saturate there. -/
def u64Max : Nat := 2 ^ 64 - 1

/-- The largest `u32`; hold counts saturate there. -/
def u32Max : Nat := 2 ^ 32 - 1

def saturatingAdd (bound a b : Nat) : Nat := min (a + b) bound

def isExpired (record : LeaseRecord) (nowMs : Nat) : Bool :=
  record.expiresAtMs.any (fun expires => expires ≤ nowMs)

/-- A record of the kind that still counts at the timestamp. -/
@[grind =] def isActive (kind : LeaseKind) (nowMs : Nat) (record : LeaseRecord) : Bool :=
  record.kind = kind && !isExpired record nowMs

/-- The records `active_count_for_kind_at` counts. -/
def activeForKindAt (registry : LeaseRegistry) (kind : LeaseKind) (nowMs : Nat) : List LeaseRecord :=
  registry.records.filter (isActive kind nowMs)

def nextToken (registry : LeaseRegistry) : Nat × LeaseRegistry :=
  (registry.nextToken,
    { registry with nextToken := max (saturatingAdd u64Max registry.nextToken 1) 1 })

def newRecord (registry : LeaseRegistry) (kind : LeaseKind) (owner : LeaseOwner)
    (mode : LeaseMode) (ttlMs : Option Nat) (nowMs : Nat) : LeaseRecord × LeaseRegistry :=
  let (token, registry) := nextToken registry
  ({ token, kind, owner, mode, acquiredAtMs := nowMs
     expiresAtMs := ttlMs.map (saturatingAdd u64Max nowMs), holdCount := 1 }, registry)

@[grind =] def denyExpiredReplacementIfForbidden (registry : LeaseRegistry) (kind : LeaseKind)
    (owner : LeaseOwner) (nowMs : Nat) (replacePolicy : LeaseReplacePolicy) : Option LeaseDecision :=
  if replacePolicy ≠ .never
      || !registry.records.any (fun record => record.kind = kind && isExpired record nowMs)
      || registry.records.any (isActive kind nowMs) then
    none
  else
    let heldBy := (registry.records.find? (fun record => record.kind = kind)).map (·.owner)
    some (.denied ⟨kind, owner, heldBy, "expired_replacement_forbidden"⟩)

/-- The loop of `remove_expired_for_kind`: the records that stay, and the first
one removed. -/
def removeExpired (kind : LeaseKind) (nowMs : Nat) :
    List LeaseRecord → Option LeaseRecord × List LeaseRecord
  | [] => (none, [])
  | record :: records =>
    let (first, kept) := removeExpired kind nowMs records
    if record.kind = kind && isExpired record nowMs then (some record, kept)
    else (first, record :: kept)

def removeExpiredForKind (registry : LeaseRegistry) (kind : LeaseKind) (nowMs : Nat) :
    Option LeaseRecord × LeaseRegistry :=
  let (first, kept) := removeExpired kind nowMs registry.records
  (first, { registry with records := kept })

def firstActiveConflict (records : List LeaseRecord) (kind : LeaseKind)
    (requestedMode : LeaseMode) (nowMs : Nat) : Option LeaseRecord :=
  (records.filter (isActive kind nowMs)).find?
    (fun record => record.mode = .exclusive || requestedMode = .exclusive)

def conflictReason : LeaseMode → LeaseMode → String
  | .exclusive, _ => "exclusive_conflict"
  | _, .exclusive => "shared_conflict"
  | _, _ => "shared_conflict"

/-- The purge both acquire paths start with, unless the policy forbids it. -/
def purgeByPolicy (registry : LeaseRegistry) (kind : LeaseKind) (nowMs : Nat)
    (replacePolicy : LeaseReplacePolicy) : Option LeaseRecord × LeaseRegistry :=
  if replacePolicy = .replaceExpired then removeExpiredForKind registry kind nowMs
  else (none, registry)

/-- Grant a new record, the way both acquire paths end. -/
def grant (previousExpired : Option LeaseRecord) (registry : LeaseRegistry) (kind : LeaseKind)
    (owner : LeaseOwner) (mode : LeaseMode) (ttlMs : Option Nat) (nowMs : Nat) :
    LeaseDecision × LeaseRegistry :=
  let (current, registry) := newRecord registry kind owner mode ttlMs nowMs
  let registry := { registry with records := registry.records ++ [current] }
  match previousExpired with
  | some previous => (.replacedExpired previous current, registry)
  | none => (.acquired current, registry)

@[grind =] def ownedBy (kind : LeaseKind) (owner : LeaseOwner) (record : LeaseRecord) : Bool :=
  record.kind = kind && record.owner = owner

def reenter (record : LeaseRecord) : LeaseRecord :=
  { record with holdCount := saturatingAdd u32Max record.holdCount 1 }

@[grind =] def tryAcquireWithPolicyAt (registry : LeaseRegistry) (kind : LeaseKind) (owner : LeaseOwner)
    (mode : LeaseMode) (ttlMs : Option Nat) (nowMs : Nat) (replacePolicy : LeaseReplacePolicy) :
    LeaseDecision × LeaseRegistry :=
  match denyExpiredReplacementIfForbidden registry kind owner nowMs replacePolicy with
  | some denied => (denied, registry)
  | none =>
    let (previousExpired, registry) := purgeByPolicy registry kind nowMs replacePolicy
    match registry.records.find? (ownedBy kind owner) with
    | some record =>
      if record.mode ≠ mode then (.denied ⟨kind, owner, some owner, "mode_mismatch"⟩, registry)
      else (.reentered (reenter record),
        { registry with records := modifyFirst (ownedBy kind owner) reenter registry.records })
    | none =>
      match firstActiveConflict registry.records kind mode nowMs with
      | some conflict =>
        (.denied ⟨kind, owner, some conflict.owner, conflictReason conflict.mode mode⟩, registry)
      | none => grant previousExpired registry kind owner mode ttlMs nowMs

def tryAcquireExclusiveOnceAt (registry : LeaseRegistry) (kind : LeaseKind) (owner : LeaseOwner)
    (ttlMs : Option Nat) (nowMs : Nat) (replacePolicy : LeaseReplacePolicy) :
    LeaseDecision × LeaseRegistry :=
  match denyExpiredReplacementIfForbidden registry kind owner nowMs replacePolicy with
  | some denied => (denied, registry)
  | none =>
    let (previousExpired, registry) := purgeByPolicy registry kind nowMs replacePolicy
    match registry.records.find? (isActive kind nowMs) with
    | some conflict =>
      (.denied ⟨kind, owner, some conflict.owner, "exclusive_conflict"⟩, registry)
    | none => grant previousExpired registry kind owner .exclusive ttlMs nowMs

def holds (kind : LeaseKind) (owner : LeaseOwner) (token : Option Nat) (record : LeaseRecord) :
    Bool :=
  ownedBy kind owner record && token.all (fun t => record.token = t)

def releaseLocked (registry : LeaseRegistry) (kind : LeaseKind) (owner : LeaseOwner)
    (token : Option Nat) : Bool × LeaseRegistry :=
  match registry.records.find? (holds kind owner token) with
  | none => (false, registry)
  | some record =>
    if record.holdCount > 1 then
      let dropOne := fun r : LeaseRecord => { r with holdCount := r.holdCount - 1 }
      (true, { registry with records := modifyFirst (holds kind owner token) dropOne registry.records })
    else (true, { registry with records := registry.records.eraseP (holds kind owner token) })

def release (registry : LeaseRegistry) (kind : LeaseKind) (owner : LeaseOwner) :
    Bool × LeaseRegistry :=
  releaseLocked registry kind owner none

def releaseToken (registry : LeaseRegistry) (kind : LeaseKind) (owner : LeaseOwner) (token : Nat) :
    Bool × LeaseRegistry :=
  releaseLocked registry kind owner (some token)

def releaseOwner (registry : LeaseRegistry) (owner : LeaseOwner) : Nat × LeaseRegistry :=
  let kept := registry.records.filter (fun record => record.owner ≠ owner)
  (registry.records.length - kept.length, { registry with records := kept })

def releaseKind (registry : LeaseRegistry) (kind : LeaseKind) : Nat × LeaseRegistry :=
  let kept := registry.records.filter (fun record => record.kind ≠ kind)
  (registry.records.length - kept.length, { registry with records := kept })

theorem removeExpired_snd (kind : LeaseKind) (nowMs : Nat) (records : List LeaseRecord) :
    (removeExpired kind nowMs records).2 =
      records.filter (fun r => !(r.kind = kind && isExpired r nowMs)) := by
  induction records with
  | nil => rfl
  | cons record records ih =>
    simp only [removeExpired, List.filter_cons]
    split <;> simp_all

variable (registry : LeaseRegistry)

theorem purgeByPolicy_records (kind : LeaseKind) (nowMs : Nat) (policy : LeaseReplacePolicy) :
    (purgeByPolicy registry kind nowMs policy).2.records.Sublist registry.records := by
  unfold purgeByPolicy
  split
  · simp only [removeExpiredForKind, removeExpired_snd]
    exact List.filter_sublist
  · exact List.Sublist.refl _

@[simp] theorem purgeByPolicy_nextToken (kind : LeaseKind) (nowMs : Nat) (policy : LeaseReplacePolicy) :
    (purgeByPolicy registry kind nowMs policy).2.nextToken = registry.nextToken := by
  unfold purgeByPolicy
  split <;> rfl

/-- Replacing expired records leaves none of the kind behind. -/
theorem purge_leaves_active (kind : LeaseKind) (nowMs : Nat) :
    ∀ r ∈ (purgeByPolicy registry kind nowMs .replaceExpired).2.records,
      r.kind = kind → isExpired r nowMs = false := by
  intro r hr hk
  simp only [purgeByPolicy, if_true, removeExpiredForKind, removeExpired_snd] at hr
  simpa [hk] using (List.mem_filter.mp hr).2

end Beetle.Runtime.Lease
