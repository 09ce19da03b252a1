import Beetle.Lib.Pool
import Beetle.Orchestrator.Pressure

/-! The permits for HTTP requests and the WSS sessions beside them, under any number of
threads; each access to an atomic or to the TLS lock is one step. -/
namespace Beetle.Network
open Beetle.Lib Beetle.Orchestrator.Pressure

/-- Priority of an HTTP request. -/
inductive Priority where
  | low | normal | high | critical
  deriving DecidableEq

def Priority.belowHigh : Priority → Bool
  | low | normal => true
  | high | critical => false

inductive TransportWssProfile where
  | externalGateway
  | realtimeVoice
  deriving DecidableEq

/-- The atomics and the TLS lock. What comes last is history: how many sessions, and how
many permits of either kind of priority, have ever been begun. -/
structure Transport where
  activeHttpCount : Nat
  activeWssCount : Nat
  activeExternalWssCount : Nat
  activeRealtimeWssCount : Nat
  tlsPermitHeld : Bool
  sessionsBegun : Nat
  highPermitsBegun : Nat
  lowPermitsBegun : Nat
  deriving DecidableEq

namespace Transport

def start : Transport := ⟨0, 0, 0, 0, false, 0, 0, 0⟩

/-- The sessions and high permits that have ever been begun. -/
def begun (s : Transport) : Nat := s.sessionsBegun + s.highPermitsBegun

def addHttp (s : Transport) (priority : Priority) : Transport :=
  { s with
    activeHttpCount := fetchAdd 32 s.activeHttpCount
    highPermitsBegun := if priority.belowHigh then s.highPermitsBegun else s.highPermitsBegun + 1
    lowPermitsBegun := if priority.belowHigh then s.lowPermitsBegun + 1 else s.lowPermitsBegun }

def addProfile (s : Transport) : TransportWssProfile → Transport
  | .externalGateway => { s with activeExternalWssCount := fetchAdd 32 s.activeExternalWssCount }
  | .realtimeVoice => { s with activeRealtimeWssCount := fetchAdd 32 s.activeRealtimeWssCount }

def subProfile (s : Transport) : TransportWssProfile → Transport
  | .externalGateway => { s with activeExternalWssCount := fetchSub 32 s.activeExternalWssCount }
  | .realtimeVoice => { s with activeRealtimeWssCount := fetchSub 32 s.activeRealtimeWssCount }

end Transport

inductive TransportCall where
  | requestHttpPermit (priority : Priority) (pressure : PressureLevel)
  | beginWssSession (profile : TransportWssProfile)

/-- A call of `request_http_permit`, with the sessions and high permits that had been begun
when it started, and the low ones that had been when it read the first counter. -/
structure PermitCall where
  priority : Priority
  pressure : PressureLevel
  begunBefore : Nat
  lowBefore : Nat
  deriving DecidableEq

/-- A permit, and what there was right after it was granted: the sum of the active permits
and sessions, and the sessions and high permits begun since the call started. -/
structure Grant where
  priority : Priority
  active : Nat
  begunSince : Nat
  deriving DecidableEq

/-- Where a call stands: before the access that the name says. -/
inductive PermitPc where
  -- request_http_permit
  | loadHttp (call : PermitCall)
  | loadWss (call : PermitCall) (activeHttp : Nat)
  | lockTls (call : PermitCall) (activeHttp activeWss : Nat)
  | checkHeap (call : PermitCall) (activeHttp activeWss : Nat)
  | increment (call : PermitCall) (activeHttp activeWss : Nat)
  | granted (grant : Grant)
  | unlockTls
  -- begin_wss_session
  | incrementWss (profile : TransportWssProfile)
  | incrementProfile (profile : TransportWssProfile)
  | session (profile : TransportWssProfile)
  | decrementProfile (profile : TransportWssProfile)
  | done
  deriving DecidableEq

/-- What the outside decides about a step: whether the wait for the TLS lock is over its
time, and whether the heap has room for TLS. -/
structure PermitOutcome where
  timedOut : Bool
  heapOk : Bool

/-- `active_http.saturating_add(active_wss)`. -/
def activeNetwork (activeHttp activeWss : Nat) : Nat := min (activeHttp + activeWss) (2 ^ 32 - 1)

namespace PermitPc
variable (target : Target)

/-- On the chips the TLS lock is taken, and the heap looked at, before the permit is
counted; on hosts there is neither. -/
def afterAdmission (call : PermitCall) (activeHttp activeWss : Nat) : PermitPc :=
  match target with
  | .esp => lockTls call activeHttp activeWss
  | .host => increment call activeHttp activeWss

def afterDecrement : PermitPc :=
  match target with
  | .esp => unlockTls
  | .host => done

@[grind =] def next (outcome : PermitOutcome) (s : Transport) : PermitPc → Option (Transport × PermitPc)
  | loadHttp call =>
    if call.pressure = .critical ∧ call.priority.belowHigh then some (s, done)
    else some (s, loadWss { call with lowBefore := s.lowPermitsBegun } s.activeHttpCount)
  | loadWss call activeHttp =>
    if target.maxConcurrentHttp ≤ activeNetwork activeHttp s.activeWssCount ∧ call.priority.belowHigh then
      some (s, done)
    else some (s, afterAdmission target call activeHttp s.activeWssCount)
  | lockTls call activeHttp activeWss =>
    if s.tlsPermitHeld then
      if outcome.timedOut then some (s, done) else none
    else some ({ s with tlsPermitHeld := true }, checkHeap call activeHttp activeWss)
  | checkHeap call activeHttp activeWss =>
    some (s, if outcome.heapOk then increment call activeHttp activeWss else unlockTls)
  | increment call _ _ =>
    let s := s.addHttp call.priority
    some (s, granted ⟨call.priority, s.activeHttpCount + s.activeWssCount,
      s.begun - call.begunBefore⟩)
  | granted _ => some ({ s with activeHttpCount := fetchSub 32 s.activeHttpCount }, afterDecrement target)
  | unlockTls => some ({ s with tlsPermitHeld := false }, done)
  | incrementWss profile =>
    some ({ s with activeWssCount := fetchAdd 32 s.activeWssCount, sessionsBegun := s.sessionsBegun + 1 },
      incrementProfile profile)
  | incrementProfile profile => some (s.addProfile profile, session profile)
  | session profile =>
    some ({ s with activeWssCount := fetchSub 32 s.activeWssCount }, decrementProfile profile)
  | decrementProfile profile => some (s.subProfile profile, done)
  | done => none

def isGranted : PermitPc → Bool
  | granted _ => true
  | _ => false

/-- A guard that nobody is dropping, or a call that is over. -/
def isQuiet : PermitPc → Bool
  | granted _ | session _ | done => true
  | _ => false

/-- Between the increment of the session counter and its decrement. -/
def inWss : PermitPc → Bool
  | incrementProfile _ | session _ => true
  | _ => false

/-- It holds the TLS lock, if there is one. -/
def holdsTls : PermitPc → Bool
  | checkHeap _ _ _ | granted _ | unlockTls => true
  | increment _ _ _ => true
  | _ => false

end PermitPc

def TransportCall.entry (s : Transport) : TransportCall → PermitPc
  | requestHttpPermit priority pressure => .loadHttp ⟨priority, pressure, s.begun, 0⟩
  | beginWssSession profile => .incrementWss profile

def permitSystem (target : Target) : CallSystem Transport TransportCall PermitOutcome PermitPc where
  enter s call := some (s, call.entry s)
  next := PermitPc.next target

abbrev PermitPool := Pool Transport PermitPc

abbrev PermitMove := Move TransportCall PermitOutcome

/-- What a permit of low priority is granted within. -/
def Grant.Within (target : Target) (grant : Grant) : Prop :=
  grant.priority.belowHigh → grant.active ≤ target.maxConcurrentHttp + grant.begunSince

structure WithinLimit (target : Target) (w : PermitPool) : Prop where
  grants : ∀ grant, .granted grant ∈ w.calls → grant.Within target
  counted : (∀ pc ∈ w.calls, pc.isQuiet) → w.shared.activeHttpCount = w.count PermitPc.isGranted

/-- On a host no permit of low priority is granted to a call that read the counters before
the last one was; and no counter overflows. -/
def ReadsAreFresh (target : Target) (w : PermitPool) : PermitMove → Prop
  | .begin _ => True
  | .advance i _ =>
    match w.calls[i]? with
    | some (.increment call _ _) =>
      w.shared.activeHttpCount + 1 < 2 ^ 32 ∧
        (target = .host → call.priority.belowHigh → w.shared.lowPermitsBegun = call.lowBefore)
    | some (.incrementWss _) => w.shared.activeWssCount + 1 < 2 ^ 32
    | _ => True

instance (target : Target) (w : PermitPool) (a : PermitMove) : Decidable (ReadsAreFresh target w a) := by
  unfold ReadsAreFresh
  split
  · infer_instance
  · split <;> infer_instance

/-- Whatever is more of permits and sessions has been begun in between. -/
structure Transport.Later (s s' : Transport) : Prop where
  begun : s.begun ≤ s'.begun
  low : s.lowPermitsBegun ≤ s'.lowPermitsBegun
  http : s'.activeHttpCount + s.begun + s.lowPermitsBegun ≤ s.activeHttpCount + s'.begun + s'.lowPermitsBegun
  wss : s'.activeWssCount + s.begun ≤ s.activeWssCount + s'.begun
  both : s'.activeHttpCount + s'.activeWssCount + s.begun + s.lowPermitsBegun ≤
    s.activeHttpCount + s.activeWssCount + s'.begun + s'.lowPermitsBegun

/-- What a call has read bounds what there is, up to what was begun since. -/
structure ReadBoth (target : Target) (s : Transport) (call : PermitCall) (activeHttp activeWss : Nat) : Prop where
  begun : call.begunBefore ≤ s.begun
  low : call.lowBefore ≤ s.lowPermitsBegun
  wss : s.activeWssCount + call.begunBefore ≤ activeWss + s.begun
  both : s.activeHttpCount + s.activeWssCount + call.begunBefore + call.lowBefore ≤
    activeHttp + activeWss + s.begun + s.lowPermitsBegun
  passed : call.priority.belowHigh → activeHttp + activeWss < target.maxConcurrentHttp

def PermitPc.Bounded (target : Target) (s : Transport) : PermitPc → Prop
  | loadHttp call => call.begunBefore ≤ s.begun
  | loadWss call activeHttp => call.begunBefore ≤ s.begun ∧ call.lowBefore ≤ s.lowPermitsBegun ∧
    s.activeHttpCount + call.begunBefore + call.lowBefore ≤ activeHttp + s.begun + s.lowPermitsBegun
  | lockTls call activeHttp activeWss | checkHeap call activeHttp activeWss | increment call activeHttp activeWss =>
    ReadBoth target s call activeHttp activeWss
  | granted grant => grant.Within target
  | _ => True

/-- What every step keeps. -/
structure Admitted (target : Target) (w : PermitPool) : Prop where
  http : w.shared.activeHttpCount = w.count PermitPc.isGranted
  wss : w.shared.activeWssCount = w.count PermitPc.inWss
  httpFits : w.shared.activeHttpCount < 2 ^ 32
  wssFits : w.shared.activeWssCount < 2 ^ 32
  lock : target = .esp → w.count PermitPc.holdsTls = w.shared.tlsPermitHeld.toNat
  bounded : ∀ pc ∈ w.calls, pc.Bounded target w.shared

section
variable {target : Target} {s s' : Transport} {pc pc' : PermitPc} {outcome : PermitOutcome} {w t : PermitPool}
  {a : PermitMove}

theorem ReadBoth.later {call : PermitCall} {activeHttp activeWss : Nat}
    (h : ReadBoth target s call activeHttp activeWss) (hl : s.Later s') :
    ReadBoth target s' call activeHttp activeWss := by
  obtain ⟨hbegun, hlow, hwss, hboth, hpassed⟩ := h
  obtain ⟨hbegun', hlow', -, hwss', hboth'⟩ := hl
  exact ⟨by omega, by omega, by omega, by omega, hpassed⟩

theorem PermitPc.Bounded.later (h : pc.Bounded target s) (hl : s.Later s') : pc.Bounded target s' := by
  cases pc with
  | loadHttp call => exact Nat.le_trans h hl.begun
  | loadWss call activeHttp =>
    obtain ⟨hbegun, hlow, hhttp⟩ := h
    obtain ⟨hbegun', hlow', hhttp', -, -⟩ := hl
    exact ⟨by omega, by omega, by omega⟩
  | lockTls call activeHttp activeWss => exact ReadBoth.later h hl
  | checkHeap call activeHttp activeWss => exact ReadBoth.later h hl
  | increment call activeHttp activeWss => exact ReadBoth.later h hl
  | _ => exact h

theorem Transport.Later.refl (s : Transport) : s.Later s := by
  constructor <;> omega

/-- What the steps of a call do to the two counters. -/
structure CountsMoved (s s' : Transport) (pc pc' : PermitPc) : Prop where
  http : s'.activeHttpCount + pc.isGranted.toNat = s.activeHttpCount + pc'.isGranted.toNat
  wss : s'.activeWssCount + pc.inWss.toNat = s.activeWssCount + pc'.inWss.toNat
  httpFits : s'.activeHttpCount < 2 ^ 32
  wssFits : s'.activeWssCount < 2 ^ 32
  later : s.Later s'

theorem CountsMoved.same (hhttp : s.activeHttpCount < 2 ^ 32) (hwss : s.activeWssCount < 2 ^ 32)
    (hg : pc.isGranted = pc'.isGranted) (hw : pc.inWss = pc'.inWss) : CountsMoved s s pc pc' :=
  ⟨by rw [hg], by rw [hw], hhttp, hwss, .refl s⟩

theorem PermitPc.next_counts (hnext : pc.next target outcome s = some (s', pc'))
    (hgranted : pc.isGranted → 0 < s.activeHttpCount) (hsession : pc.inWss → 0 < s.activeWssCount)
    (hhttp : s.activeHttpCount < 2 ^ 32) (hwss : s.activeWssCount < 2 ^ 32)
    (hroom : ∀ call activeHttp activeWss, pc = increment call activeHttp activeWss → s.activeHttpCount + 1 < 2 ^ 32)
    (hroom' : ∀ profile, pc = incrementWss profile → s.activeWssCount + 1 < 2 ^ 32) : CountsMoved s s' pc pc' := by
  cases pc with
  | loadHttp call =>
    simp only [next] at hnext
    split at hnext
    all_goals
      obtain ⟨rfl, rfl⟩ := Prod.mk.inj (Option.some.inj hnext)
      exact .same hhttp hwss rfl rfl
  | loadWss call activeHttp =>
    simp only [next] at hnext
    split at hnext
    · obtain ⟨rfl, rfl⟩ := Prod.mk.inj (Option.some.inj hnext)
      exact .same hhttp hwss rfl rfl
    · obtain ⟨rfl, rfl⟩ := Prod.mk.inj (Option.some.inj hnext)
      cases target <;> exact .same hhttp hwss rfl rfl
  | lockTls call activeHttp activeWss =>
    simp only [next] at hnext
    split at hnext
    · split at hnext
      · obtain ⟨rfl, rfl⟩ := Prod.mk.inj (Option.some.inj hnext)
        exact .same hhttp hwss rfl rfl
      · cases hnext
    · obtain ⟨rfl, rfl⟩ := Prod.mk.inj (Option.some.inj hnext)
      exact ⟨rfl, rfl, hhttp, hwss, by constructor <;> exact Nat.le_refl _⟩
  | checkHeap call activeHttp activeWss =>
    obtain ⟨rfl, rfl⟩ := Prod.mk.inj (Option.some.inj hnext)
    split <;> exact .same hhttp hwss rfl rfl
  | increment call activeHttp activeWss =>
    obtain ⟨rfl, rfl⟩ := Prod.mk.inj (Option.some.inj hnext)
    have hadd := fetchAdd_of_lt (hroom call activeHttp activeWss rfl)
    refine ⟨hadd, rfl, ?_, hwss, ?_⟩
    · exact hadd.trans_lt (hroom call activeHttp activeWss rfl)
    · constructor <;> simp only [Transport.addHttp, Transport.begun, hadd] <;> split <;> omega
  | granted grant =>
    obtain ⟨rfl, rfl⟩ := Prod.mk.inj (Option.some.inj hnext)
    have hpos := hgranted rfl
    have hsub : fetchSub 32 s.activeHttpCount = s.activeHttpCount - 1 := fetchSub_of_pos hpos
    refine ⟨?_, ?_, ?_, hwss, ?_⟩
    · have hone : fetchSub 32 s.activeHttpCount + 1 = s.activeHttpCount := by omega
      cases target <;> exact hone
    · cases target <;> rfl
    · exact hsub.trans_lt (by omega)
    · constructor <;> simp only [Transport.begun, hsub] <;> omega
  | unlockTls =>
    obtain ⟨rfl, rfl⟩ := Prod.mk.inj (Option.some.inj hnext)
    exact ⟨rfl, rfl, hhttp, hwss, by constructor <;> exact Nat.le_refl _⟩
  | incrementWss profile =>
    obtain ⟨rfl, rfl⟩ := Prod.mk.inj (Option.some.inj hnext)
    have hadd := fetchAdd_of_lt (hroom' profile rfl)
    refine ⟨rfl, hadd, hhttp, ?_, ?_⟩
    · exact hadd.trans_lt (hroom' profile rfl)
    · constructor <;> simp only [Transport.begun, hadd] <;> omega
  | incrementProfile profile | decrementProfile profile =>
    obtain ⟨rfl, rfl⟩ := Prod.mk.inj (Option.some.inj hnext)
    cases profile <;> exact ⟨rfl, rfl, hhttp, hwss, by constructor <;> exact Nat.le_refl _⟩
  | session profile =>
    obtain ⟨rfl, rfl⟩ := Prod.mk.inj (Option.some.inj hnext)
    have hpos := hsession rfl
    have hsub : fetchSub 32 s.activeWssCount = s.activeWssCount - 1 := fetchSub_of_pos hpos
    refine ⟨rfl, ?_, hhttp, ?_, ?_⟩
    · have hone : fetchSub 32 s.activeWssCount + 1 = s.activeWssCount := by omega
      exact hone
    · exact hsub.trans_lt (by omega)
    · constructor <;> simp only [Transport.begun, hsub] <;> omega
  | done => cases hnext

/-- On the chips the lock is passed on by those that hold it. -/
theorem PermitPc.next_lock (hnext : pc.next .esp outcome s = some (s', pc')) (hheld : pc.holdsTls → s.tlsPermitHeld) :
    s'.tlsPermitHeld.toNat + pc.holdsTls.toNat = s.tlsPermitHeld.toNat + pc'.holdsTls.toNat := by
  cases pc with
  | loadHttp call | loadWss call activeHttp =>
    simp only [next] at hnext
    split at hnext
    all_goals
      obtain ⟨rfl, rfl⟩ := Prod.mk.inj (Option.some.inj hnext)
      rfl
  | lockTls call activeHttp activeWss =>
    simp only [next] at hnext
    split at hnext
    · split at hnext
      · obtain ⟨rfl, rfl⟩ := Prod.mk.inj (Option.some.inj hnext)
        rfl
      · cases hnext
    · rename_i hfree
      obtain ⟨rfl, rfl⟩ := Prod.mk.inj (Option.some.inj hnext)
      rw [Bool.not_eq_true] at hfree
      rw [hfree]
      rfl
  | checkHeap call activeHttp activeWss =>
    obtain ⟨rfl, rfl⟩ := Prod.mk.inj (Option.some.inj hnext)
    split <;> rfl
  | unlockTls =>
    obtain ⟨rfl, rfl⟩ := Prod.mk.inj (Option.some.inj hnext)
    rw [hheld rfl]
    rfl
  | incrementProfile profile | decrementProfile profile =>
    obtain ⟨rfl, rfl⟩ := Prod.mk.inj (Option.some.inj hnext)
    cases profile <;> rfl
  | done => cases hnext
  | _ =>
    obtain ⟨rfl, rfl⟩ := Prod.mk.inj (Option.some.inj hnext)
    rfl

theorem maxConcurrentHttp_lt (target : Target) : target.maxConcurrentHttp < 2 ^ 32 - 1 := by
  cases target <;> decide

/-- A call that has passed the test stays within what it has read. On the chips nobody else
has a permit when it is granted one; on a host it must have been the last to read. -/
theorem PermitPc.next_bounded (hnext : pc.next target outcome s = some (s', pc')) (h : pc.Bounded target s)
    (hlater : s.Later s') (hadd : ∀ call activeHttp activeWss, pc = increment call activeHttp activeWss →
      s'.activeHttpCount = s.activeHttpCount + 1 ∧ (target = .esp → s.activeHttpCount = 0) ∧
        (target = .host → call.priority.belowHigh → s.lowPermitsBegun = call.lowBefore)) :
    pc'.Bounded target s' := by
  cases pc with
  | loadHttp call =>
    simp only [next] at hnext
    split at hnext
    · obtain ⟨rfl, rfl⟩ := Prod.mk.inj (Option.some.inj hnext)
      trivial
    · obtain ⟨rfl, rfl⟩ := Prod.mk.inj (Option.some.inj hnext)
      have hbegun : call.begunBefore ≤ s.begun := h
      exact ⟨hbegun, Nat.le_refl _, by dsimp only; omega⟩
  | loadWss call activeHttp =>
    simp only [next] at hnext
    split at hnext
    · obtain ⟨rfl, rfl⟩ := Prod.mk.inj (Option.some.inj hnext)
      trivial
    · rename_i hpassed
      obtain ⟨rfl, rfl⟩ := Prod.mk.inj (Option.some.inj hnext)
      obtain ⟨hbegun, hlow, hhttp⟩ := h
      have hread : ReadBoth target s call activeHttp s.activeWssCount := by
        refine ⟨hbegun, hlow, by omega, by omega, fun hlow => ?_⟩
        have hmax := maxConcurrentHttp_lt target
        have hlt : activeNetwork activeHttp s.activeWssCount < target.maxConcurrentHttp := by
          by_contra hge
          exact hpassed ⟨by omega, hlow⟩
        rw [activeNetwork] at hlt
        omega
      cases target <;> exact hread
  | lockTls call activeHttp activeWss =>
    simp only [next] at hnext
    split at hnext
    · split at hnext
      · obtain ⟨rfl, rfl⟩ := Prod.mk.inj (Option.some.inj hnext)
        trivial
      · cases hnext
    · obtain ⟨rfl, rfl⟩ := Prod.mk.inj (Option.some.inj hnext)
      exact ReadBoth.later h hlater
  | checkHeap call activeHttp activeWss =>
    obtain ⟨rfl, rfl⟩ := Prod.mk.inj (Option.some.inj hnext)
    split
    · exact h
    · trivial
  | increment call activeHttp activeWss =>
    obtain ⟨hcount, hesp, hhost⟩ := hadd call activeHttp activeWss rfl
    obtain ⟨rfl, rfl⟩ := Prod.mk.inj (Option.some.inj hnext)
    intro hlow
    have hlow : call.priority.belowHigh = true := hlow
    obtain ⟨hbegun, -, hwss, hboth, hpassed⟩ := h
    have hread := hpassed hlow
    have hsame : (s.addHttp call.priority).begun = s.begun := by
      simp only [Transport.addHttp, Transport.begun, hlow, if_true]
    have hwssSame : (s.addHttp call.priority).activeWssCount = s.activeWssCount := rfl
    dsimp only
    rw [hcount, hsame, hwssSame]
    cases target with
    | esp =>
      have hnone := hesp rfl
      omega
    | host =>
      have hfresh := hhost rfl hlow
      omega
  | granted grant =>
    obtain ⟨rfl, rfl⟩ := Prod.mk.inj (Option.some.inj hnext)
    cases target <;> trivial
  | done => cases hnext
  | _ =>
    obtain ⟨rfl, rfl⟩ := Prod.mk.inj (Option.some.inj hnext)
    trivial

theorem Admitted.step (h : Admitted target w) (hc : ReadsAreFresh target w a)
    (ht : w.step (permitSystem target) a = some t) : Admitted target t := by
  cases Pool.fires_of_step ht with
  | begun call shared pc henter =>
    obtain ⟨rfl, rfl⟩ := Prod.mk.inj (Option.some.inj henter)
    refine ⟨?_, ?_, h.httpFits, h.wssFits, fun hesp => ?_, fun pc hpc => ?_⟩
    · rw [Pool.count_begun, ← h.http]
      cases call <;> rfl
    · rw [Pool.count_begun, ← h.wss]
      cases call <;> rfl
    · rw [Pool.count_begun, h.lock hesp]
      cases call <;> rfl
    · rcases List.mem_append.mp hpc with hpc | hpc
      · exact h.bounded pc hpc
      · obtain rfl := List.mem_singleton.mp hpc
        cases call with
        | requestHttpPermit priority pressure => exact Nat.le_refl _
        | beginWssSession profile => trivial
  | advanced i outcome pc pc' shared hpc hnext =>
    simp only [ReadsAreFresh, hpc] at hc
    have hgranted (hin : pc.isGranted) : 0 < w.shared.activeHttpCount := h.http ▸ Pool.count_pos hpc hin
    have hmoved := PermitPc.next_counts hnext hgranted (fun hin => h.wss ▸ Pool.count_pos hpc hin) h.httpFits h.wssFits
      (by rintro call activeHttp activeWss rfl; exact hc.1) (by rintro profile rfl; exact hc)
    have hhttp := Pool.count_advanced PermitPc.isGranted hpc shared pc'
    have hwss := Pool.count_advanced PermitPc.inWss hpc shared pc'
    have hhttp' := hmoved.http
    have hwss' := hmoved.wss
    have hhttp'' := h.http
    have hwss'' := h.wss
    refine ⟨by dsimp only; omega, by dsimp only; omega, hmoved.httpFits, hmoved.wssFits, ?_, ?_⟩
    · rintro rfl
      have hlock := Pool.count_advanced PermitPc.holdsTls hpc shared pc'
      have hheld := h.lock rfl
      have hlock' := PermitPc.next_lock hnext fun hin => by
        have hpos := Pool.count_pos hpc hin
        cases hheld' : w.shared.tlsPermitHeld with
        | false => rw [hheld', Bool.toNat_false] at hheld; omega
        | true => rfl
      dsimp only
      omega
    · intro other hother
      rcases List.mem_or_eq_of_mem_set hother with hother | rfl
      · exact (h.bounded other hother).later hmoved.later
      · refine PermitPc.next_bounded hnext (h.bounded pc (List.mem_of_getElem? hpc)) hmoved.later ?_
        rintro call activeHttp activeWss rfl
        obtain ⟨hroom, hfresh⟩ := hc
        obtain ⟨rfl, rfl⟩ := Prod.mk.inj (Option.some.inj hnext)
        refine ⟨fetchAdd_of_lt hroom, ?_, hfresh⟩
        rintro rfl
        -- this call holds the lock, and each granted one would hold it too
        have hheld := h.lock rfl
        have hle := Bool.toNat_le w.shared.tlsPermitHeld
        have hmore := Pool.count_advanced PermitPc.holdsTls hpc w.shared .done
        have hrest : Pool.count ⟨w.shared, w.calls.set i .done⟩ PermitPc.isGranted ≤
            Pool.count ⟨w.shared, w.calls.set i .done⟩ PermitPc.holdsTls := by
          refine Pool.count_mono fun pc hpc => ?_
          cases pc <;> first | rfl | cases hpc
        have hsame := Pool.count_advanced PermitPc.isGranted hpc w.shared .done
        simp only [PermitPc.holdsTls, PermitPc.isGranted, Bool.toNat_true, Bool.toNat_false] at hmore hsame
        rw [h.http]
        omega

theorem Admitted.withinLimit (h : Admitted target w) : WithinLimit target w where
  grants _ hgrant := h.bounded _ hgrant
  counted _ := h.http

end

/-- In every run in which a host grants a permit of low priority only to the last call that
read the counters, and no counter overflows, the limit holds; the chips need no such thing. -/
theorem low_priority_permits_within_limit (target : Target) (moves : List PermitMove)
    (h : Meets (Pool.step (permitSystem target)) (ReadsAreFresh target) moves ⟨.start, []⟩) :
    Always (Pool.step (permitSystem target)) (WithinLimit target) moves ⟨.start, []⟩ := by
  refine always_of_meets (I := Admitted target) (fun _ _ _ hw hc ht => hw.step hc ht) (fun _ hw => hw.withinLimit)
    moves _ ⟨rfl, rfl, by decide, by decide, fun _ => rfl, ?_⟩ h
  rintro pc ⟨⟩

/-- A call of low priority up to where its permit is counted on a host. -/
def readCounters (i : Nat) : List PermitMove :=
  [.begin (.requestHttpPermit .low .normal), .advance i ⟨false, true⟩, .advance i ⟨false, true⟩]

/-- On a chip two calls read the counters at the same time, and the second waits for the lock. -/
theorem second_permit_waits :
    Always (Pool.step (permitSystem .esp)) (WithinLimit .esp)
      (readCounters 0 ++ readCounters 1 ++ List.replicate 5 (.advance 0 ⟨false, true⟩) ++
        List.replicate 3 (.advance 1 ⟨false, true⟩))
      ⟨.start, []⟩ :=
  low_priority_permits_within_limit .esp _ (by decide)

/-- On a host seventeen calls read the counters before the first of them is counted. -/
theorem seventeen_permits_granted :
    ¬ Always (Pool.step (permitSystem .host)) (WithinLimit .host)
      ((List.range 17).flatMap readCounters ++ (List.range 17).map fun i => .advance i ⟨false, true⟩)
      ⟨.start, []⟩ := by
  intro h
  have hlast := h.last (t := ⟨{ Transport.start with activeHttpCount := 17, lowPermitsBegun := 17 },
    (List.range 17).map fun i => .granted ⟨.low, i + 1, 0⟩⟩) (by decide)
  exact absurd (hlast.grants ⟨.low, 17, 0⟩ (by decide) rfl) (by decide)

end Beetle.Network
