import Mathlib.Data.UInt

/-! The pressure level that the orchestrator reads off its counters. -/
namespace Beetle.Orchestrator.Pressure

inductive PressureLevel where
  | normal | cautious | critical
  deriving DecidableEq

namespace PressureLevel

def toByte : PressureLevel → Nat
  | normal => 0
  | cautious => 1
  | critical => 2

/-- Severity. -/
instance : LE PressureLevel := ⟨fun level other => level.toByte ≤ other.toByte⟩

instance : DecidableLE PressureLevel := fun _ _ => inferInstanceAs (Decidable (_ ≤ _))

theorem le_iff (level other : PressureLevel) :
    level ≤ other ↔ (level = critical → other = critical) ∧ (other = normal → level = normal) := by
  cases level <;> cases other <;> decide

end PressureLevel

inductive TlsFragmentationRisk where
  | notApplicable | healthy | cautious | critical
  deriving DecidableEq

/-- The chips with a `usize` of 32 bits, and hosts. -/
inductive Target where
  | esp | host
  deriving DecidableEq

namespace Target

def usizeBits : Target → Nat
  | esp => 32
  | host => 64

def defaultCapacity : Target → Nat
  | esp => 16
  | host => 64

def maxConcurrentHttp : Target → Nat
  | esp => 3
  | host => 16

def pressureNormalInternalMinBytes : Target → Nat
  | esp => 60 * 1024
  | host => 64 * 1024 * 1024

def pressureCautiousInternalMinBytes : Target → Nat
  | esp => 48 * 1024
  | host => 32 * 1024 * 1024

def pressureQueueCongestionThreshold (target : Target) : Nat :=
  target.defaultCapacity * 2 * 3 / 4

end Target

def pressureNormalPsramMinBytes : Nat := 3 * 1024 * 1024
def pressureCautiousPsramMinBytes : Nat := 768 * 1024
def tlsAdmissionMinInternalBytes : Nat := 38 * 1024
def espTransportSteadyInternalCautionBytes : Nat := tlsAdmissionMinInternalBytes + 16 * 1024
def tlsAdmissionMinLargestBlockBytes : Nat := 24 * 1024
def tlsFragmentationCautionHeadroomBytes : Nat := 4 * 1024

/-- The counters of the orchestrator that the pressure depends on. -/
structure OrchestratorState where
  heapFreeInternal : UInt32
  heapFreeSpiram : UInt32
  heapLargestBlock : UInt32
  heapBaselineInternal : UInt32
  inboundDepth : UInt32
  outboundDepth : UInt32

/-- The counts of connections that the network module keeps. -/
structure NetworkCounts where
  activeHttpCount : UInt32
  activeWssCount : UInt32

structure Reading where
  state : OrchestratorState
  network : NetworkCounts

def tlsFragmentationRisk (heapLargestBlock heapFreeSpiram : UInt32) : TlsFragmentationRisk :=
  let min := tlsAdmissionMinLargestBlockBytes
  let caution := min + tlsFragmentationCautionHeadroomBytes
  if heapFreeSpiram.toNat = 0 ∨ heapLargestBlock.toNat = 0 then .notApplicable
  else if heapLargestBlock.toNat < min then .critical
  else if heapLargestBlock.toNat < caution then .cautious
  else .healthy

namespace Reading
variable (target : Target) (reading : Reading)

def internal : Nat := reading.state.heapFreeInternal.toNat

def spiram : Nat := reading.state.heapFreeSpiram.toNat

def baseline : Nat := reading.state.heapBaselineInternal.toNat

def fragmentationRisk : TlsFragmentationRisk :=
  tlsFragmentationRisk reading.state.heapLargestBlock reading.state.heapFreeSpiram

/-- The addition saturates. -/
def activeNetwork : Nat :=
  min (reading.network.activeHttpCount.toNat + reading.network.activeWssCount.toNat) (2 ^ 32 - 1)

/-- The addition wraps. -/
def queueTotal : Nat := (reading.state.inboundDepth + reading.state.outboundDepth).toNat

/-- The multiplication wraps at the width of `usize`. -/
def usagePercent : Nat :=
  if 0 < reading.baseline ∧ reading.internal < reading.baseline then
    (reading.baseline - reading.internal) * 100 % 2 ^ target.usizeBits / reading.baseline
  else 0

end Reading

def computePressure (target : Target) (reading : Reading) : PressureLevel :=
  if reading.fragmentationRisk = .critical then .critical
  else if reading.internal < target.pressureCautiousInternalMinBytes ∧
      (reading.spiram = 0 ∨ reading.spiram < pressureCautiousPsramMinBytes) then .critical
  else if 0 < reading.spiram ∧ reading.internal < espTransportSteadyInternalCautionBytes then .cautious
  else if target.pressureQueueCongestionThreshold ≤ reading.queueTotal ∧
      reading.internal < target.pressureNormalInternalMinBytes then .critical
  else if (85 < reading.usagePercent target ∧ reading.internal < target.pressureNormalInternalMinBytes) ∨
      (0 < reading.spiram ∧ reading.spiram < pressureNormalPsramMinBytes) then .cautious
  else if reading.fragmentationRisk = .cautious then .cautious
  else if target.maxConcurrentHttp ≤ reading.activeNetwork then .cautious
  else if target.pressureQueueCongestionThreshold ≤ reading.queueTotal then .cautious
  else .normal

namespace Reading
variable (target : Target) (reading : Reading)

/-- The two tests that come before every milder answer. -/
def Exhausted : Prop :=
  reading.fragmentationRisk = .critical ∨
    reading.internal < target.pressureCautiousInternalMinBytes ∧
      (reading.spiram = 0 ∨ reading.spiram < pressureCautiousPsramMinBytes)

def BelowSteady : Prop :=
  0 < reading.spiram ∧ reading.internal < espTransportSteadyInternalCautionBytes

def Congested : Prop := target.pressureQueueCongestionThreshold ≤ reading.queueTotal

def Low : Prop := reading.internal < target.pressureNormalInternalMinBytes

def Strained : Prop := 85 < reading.usagePercent target ∧ reading.Low target

/-- A test other than those on the queues and on the usage finds something. -/
def Wanting : Prop :=
  reading.Exhausted target ∨ reading.BelowSteady ∨
    (0 < reading.spiram ∧ reading.spiram < pressureNormalPsramMinBytes) ∨
    reading.fragmentationRisk = .cautious ∨ target.maxConcurrentHttp ≤ reading.activeNetwork

end Reading

variable {target : Target} {reading first second : Reading}

theorem computePressure_eq_critical :
    computePressure target reading = .critical ↔
      reading.Exhausted target ∨
        ¬reading.BelowSteady ∧ reading.Congested target ∧ reading.Low target := by
  unfold computePressure Reading.Exhausted Reading.BelowSteady Reading.Congested Reading.Low
  split_ifs <;> simp_all

theorem computePressure_eq_normal :
    computePressure target reading = .normal ↔
      ¬reading.Wanting target ∧ ¬reading.Strained target ∧ ¬reading.Congested target := by
  unfold computePressure Reading.Wanting Reading.Exhausted Reading.BelowSteady Reading.Strained
    Reading.Congested Reading.Low
  split_ifs <;> grind

/-- The second reading has at most the free heap of the first and at least its load. -/
structure Worsens (first second : Reading) : Prop where
  internal : second.state.heapFreeInternal ≤ first.state.heapFreeInternal
  largest : second.state.heapLargestBlock ≤ first.state.heapLargestBlock
  largest_pos : second.state.heapLargestBlock ≠ 0
  inbound : first.state.inboundDepth ≤ second.state.inboundDepth
  outbound : first.state.outboundDepth ≤ second.state.outboundDepth
  http : first.network.activeHttpCount ≤ second.network.activeHttpCount
  wss : first.network.activeWssCount ≤ second.network.activeWssCount
  spiram : second.state.heapFreeSpiram = first.state.heapFreeSpiram
  baseline : second.state.heapBaselineInternal = first.state.heapBaselineInternal

namespace Worsens

section
variable (h : Worsens first second)
include h

theorem internal_le : second.internal ≤ first.internal := h.internal

theorem spiram_eq : second.spiram = first.spiram :=
  congrArg UInt32.toNat h.spiram

theorem activeNetwork_le : first.activeNetwork ≤ second.activeNetwork :=
  min_le_min_right _ (Nat.add_le_add h.http h.wss)

theorem low (hlow : first.Low target) : second.Low target :=
  h.internal_le.trans_lt hlow

theorem belowSteady (hbelow : first.BelowSteady) : second.BelowSteady :=
  ⟨h.spiram_eq ▸ hbelow.1, h.internal_le.trans_lt hbelow.2⟩

theorem risk_critical (hrisk : first.fragmentationRisk = .critical) : second.fragmentationRisk = .critical := by
  have hle : second.state.heapLargestBlock.toNat ≤ first.state.heapLargestBlock.toNat := h.largest
  have hpos : second.state.heapLargestBlock.toNat ≠ 0 := fun hzero =>
    h.largest_pos (UInt32.toNat_inj.mp hzero)
  unfold Reading.fragmentationRisk tlsFragmentationRisk at hrisk ⊢
  rw [h.spiram]
  grind

theorem risk_cautious (hrisk : first.fragmentationRisk = .cautious) :
    second.fragmentationRisk = .critical ∨ second.fragmentationRisk = .cautious := by
  have hle : second.state.heapLargestBlock.toNat ≤ first.state.heapLargestBlock.toNat := h.largest
  have hpos : second.state.heapLargestBlock.toNat ≠ 0 := fun hzero =>
    h.largest_pos (UInt32.toNat_inj.mp hzero)
  unfold Reading.fragmentationRisk tlsFragmentationRisk at hrisk ⊢
  rw [h.spiram]
  grind

theorem exhausted (hexhausted : first.Exhausted target) : second.Exhausted target := by
  obtain hrisk | ⟨hinternal, hspiram⟩ := hexhausted
  · exact .inl (h.risk_critical hrisk)
  · exact .inr ⟨h.internal_le.trans_lt hinternal, h.spiram_eq ▸ hspiram⟩

theorem wanting (hwanting : first.Wanting target) : second.Wanting target := by
  obtain hexhausted | hbelow | hspiram | hrisk | hnetwork := hwanting
  · exact .inl (h.exhausted hexhausted)
  · exact .inr (.inl (h.belowSteady hbelow))
  · exact .inr (.inr (.inl (h.spiram_eq ▸ hspiram)))
  · obtain hrisk | hrisk := h.risk_cautious hrisk
    · exact .inl (.inl hrisk)
    · exact .inr (.inr (.inr (.inl hrisk)))
  · exact .inr (.inr (.inr (.inr (hnetwork.trans h.activeNetwork_le))))

end

end Worsens

/-- The early cautious answer hides the congestion of the second reading. -/
def Shadowed (target : Target) (first second : Reading) : Prop :=
  first.Congested target ∧ first.Low target ∧ ¬first.BelowSteady ∧
    second.BelowSteady ∧ ¬second.Exhausted target

/-- The sum of the depths has wrapped below the threshold, or the usage below its bound,
and no other test makes up for it. -/
def Wrapped (target : Target) (first second : Reading) : Prop :=
  ¬second.Congested target ∧
    (first.Congested target ∧ first.Low target ∧ ¬first.BelowSteady ∧ ¬second.Exhausted target ∨
      (first.Congested target ∨ first.Strained target) ∧ ¬second.Strained target ∧
        ¬second.Wanting target)

/-- Of two readings of which the second is worse, the second has at least the pressure of
the first but for the two slips. -/
theorem pressure_monotone_iff (target : Target) (first second : Reading) (h : Worsens first second) :
    computePressure target first ≤ computePressure target second ↔
      ¬Shadowed target first second ∧ ¬Wrapped target first second := by
  rw [PressureLevel.le_iff, computePressure_eq_critical, computePressure_eq_critical,
    computePressure_eq_normal, computePressure_eq_normal]
  constructor
  · rintro ⟨hcritical, hnormal⟩
    constructor
    · rintro ⟨hcongested, hlow, hfirst, hsecond, hexhausted⟩
      obtain h | ⟨h, -⟩ := hcritical (.inr ⟨hfirst, hcongested, hlow⟩)
      · exact hexhausted h
      · exact h hsecond
    · rintro ⟨hsecond, ⟨hcongested, hlow, hfirst, hexhausted⟩ | ⟨htest, hstrained, hwanting⟩⟩
      · obtain h | ⟨-, h, -⟩ := hcritical (.inr ⟨hfirst, hcongested, hlow⟩)
        · exact hexhausted h
        · exact hsecond h
      · obtain ⟨-, hstrained, hcongested⟩ := hnormal ⟨hwanting, hstrained, hsecond⟩
        exact htest.elim hcongested hstrained
  · rintro ⟨hshadowed, hwrapped⟩
    constructor
    · rintro (hexhausted | ⟨hfirst, hcongested, hlow⟩)
      · exact .inl (h.exhausted hexhausted)
      · by_cases hexhausted : second.Exhausted target
        · exact .inl hexhausted
        · exact .inr ⟨fun hsecond => hshadowed ⟨hcongested, hlow, hfirst, hsecond, hexhausted⟩,
            by_contra fun hsecond => hwrapped ⟨hsecond, .inl ⟨hcongested, hlow, hfirst, hexhausted⟩⟩,
            h.low hlow⟩
    · rintro ⟨hwanting, hstrained, hcongested⟩
      exact ⟨fun hfirst => hwanting (h.wanting hfirst),
        fun hfirst => hwrapped ⟨hcongested, .inr ⟨.inr hfirst, hstrained, hwanting⟩⟩,
        fun hfirst => hwrapped ⟨hcongested, .inr ⟨.inl hfirst, hstrained, hwanting⟩⟩⟩

/-- A chip with 58 KiB of internal heap and 24 messages in its queues. -/
def congestedReading : Reading where
  state := ⟨58 * 1024, 8 * 1024 * 1024, 32 * 1024, 200 * 1024, 12, 12⟩
  network := ⟨0, 0⟩

/-- The same chip with 8 KiB less. -/
def shadowedReading : Reading where
  state := ⟨50 * 1024, 8 * 1024 * 1024, 32 * 1024, 200 * 1024, 12, 12⟩
  network := ⟨0, 0⟩

theorem less_heap_less_pressure :
    ¬∀ first second, Worsens first second →
      computePressure .esp first ≤ computePressure .esp second := by
  intro hmonotone
  have hworsens : Worsens congestedReading shadowedReading := by constructor <;> decide
  exact absurd (hmonotone _ _ hworsens) (by decide)

/-- The chip before the queues filled up. -/
def steadyReading : Reading where
  state := ⟨62 * 1024, 8 * 1024 * 1024, 32 * 1024, 200 * 1024, 1, 12⟩
  network := ⟨0, 0⟩

theorem filling_queues_monotone_iff :
    Worsens steadyReading congestedReading ∧
      (computePressure .esp steadyReading ≤ computePressure .esp congestedReading ↔
        ¬Shadowed .esp steadyReading congestedReading ∧
          ¬Wrapped .esp steadyReading congestedReading) :=
  have hworsens : Worsens steadyReading congestedReading := by constructor <;> decide
  ⟨hworsens, pressure_monotone_iff .esp _ _ hworsens⟩

end Beetle.Orchestrator.Pressure
