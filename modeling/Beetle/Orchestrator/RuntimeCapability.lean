import Mathlib.Data.Nat.Bitwise

/-! The slot of a runtime capability: its status, and the word with its call state and its
active calls. -/
namespace Beetle.Orchestrator.RuntimeCapability

inductive RuntimeCapabilityStatus where
  | online | degraded | offline
  deriving DecidableEq

inductive RuntimeCapabilityReason where
  | nominal | notConfigured | runtimeNotInitialized | deviceMissing | deviceDisconnected
  | workerDead | driverError | permissionDenied | upstreamUnavailable | recoveryStabilizing
  | operatorDisabled
  deriving DecidableEq

inductive RuntimeCapabilityCallState where
  | accepting | draining | disabled | unloaded | failed
  deriving DecidableEq

namespace RuntimeCapabilityCallState

def toByte : RuntimeCapabilityCallState → Nat
  | accepting => 0
  | draining => 1
  | disabled => 2
  | unloaded => 3
  | failed => 4

def fromByte : Nat → RuntimeCapabilityCallState
  | 1 => draining
  | 2 => disabled
  | 3 => unloaded
  | 4 => failed
  | _ => accepting

def acceptsNewCalls (state : RuntimeCapabilityCallState) : Bool := state = accepting

theorem toByte_lt (state : RuntimeCapabilityCallState) : state.toByte < 256 := by
  cases state <;> decide

@[simp] theorem fromByte_toByte (state : RuntimeCapabilityCallState) :
    fromByte state.toByte = state := by
  cases state <;> rfl

end RuntimeCapabilityCallState

open RuntimeCapabilityCallState

def callActiveMask : Nat := 0xffff
def callStateShift : Nat := 16

def packCallWord (state : RuntimeCapabilityCallState) (activeCalls : Nat) : Nat :=
  (state.toByte <<< callStateShift) ||| (activeCalls &&& callActiveMask)

def callStateFromWord (word : Nat) : RuntimeCapabilityCallState :=
  fromByte ((word >>> callStateShift) % 256)

def activeCallsFromWord (word : Nat) : Nat := word &&& callActiveMask

theorem and_callActiveMask (n : Nat) : n &&& callActiveMask = n % 2 ^ callStateShift :=
  Nat.and_two_pow_sub_one_eq_mod n 16

variable (state : RuntimeCapabilityCallState)

theorem packCallWord_eq (activeCalls : Nat) :
    packCallWord state activeCalls =
      state.toByte * 2 ^ callStateShift + activeCalls % 2 ^ callStateShift := by
  have hlt : activeCalls % 2 ^ callStateShift < 2 ^ callStateShift := Nat.mod_lt _ (by decide)
  rw [packCallWord, and_callActiveMask, ← Nat.shiftLeft_add_eq_or_of_lt hlt, Nat.shiftLeft_eq]

@[simp] theorem callStateFromWord_pack (activeCalls : Nat) :
    callStateFromWord (packCallWord state activeCalls) = state := by
  have hlt : activeCalls % 2 ^ callStateShift < 2 ^ callStateShift := Nat.mod_lt _ (by decide)
  have hdiv : (state.toByte * 2 ^ callStateShift + activeCalls % 2 ^ callStateShift) /
      2 ^ callStateShift = state.toByte := by
    rw [Nat.mul_comm, Nat.mul_add_div (by decide), Nat.div_eq_of_lt hlt, Nat.add_zero]
  rw [callStateFromWord, packCallWord_eq, Nat.shiftRight_eq_div_pow, hdiv,
    Nat.mod_eq_of_lt state.toByte_lt, fromByte_toByte]

theorem activeCallsFromWord_pack_mod (activeCalls : Nat) :
    activeCallsFromWord (packCallWord state activeCalls) = activeCalls % 2 ^ callStateShift := by
  rw [activeCallsFromWord, and_callActiveMask, packCallWord_eq, Nat.mul_comm, Nat.mul_add_mod,
    Nat.mod_mod]

theorem activeCallsFromWord_le (word : Nat) : activeCallsFromWord word ≤ callActiveMask :=
  Nat.and_le_right

theorem activeCallsFromWord_pack {activeCalls : Nat} (h : activeCalls ≤ callActiveMask) :
    activeCallsFromWord (packCallWord state activeCalls) = activeCalls := by
  rw [activeCallsFromWord_pack_mod]
  exact Nat.mod_eq_of_lt (Nat.lt_succ_of_le h)

inductive RuntimeCapabilityError where
  | unavailable | notAcceptingCalls | activeCallCapacityExhausted | notDraining | stillHasActiveCalls

def RuntimeCapabilityError.message : RuntimeCapabilityError → String
  | unavailable => "runtime capability is unavailable"
  | notAcceptingCalls => "runtime capability is not accepting calls"
  | activeCallCapacityExhausted => "runtime capability active call capacity exhausted"
  | notDraining => "runtime capability is not draining"
  | stillHasActiveCalls => "runtime capability still has active calls"

/-- The status and the reason are kept as bytes, which stand for these values. -/
structure RuntimeCapabilitySlot where
  status : RuntimeCapabilityStatus
  reason : RuntimeCapabilityReason
  epoch : Nat
  changedAtSecs : Nat
  observedAtSecs : Nat
  callWord : Nat
  lastTransitionUptimeMs : Nat
  drainDeniedTotal : Nat

def RuntimeCapabilitySlot.new : RuntimeCapabilitySlot :=
  ⟨.offline, .runtimeNotInitialized, 0, 0, 0, packCallWord .unloaded 0, 0, 0⟩

def statusAcceptsRuntimeCall (status : RuntimeCapabilityStatus) (reason : RuntimeCapabilityReason)
    (allowWhenDegraded : Bool) : Bool :=
  reason ≠ .operatorDisabled &&
    match status with
    | .online => true
    | .degraded => allowWhenDegraded
    | .offline => false

/-- The call state that an update asks for. -/
def reconciledCallState (status : RuntimeCapabilityStatus) (reason : RuntimeCapabilityReason)
    (currentState : RuntimeCapabilityCallState) : RuntimeCapabilityCallState :=
  match status, reason with
  | .online, _ | .degraded, _ => .accepting
  | _, .operatorDisabled => .disabled
  | _, .workerDead | _, .driverError => .failed
  | _, .runtimeNotInitialized => .unloaded
  | _, _ => currentState

/-- An epoch is a `u32` and saturates. -/
def nextEpoch (changed : Bool) (currentEpoch : Nat) : Nat :=
  if changed then max (min (currentEpoch + 1) (2 ^ 32 - 1)) 1 else max currentEpoch 1

end Beetle.Orchestrator.RuntimeCapability

/-! The operations on the slots one after the other, the observers of the platform among
them. -/
namespace Beetle.Orchestrator.RuntimeCapability

inductive RuntimeCapabilityId where
  | audioOutput | audioInput | networkOutboundHttp | storageStateFs | displayOutput
  | hardwareGpio | hardwareI2c | sensor | cameraFrame
  deriving DecidableEq

/-- The seconds are cut to a `u32`, and so are the milliseconds since the first reading. -/
structure Clock where
  secs : Nat
  uptimeMillis : Nat

structure RuntimeCapabilityUpdate where
  id : RuntimeCapabilityId
  status : RuntimeCapabilityStatus
  reason : RuntimeCapabilityReason
  observedAtSecs : Nat

namespace RuntimeCapabilitySlot
variable (slot : RuntimeCapabilitySlot) (clock : Clock)

def callState : RuntimeCapabilityCallState := callStateFromWord slot.callWord

def activeCalls : Nat := activeCallsFromWord slot.callWord

/-- What the successful exchange of the word leaves. -/
def moveTo (nextState : RuntimeCapabilityCallState) : RuntimeCapabilitySlot :=
  { slot with
    callWord := packCallWord nextState slot.activeCalls
    lastTransitionUptimeMs := clock.uptimeMillis }

def setCallState (nextState : RuntimeCapabilityCallState) : RuntimeCapabilitySlot :=
  if slot.callState = nextState then slot else slot.moveTo clock nextState

def reconcileCallStateAfterUpdate (status : RuntimeCapabilityStatus) (reason : RuntimeCapabilityReason) :
    RuntimeCapabilitySlot :=
  if slot.callState = .draining then slot
  else if reconciledCallState status reason slot.callState = slot.callState then slot
  else slot.moveTo clock (reconciledCallState status reason slot.callState)

def incrementActiveCall : Except RuntimeCapabilityError RuntimeCapabilitySlot :=
  if !slot.callState.acceptsNewCalls then .error .notAcceptingCalls
  else if callActiveMask < slot.activeCalls + 1 then .error .activeCallCapacityExhausted
  else .ok { slot with callWord := packCallWord slot.callState (slot.activeCalls + 1) }

def decrementActiveCall : RuntimeCapabilitySlot :=
  if slot.activeCalls = 0 then slot
  else { slot with callWord := packCallWord slot.callState (slot.activeCalls - 1) }

def recordRuntimeCapabilityDenied : RuntimeCapabilitySlot :=
  { slot with drainDeniedTotal := (slot.drainDeniedTotal + 1) % 2 ^ 32 }

def update (status : RuntimeCapabilityStatus) (reason : RuntimeCapabilityReason) (observedAtSecs : Nat) :
    RuntimeCapabilitySlot :=
  let changed := slot.epoch = 0 ∨ slot.status ≠ status ∨ slot.reason ≠ reason
  let slot' := { slot with
    status, reason, observedAtSecs
    epoch := nextEpoch changed slot.epoch
    changedAtSecs := if changed then observedAtSecs else slot.changedAtSecs }
  slot'.reconcileCallStateAfterUpdate clock status reason

def tryBeginRuntimeCapabilityCallInner (allowWhenDegraded : Bool) :
    RuntimeCapabilitySlot × Except RuntimeCapabilityError Unit :=
  if !statusAcceptsRuntimeCall slot.status slot.reason allowWhenDegraded then
    (slot.recordRuntimeCapabilityDenied, .error .unavailable)
  else match slot.incrementActiveCall with
    | .error error => (slot.recordRuntimeCapabilityDenied, .error error)
    | .ok begun =>
      if !begun.callState.acceptsNewCalls ||
          !statusAcceptsRuntimeCall begun.status begun.reason allowWhenDegraded then
        (begun.decrementActiveCall.recordRuntimeCapabilityDenied, .error .notAcceptingCalls)
      else (begun, .ok ())

def tryBeginRuntimeCapabilityCall : RuntimeCapabilitySlot × Except RuntimeCapabilityError Unit :=
  slot.tryBeginRuntimeCapabilityCallInner false

def markRuntimeCapabilityDisabled : RuntimeCapabilitySlot :=
  (slot.setCallState clock .disabled).update clock .offline .operatorDisabled clock.secs

def markRuntimeCapabilityFailed : RuntimeCapabilitySlot :=
  (slot.setCallState clock .failed).update clock .offline .workerDead clock.secs

def finishRuntimeCapabilityUnloaded : RuntimeCapabilitySlot × Except RuntimeCapabilityError Unit :=
  if slot.callState ≠ .draining then (slot, .error .notDraining)
  else if slot.activeCalls ≠ 0 then (slot, .error .stillHasActiveCalls)
  else ((slot.moveTo clock .unloaded).update clock .offline .runtimeNotInitialized clock.secs, .ok ())

end RuntimeCapabilitySlot

inductive MemorySystemKind where
  | espCompact | linuxFull
  deriving DecidableEq

inductive NetworkWifiStage where
  | apOnly | staConnecting | staAuthFailed | staApNotFound | staL2Connected | staWaitingDhcp
  | staIpReady | staRecovering | staFallbackAp

structure NetworkRuntimeSnapshot where
  staExpected : Bool
  staConfigured : Bool
  staIpPresent : Bool
  outboundSettled : Bool
  lastWifiStage : NetworkWifiStage

/-- What the observers read of the configuration. -/
structure AppConfig where
  displayEnabled : Option Bool
  hardwareDeviceTypes : List String
  hasI2cBus : Bool
  i2cDevices : Nat
  i2cSensorModels : List String

/-- The arguments of the platform observer and what it reads of the platform. -/
structure PlatformReading where
  audioSpeakerReady : Bool
  audioMicReady : Bool
  memorySystemKind : MemorySystemKind
  networkRuntimeSnapshot : NetworkRuntimeSnapshot
  displayAvailable : Bool
  i2cReady : Bool
  config : Option AppConfig
  outboundHttpClientReady : Bool
  storageStateFsReady : Option Bool

/-- An update that is online and nominal where the flag says so. -/
def readinessUpdate (id : RuntimeCapabilityId) (ready : Bool) (reason : RuntimeCapabilityReason)
    (nowSecs : Nat) : RuntimeCapabilityUpdate where
  id := id
  status := if ready then .online else .offline
  reason := if ready then .nominal else reason
  observedAtSecs := nowSecs

def outboundHttpStatusForNetworkSnapshot (snapshot : NetworkRuntimeSnapshot) :
    RuntimeCapabilityStatus × RuntimeCapabilityReason :=
  if !snapshot.staExpected || !snapshot.staConfigured then (.offline, .notConfigured)
  else if !snapshot.staIpPresent then
    match snapshot.lastWifiStage with
    | .staConnecting | .staL2Connected | .staWaitingDhcp | .staIpReady | .staRecovering =>
      (.degraded, .recoveryStabilizing)
    | .staAuthFailed | .staApNotFound | .staFallbackAp | .apOnly => (.offline, .upstreamUnavailable)
  else if !snapshot.outboundSettled then (.degraded, .recoveryStabilizing)
  else (.online, .nominal)

def resolveOutboundHttpCapabilityUpdateFromNetwork (outboundHttpClientReady : Bool)
    (network : Option NetworkRuntimeSnapshot) (prior : RuntimeCapabilitySlot) (nowSecs : Nat) :
    RuntimeCapabilityUpdate :=
  let (status, reason) :=
    if !outboundHttpClientReady then (.offline, .runtimeNotInitialized)
    else match network with
      | some snapshot => outboundHttpStatusForNetworkSnapshot snapshot
      | none =>
        if prior.status = .offline ∧ prior.reason = .upstreamUnavailable then
          (.degraded, .upstreamUnavailable)
        else (.online, .nominal)
  ⟨.networkOutboundHttp, status, reason, nowSecs⟩

def observeDisplayCapability (reading : PlatformReading) (nowSecs : Nat) : RuntimeCapabilityUpdate :=
  let displayConfigured := (reading.config.bind (·.displayEnabled)).getD false
  readinessUpdate .displayOutput reading.displayAvailable
    (if displayConfigured then .deviceMissing else .notConfigured) nowSecs

def hardwareBackendServiceableForCapability : MemorySystemKind → Bool
  | .espCompact | .linuxFull => true

def observeHardwareCapabilities (reading : PlatformReading) (nowSecs : Nat) : List RuntimeCapabilityUpdate :=
  let configured := fun (test : AppConfig → Bool) => reading.config.any test
  let gpioConfigured := configured fun config => !config.hardwareDeviceTypes.isEmpty
  let hardwareBackendServiceable := hardwareBackendServiceableForCapability reading.memorySystemKind
  let i2cConfigured := configured fun config =>
    config.hasI2cBus || config.i2cDevices != 0 || !config.i2cSensorModels.isEmpty
  let isGpioSensor := fun (deviceType : String) =>
    deviceType == "gpio_in" || deviceType == "adc_in" || deviceType == "dht"
  let gpioSensorConfigured := configured fun config => config.hardwareDeviceTypes.any isGpioSensor
  let sensorConfigured := configured fun config =>
    config.hardwareDeviceTypes.any isGpioSensor || config.i2cSensorModels.any (· != "raw")
  let i2cReady := reading.i2cReady || (reading.memorySystemKind == .linuxFull && i2cConfigured)
  let gpioSensorReady := gpioSensorConfigured && hardwareBackendServiceable
  let i2cSensorReady := i2cConfigured && i2cReady
  let sensorOnline := sensorConfigured && (gpioSensorReady || i2cSensorReady)
  [readinessUpdate .hardwareGpio (gpioConfigured && hardwareBackendServiceable)
      (if gpioConfigured then .runtimeNotInitialized else .notConfigured) nowSecs,
    readinessUpdate .hardwareI2c i2cReady
      (if i2cConfigured then .runtimeNotInitialized else .notConfigured) nowSecs,
    readinessUpdate .sensor sensorOnline
      (if !sensorConfigured then .notConfigured else .runtimeNotInitialized) nowSecs]

def observeCameraCapability (nowSecs : Nat) : RuntimeCapabilityUpdate :=
  ⟨.cameraFrame, .offline, .notConfigured, nowSecs⟩

/-- The updates in the order in which the observer makes them. -/
def observeRuntimeCapabilitiesFromPlatformWithConfig (reading : PlatformReading)
    (prior : RuntimeCapabilitySlot) (nowSecs : Nat) : List RuntimeCapabilityUpdate :=
  let network := match reading.memorySystemKind with
    | .linuxFull => none
    | .espCompact => some reading.networkRuntimeSnapshot
  [readinessUpdate .audioOutput reading.audioSpeakerReady .deviceMissing nowSecs,
    readinessUpdate .audioInput reading.audioMicReady .deviceMissing nowSecs,
    resolveOutboundHttpCapabilityUpdateFromNetwork reading.outboundHttpClientReady network prior nowSecs] ++
  (reading.storageStateFsReady.map fun storageReady =>
    readinessUpdate .storageStateFs storageReady .runtimeNotInitialized nowSecs).toList ++
  [observeDisplayCapability reading nowSecs] ++ observeHardwareCapabilities reading nowSecs ++
  [observeCameraCapability nowSecs]

def observeRuntimeCapabilitySuccess (required : List RuntimeCapabilityId) (nowSecs : Nat) :
    List RuntimeCapabilityUpdate :=
  required.map fun id => ⟨id, .online, .nominal, nowSecs⟩

def observeRuntimeCapabilityFailure (id : RuntimeCapabilityId) (reason : RuntimeCapabilityReason)
    (nowSecs : Nat) : RuntimeCapabilityUpdate where
  id := id
  status := if reason = .recoveryStabilizing then .degraded else .offline
  reason := reason
  observedAtSecs := nowSecs

inductive Operation where
  | update (update : RuntimeCapabilityUpdate)
  | observeSuccess (required : List RuntimeCapabilityId)
  | observeFailure (id : RuntimeCapabilityId) (reason : RuntimeCapabilityReason)
  | observeFromPlatform (reading : PlatformReading)
  | tryBegin (id : RuntimeCapabilityId) (allowWhenDegraded : Bool)
  | finishCall (id : RuntimeCapabilityId)
  | beginDraining (id : RuntimeCapabilityId)
  | markDisabled (id : RuntimeCapabilityId)
  | markFailed (id : RuntimeCapabilityId)
  | finishUnloaded (id : RuntimeCapabilityId)

/-- A slot for each capability. -/
abbrev RuntimeCapabilityAuthorityState := RuntimeCapabilityId → RuntimeCapabilitySlot

/-- The updates that an observation makes. -/
def Operation.updates (clock : Clock) (authority : RuntimeCapabilityAuthorityState) :
    Operation → List RuntimeCapabilityUpdate
  | update entry => [entry]
  | observeSuccess required => observeRuntimeCapabilitySuccess required clock.secs
  | observeFailure id reason => [observeRuntimeCapabilityFailure id reason clock.secs]
  | observeFromPlatform reading =>
    observeRuntimeCapabilitiesFromPlatformWithConfig reading (authority .networkOutboundHttp) clock.secs
  | _ => []

namespace RuntimeCapabilityAuthorityState
variable (clock : Clock) (authority : RuntimeCapabilityAuthorityState)

def modify (id : RuntimeCapabilityId) (f : RuntimeCapabilitySlot → RuntimeCapabilitySlot) :
    RuntimeCapabilityAuthorityState :=
  Function.update authority id (f (authority id))

def updateRuntimeCapability (update : RuntimeCapabilityUpdate) : RuntimeCapabilityAuthorityState :=
  authority.modify update.id fun slot =>
    slot.update clock update.status update.reason update.observedAtSecs

def apply : Operation → RuntimeCapabilityAuthorityState
  | .tryBegin id allowWhenDegraded =>
    authority.modify id fun slot => (slot.tryBeginRuntimeCapabilityCallInner allowWhenDegraded).1
  | .finishCall id => authority.modify id (·.decrementActiveCall)
  | .beginDraining id => authority.modify id (·.setCallState clock .draining)
  | .markDisabled id => authority.modify id (·.markRuntimeCapabilityDisabled clock)
  | .markFailed id => authority.modify id (·.markRuntimeCapabilityFailed clock)
  | .finishUnloaded id => authority.modify id fun slot => (slot.finishRuntimeCapabilityUnloaded clock).1
  | operation =>
    (operation.updates clock authority).foldl (updateRuntimeCapability clock) authority

end RuntimeCapabilityAuthorityState
end Beetle.Orchestrator.RuntimeCapability
