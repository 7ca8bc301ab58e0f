import Ca1MotorCtrl.Simulator.DoubleArith
import Ca1MotorCtrl.Transition.Observation
import Ca1MotorCtrl.UnorderedMap

/-! `DriveSimulator`: object dictionary, CiA 402 state machine, physics update
and fault injection, function by function as in `drive_simulator.cpp`.
Dictionary accesses through `od_[...]` may insert an entry, so they return
the map as well. -/
namespace Ca1MotorCtrl

inductive Access where
  | ro
  | wo
  | rw
  deriving DecidableEq, Repr

structure OdEntry where
  value : OdValue
  access : Access
  deriving DecidableEq, Repr

/-- A value-initialized entry, as `od_[key]` inserts it. -/
instance : Inhabited OdEntry := ⟨⟨0, .ro⟩⟩

structure DriveSimulator (R : Type) where
  od : UnorderedMap OdAddress OdEntry
  state : DriveState
  prevControlword : UInt16
  positionActual : R
  deferredFsm : Bool
  cwPending : Bool

/-- Pack index and subindex into a single map key. -/
def makeKey (index : UInt16) (subindex : UInt8) : OdAddress :=
  (index.toUInt32 <<< 8) ||| subindex.toUInt32

namespace DriveSimulator
variable {R : Type}

/-- `od_[key]` as an operand. -/
def odAt (s : DriveSimulator R) (key : OdAddress) : OdEntry × DriveSimulator R :=
  let (entry, od) := s.od.subscript key
  (entry, { s with od := od })

/-- `od_[key].value = value`. -/
def setValue (s : DriveSimulator R) (key : OdAddress) (value : OdValue) : DriveSimulator R :=
  let (entry, s) := s.odAt key
  { s with od := s.od.assign key { entry with value := value } }

/-- The Statusword bits that `set_state` stores for a state. -/
def encodeState : DriveState → UInt16
  | .notReadyToSwitchOn => 0x0000
  | .switchOnDisabled => Statusword.switchOnDisabled
  | .readyToSwitchOn => Statusword.readyToSwitchOn ||| Statusword.quickStop
  | .switchedOn =>
      Statusword.readyToSwitchOn ||| Statusword.switchedOn ||| Statusword.quickStop |||
        Statusword.voltageEnabled
  | .operationEnabled =>
      Statusword.readyToSwitchOn ||| Statusword.switchedOn ||| Statusword.operationEnabled |||
        Statusword.quickStop ||| Statusword.voltageEnabled
  | .quickStopActive =>
      Statusword.readyToSwitchOn ||| Statusword.switchedOn ||| Statusword.operationEnabled |||
        Statusword.voltageEnabled
  | .faultReactionActive =>
      Statusword.readyToSwitchOn ||| Statusword.switchedOn ||| Statusword.operationEnabled |||
        Statusword.fault
  | .fault => Statusword.fault
  | .unknown => 0

def setState (s : DriveSimulator R) (newState : DriveState) : DriveSimulator R :=
  { s with state := newState }.setValue (makeKey Cia402Index.statusword 0)
    (odValueOfUInt16 (encodeState newState))

def isOperationEnabled (s : DriveSimulator R) : Bool := s.state == .operationEnabled

/-- Power-on defaults. The FSM mode and the pending flag are not touched. -/
def reset (A : DoubleArith R) (s : DriveSimulator R) : DriveSimulator R :=
  let od := UnorderedMap.empty
    |>.assign (makeKey Cia402Index.controlword 0) ⟨0, .rw⟩
    |>.assign (makeKey Cia402Index.statusword 0) ⟨0, .ro⟩
    |>.assign (makeKey Cia402Index.modesOfOperation 0)
      ⟨ModeOfOperation.profileVelocity.toInt32, .rw⟩
    |>.assign (makeKey Cia402Index.modesOfOperationDisplay 0)
      ⟨ModeOfOperation.profileVelocity.toInt32, .ro⟩
    |>.assign (makeKey Cia402Index.targetVelocity 0) ⟨0, .rw⟩
    |>.assign (makeKey Cia402Index.velocityActual 0) ⟨0, .ro⟩
    |>.assign (makeKey Cia402Index.positionActual 0) ⟨0, .ro⟩
    |>.assign (makeKey Cia402Index.targetPosition 0) ⟨0, .rw⟩
    |>.assign (makeKey Cia402Index.profileAcceleration 0) ⟨1000, .rw⟩
    |>.assign (makeKey Cia402Index.profileDeceleration 0) ⟨1000, .rw⟩
    |>.assign (makeKey Cia402Index.maxMotorSpeed 0) ⟨250, .rw⟩
    |>.assign (makeKey Cia402Index.errorCode 0) ⟨0, .ro⟩
  setState
    { s with
      od := od
      state := .switchOnDisabled
      prevControlword := 0
      positionActual := A.literal 0 }
    .switchOnDisabled

/-- The constructor. -/
def initial (A : DoubleArith R) : DriveSimulator R :=
  reset A
    { od := UnorderedMap.empty
      state := .switchOnDisabled
      prevControlword := 0
      positionActual := A.literal 0
      deferredFsm := false
      cwPending := false }

def read (s : DriveSimulator R) (index : UInt16) (subindex : UInt8) :
    Except OdAccessError OdValue :=
  match s.od (makeKey index subindex) with
  | none => .error
      { message := "OD read: object " ++ hex16 index ++ " sub " ++ hex8 subindex ++
          " does not exist"
        abortCode := 0x06020000 }
  | some entry =>
      if entry.access = .wo then .error
        { message := "OD read: object " ++ hex16 index ++ " is write-only"
          abortCode := 0x06010001 }
      else .ok entry.value

/-- Table 19 transitions. `write` and `update_fsm` store the new word as the
edge reference afterwards, so `prevControlword` is still the previous one. -/
def processControlword (s : DriveSimulator R) (cw : UInt16) : DriveSimulator R :=
  let faultReset := (cw &&& Controlword.faultResetBit != 0) &&
    !(s.prevControlword &&& Controlword.faultResetBit != 0)
  if faultReset && s.state == .fault then
    (s.setValue (makeKey Cia402Index.errorCode 0) 0).setState .switchOnDisabled
  else if cw &&& 0x02 == 0 then
    s.setState .switchOnDisabled
  else
    match s.state with
    | .switchOnDisabled =>
        if cw &&& 0x0F == 0x06 then s.setState .readyToSwitchOn else s
    | .readyToSwitchOn =>
        if cw &&& 0x0F == 0x07 then s.setState .switchedOn
        else if cw &&& 0x0F == 0x06 then s.setState .switchOnDisabled
        else s
    | .switchedOn =>
        if cw &&& 0x0F == 0x0F then s.setState .operationEnabled
        else if cw &&& 0x0F == 0x06 then s.setState .readyToSwitchOn
        else if cw &&& 0x06 == 0x02 then s.setState .quickStopActive
        else s
    | .operationEnabled =>
        if cw &&& 0x0F == 0x07 then s.setState .switchedOn
        else if cw &&& 0x0F == 0x06 then s.setState .readyToSwitchOn
        else if cw &&& 0x06 == 0x02 then s.setState .quickStopActive
        else s
    | .quickStopActive =>
        if cw &&& 0x0F == 0x0F then s.setState .operationEnabled else s
    | _ => s

/-- `process_controlword(cw); prev_controlword_ = cw;` as both callers do. -/
def applyControlword (s : DriveSimulator R) (cw : UInt16) : DriveSimulator R :=
  { s.processControlword cw with prevControlword := cw }

def write (s : DriveSimulator R) (index : UInt16) (subindex : UInt8) (value : OdValue) :
    Except OdAccessError (DriveSimulator R) :=
  let key := makeKey index subindex
  match s.od key with
  | none => .error
      { message := "OD write: object " ++ hex16 index ++ " sub " ++ hex8 subindex ++
          " does not exist"
        abortCode := 0x06020000 }
  | some entry =>
      if entry.access = .ro then .error
        { message := "OD write: object " ++ hex16 index ++ " is read-only"
          abortCode := 0x06010002 }
      else
        let s := { s with od := s.od.assign key { entry with value := value } }
        let s :=
          if index = Cia402Index.controlword ∧ subindex = 0 then
            if s.deferredFsm then { s with cwPending := true }
            else s.applyControlword (lowWord value)
          else s
        if index = Cia402Index.modesOfOperation ∧ subindex = 0 then
          .ok (s.setValue (makeKey Cia402Index.modesOfOperationDisplay 0) value)
        else .ok s

/-- The three injections differ in the error code only. -/
def raiseFault (s : DriveSimulator R) (code : UInt32) : DriveSimulator R :=
  ((s.setValue (makeKey Cia402Index.errorCode 0) code.toInt32).setState
    .faultReactionActive).setState .fault

def injectFault (s : DriveSimulator R) : DriveSimulator R := s.raiseFault ErrorCode.generic

def injectOverspeedFault (s : DriveSimulator R) : DriveSimulator R :=
  s.raiseFault ErrorCode.overspeed

def injectSensorTimeoutFault (s : DriveSimulator R) : DriveSimulator R :=
  s.raiseFault ErrorCode.sensorTimeout

/-- The ramp of one physics step towards the target, clamped there. -/
def ramp (A : DoubleArith R) (vel target accel decel dt : R) : R :=
  if A.lt vel target then A.min (A.add vel (A.mul accel dt)) target
  else if A.lt target vel then A.max (A.sub vel (A.mul decel dt)) target
  else vel

/-- Advance the physics by `dt` seconds. -/
def update (A : DoubleArith R) (s : DriveSimulator R) (dt : R) : DriveSimulator R :=
  if !s.isOperationEnabled then
    let (entry, s) := s.odAt (makeKey Cia402Index.velocityActual 0)
    if entry.value ≠ 0 then
      let vel := A.toOdValue (A.round (A.mul (A.ofOdValue entry.value) (A.literal (9 / 10))))
      s.setValue (makeKey Cia402Index.velocityActual 0) vel
    else s
  else
    let (targetEntry, s) := s.odAt (makeKey Cia402Index.targetVelocity 0)
    let (velEntry, s) := s.odAt (makeKey Cia402Index.velocityActual 0)
    let (accelEntry, s) := s.odAt (makeKey Cia402Index.profileAcceleration 0)
    let (decelEntry, s) := s.odAt (makeKey Cia402Index.profileDeceleration 0)
    let target := A.ofOdValue targetEntry.value
    let vel := A.ofOdValue velEntry.value
    let accel := A.ofOdValue accelEntry.value
    let decel := A.ofOdValue decelEntry.value
    let vel := ramp A vel target accel decel dt
    let (limitEntry, s) := s.odAt (makeKey Cia402Index.maxMotorSpeed 0)
    let limit := A.ofOdValue limitEntry.value
    if A.lt limit (A.abs vel) then s.injectOverspeedFault
    else
      let s := s.setValue (makeKey Cia402Index.velocityActual 0) (A.toOdValue (A.round vel))
      let position := A.add s.positionActual (A.mul vel dt)
      let s := { s with positionActual := position }
      s.setValue (makeKey Cia402Index.positionActual 0) (A.toOdValue (A.round position))

/-- A pending word is dropped by a mode change. -/
def setFsmDeferred (s : DriveSimulator R) (deferred : Bool) : DriveSimulator R :=
  { s with deferredFsm := deferred, cwPending := false }

def updateFsm (s : DriveSimulator R) : DriveSimulator R :=
  if !s.cwPending then s
  else
    let s := { s with cwPending := false }
    let (entry, s) := s.odAt (makeKey Cia402Index.controlword 0)
    s.applyControlword (lowWord entry.value)

end DriveSimulator

/-- One call of the public interface. -/
inductive Operation (R : Type) where
  | read (index : UInt16) (subindex : UInt8)
  | write (index : UInt16) (subindex : UInt8) (value : OdValue)
  | update (dt : R)
  | updateFsm
  | setFsmDeferred (deferred : Bool)
  | reset
  | injectFault
  | injectOverspeedFault
  | injectSensorTimeoutFault

/-- What the caller gets back: nothing, a value, or an exception. -/
inductive Reply where
  | done
  | value (value : OdValue)
  | error (error : OdAccessError)
  deriving DecidableEq, Repr

namespace DriveSimulator
variable {R : Type} (A : DoubleArith R)

/-- The simulator after an operation. Both accessors throw before they change
anything, so a failed access leaves the object as it was. -/
def step (s : DriveSimulator R) : Operation R → DriveSimulator R
  | .read _ _ => s
  | .write index subindex value =>
      match s.write index subindex value with
      | .ok next => next
      | .error _ => s
  | .update dt => s.update A dt
  | .updateFsm => s.updateFsm
  | .setFsmDeferred deferred => s.setFsmDeferred deferred
  | .reset => s.reset A
  | .injectFault => s.injectFault
  | .injectOverspeedFault => s.injectOverspeedFault
  | .injectSensorTimeoutFault => s.injectSensorTimeoutFault

/-- The reply to an operation. -/
def reply (s : DriveSimulator R) : Operation R → Reply
  | .read index subindex =>
      match s.read index subindex with
      | .ok value => .value value
      | .error e => .error e
  | .write index subindex value =>
      match s.write index subindex value with
      | .ok _ => .done
      | .error e => .error e
  | _ => .done

/-- Simulators that some sequence of operations produces from construction. -/
def Reachable (s : DriveSimulator R) : Prop :=
  Transition.Reachable (step A) (initial A) s

end DriveSimulator

end Ca1MotorCtrl
