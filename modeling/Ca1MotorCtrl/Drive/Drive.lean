import Ca1MotorCtrl.Drive.ObjectDictionary
import Ca1MotorCtrl.Drive.PowerState

/-! The drive as the documentation describes it: a power state, the settings
and actual values behind the object dictionary, and an FSM mode in which only
a deferred machine can hold a pending Controlword. Statusword, mode display
and reported position are computed from these, so they cannot disagree with
them. `Drive.toSimulator` is the simulator object that represents a drive. -/
namespace Ca1MotorCtrl

/-- A pending word exists in deferred mode only. -/
inductive FsmMode where
  | immediate
  | deferred (pending : Bool)
  deriving DecidableEq, Repr

def FsmMode.isDeferred : FsmMode → Bool
  | .immediate => false
  | .deferred _ => true

def FsmMode.isPending : FsmMode → Bool
  | .immediate => false
  | .deferred pending => pending

/-- The mode with nothing pending that `set_fsm_deferred` selects. -/
def FsmMode.ofDeferred (deferred : Bool) : FsmMode :=
  if deferred then .deferred false else .immediate

@[ext] structure Drive (R : Type) where
  power : PowerState
  mode : FsmMode
  prevControlword : UInt16
  position : R
  controlword : OdValue
  modesOfOperation : OdValue
  targetVelocity : OdValue
  velocityActual : OdValue
  targetPosition : OdValue
  profileAcceleration : OdValue
  profileDeceleration : OdValue
  maxMotorSpeed : OdValue
  errorCode : OdValue

namespace Drive
variable {R : Type} (A : DoubleArith R)

/-- The value of each object. -/
def value (d : Drive R) : Object → OdValue
  | .controlword => d.controlword
  | .statusword => odValueOfUInt16 (DriveSimulator.encodeState d.power.toDriveState)
  | .modesOfOperation => d.modesOfOperation
  | .modesOfOperationDisplay => d.modesOfOperation
  | .targetVelocity => d.targetVelocity
  | .velocityActual => d.velocityActual
  | .positionActual => A.toOdValue (A.round d.position)
  | .targetPosition => d.targetPosition
  | .profileAcceleration => d.profileAcceleration
  | .profileDeceleration => d.profileDeceleration
  | .maxMotorSpeed => d.maxMotorSpeed
  | .errorCode => d.errorCode

/-- The simulator object that represents a drive. -/
def toSimulator (d : Drive R) : DriveSimulator R :=
  ⟨dictionary (d.value A), d.power.toDriveState, d.prevControlword, d.position,
    d.mode.isDeferred, d.mode.isPending⟩

/-- Power-on settings in a given FSM mode. -/
def powerOn (mode : FsmMode) : Drive R where
  power := .switchOnDisabled
  mode := mode
  prevControlword := 0
  position := A.literal 0
  controlword := 0
  modesOfOperation := ModeOfOperation.profileVelocity.toInt32
  targetVelocity := 0
  velocityActual := 0
  targetPosition := 0
  profileAcceleration := 1000
  profileDeceleration := 1000
  maxMotorSpeed := 250
  errorCode := 0

/-- Apply a Controlword to the power state machine. -/
def applyWord (d : Drive R) (cw : UInt16) : Drive R :=
  let edge := risingEdge d.prevControlword cw
  { d with
    power := d.power.apply edge cw
    errorCode := if edge && d.power == .fault then 0 else d.errorCode
    prevControlword := cw }

/-- A successful write. Objects without write access keep their value. -/
def store (d : Drive R) (o : Object) (v : OdValue) : Drive R :=
  match o with
  | .controlword =>
      match d.mode with
      | .immediate => { d with controlword := v }.applyWord (lowWord v)
      | .deferred _ => { d with controlword := v, mode := .deferred true }
  | .modesOfOperation => { d with modesOfOperation := v }
  | .targetVelocity => { d with targetVelocity := v }
  | .targetPosition => { d with targetPosition := v }
  | .profileAcceleration => { d with profileAcceleration := v }
  | .profileDeceleration => { d with profileDeceleration := v }
  | .maxMotorSpeed => { d with maxMotorSpeed := v }
  | _ => d

theorem store_controlword_of_immediate {d : Drive R} (hMode : d.mode = .immediate) (v : OdValue) :
    d.store .controlword v = { d with controlword := v }.applyWord (lowWord v) := by
  simp only [store, hMode]

theorem store_controlword_of_deferred {d : Drive R} {pending : Bool}
    (hMode : d.mode = .deferred pending) (v : OdValue) :
    d.store .controlword v = { d with controlword := v, mode := .deferred true } := by
  simp only [store, hMode]

def raiseFault (d : Drive R) (code : UInt32) : Drive R :=
  { d with power := .fault, errorCode := code.toInt32 }

/-- The velocity that the profile reaches after `dt`, before rounding. -/
def rampedVelocity (d : Drive R) (dt : R) : R :=
  DriveSimulator.ramp A (A.ofOdValue d.velocityActual) (A.ofOdValue d.targetVelocity)
    (A.ofOdValue d.profileAcceleration) (A.ofOdValue d.profileDeceleration) dt

/-- The over-speed test of one physics step. -/
def overspeed (d : Drive R) (dt : R) : Bool :=
  A.lt (A.ofOdValue d.maxMotorSpeed) (A.abs (d.rampedVelocity A dt))

def decayedVelocity (d : Drive R) : OdValue :=
  if d.velocityActual ≠ 0 then
    A.toOdValue (A.round (A.mul (A.ofOdValue d.velocityActual) (A.literal (9 / 10))))
  else d.velocityActual

def update (d : Drive R) (dt : R) : Drive R :=
  if d.power = .operationEnabled then
    if d.overspeed A dt then d.raiseFault ErrorCode.overspeed
    else
      { d with
        velocityActual := A.toOdValue (A.round (d.rampedVelocity A dt))
        position := A.add d.position (A.mul (d.rampedVelocity A dt) dt) }
  else { d with velocityActual := d.decayedVelocity A }

/-- A physics update neither reads nor changes the FSM mode and the Controlword history. -/
theorem update_with (d : Drive R) (mode : FsmMode) (cw : OdValue) (prev : UInt16) (dt : R) :
    update A { d with mode := mode, controlword := cw, prevControlword := prev } dt =
      { d.update A dt with mode := mode, controlword := cw, prevControlword := prev } := by
  have hOver :
      overspeed A { d with mode := mode, controlword := cw, prevControlword := prev } dt =
        d.overspeed A dt := rfl
  unfold update
  rw [hOver]
  dsimp only
  split
  · split <;> rfl
  · rfl

theorem update_frame (d : Drive R) (dt : R) :
    (d.update A dt).mode = d.mode ∧ (d.update A dt).controlword = d.controlword := by
  have hSame := d.update_with A d.mode d.controlword d.prevControlword dt
  have hMode := congrArg Drive.mode hSame
  have hWord := congrArg Drive.controlword hSame
  exact ⟨hMode, hWord⟩

theorem update_prevControlword (d : Drive R) (dt : R) :
    (d.update A dt).prevControlword = d.prevControlword := by
  have hSame := d.update_with A d.mode d.controlword d.prevControlword dt
  have hPrev := congrArg Drive.prevControlword hSame
  exact hPrev

def updateFsm (d : Drive R) : Drive R :=
  match d.mode with
  | .deferred true => { d with mode := .deferred false }.applyWord (lowWord d.controlword)
  | _ => d

theorem updateFsm_of_pending {d : Drive R} (hMode : d.mode = .deferred true) :
    d.updateFsm = { d with mode := .deferred false }.applyWord (lowWord d.controlword) := by
  simp only [updateFsm, hMode]

theorem updateFsm_of_idle {d : Drive R} (hMode : d.mode ≠ .deferred true) : d.updateFsm = d := by
  unfold updateFsm
  split
  next h => exact absurd h hMode
  next => rfl

def step (d : Drive R) : Operation R → Drive R
  | .read _ _ => d
  | .write index subindex v =>
      match Object.ofKey? (makeKey index subindex) with
      | some o => d.store o v
      | none => d
  | .update dt => d.update A dt
  | .updateFsm => d.updateFsm
  | .setFsmDeferred deferred => { d with mode := .ofDeferred deferred }
  | .reset => powerOn A d.mode
  | .injectFault => d.raiseFault ErrorCode.generic
  | .injectOverspeedFault => d.raiseFault ErrorCode.overspeed
  | .injectSensorTimeoutFault => d.raiseFault ErrorCode.sensorTimeout

end Drive

end Ca1MotorCtrl
