import Ca1MotorCtrl.Cia402

/-! `DriveController`: the command generator of `drive_controller.cpp`. One
step decodes a Statusword and returns the writes that the caller executes in
order. -/
namespace Ca1MotorCtrl

/-- A single object-dictionary write. -/
structure OdCommand where
  index : UInt16
  subindex : UInt8
  value : OdValue
  deriving DecidableEq, Repr

structure DriveController where
  state : DriveState := .unknown
  prevState : DriveState := .unknown
  targetVelocity : OdValue := 100
  accel : OdValue := 1000
  decel : OdValue := 1000
  enabled : Bool := true
  deriving DecidableEq, Repr

namespace DriveController

/-- Table 30 masked comparisons, in the order of the source. -/
def decodeStatusword (sw : OdValue) : DriveState :=
  if sw &&& 0x4F == 0x0F then .faultReactionActive
  else if sw &&& 0x4F == 0x08 then .fault
  else if sw &&& 0x4F == 0x40 then .switchOnDisabled
  else if sw &&& 0x4F == 0x00 then .notReadyToSwitchOn
  else if sw &&& 0x6F == 0x07 then .quickStopActive
  else if sw &&& 0x6F == 0x27 then .operationEnabled
  else if sw &&& 0x6F == 0x23 then .switchedOn
  else if sw &&& 0x6F == 0x21 then .readyToSwitchOn
  else .unknown

/-- A Controlword command. -/
def controlwordCommand (word : UInt16) : OdCommand :=
  ⟨Cia402Index.controlword, 0, odValueOfUInt16 word⟩

/-- The writes for the decoded state. -/
def commands (c : DriveController) : List OdCommand :=
  match c.state with
  | .switchOnDisabled => [controlwordCommand Controlword.shutdown]
  | .readyToSwitchOn => [controlwordCommand Controlword.switchOn]
  | .switchedOn =>
      if !c.enabled then []
      else
        [⟨Cia402Index.modesOfOperation, 0, ModeOfOperation.profileVelocity.toInt32⟩,
          ⟨Cia402Index.profileAcceleration, 0, c.accel⟩,
          ⟨Cia402Index.profileDeceleration, 0, c.decel⟩,
          controlwordCommand Controlword.enableOperation]
  | .operationEnabled =>
      if !c.enabled then [controlwordCommand Controlword.switchOn]
      else [⟨Cia402Index.targetVelocity, 0, c.targetVelocity⟩]
  | .quickStopActive => [controlwordCommand Controlword.enableOperation]
  | .fault =>
      [controlwordCommand Controlword.disableVoltage, controlwordCommand Controlword.faultResetBit]
  | .faultReactionActive => []
  | .notReadyToSwitchOn => []
  | .unknown => []

/-- One FSM cycle: the controller afterwards and the writes to execute. -/
def step (c : DriveController) (statusword : OdValue) : DriveController × List OdCommand :=
  let c := { c with prevState := c.state, state := decodeStatusword statusword }
  (c, c.commands)

def stateChanged (c : DriveController) : Bool := c.state != c.prevState

def setTargetVelocity (c : DriveController) (rpm : OdValue) : DriveController :=
  { c with targetVelocity := rpm }

def setAcceleration (c : DriveController) (accel : OdValue) : DriveController :=
  { c with accel := accel }

def setDeceleration (c : DriveController) (decel : OdValue) : DriveController :=
  { c with decel := decel }

def setEnable (c : DriveController) (enable : Bool) : DriveController :=
  { c with enabled := enable }

end DriveController

/-- A call of one of the four setters. -/
inductive Setting where
  | targetVelocity (rpm : OdValue)
  | acceleration (accel : OdValue)
  | deceleration (decel : OdValue)
  | enable (enable : Bool)
  deriving DecidableEq, Repr

namespace DriveController

def set (c : DriveController) : Setting → DriveController
  | .targetVelocity rpm => c.setTargetVelocity rpm
  | .acceleration accel => c.setAcceleration accel
  | .deceleration decel => c.setDeceleration decel
  | .enable enable => c.setEnable enable

@[simp] theorem step_enabled (c : DriveController) (sw : OdValue) :
    (c.step sw).1.enabled = c.enabled := rfl

end DriveController

end Ca1MotorCtrl
