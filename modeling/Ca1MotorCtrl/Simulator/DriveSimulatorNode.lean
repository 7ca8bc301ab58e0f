import Ca1MotorCtrl.Service

/-! `DriveSimulatorNode`: the services and timers around a simulator, callback
by callback as in `drive_simulator_node.cpp`. Every callback holds the mutex
from its first access to the simulator to its last, so it is one step. -/
namespace Ca1MotorCtrl

/-- Response of the injection services. -/
structure TriggerResponse where
  success : Bool := false
  message : String := ""
  deriving DecidableEq, Repr

structure DriveSimulatorNode (R : Type) where
  sim : DriveSimulator R

namespace DriveSimulatorNode

/-- What the caller of a service receives; a timer has no caller. -/
inductive Response where
  | none
  | odRead (res : OdReadResponse)
  | odWrite (res : OdWriteResponse)
  | trigger (res : TriggerResponse)
  deriving DecidableEq, Repr

/-- The node after a callback, the texts it published on the event topic and
the response. -/
structure Outcome (R : Type) where
  node : DriveSimulatorNode R
  events : List String
  response : Response

variable {R : Type} (A : DoubleArith R) (node : DriveSimulatorNode R)

/-- The constructor. Controlwords are applied by the FSM timer only. -/
def initial : DriveSimulatorNode R := ⟨(DriveSimulator.initial A).setFsmDeferred true⟩

def handleRead (index : UInt16) (subindex : UInt8) : Outcome R :=
  ⟨node, [], .odRead (node.sim.handleRead index subindex)⟩

def handleWrite (index : UInt16) (subindex : UInt8) (value : OdValue) : Outcome R :=
  let (sim, res) := node.sim.handleWrite index subindex value
  ⟨⟨sim⟩, [], .odWrite res⟩

/-- The physics timer, 10 ms. Reading ERROR_CODE cannot throw; if it did, the
callback would end without publishing. -/
def tick : Outcome R :=
  let prev := node.sim.state
  let sim := node.sim.update A (A.literal (1 / 100))
  let cur := sim.state
  let events :=
    if cur ≠ prev then
      if cur = .fault then
        match sim.read Cia402Index.errorCode 0 with
        | .ok err =>
            [truncated 80 ("[FAULT] Drive faulted (error " ++ hexString 4 err.toUInt32.toNat ++
              "), was: " ++ prev.toString)]
        | .error _ => []
      else ["[STATE] " ++ prev.toString ++ " → " ++ cur.toString]
    else []
  ⟨⟨sim⟩, events, .none⟩

/-- The FSM timer, 1 s. -/
def fsmTick : Outcome R := ⟨⟨node.sim.updateFsm⟩, [], .none⟩

def injectFault : Outcome R :=
  ⟨⟨node.sim.injectFault⟩, ["[FAULT] Generic fault injected (error 0x3210)"],
    .trigger { success := true, message := "Generic fault injected" }⟩

def injectFaultOverspeed : Outcome R :=
  ⟨⟨node.sim.injectOverspeedFault⟩, ["[FAULT] Over-speed fault injected (error 0x8480)"],
    .trigger { success := true, message := "Over-speed fault injected" }⟩

def injectFaultSensorTimeout : Outcome R :=
  ⟨⟨node.sim.injectSensorTimeoutFault⟩, ["[FAULT] Sensor timeout fault injected (error 0xFF01)"],
    .trigger { success := true, message := "Sensor timeout fault injected" }⟩

inductive Callback where
  | odRead (index : UInt16) (subindex : UInt8)
  | odWrite (index : UInt16) (subindex : UInt8) (value : OdValue)
  | updateTimer
  | fsmTimer
  | injectFault
  | injectFaultOverspeed
  | injectFaultSensorTimeout
  deriving DecidableEq, Repr

def call : Callback → Outcome R
  | .odRead index subindex => node.handleRead index subindex
  | .odWrite index subindex value => node.handleWrite index subindex value
  | .updateTimer => node.tick A
  | .fsmTimer => node.fsmTick
  | .injectFault => node.injectFault
  | .injectFaultOverspeed => node.injectFaultOverspeed
  | .injectFaultSensorTimeout => node.injectFaultSensorTimeout

/-- The node after a callback. -/
def step (callback : Callback) : DriveSimulatorNode R := (node.call A callback).node

/-- The one operation of the simulator that a callback performs. -/
def Callback.operation : Callback → Operation R
  | .odRead index subindex => .read index subindex
  | .odWrite index subindex value => .write index subindex value
  | .updateTimer => .update (A.literal (1 / 100))
  | .fsmTimer => .updateFsm
  | .injectFault => .injectFault
  | .injectFaultOverspeed => .injectOverspeedFault
  | .injectFaultSensorTimeout => .injectSensorTimeoutFault

/-- The callbacks drive the simulator through its public interface. -/
theorem sim_step (callback : Callback) :
    (node.step A callback).sim = node.sim.step A (callback.operation A) := by
  cases callback with
  | odWrite index subindex value => exact node.sim.handleWrite_fst A index subindex value
  | _ => rfl

end DriveSimulatorNode

end Ca1MotorCtrl
