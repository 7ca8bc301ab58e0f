import Ca1MotorCtrl.Controller.Commands
import Ca1MotorCtrl.Controller.DriveControllerNode

/-! The simulator and the controller node without other writers. An event is
one transition of the FSM thread, a callback of the controller node, or a
timer or injection service of the simulator node, in any order. -/
namespace Ca1MotorCtrl

open Transition

inductive LoopEvent (R : Type) where
  | fsmThread
  | cmdVelocity (data : OdValue)
  | setEnable (data : Bool)
  | fsmTimer
  | updateTimer (dt : R)
  | injectFault
  | injectOverspeedFault
  | injectSensorTimeoutFault

section System
variable {Server R : Type}

/-- One event, for any server with the two services and the operations of a
simulator. -/
def loopStep (services : Services Server) (act : Server → Operation R → Server)
    (config : Server × DriveControllerNode) : LoopEvent R → Server × DriveControllerNode
  | .fsmThread =>
      let (server, node, _) := DriveControllerNode.fsmThread services config.1 config.2
      (server, node)
  | .cmdVelocity data => (config.1, config.2.cmdVelocity data)
  | .setEnable data => (config.1, (config.2.setEnable data).1)
  | .fsmTimer => (act config.1 .updateFsm, config.2)
  | .updateTimer dt => (act config.1 (.update dt), config.2)
  | .injectFault => (act config.1 .injectFault, config.2)
  | .injectOverspeedFault => (act config.1 .injectOverspeedFault, config.2)
  | .injectSensorTimeoutFault => (act config.1 .injectSensorTimeoutFault, config.2)

variable {Model : Type} {services : Services Server} {model : Services Model}
  {act : Server → Operation R → Server} {modelAct : Model → Operation R → Model}
  (embed : Model → Server)
  (hRead : ∀ m index subindex, services.odRead (embed m) index subindex =
    Prod.map embed id (model.odRead m index subindex))
  (hWrite : ∀ m index subindex value, services.odWrite (embed m) index subindex value =
    Prod.map embed id (model.odWrite m index subindex value))
  (hAct : ∀ m op, act (embed m) op = embed (modelAct m op))

namespace DriveControllerNode

include hRead in
theorem syncRead_embed (m : Model) (index : UInt16) (subindex : UInt8) :
    syncRead services (embed m) index subindex =
      Prod.map embed id (syncRead model m index subindex) := by
  simp only [syncRead, hRead]
  rcases model.odRead m index subindex with ⟨m, _ | res⟩
  · rfl
  · cases hSuccess : res.success <;> simp [hSuccess]

include hWrite in
theorem syncWrite_embed (m : Model) (index : UInt16) (subindex : UInt8) (value : OdValue) :
    syncWrite services (embed m) index subindex value =
      Prod.map embed id (syncWrite model m index subindex value) := by
  simp only [syncWrite, hWrite]
  rcases model.odWrite m index subindex value with ⟨m, _ | res⟩ <;> rfl

include hRead hWrite in
/-- The thread sees its server through the two services only. -/
theorem fsmThread_embed (m : Model) (node : DriveControllerNode) :
    fsmThread services (embed m) node = Prod.map embed id (fsmThread model m node) := by
  simp only [fsmThread, syncRead_embed embed hRead, syncWrite_embed embed hWrite]
  cases node.phase with
  | readStatusword =>
      rcases syncRead model m Cia402Index.statusword 0 with ⟨m, _ | raw, published⟩ <;> rfl
  | write cmd rest =>
      simp only [Prod.map]
      split <;> rfl
  | _ => rfl

end DriveControllerNode

include hRead hWrite hAct in
/-- A server that behaves like a model steps in the loop like the model. -/
theorem loopStep_embed (config : Model × DriveControllerNode) (event : LoopEvent R) :
    loopStep services act (Prod.map embed id config) event =
      Prod.map embed id (loopStep model modelAct config event) := by
  cases event with
  | fsmThread =>
      simp only [loopStep, Prod.map, DriveControllerNode.fsmThread_embed embed hRead hWrite]
      rfl
  | _ => simp [loopStep, hAct]

end System

variable {R : Type} (A : DoubleArith R)

/-- The loop around the simulator. -/
def DriveSimulator.loopStep (config : DriveSimulator R × DriveControllerNode)
    (event : LoopEvent R) : DriveSimulator R × DriveControllerNode :=
  Ca1MotorCtrl.loopStep DriveSimulator.services (DriveSimulator.step A) config event

/-- How far the first whole poll after some moment has got. -/
inductive PollProgress where
  | awaited
  | running
  | finished
  deriving DecidableEq, Repr

/-- A poll runs from its read of the Statusword to its last write. -/
def recordPoll (progress : PollProgress) (config : DriveSimulator R × DriveControllerNode) :
    LoopEvent R → PollProgress
  | .fsmThread =>
      match progress with
      | .awaited => if config.2.phase = .readStatusword then .running else .awaited
      | .running =>
          if (DriveSimulator.loopStep A config .fsmThread).2.phase.writesDone then .finished
          else .running
      | .finished => .finished
  | _ => progress

namespace Drive

/-- The services of a drive: the responses are those of its representation. -/
def services : Services (Drive R) where
  odRead d index subindex := (d, some ((d.toSimulator A).handleRead index subindex))
  odWrite d index subindex value :=
    (d.step A (.write index subindex value),
      some ((d.toSimulator A).handleWrite index subindex value).2)

/-- The loop around a drive. -/
def loopStep (config : Drive R × DriveControllerNode) (event : LoopEvent R) :
    Drive R × DriveControllerNode :=
  Ca1MotorCtrl.loopStep (services A) (step A) config event

theorem loopStep_toSimulator (d : Drive R) (node : DriveControllerNode) (event : LoopEvent R) :
    DriveSimulator.loopStep A (d.toSimulator A, node) event =
      ((loopStep A (d, node) event).1.toSimulator A, (loopStep A (d, node) event).2) := by
  have hRead (d : Drive R) (index : UInt16) (subindex : UInt8) :
      DriveSimulator.services.odRead (d.toSimulator A) index subindex =
        Prod.map (toSimulator A) id ((services A).odRead d index subindex) := rfl
  have hWrite (d : Drive R) (index : UInt16) (subindex : UInt8) (value : OdValue) :
      DriveSimulator.services.odWrite (d.toSimulator A) index subindex value =
        Prod.map (toSimulator A) id ((services A).odWrite d index subindex value) := by
    have hNext := (d.toSimulator A).handleWrite_fst A index subindex value
    rw [d.step_toSimulator A] at hNext
    simp only [DriveSimulator.services, services, Prod.map, hNext, id]
  exact loopStep_embed (toSimulator A) hRead hWrite (step_toSimulator A) (d, node) event

end Drive

end Ca1MotorCtrl
