import Ca1MotorCtrl.Controller.DriveController
import Ca1MotorCtrl.Service

/-! `DriveControllerNode`: the thread that polls the drive and the callbacks
that change the controller. The thread is a phase machine with one transition
for each service call and one for the section under the mutex, so that
callbacks and the simulator can act in between. -/
namespace Ca1MotorCtrl

/-- Messages on the topics of the node. -/
inductive Publication where
  | driveState (name : String)
  | velocityActual (velocity : OdValue)
  | positionActual (position : OdValue)
  | event (text : String)
  deriving DecidableEq, Repr

/-- The next thing that the FSM loop does. -/
inductive Phase where
  | readStatusword
  | step (raw : OdValue)
  | readErrorCode (cmds : List OdCommand)
  | write (cmd : OdCommand) (rest : List OdCommand)
  | readDisplay (requested : OdValue) (rest : List OdCommand)
  | readVelocity
  | readPosition
  deriving DecidableEq, Repr

namespace Phase

/-- The head of the command loop. -/
def ofCommands : List OdCommand → Phase
  | [] => .readVelocity
  | cmd :: rest => .write cmd rest

/-- The writes of the current poll that are still to be made. -/
def remaining : Phase → List OdCommand
  | .readErrorCode cmds => cmds
  | .write cmd rest => cmd :: rest
  | .readDisplay _ rest => rest
  | _ => []

/-- The poll has made its read, its step and all its writes. -/
def writesDone : Phase → Bool
  | .step _ => false
  | phase => phase.remaining.isEmpty

end Phase

structure DriveControllerNode where
  controller : DriveController := {}
  phase : Phase := .readStatusword
  deriving DecidableEq, Repr

namespace DriveControllerNode
variable {Server : Type} (services : Services Server)

/-- `sync_read`: the value, unless the call timed out or failed. -/
def syncRead (server : Server) (index : UInt16) (subindex : UInt8) :
    Server × Option OdValue × List Publication :=
  match services.odRead server index subindex with
  | (server, none) =>
      (server, none, [.event ("[ERROR] od_read timeout (index " ++ hex16 index ++ ")")])
  | (server, some res) =>
      if !res.success then
        (server, none,
          [.event (truncated 160 ("[ERROR] od_read " ++ hex16 index ++ ": " ++ res.message))])
      else (server, some res.value, [])

/-- `sync_write`: whether the call was answered with success. -/
def syncWrite (server : Server) (index : UInt16) (subindex : UInt8) (value : OdValue) :
    Server × Bool × List Publication :=
  match services.odWrite server index subindex value with
  | (server, none) =>
      (server, false, [.event ("[ERROR] od_write timeout (index " ++ hex16 index ++ ")")])
  | (server, some res) =>
      (server, res.success,
        if !res.success then
          [.event (truncated 160 ("[ERROR] od_write " ++ hex16 index ++ ": " ++ res.message))]
        else [])

/-- `controller_.step` and the publications of a state change. -/
def stepController (node : DriveControllerNode) (raw : OdValue) :
    DriveControllerNode × List Publication :=
  let (controller, cmds) := node.controller.step raw
  if controller.stateChanged then
    let name := controller.state.toString
    ({ controller := controller
       phase := if controller.state = .fault then .readErrorCode cmds else .ofCommands cmds },
      [.driveState name, .event ("[STATE] Drive: " ++ name)])
  else ({ controller := controller, phase := .ofCommands cmds }, [])

/-- One transition of the FSM thread: a service call with what follows it up to
the next call, or the section under the mutex. -/
def fsmThread (server : Server) (node : DriveControllerNode) :
    Server × DriveControllerNode × List Publication :=
  match node.phase with
  | .readStatusword =>
      let (server, raw, published) := syncRead services server Cia402Index.statusword 0
      match raw with
      | none => (server, node, published)
      | some raw => (server, { node with phase := .step raw }, published)
  | .step raw =>
      let (node, published) := node.stepController raw
      (server, node, published)
  | .readErrorCode cmds =>
      let (server, err, published) := syncRead services server Cia402Index.errorCode 0
      (server, { node with phase := .ofCommands cmds },
        published ++ [.event ("[FAULT] Fault detected (error " ++
          hexString 4 (err.getD 0).toUInt32.toNat ++ ") — resetting.")])
  | .write cmd rest =>
      let (server, _, published) := syncWrite services server cmd.index cmd.subindex cmd.value
      if cmd.index = Cia402Index.modesOfOperation then
        (server, { node with phase := .readDisplay cmd.value rest }, published)
      else (server, { node with phase := .ofCommands rest }, published)
  | .readDisplay requested rest =>
      let (server, display, published) :=
        syncRead services server Cia402Index.modesOfOperationDisplay 0
      let complaint := match display with
        | some display =>
            if display ≠ requested then
              [Publication.event ("[ERROR] Mode not accepted: requested " ++
                toString requested.toInt ++ ", display " ++ toString display.toInt)]
            else []
        | none => []
      (server, { node with phase := .ofCommands rest }, published ++ complaint)
  | .readVelocity =>
      let (server, vel, published) := syncRead services server Cia402Index.velocityActual 0
      (server, { node with phase := .readPosition },
        published ++ (vel.map Publication.velocityActual).toList)
  | .readPosition =>
      let (server, pos, published) := syncRead services server Cia402Index.positionActual 0
      (server, { node with phase := .readStatusword },
        published ++ (pos.map Publication.positionActual).toList)

/-- The subscription to `/ca1/cmd_velocity`. -/
def cmdVelocity (node : DriveControllerNode) (data : OdValue) : DriveControllerNode :=
  { node with controller := node.controller.setTargetVelocity data }

/-- The service `/ca1/set_enable`: the node, the response message and the event.
The response always reports success. -/
def setEnable (node : DriveControllerNode) (data : Bool) :
    DriveControllerNode × String × List Publication :=
  let label := if data then "enabled" else "disabled"
  ({ node with controller := node.controller.setEnable data }, label,
    [.event ("[CMD] Operation " ++ label)])

end DriveControllerNode

end Ca1MotorCtrl
