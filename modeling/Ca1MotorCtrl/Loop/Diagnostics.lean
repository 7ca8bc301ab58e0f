import Ca1MotorCtrl.Loop.Configuration
import Ca1MotorCtrl.Loop.Linearization
import Ca1MotorCtrl.Loop.Setpoint

/-! The error events of the controller node in front of the simulator. Every
object that the thread reads or writes exists and allows the access, and the
drive displays the mode that it was given last. What remains are calls that
time out and a mode that another client has written in between. -/
namespace Ca1MotorCtrl

open Transition

/-- Operations that cannot change the mode of operation. -/
def Operation.LeavesMode {R : Type} : Operation R → Prop
  | .write index subindex _ => ¬(index = Cia402Index.modesOfOperation ∧ subindex = 0)
  | .reset => False
  | _ => True

/-- No call times out and the other clients leave the mode alone. -/
def AtomicEvent.Undisturbed {R : Type} : AtomicEvent R → Prop
  | .threadTimeout => False
  | .operation op => op.LeavesMode
  | _ => True

/-- What an event publishes on the topics of the controller node. -/
def atomicPublished {R : Type} (config : DriveSimulator R × DriveControllerNode) :
    AtomicEvent R → List Publication
  | .thread =>
      (DriveControllerNode.fsmThread DriveSimulator.services config.1 config.2).2.2
  | .threadTimeout => (config.2.resume none).2
  | .setEnable data => (config.2.setEnable data).2.2
  | _ => []

/-- The call of the thread times out, or its read-back of the mode shows another
mode than it has written. -/
def Errs {R : Type} (config : DriveSimulator R × DriveControllerNode) : AtomicEvent R → Prop
  | .thread => ∃ requested rest, config.2.phase = .readDisplay requested rest ∧
      config.1.read Cia402Index.modesOfOperationDisplay 0 ≠ .ok requested
  | .threadTimeout => config.2.request ≠ none
  | _ => False

/-- The writes to come go to objects with write access. -/
def Phase.Permitted (phase : Phase) : Prop :=
  ∀ cmd ∈ phase.remaining, ∃ o : Object, o.access = .rw ∧ cmd.index = o.index ∧ cmd.subindex = 0

namespace DriveControllerNode

/-- A node in the middle of a call leaves the remaining writes as they are, and a
new batch goes to objects with write access, too. -/
theorem permitted_fsmThread {Server : Type} (services : Services Server) (server : Server)
    (node : DriveControllerNode) (h : node.phase.Permitted) :
    (fsmThread services server node).2.1.phase.Permitted := by
  obtain ⟨controller, phase⟩ := node
  cases phase with
  | readStatusword =>
      simp only [fsmThread]
      split <;> exact fun cmd hMem => absurd hMem List.not_mem_nil
  | step raw =>
      intro cmd hMem
      have hBatch := remaining_stepController ⟨controller, .step raw⟩ raw
      exact DriveController.exists_object_of_mem_commands _ (hBatch ▸ hMem)
  | readErrorCode cmds | readDisplay requested cmds =>
      intro cmd hMem
      simp only [fsmThread, Phase.remaining_ofCommands] at hMem
      exact h cmd hMem
  | write first rest =>
      intro cmd hMem
      have hRest := (fsmThread_write services server controller first rest).2
      exact h cmd (List.mem_cons_of_mem first (hRest ▸ hMem))
  | readVelocity | readPosition => exact fun cmd hMem => absurd hMem List.not_mem_nil

/-- A call that times out is an error, and the section under the mutex makes none. -/
theorem exists_isError_resume_none_iff (node : DriveControllerNode) :
    (∃ p ∈ (node.resume none).2, p.isError = true) ↔ node.request ≠ none := by
  have hThread := exists_isError_fsmThread_iff (settled none) () node
  refine hThread.trans ?_
  obtain ⟨controller, phase⟩ := node
  cases phase <;>
    simp [serviceCall, request, ServiceCall.failed, syncRead, syncWrite, settled]

end DriveControllerNode

section Drive
variable {R : Type} (A : DoubleArith R) (d : Drive R)

theorem Drive.syncRead_toSimulator (o : Object) :
    DriveControllerNode.syncRead DriveSimulator.services (d.toSimulator A) o.index 0 =
      (d.toSimulator A, some (d.value A o), []) := by
  have hRead := d.read_toSimulator A o
  simp [DriveControllerNode.syncRead, DriveSimulator.services, DriveSimulator.handleRead, hRead]

theorem Drive.syncWrite_toSimulator (o : Object) (v : OdValue) (hAccess : o.access = .rw) :
    DriveControllerNode.syncWrite DriveSimulator.services (d.toSimulator A) o.index 0 v =
      ((d.store o v).toSimulator A, true, []) := by
  have hWrite := d.write_toSimulator A o v hAccess
  simp [DriveControllerNode.syncWrite, DriveSimulator.services, DriveSimulator.handleWrite, hWrite]

/-- In front of a drive only the read-back of the mode can fail. -/
theorem Drive.exists_isError_thread_iff (node : DriveControllerNode)
    (hPermitted : node.phase.Permitted) :
    (∃ p ∈ atomicPublished (d.toSimulator A, node) .thread, p.isError = true) ↔
      Errs (d.toSimulator A, node) .thread := by
  rw [atomicPublished, DriveControllerNode.exists_isError_fsmThread_iff]
  have hRead (o : Object) :
      (DriveControllerNode.syncRead DriveSimulator.services (d.toSimulator A) o.index 0).2.1 =
        some (d.value A o) := by
    rw [d.syncRead_toSimulator A o]
  obtain ⟨controller, phase⟩ := node
  cases phase with
  | readStatusword =>
      have hValue := hRead .statusword
      simp only [Object.index] at hValue
      simp [DriveControllerNode.serviceCall, ServiceCall.failed, Errs, hValue]
  | step raw => simp [DriveControllerNode.serviceCall, Errs]
  | readErrorCode cmds =>
      have hValue := hRead .errorCode
      simp only [Object.index] at hValue
      simp [DriveControllerNode.serviceCall, ServiceCall.failed, Errs, hValue]
  | write cmd rest =>
      obtain ⟨o, hAccess, hIndex, hSub⟩ := hPermitted cmd List.mem_cons_self
      have hValue : (DriveControllerNode.syncWrite DriveSimulator.services (d.toSimulator A)
          cmd.index cmd.subindex cmd.value).2.1 = true := by
        rw [hIndex, hSub, d.syncWrite_toSimulator A o cmd.value hAccess]
      simp [DriveControllerNode.serviceCall, ServiceCall.failed, Errs, hValue]
  | readDisplay requested rest =>
      have hValue := hRead .modesOfOperationDisplay
      have hDisplay := d.read_toSimulator A .modesOfOperationDisplay
      simp only [Object.index] at hValue hDisplay
      simp [DriveControllerNode.serviceCall, ServiceCall.failed, Errs, hValue, hDisplay]
  | readVelocity =>
      have hValue := hRead .velocityActual
      simp only [Object.index] at hValue
      simp [DriveControllerNode.serviceCall, ServiceCall.failed, Errs, hValue]
  | readPosition =>
      have hValue := hRead .positionActual
      simp only [Object.index] at hValue
      simp [DriveControllerNode.serviceCall, ServiceCall.failed, Errs, hValue]

/-- The mode that the thread wants to read back is the mode of the drive. -/
def AwaitsMode (mode : OdValue) (phase : Phase) : Prop :=
  ∀ requested rest, phase = .readDisplay requested rest → mode = requested

theorem Drive.modesOfOperation_step_of_leavesMode {op : Operation R} (hOp : op.LeavesMode) :
    (d.step A op).modesOfOperation = d.modesOfOperation := by
  cases op with
  | write index subindex v =>
      simp only [step]
      split
      next o hObject =>
        obtain ⟨rfl, rfl⟩ := (ofKey?_makeKey_eq_some_iff index subindex o).mp hObject
        cases o with
        | controlword =>
            simp only [store]
            split <;> rfl
        | modesOfOperation => exact absurd ⟨rfl, rfl⟩ hOp
        | _ => rfl
      next => rfl
  | update dt =>
      simp only [step, update]
      split
      · split <;> rfl
      · rfl
  | updateFsm =>
      simp only [step]
      unfold updateFsm
      split <;> rfl
  | reset => exact hOp.elim
  | _ => rfl

theorem awaitsMode_ofCommands (mode : OdValue) (cmds : List OdCommand) :
    AwaitsMode mode (.ofCommands cmds) := by
  intro requested rest h
  cases cmds <;> cases h

/-- Whoever writes the mode waits for its display next. -/
theorem Drive.awaitsMode_thread (node : DriveControllerNode) (hPermitted : node.phase.Permitted) :
    AwaitsMode (loopStep A (d, node) .fsmThread).1.modesOfOperation
      (loopStep A (d, node) .fsmThread).2.phase := by
  obtain ⟨controller, phase⟩ := node
  simp only [loopStep, Ca1MotorCtrl.loopStep, DriveControllerNode.fsmThread]
  cases phase with
  | readStatusword =>
      simp only
      split <;> (intro requested rest h; cases h)
  | step raw =>
      simp only [DriveControllerNode.stepController]
      split
      · split
        · intro requested rest h
          cases h
        · exact awaitsMode_ofCommands _ _
      · exact awaitsMode_ofCommands _ _
  | readErrorCode cmds | readDisplay requested cmds => exact awaitsMode_ofCommands _ _
  | write cmd rest =>
      obtain ⟨o, -, hIndex, hSub⟩ := hPermitted cmd List.mem_cons_self
      have hServer : (DriveControllerNode.syncWrite (services A) d cmd.index cmd.subindex
          cmd.value).1 = d.step A cmd.operation := rfl
      simp only [hServer]
      split
      next hMode =>
        intro requested rest' h
        cases h
        have hKey : Object.ofKey? (makeKey cmd.index cmd.subindex) = some .modesOfOperation :=
          (ofKey?_makeKey_eq_some_iff _ _ _).mpr ⟨hMode, hSub⟩
        simp only [OdCommand.operation, step, hKey, store]
      next => exact awaitsMode_ofCommands _ _
  | readVelocity | readPosition =>
      intro requested rest h
      cases h

end Drive

namespace DriveSimulator
variable {R : Type} (A : DoubleArith R)

/-- The simulator represents a drive and the writes to come are permitted. -/
def Serves (config : DriveSimulator R × DriveControllerNode) : Prop :=
  (∃ d : Drive R, config.1 = d.toSimulator A) ∧ config.2.phase.Permitted

theorem serves_atomicStep (config : DriveSimulator R × DriveControllerNode)
    (event : AtomicEvent R) (h : Serves A config) : Serves A (atomicStep A config event) := by
  obtain ⟨s, node⟩ := config
  obtain ⟨⟨d, hDrive⟩, hPermitted⟩ := h
  obtain rfl : s = d.toSimulator A := hDrive
  cases event with
  | thread =>
      have hNext := d.loopStep_toSimulator A node .fsmThread
      exact ⟨⟨_, congrArg Prod.fst hNext⟩,
        DriveControllerNode.permitted_fsmThread services (d.toSimulator A) node hPermitted⟩
  | threadTimeout =>
      exact ⟨⟨d, rfl⟩, DriveControllerNode.permitted_fsmThread (settled none) () node hPermitted⟩
  | operation op => exact ⟨⟨_, d.step_toSimulator A op⟩, hPermitted⟩
  | _ => exact ⟨⟨d, rfl⟩, hPermitted⟩

/-- A turn of the node reports an error exactly if its call times out or the
displayed mode is not the one written. -/
theorem exists_isError_atomicPublished_iff {config : DriveSimulator R × DriveControllerNode}
    (event : AtomicEvent R) (h : Serves A config) :
    (∃ p ∈ atomicPublished config event, p.isError = true) ↔ Errs config event := by
  obtain ⟨s, node⟩ := config
  obtain ⟨⟨d, hDrive⟩, hPermitted⟩ := h
  obtain rfl : s = d.toSimulator A := hDrive
  cases event with
  | thread => exact d.exists_isError_thread_iff A node hPermitted
  | threadTimeout => exact node.exists_isError_resume_none_iff
  | setEnable data =>
      cases data <;>
        simp [atomicPublished, DriveControllerNode.setEnable, Errs, Publication.isError]
  | _ => simp [atomicPublished, Errs]

/-- The read-back cannot fail either. -/
def Settles (config : DriveSimulator R × DriveControllerNode) : Prop :=
  ∃ d : Drive R, config.1 = d.toSimulator A ∧ config.2.phase.Permitted ∧
    AwaitsMode d.modesOfOperation config.2.phase

theorem settles_atomicStep (config : DriveSimulator R × DriveControllerNode)
    (event : AtomicEvent R) (hUndisturbed : event.Undisturbed) (h : Settles A config) :
    Settles A (atomicStep A config event) := by
  obtain ⟨s, node⟩ := config
  obtain ⟨d, hDrive, hPermitted, hMode⟩ := h
  obtain rfl : s = d.toSimulator A := hDrive
  cases event with
  | thread =>
      have hNext := d.loopStep_toSimulator A node .fsmThread
      refine ⟨(Drive.loopStep A (d, node) .fsmThread).1, congrArg Prod.fst hNext,
        DriveControllerNode.permitted_fsmThread services (d.toSimulator A) node hPermitted, ?_⟩
      have hPhase : (atomicStep A (d.toSimulator A, node) .thread).2.phase =
          (Drive.loopStep A (d, node) .fsmThread).2.phase :=
        congrArg (fun config => config.2.phase) hNext
      rw [hPhase]
      exact d.awaitsMode_thread A node hPermitted
  | threadTimeout => exact hUndisturbed.elim
  | operation op =>
      refine ⟨d.step A op, d.step_toSimulator A op, hPermitted, ?_⟩
      rw [d.modesOfOperation_step_of_leavesMode A hUndisturbed]
      exact hMode
  | _ => exact ⟨d, rfl, hPermitted, hMode⟩

theorem not_errs_of_settles {config : DriveSimulator R × DriveControllerNode}
    {event : AtomicEvent R} (hUndisturbed : event.Undisturbed) (h : Settles A config) :
    ¬Errs config event := by
  obtain ⟨s, node⟩ := config
  obtain ⟨d, hDrive, hPermitted, hMode⟩ := h
  obtain rfl : s = d.toSimulator A := hDrive
  cases event with
  | thread =>
      rintro ⟨requested, rest, hPhase, hDisplay⟩
      have hRead := d.read_toSimulator A .modesOfOperationDisplay
      refine hDisplay (hRead.trans ?_)
      rw [Drive.value, hMode requested rest hPhase]
  | threadTimeout => exact hUndisturbed.elim
  | _ => exact not_false

end DriveSimulator

section Results
variable {R : Type} (A : DoubleArith R)

/-- In front of the simulator, with any other clients, a turn of the controller
node publishes an error exactly if its call times out or it reads back another
mode than it has written. -/
theorem error_reported_iff {s : DriveSimulator R} (hReach : s.Reachable A) (c : DriveController)
    (events : List (AtomicEvent R)) :
    EveryStep (atomicStep A)
      (fun config event =>
        (∃ p ∈ atomicPublished config event, p.isError = true) ↔ Errs config event)
      (s, { controller := c }) events := by
  apply everyStep_of_invariant (DriveSimulator.Serves A)
  · intro config event hServes
    exact ⟨DriveSimulator.exists_isError_atomicPublished_iff A event hServes,
      DriveSimulator.serves_atomicStep A config event hServes⟩
  · exact ⟨Drive.exists_of_reachable A hReach, fun cmd hMem => absurd hMem List.not_mem_nil⟩

/-- Without timeouts, and while the other clients leave the mode of operation
alone, the node never publishes an error. -/
theorem undisturbed_reports_no_error {s : DriveSimulator R} (hReach : s.Reachable A)
    (c : DriveController) {events : List (AtomicEvent R)}
    (hEvents : ∀ event ∈ events, event.Undisturbed) :
    EveryStep (atomicStep A)
      (fun config event => ∀ p ∈ atomicPublished config event, p.isError = false)
      (s, { controller := c }) events := by
  obtain ⟨d, hDrive⟩ := Drive.exists_of_reachable A hReach
  refine (everyStep_of_forall_mem hEvents _).of_guard (DriveSimulator.Settles A) ?_ ?_
  · intro config event hSettles hUndisturbed
    refine ⟨fun p hMem => ?_,
      DriveSimulator.settles_atomicStep A config event hUndisturbed hSettles⟩
    have hServes : DriveSimulator.Serves A config := by
      obtain ⟨d, hDrive, hPermitted, -⟩ := hSettles
      exact ⟨⟨d, hDrive⟩, hPermitted⟩
    have hNone := mt (DriveSimulator.exists_isError_atomicPublished_iff A event hServes).mp
      (DriveSimulator.not_errs_of_settles A hUndisturbed hSettles)
    exact Bool.eq_false_iff.mpr fun hError => hNone ⟨p, hMem, hError⟩
  · exact ⟨d, hDrive, fun cmd hMem => absurd hMem List.not_mem_nil, fun _ _ h => by cases h⟩

end Results

/-- A turn of the thread between a tick and a manual write of the set-point. -/
theorem error_reported_from_powerOn :
    EveryStep (atomicStep (.exact fun _ => 0))
      (fun config event =>
        (∃ p ∈ atomicPublished config event, p.isError = true) ↔ Errs config event)
      (DriveSimulator.initial (.exact fun _ => 0), {})
      [.operation .updateFsm, .thread, .operation (.write Cia402Index.targetVelocity 0 50)] :=
  error_reported_iff (.exact fun _ => 0) (Reachable.refl _) {} _

theorem undisturbed_from_powerOn :
    EveryStep (atomicStep (.exact fun _ => 0))
      (fun config event => ∀ p ∈ atomicPublished config event, p.isError = false)
      (DriveSimulator.initial (.exact fun _ => 0), {})
      [.operation .updateFsm, .thread, .operation (.write Cia402Index.targetVelocity 0 50)] :=
  undisturbed_reports_no_error (.exact fun _ => 0) (Reachable.refl _) {}
    (by simp [AtomicEvent.Undisturbed, Operation.LeavesMode]; decide)

end Ca1MotorCtrl
