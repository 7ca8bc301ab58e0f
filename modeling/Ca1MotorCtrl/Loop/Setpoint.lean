import Ca1MotorCtrl.Loop.View
import Ca1MotorCtrl.Simulator.Motion

/-! Where the setpoint of a starting drive comes from. The controller writes
TARGET_VELOCITY in Operation Enabled only, so a drive starts on the setpoint of
its last period of operation, not on the one of the step that enables it. -/
namespace Ca1MotorCtrl

open Transition

/-- The controller's target velocity at three calls of `step`: the last one,
and those that issued the last Controlword and the last target velocity that
have been written to the drive. -/
structure Setpoints where
  stepped : OdValue := 0
  commanded : Option OdValue := none
  written : Option OdValue := none

namespace Phase

@[simp] theorem remaining_ofCommands (cmds : List OdCommand) :
    (ofCommands cmds).remaining = cmds := by
  cases cmds <;> rfl

end Phase

theorem DriveControllerNode.remaining_stepController (node : DriveControllerNode) (raw : OdValue) :
    (node.stepController raw).1.phase.remaining = (node.controller.step raw).2 := by
  unfold stepController
  generalize node.controller.step raw = result
  obtain ⟨controller, cmds⟩ := result
  simp only
  split
  · simp only
    split
    · rfl
    · exact Phase.remaining_ofCommands cmds
  · exact Phase.remaining_ofCommands cmds

/-- A write works off one command of the batch. -/
theorem DriveControllerNode.fsmThread_write {Server : Type} (services : Services Server)
    (server : Server) (c : DriveController) (cmd : OdCommand) (rest : List OdCommand) :
    (fsmThread services server ⟨c, .write cmd rest⟩).1 =
        (syncWrite services server cmd.index cmd.subindex cmd.value).1 ∧
      (fsmThread services server ⟨c, .write cmd rest⟩).2.1.phase.remaining = rest := by
  simp only [fsmThread]
  split
  · exact ⟨rfl, rfl⟩
  · exact ⟨rfl, Phase.remaining_ofCommands rest⟩

/-- A setpoint command carries the setpoint of the controller. -/
theorem DriveController.value_of_mem_step (c : DriveController) (sw : OdValue) {cmd : OdCommand}
    (h : cmd ∈ (c.step sw).2) (hIndex : cmd.index = Cia402Index.targetVelocity) :
    cmd.subindex = 0 ∧ cmd.value = c.targetVelocity := by
  have hWord (word : UInt16) : cmd ≠ controlwordCommand word := by
    intro hCmd
    rw [hCmd] at hIndex
    exact absurd (show Cia402Index.controlword = Cia402Index.targetVelocity from hIndex) (by decide)
  simp only [step, commands] at h
  cases hState : decodeStatusword sw with
  | operationEnabled =>
      simp only [hState] at h
      split at h
      · exact absurd (List.mem_singleton.mp h) (hWord _)
      · rw [List.mem_singleton.mp h]
        exact ⟨rfl, rfl⟩
  | switchedOn =>
      simp only [hState] at h
      split at h
      · cases h
      · simp only [List.mem_cons, List.not_mem_nil, or_false] at h
        rcases h with rfl | rfl | rfl | h
        · exact absurd (show Cia402Index.modesOfOperation = _ from hIndex) (by decide)
        · exact absurd (show Cia402Index.profileAcceleration = _ from hIndex) (by decide)
        · exact absurd (show Cia402Index.profileDeceleration = _ from hIndex) (by decide)
        · exact absurd h (hWord _)
  | switchOnDisabled | readyToSwitchOn | quickStopActive =>
      simp only [hState] at h
      exact absurd (List.mem_singleton.mp h) (hWord _)
  | fault =>
      simp only [hState, List.mem_cons, List.not_mem_nil, or_false] at h
      rcases h with h | h <;> exact absurd h (hWord _)
  | _ =>
      simp only [hState] at h
      cases h

section System
variable {R : Type} (A : DoubleArith R)

/-- A step notes the target, and a write notes the target of the step that
issued it. -/
def recordSetpoints (setpoints : Setpoints) (config : DriveSimulator R × DriveControllerNode) :
    LoopEvent R → Setpoints
  | .fsmThread =>
      match config.2.phase with
      | .step _ => { setpoints with stepped := config.2.controller.targetVelocity }
      | .write cmd _ =>
          if cmd.index = Cia402Index.targetVelocity then
            { setpoints with written := some setpoints.stepped }
          else if cmd.index = Cia402Index.controlword then
            { setpoints with commanded := some setpoints.stepped }
          else setpoints
      | _ => setpoints
  | _ => setpoints

theorem recordSetpoints_write (setpoints : Setpoints) (s : DriveSimulator R) (c : DriveController)
    (cmd : OdCommand) (rest : List OdCommand) :
    (recordSetpoints setpoints (s, ⟨c, .write cmd rest⟩) .fsmThread).stepped = setpoints.stepped ∧
      (recordSetpoints setpoints (s, ⟨c, .write cmd rest⟩) .fsmThread).written =
        if cmd.index = Cia402Index.targetVelocity then some setpoints.stepped
        else setpoints.written := by
  simp only [recordSetpoints]
  split
  · exact ⟨rfl, rfl⟩
  · split <;> exact ⟨rfl, rfl⟩

/-- A drive that enters Operation Enabled does so with the target velocity 0 or
with the recorded one. -/
def StartsOn (recorded : Setpoints → Option OdValue)
    (config : (DriveSimulator R × DriveControllerNode) × Setpoints) (event : LoopEvent R) : Prop :=
  let next := recordStep (DriveSimulator.loopStep A) recordSetpoints config event
  config.1.1.state ≠ .operationEnabled → next.1.1.state = .operationEnabled →
    next.1.1.entry Cia402Index.targetVelocity = 0 ∨
      recorded next.2 = some (next.1.1.entry Cia402Index.targetVelocity)

namespace Drive

/-- Nothing but a write changes the setpoint of the drive. -/
theorem targetVelocity_of_updateFsm (d : Drive R) :
    d.updateFsm.targetVelocity = d.targetVelocity := by
  unfold updateFsm
  split <;> rfl

theorem targetVelocity_of_update (d : Drive R) (dt : R) :
    (d.update A dt).targetVelocity = d.targetVelocity := by
  unfold update
  split
  · split <;> rfl
  · rfl

/-- A write of the setpoint stores it; any other write keeps the old one. -/
theorem targetVelocity_of_write (d : Drive R) (cmd : OdCommand)
    (hSub : cmd.index = Cia402Index.targetVelocity → cmd.subindex = 0) :
    (d.step A cmd.operation).targetVelocity =
      if cmd.index = Cia402Index.targetVelocity then cmd.value else d.targetVelocity := by
  simp only [OdCommand.operation, step]
  cases hObject : Object.ofKey? (makeKey cmd.index cmd.subindex) with
  | none =>
      have hOther : cmd.index ≠ Cia402Index.targetVelocity := by
        intro hIndex
        rw [hIndex, hSub hIndex] at hObject
        cases hObject
      rw [if_neg hOther]
  | some o =>
      obtain ⟨hIndex, -⟩ := (ofKey?_makeKey_eq_some_iff _ _ o).mp hObject
      rw [hIndex]
      cases o with
      | targetVelocity => rfl
      | controlword =>
          simp only [store]
          split <;> rfl
      | _ => rfl

/-- The drive holds the recorded setpoint, and the rest of the batch would write
the setpoint of the last step. -/
structure Holds (config : Drive R × DriveControllerNode) (setpoints : Setpoints) : Prop where
  entry : config.1.targetVelocity = setpoints.written.getD 0
  batch : ∀ cmd ∈ config.2.phase.remaining, cmd.index = Cia402Index.targetVelocity →
    cmd.subindex = 0 ∧ cmd.value = setpoints.stepped

/-- What follows a read keeps the setpoint and starts no batch. -/
theorem Holds.of_remaining {d : Drive R} {node next : DriveControllerNode}
    {setpoints : Setpoints} (h : Holds (d, node) setpoints)
    (hRemaining : next.phase.remaining ⊆ node.phase.remaining) : Holds (d, next) setpoints :=
  ⟨h.entry, fun cmd hMem => h.batch cmd (hRemaining hMem)⟩

theorem holds_fsmThread (d : Drive R) (node : DriveControllerNode) {setpoints : Setpoints}
    (h : Holds (d, node) setpoints) :
    Holds (loopStep A (d, node) .fsmThread)
      (recordSetpoints setpoints (d.toSimulator A, node) .fsmThread) := by
  obtain ⟨controller, phase⟩ := node
  cases phase with
  | readStatusword =>
      simp only [loopStep, Ca1MotorCtrl.loopStep, DriveControllerNode.fsmThread, recordSetpoints]
      rw [syncRead_services_statusword]
      exact h.of_remaining (List.nil_subset _)
  | step raw =>
      refine ⟨h.entry, fun cmd hMem hIndex => ?_⟩
      have hBatch := DriveControllerNode.remaining_stepController ⟨controller, .step raw⟩ raw
      exact controller.value_of_mem_step raw (hBatch ▸ hMem) hIndex
  | write cmd rest =>
      have hCommand := h.batch cmd List.mem_cons_self
      have hWrite := d.targetVelocity_of_write A cmd fun hIndex => (hCommand hIndex).1
      have hStored : (d.step A cmd.operation).targetVelocity =
          (if cmd.index = Cia402Index.targetVelocity then some setpoints.stepped
            else setpoints.written).getD 0 := by
        rw [hWrite]
        split
        next hIndex => exact (hCommand hIndex).2
        next => exact h.entry
      obtain ⟨hServer, hRemaining⟩ :=
        DriveControllerNode.fsmThread_write (services A) d controller cmd rest
      obtain ⟨hStepped, hWritten⟩ :=
        recordSetpoints_write setpoints (d.toSimulator A) controller cmd rest
      constructor
      · rw [hWritten, ← hStored]
        exact congrArg Drive.targetVelocity hServer
      · rw [hStepped]
        intro cmd' hMem
        exact h.batch cmd' (List.mem_cons_of_mem cmd (hRemaining ▸ hMem))
  | readErrorCode | readDisplay =>
      simp only [loopStep, Ca1MotorCtrl.loopStep, DriveControllerNode.fsmThread, recordSetpoints]
      rw [syncRead_services_fst]
      refine h.of_remaining fun cmd hMem => ?_
      rw [Phase.remaining_ofCommands] at hMem
      exact hMem
  | readVelocity | readPosition =>
      simp only [loopStep, Ca1MotorCtrl.loopStep, DriveControllerNode.fsmThread, recordSetpoints]
      rw [syncRead_services_fst]
      exact h.of_remaining (List.nil_subset _)

theorem holds_loopStep (d : Drive R) (node : DriveControllerNode) {setpoints : Setpoints}
    (h : Holds (d, node) setpoints) (event : LoopEvent R) :
    Holds (loopStep A (d, node) event)
      (recordSetpoints setpoints (d.toSimulator A, node) event) := by
  cases event with
  | fsmThread => exact holds_fsmThread A d node h
  | fsmTimer => exact ⟨d.targetVelocity_of_updateFsm.trans h.entry, h.batch⟩
  | updateTimer dt => exact ⟨(d.targetVelocity_of_update A dt).trans h.entry, h.batch⟩
  | _ => exact ⟨h.entry, h.batch⟩

/-- A held setpoint is 0 or the recorded one. -/
theorem Holds.entry_eq {config : Drive R × DriveControllerNode} {setpoints : Setpoints}
    (h : Holds config setpoints) :
    config.1.targetVelocity = 0 ∨ setpoints.written = some config.1.targetVelocity := by
  rw [h.entry]
  cases setpoints.written with
  | none => exact Or.inl rfl
  | some target => exact Or.inr rfl

end Drive

/-- In either FSM mode a drive enters Operation Enabled with the target velocity
0, or with the one that the controller had at the step that issued the last
target velocity written to the drive. -/
theorem starts_on_written_setpoint (deferred : Bool) (c : DriveController)
    (events : List (LoopEvent R)) :
    EveryStep (recordStep (DriveSimulator.loopStep A) recordSetpoints)
      (StartsOn A Setpoints.written)
      (((DriveSimulator.initial A).setFsmDeferred deferred, { controller := c }), {}) events := by
  apply everyStep_of_invariant fun config =>
    ∃ d : Drive R, config.1.1 = d.toSimulator A ∧ Drive.Holds (d, config.1.2) config.2
  · intro config event hInv
    obtain ⟨⟨_, node⟩, setpoints⟩ := config
    obtain ⟨d, rfl, hHolds⟩ := hInv
    have hNext := d.holds_loopStep A node hHolds event
    have hConfig : recordStep (DriveSimulator.loopStep A) recordSetpoints
        ((d.toSimulator A, node), setpoints) event =
          (((Drive.loopStep A (d, node) event).1.toSimulator A,
            (Drive.loopStep A (d, node) event).2),
            recordSetpoints setpoints (d.toSimulator A, node) event) := by
      rw [recordStep, d.loopStep_toSimulator A]
    refine ⟨fun _ _ => ?_, (Drive.loopStep A (d, node) event).1, ?_, ?_⟩
    · have hEntry (d : Drive R) :
          (d.toSimulator A).entry Cia402Index.targetVelocity = d.targetVelocity :=
        d.entry_toSimulator A .targetVelocity
      rw [hConfig, hEntry]
      exact hNext.entry_eq
    · rw [hConfig]
    · rw [hConfig]
      exact hNext
  · refine ⟨(Drive.powerOn A .immediate).step A (.setFsmDeferred deferred), ?_, rfl, ?_⟩
    · rw [Drive.initial_eq_powerOn]
      exact (Drive.powerOn A .immediate).step_toSimulator A (.setFsmDeferred deferred)
    · intro cmd hMem
      exact absurd hMem List.not_mem_nil

end System

/-- Run to a setpoint of 100 RPM, disable, ask for 50 RPM and enable again, up to
the last write. -/
def restarting : List (LoopEvent ℚ) :=
  let turns (n : ℕ) : List (LoopEvent ℚ) := List.replicate n .fsmThread
  turns 24 ++ .setEnable false :: turns 5 ++ .cmdVelocity 50 :: .setEnable true :: turns 6

/-- The drive starts again on 100 RPM although 50 RPM were asked for when the
controller decided to enable it. -/
theorem restarts_on_old_setpoint :
    ¬EveryStep (recordStep (DriveSimulator.loopStep (.exact fun _ => 0)) recordSetpoints)
      (StartsOn (.exact fun _ => 0) Setpoints.commanded)
      ((DriveSimulator.initial (.exact fun _ => 0), {}), {}) (restarting ++ [.fsmThread]) := by
  intro h
  obtain ⟨-, hLast, -⟩ := (everyStep_append _ _ restarting [.fsmThread]).mp h
  have hStart := hLast (by decide +kernel) (by decide +kernel)
  exact absurd hStart (by decide +kernel)

end Ca1MotorCtrl
