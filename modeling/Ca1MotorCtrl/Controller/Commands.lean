import Ca1MotorCtrl.Controller.DriveController
import Ca1MotorCtrl.Simulator.Effect

/-! What the controller makes of a drive: it decodes the state the drive rests
in, writes to objects with write access only, and commands the drive with the
Controlwords of a small table. -/
namespace Ca1MotorCtrl

/-- The decoder undoes the encoder on every state a drive rests in. -/
theorem decodeStatusword_encodeState (power : PowerState) :
    DriveController.decodeStatusword
        (odValueOfUInt16 (DriveSimulator.encodeState power.toDriveState)) = power.toDriveState := by
  cases power <;> decide

/-- Every command goes to an object with write access. -/
theorem DriveController.exists_object_of_mem_commands (c : DriveController) {cmd : OdCommand}
    (h : cmd ∈ c.commands) :
    ∃ o : Object, o.access = .rw ∧ cmd.index = o.index ∧ cmd.subindex = 0 := by
  have hWord : ∀ word, cmd = controlwordCommand word →
      ∃ o : Object, o.access = .rw ∧ cmd.index = o.index ∧ cmd.subindex = 0 := by
    rintro word rfl
    exact ⟨.controlword, rfl, rfl, rfl⟩
  unfold commands at h
  cases hState : c.state with
  | switchOnDisabled | readyToSwitchOn | quickStopActive =>
      rw [hState] at h
      exact hWord _ (List.mem_singleton.mp h)
  | switchedOn =>
      simp only [hState] at h
      split at h
      · cases h
      · simp only [List.mem_cons, List.not_mem_nil, or_false] at h
        rcases h with rfl | rfl | rfl | rfl
        · exact ⟨.modesOfOperation, rfl, rfl, rfl⟩
        · exact ⟨.profileAcceleration, rfl, rfl, rfl⟩
        · exact ⟨.profileDeceleration, rfl, rfl, rfl⟩
        · exact hWord _ rfl
  | operationEnabled =>
      simp only [hState] at h
      split at h
      · exact hWord _ (List.mem_singleton.mp h)
      · obtain rfl := List.mem_singleton.mp h
        exact ⟨.targetVelocity, rfl, rfl, rfl⟩
  | fault =>
      simp only [hState, List.mem_cons, List.not_mem_nil, or_false] at h
      rcases h with h | h <;> exact hWord _ h
  | faultReactionActive | notReadyToSwitchOn | unknown =>
      rw [hState] at h
      cases h

/-- The execution of a command. -/
def OdCommand.operation {R : Type} (cmd : OdCommand) : Operation R :=
  .write cmd.index cmd.subindex cmd.value

/-- The Controlword that a command writes, if it writes one. -/
def OdCommand.word? (cmd : OdCommand) : Option UInt16 :=
  if cmd.index = Object.controlword.index ∧ cmd.subindex = 0 then some (lowWord cmd.value) else none

/-- The commands for a decoded state, seen as what they do to the Controlword. -/
def DriveController.batch (enabled : Bool) : DriveState → List (Option UInt16)
  | .switchOnDisabled => [some 0x06]
  | .readyToSwitchOn => [some 0x07]
  | .switchedOn => if enabled then [none, none, none, some 0x0F] else []
  | .operationEnabled => if enabled then [none] else [some 0x07]
  | .quickStopActive => [some 0x0F]
  | .fault => [some 0x00, some 0x80]
  | .faultReactionActive | .notReadyToSwitchOn | .unknown => []

theorem DriveController.map_word?_step (c : DriveController) (sw : OdValue) :
    (c.step sw).2.map OdCommand.word? = batch c.enabled (decodeStatusword sw) := by
  simp only [step]
  cases decodeStatusword sw <;> cases c.enabled <;> rfl

/-- The Controlwords for each state, with and without permission to run. -/
def PowerState.words (enabled : Bool) (power : PowerState) : List UInt16 :=
  (DriveController.batch enabled power.toDriveState).filterMap id

/-- The commands for a Statusword carry the words of the state it encodes. -/
theorem DriveController.words_step (c : DriveController) (power : PowerState) :
    ((c.step (odValueOfUInt16 (DriveSimulator.encodeState power.toDriveState))).2.filterMap
      OdCommand.word?) = power.words c.enabled := by
  have hBatch := c.map_word?_step (odValueOfUInt16 (DriveSimulator.encodeState power.toDriveState))
  rw [decodeStatusword_encodeState] at hBatch
  rw [PowerState.words, ← hBatch, List.filterMap_map]
  rfl

namespace PowerState

/-- The command that the controller's words carry in each state. Both words of
the recovery from a fault have bit 1 clear. -/
def answer (enabled : Bool) : PowerState → Option Command
  | .fault => some .disableVoltage
  | .switchOnDisabled => some .shutdown
  | .readyToSwitchOn => some .switchOn
  | .switchedOn => if enabled then some .enableOperation else none
  | .operationEnabled => if enabled then none else some .switchOn
  | .quickStopActive => some .enableOperation

theorem answer_of_mem_batch {enabled : Bool} {power : PowerState} {cw : UInt16}
    (hMem : some cw ∈ DriveController.batch enabled power.toDriveState) :
    power.answer enabled = some (.ofWord cw) := by
  cases power with
  | fault =>
      have hWord : cw = 0x00 ∨ cw = 0x80 := by
        simpa [DriveController.batch, toDriveState] using hMem
      rcases hWord with rfl | rfl <;> simp [answer]
  | _ => cases enabled <;> simp_all [DriveController.batch, toDriveState, answer]

end PowerState

namespace PowerCore

/-- A batch of words applied one after the other. -/
def applyWords (c : PowerCore) (words : List UInt16) : PowerCore :=
  words.foldl (fun c cw => c.act (.applied cw)) c

end PowerCore

namespace Drive
variable {R : Type} (A : DoubleArith R)

theorem effect_operation (d : Drive R) (cmd : OdCommand) (hMode : d.mode = .immediate) :
    d.core.act (d.effect A cmd.operation) = d.core.applyWords cmd.word?.toList := by
  simp only [OdCommand.operation, effect, hMode, and_true, OdCommand.word?]
  split <;> rfl

/-- Only a mode switch makes an immediate drive deferred. -/
theorem mode_step_of_immediate (d : Drive R) (op : Operation R) (hMode : d.mode = .immediate)
    (hOp : op ≠ .setFsmDeferred true) : (d.step A op).mode = .immediate := by
  cases op with
  | write index subindex v =>
      simp only [step]
      cases Object.ofKey? (makeKey index subindex) with
      | none => exact hMode
      | some o => cases o <;> simp [store, hMode, applyWord]
  | update dt => exact (d.update_frame A dt).1.trans hMode
  | updateFsm => simp only [step, updateFsm, hMode]
  | setFsmDeferred deferred =>
      cases deferred with
      | false => rfl
      | true => exact absurd rfl hOp
  | _ => exact hMode

/-- An immediate drive applies the Controlwords of a batch in order. -/
theorem core_run_operation (d : Drive R) (cmds : List OdCommand) (hMode : d.mode = .immediate) :
    (Transition.run (step A) d (cmds.map OdCommand.operation)).core =
        d.core.applyWords (cmds.filterMap OdCommand.word?) ∧
      (Transition.run (step A) d (cmds.map OdCommand.operation)).mode = .immediate := by
  induction cmds generalizing d with
  | nil => exact ⟨rfl, hMode⟩
  | cons cmd cmds ih =>
      have hNext : (d.step A cmd.operation).mode = .immediate :=
        d.mode_step_of_immediate A cmd.operation hMode nofun
      obtain ⟨hCore, hLast⟩ := ih (d.step A cmd.operation) hNext
      refine ⟨?_, hLast⟩
      rw [List.map_cons, Transition.run_cons, hCore, core_step, effect_operation A d cmd hMode,
        List.filterMap_cons]
      cases cmd.word? <;> rfl

end Drive

end Ca1MotorCtrl
