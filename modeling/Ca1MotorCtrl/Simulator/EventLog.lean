import Ca1MotorCtrl.Simulator.DriveSimulatorNode
import Ca1MotorCtrl.Simulator.Effect

/-! Which state changes of the simulator node appear on its event topic. A
physics update can only raise a fault, which is published, and the injections
publish theirs; the FSM timer moves the state machine without a word. -/
namespace Ca1MotorCtrl

open Transition

/-- The words that move the state machine, by the state and the edge reference
that they meet. -/
def DriveState.MovedBy (state : DriveState) (prev cw : UInt16) : Prop :=
  match state with
  | .switchOnDisabled => cw &&& 0x0F = 0x06
  | .readyToSwitchOn => cw &&& 0x02 = 0 ∨ cw &&& 0x0F = 0x06 ∨ cw &&& 0x0F = 0x07
  | .switchedOn =>
      cw &&& 0x02 = 0 ∨ cw &&& 0x06 = 0x02 ∨ cw &&& 0x0F = 0x06 ∨ cw &&& 0x0F = 0x0F
  | .operationEnabled =>
      cw &&& 0x02 = 0 ∨ cw &&& 0x06 = 0x02 ∨ cw &&& 0x0F = 0x06 ∨ cw &&& 0x0F = 0x07
  | .quickStopActive => cw &&& 0x02 = 0 ∨ cw &&& 0x0F = 0x0F
  | .fault => cw &&& 0x02 = 0 ∨ cw &&& 0x80 ≠ 0 ∧ prev &&& 0x80 = 0
  | _ => False

theorem PowerState.apply_ne_iff (power : PowerState) (prev cw : UInt16) :
    power.apply (risingEdge prev cw) cw ≠ power ↔ power.toDriveState.MovedBy prev cw := by
  by_cases hFault : power = .fault
  · subst hFault
    rw [apply_fault_ne_fault_iff, risingEdge_iff, Command.ofWord_eq_disableVoltage_iff]
    exact or_comm
  · rw [apply_of_ne_fault hFault]
    cases power with
    | fault => exact absurd rfl hFault
    | _ =>
        simp only [toDriveState, DriveState.MovedBy, ← Command.ofWord_eq_disableVoltage_iff,
          ← Command.ofWord_eq_quickStop_iff, ← Command.ofWord_eq_shutdown_iff,
          ← Command.ofWord_eq_switchOn_iff, ← Command.ofWord_eq_enableOperation_iff]
        cases Command.ofWord cw <;> simp [next]

namespace Drive
variable {R : Type} (A : DoubleArith R) (d : Drive R)

/-- A physics update leaves the power state alone or faults. -/
theorem power_update (dt : R) :
    (d.update A dt).power = d.power ∨ (d.update A dt).power = .fault := by
  have hStep := d.power_step A (.update dt)
  rcases d.effect_update A dt with hEffect | hEffect
  · exact Or.inr (by rw [hEffect] at hStep; exact hStep)
  · exact Or.inl (by rw [hEffect] at hStep; exact hStep)

/-- When a tick of a deferred state machine moves it. -/
theorem power_updateFsm_ne_iff :
    d.updateFsm.power ≠ d.power ↔ d.mode = .deferred true ∧
      d.power.toDriveState.MovedBy d.prevControlword (lowWord d.controlword) := by
  by_cases hMode : d.mode = .deferred true
  · rw [updateFsm_of_pending hMode, and_iff_right hMode, ← PowerState.apply_ne_iff]
    rfl
  · rw [updateFsm_of_idle hMode]
    exact iff_of_false (fun h => h rfl) (fun h => hMode h.1)

/-- Only a mode switch leaves deferred mode. -/
theorem mode_step_of_deferred {d : Drive R} {pending : Bool} (hMode : d.mode = .deferred pending)
    {op : Operation R} (hOp : ∀ deferred, op ≠ .setFsmDeferred deferred) :
    ∃ pending', (d.step A op).mode = .deferred pending' := by
  cases op with
  | setFsmDeferred deferred => exact absurd rfl (hOp deferred)
  | write index subindex v =>
      simp only [step]
      split
      next o hObject =>
        cases o with
        | controlword => exact ⟨true, by rw [store_controlword_of_deferred hMode]⟩
        | _ => exact ⟨pending, hMode⟩
      next => exact ⟨pending, hMode⟩
  | update dt => exact ⟨pending, (d.update_frame A dt).1.trans hMode⟩
  | updateFsm =>
      by_cases hPending : d.mode = .deferred true
      · refine ⟨false, ?_⟩
        rw [step, updateFsm_of_pending hPending]
        rfl
      · refine ⟨pending, ?_⟩
        rw [step, updateFsm_of_idle hPending]
        exact hMode
  | _ => exact ⟨pending, hMode⟩

end Drive

namespace DriveSimulatorNode
variable {R : Type} (A : DoubleArith R)

/-- Events that tell of the state machine. -/
def isStateOrFault (text : String) : Bool :=
  "[STATE]".toList.isPrefixOf text.toList || "[FAULT]".toList.isPrefixOf text.toList

/-- A callback that changes the drive state publishes one such event. -/
def Reported (node : DriveSimulatorNode R) (callback : Callback) : Prop :=
  (node.step A callback).sim.state ≠ node.sim.state →
    (node.call A callback).events.countP isStateOrFault = 1

/-- A Controlword waits that will move the state machine. -/
def MovePending (node : DriveSimulatorNode R) : Prop :=
  node.sim.cwPending = true ∧
    node.sim.state.MovedBy node.sim.prevControlword
      (lowWord (node.sim.odAt (makeKey Cia402Index.controlword 0)).1.value)

/-- The simulator of a node is a drive in deferred mode. -/
def Deferred (node : DriveSimulatorNode R) : Prop :=
  ∃ (d : Drive R) (pending : Bool), node = ⟨d.toSimulator A⟩ ∧ d.mode = .deferred pending

theorem deferred_initial : Deferred A (initial A) := by
  refine ⟨Drive.powerOn A (.deferred false), false, ?_, rfl⟩
  rw [initial, Drive.initial_eq_powerOn]
  rfl

/-- No callback switches the FSM mode. -/
theorem Deferred.step {node : DriveSimulatorNode R} (h : Deferred A node) (callback : Callback) :
    Deferred A (node.step A callback) := by
  obtain ⟨d, pending, rfl, hMode⟩ := h
  have hNext : (⟨d.toSimulator A⟩ : DriveSimulatorNode R).step A callback =
      ⟨(d.step A (callback.operation A)).toSimulator A⟩ := by
    rw [← d.step_toSimulator, ← sim_step]
  have hSwitch : ∀ deferred, callback.operation A ≠ .setFsmDeferred deferred := by
    cases callback <;> simp [Callback.operation]
  obtain ⟨pending', hMode'⟩ := d.mode_step_of_deferred A hMode hSwitch
  exact ⟨_, pending', hNext, hMode'⟩

theorem prefix_truncated {start : List Char} {size : Nat} {text : String}
    (hStart : start <+: text.toList) (hSize : start.length ≤ size - 1) :
    start <+: (truncated size text).toList := by
  rw [truncated, String.toList_ofList, List.prefix_take_iff]
  exact ⟨hStart, hSize⟩

/-- The buffer of the physics timer is long enough for the tag. -/
theorem isStateOrFault_faulted (rest : String) :
    isStateOrFault (truncated 80 ("[FAULT] Drive faulted (error " ++ rest)) = true := by
  have hTag : "[FAULT]".toList <+: "[FAULT] Drive faulted (error ".toList := by decide
  have hText : "[FAULT]".toList <+: ("[FAULT] Drive faulted (error " ++ rest).toList := by
    rw [String.toList_append]
    exact hTag.trans (List.prefix_append _ _)
  have hStart := prefix_truncated hText (by decide : "[FAULT]".toList.length ≤ 80 - 1)
  rw [isStateOrFault, List.isPrefixOf_iff_prefix.mpr hStart, Bool.or_true]

/-- The physics timer announces a fault. -/
theorem events_tick_of_fault (node : DriveSimulatorNode R) {err : OdValue}
    (hFault : (node.sim.update A (A.literal (1 / 100))).state = .fault)
    (hChanged : (node.sim.update A (A.literal (1 / 100))).state ≠ node.sim.state)
    (hRead : (node.sim.update A (A.literal (1 / 100))).read Cia402Index.errorCode 0 = .ok err) :
    (node.tick A).events =
      [truncated 80 ("[FAULT] Drive faulted (error " ++ hexString 4 err.toUInt32.toNat ++
        "), was: " ++ node.sim.state.toString)] := by
  simp only [tick]
  rw [if_pos hChanged, if_pos hFault, hRead]

/-- The physics timer publishes every change that it causes. -/
theorem reported_updateTimer (d : Drive R) : Reported A ⟨d.toSimulator A⟩ .updateTimer := by
  intro hChanged
  have hUpdate := d.update_toSimulator A (A.literal (1 / 100))
  have hPower : (d.update A (A.literal (1 / 100))).power ≠ d.power := by
    intro hSame
    apply hChanged
    show ((d.toSimulator A).update A (A.literal (1 / 100))).state = _
    rw [hUpdate]
    exact congrArg PowerState.toDriveState hSame
  have hFault : ((d.toSimulator A).update A (A.literal (1 / 100))).state = .fault := by
    rw [hUpdate]
    exact congrArg PowerState.toDriveState
      ((d.power_update A (A.literal (1 / 100))).resolve_left hPower)
  have hRead := (d.update A (A.literal (1 / 100))).read_toSimulator A .errorCode
  rw [← hUpdate] at hRead
  have hEvents := events_tick_of_fault A ⟨d.toSimulator A⟩ hFault hChanged hRead
  rw [call, hEvents, String.append_assoc, String.append_assoc, List.countP_singleton,
    isStateOrFault_faulted, if_pos rfl]

/-- The FSM timer publishes nothing. -/
theorem reported_fsmTimer_iff (d : Drive R) :
    Reported A ⟨d.toSimulator A⟩ .fsmTimer ↔ ¬MovePending ⟨d.toSimulator A⟩ := by
  have hPending : (d.toSimulator A).cwPending = true ↔ d.mode = .deferred true :=
    d.cwPending_toSimulator A
  have hMoves : MovePending ⟨d.toSimulator A⟩ ↔ d.updateFsm.power ≠ d.power := by
    rw [d.power_updateFsm_ne_iff, MovePending, hPending]
    simp only [Drive.makeKey_index, Drive.odAt_toSimulator]
    rfl
  have hState : ((⟨d.toSimulator A⟩ : DriveSimulatorNode R).step A .fsmTimer).sim.state ≠
      (d.toSimulator A).state ↔ d.updateFsm.power ≠ d.power := by
    show (d.toSimulator A).updateFsm.state ≠ _ ↔ _
    rw [d.updateFsm_toSimulator]
    exact not_congr PowerState.toDriveState_inj
  rw [Reported, hState, hMoves]
  exact ⟨fun h hMoved => absurd (h hMoved) Nat.zero_ne_one, fun h hMoved => absurd hMoved h⟩

/-- A write to a deferred simulator leaves the drive state alone. -/
theorem reported_odWrite {d : Drive R} {pending : Bool} (hMode : d.mode = .deferred pending)
    (index : UInt16) (subindex : UInt8) (value : OdValue) :
    Reported A ⟨d.toSimulator A⟩ (.odWrite index subindex value) := by
  intro hChanged
  refine absurd ?_ hChanged
  rw [sim_step, Callback.operation, d.step_toSimulator]
  refine congrArg PowerState.toDriveState ?_
  simp only [Drive.step]
  split
  next o hObject =>
    cases o with
    | controlword => rw [Drive.store_controlword_of_deferred hMode]
    | _ => rfl
  next => rfl

/-- Only the FSM timer changes the state without an event. -/
theorem Deferred.reported_iff {node : DriveSimulatorNode R} (h : Deferred A node)
    (callback : Callback) :
    Reported A node callback ↔ (callback = .fsmTimer → ¬MovePending node) := by
  obtain ⟨d, pending, rfl, hMode⟩ := h
  cases callback with
  | fsmTimer => simpa using reported_fsmTimer_iff A d
  | updateTimer => exact iff_of_true (reported_updateTimer A d) (by simp)
  | odWrite index subindex value =>
      exact iff_of_true (reported_odWrite A hMode index subindex value) (by simp)
  | odRead index subindex => exact iff_of_true (fun h => absurd rfl h) (by simp)
  | _ => exact iff_of_true (fun _ => rfl) (by simp)

end DriveSimulatorNode

open DriveSimulatorNode

/-- Along every sequence of callbacks each change of the drive state is published
by the callback that makes it, exactly if the FSM timer never fires while a
Controlword waits that moves the state machine. -/
theorem every_change_reported_iff {R : Type} (A : DoubleArith R) (callbacks : List Callback) :
    EveryStep (DriveSimulatorNode.step A) (Reported A) (DriveSimulatorNode.initial A) callbacks ↔
      EveryStep (DriveSimulatorNode.step A)
        (fun node callback => callback = .fsmTimer → ¬MovePending node)
        (DriveSimulatorNode.initial A) callbacks := by
  apply everyStep_congr (Deferred A) (fun _ callback _ h => h.step A callback)
    (fun _ callback _ h => h.reported_iff A callback) (deferred_initial A)
  exact fun _ _ => trivial

/-- The first transition of every start-up is missing from the log. -/
theorem shutdown_not_reported :
    ¬∀ callbacks,
      EveryStep (DriveSimulatorNode.step (.exact fun _ => 0)) (Reported (.exact fun _ => 0))
        (DriveSimulatorNode.initial (.exact fun _ => 0)) callbacks := by
  intro h
  obtain ⟨-, hTimer, -⟩ := h [.odWrite Cia402Index.controlword 0 6, .fsmTimer]
  exact absurd (hTimer (by decide +kernel)) (by decide)

end Ca1MotorCtrl
