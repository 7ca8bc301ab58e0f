import Ca1MotorCtrl.Loop.Setpoint
import Ca1MotorCtrl.Loop.Settling
import Ca1MotorCtrl.Simulator.Ramp
import Ca1MotorCtrl.Simulator.SpeedLimit
import Ca1MotorCtrl.Simulator.Toward

/-! Velocity commands in the closed loop. Commands within the speed limit never
make the drive trip over it, however they interleave with everything else. -/
namespace Ca1MotorCtrl

open Transition

/-- Speeds within the limit, and ramps that are at least as steep as `rate`. -/
structure Motion.WithinLimit (m : Motion ℚ) (limit rate : ℤ) : Prop where
  maxMotorSpeed : m.limit.toInt = limit
  velocity : |m.velocity.toInt| ≤ limit
  target : |m.target.toInt| ≤ limit
  acceleration : rate ≤ m.acceleration.toInt
  deceleration : rate ≤ m.deceleration.toInt

/-- The same for the settings of a controller. -/
structure DriveController.WithinLimit (c : DriveController) (limit rate : ℤ) : Prop where
  target : |c.targetVelocity.toInt| ≤ limit
  acceleration : rate ≤ c.accel.toInt
  deceleration : rate ≤ c.decel.toInt

/-- A write of such a setting, or of one that the physics does not depend on. -/
def OdCommand.WithinLimit (cmd : OdCommand) (limit rate : ℤ) : Prop :=
  ∃ o : Object, cmd.index = o.index ∧ cmd.subindex = 0 ∧
    match o with
    | .targetVelocity => |cmd.value.toInt| ≤ limit
    | .profileAcceleration | .profileDeceleration => rate ≤ cmd.value.toInt
    | .maxMotorSpeed => False
    | _ => True

/-- Velocity commands within the limit, and updates that do not run backwards. -/
def LoopEvent.WithinLimit (limit : ℤ) : LoopEvent ℚ → Prop
  | .cmdVelocity data => |data.toInt| ≤ limit
  | .updateTimer dt => 0 ≤ dt
  | _ => True

/-- The services that inject a fault. -/
def LoopEvent.Injects {R : Type} : LoopEvent R → Prop
  | .injectFault | .injectOverspeedFault | .injectSensorTimeoutFault => True
  | _ => False

namespace Motion
variable {m : Motion ℚ} {limit rate : ℤ}

/-- A ramp within the limit stays there. -/
theorem WithinLimit.abs_ramped_le (undefinedCast : ℚ → OdValue) (h : m.WithinLimit limit rate)
    {dt : ℚ} (hRate : 0 ≤ rate) (hdt : 0 ≤ dt) :
    |m.ramped (.exact undefinedCast) dt| ≤ limit := by
  have hAccel : (0 : ℚ) ≤ m.acceleration.toInt * dt :=
    mul_nonneg (by exact_mod_cast hRate.trans h.acceleration) hdt
  have hDecel : (0 : ℚ) ≤ m.deceleration.toInt * dt :=
    mul_nonneg (by exact_mod_cast hRate.trans h.deceleration) hdt
  rcases le_total m.velocity.toInt m.target.toInt with hUp | hDown
  · rw [ramped_of_le undefinedCast hUp hAccel]
    exact RoundedRamp.abs_min_le hAccel h.velocity h.target
  · rw [ramped_of_ge undefinedCast hDown hDecel, abs_neg]
    exact RoundedRamp.abs_min_le hDecel ((abs_neg _).trans_le h.velocity)
      ((abs_neg _).trans_le h.target)

/-- Such a drive trips over no limit. -/
theorem WithinLimit.overspeed_eq_false (undefinedCast : ℚ → OdValue)
    (h : m.WithinLimit limit rate) {dt : ℚ} (hRate : 0 ≤ rate) (hdt : 0 ≤ dt) :
    m.overspeed (.exact undefinedCast) dt = false := by
  rw [overspeed_eq_false_iff, h.maxMotorSpeed]
  exact h.abs_ramped_le undefinedCast hRate hdt

end Motion

namespace DriveController
variable {c : DriveController} {limit rate : ℤ}

/-- The controller writes its own settings only. -/
theorem WithinLimit.of_mem_step (h : c.WithinLimit limit rate) (sw : OdValue) {cmd : OdCommand}
    (hMem : cmd ∈ (c.step sw).2) : cmd.WithinLimit limit rate := by
  have hWord (word : UInt16) : (controlwordCommand word).WithinLimit limit rate :=
    ⟨.controlword, rfl, rfl, trivial⟩
  simp only [step, commands] at hMem
  cases hState : decodeStatusword sw with
  | operationEnabled =>
      simp only [hState] at hMem
      split at hMem
      · rw [List.mem_singleton.mp hMem]
        exact hWord _
      · rw [List.mem_singleton.mp hMem]
        exact ⟨.targetVelocity, rfl, rfl, h.target⟩
  | switchedOn =>
      simp only [hState] at hMem
      split at hMem
      · cases hMem
      · simp only [List.mem_cons, List.not_mem_nil, or_false] at hMem
        rcases hMem with rfl | rfl | rfl | rfl
        · exact ⟨.modesOfOperation, rfl, rfl, trivial⟩
        · exact ⟨.profileAcceleration, rfl, rfl, h.acceleration⟩
        · exact ⟨.profileDeceleration, rfl, rfl, h.deceleration⟩
        · exact hWord _
  | switchOnDisabled | readyToSwitchOn | quickStopActive =>
      simp only [hState] at hMem
      rw [List.mem_singleton.mp hMem]
      exact hWord _
  | fault =>
      simp only [hState, List.mem_cons, List.not_mem_nil, or_false] at hMem
      rcases hMem with rfl | rfl <;> exact hWord _
  | _ =>
      simp only [hState] at hMem
      cases hMem

end DriveController

namespace DriveControllerNode
variable {Server : Type} (services : Services Server) (server : Server)

/-- The thread leaves the settings of the controller alone. -/
theorem settings_fsmThread (node : DriveControllerNode) :
    let c := (fsmThread services server node).2.1.controller
    c.targetVelocity = node.controller.targetVelocity ∧ c.accel = node.controller.accel ∧
      c.decel = node.controller.decel ∧ c.enabled = node.controller.enabled := by
  obtain ⟨controller, phase⟩ := node
  cases phase with
  | readStatusword =>
      simp only [fsmThread]
      split <;> exact ⟨rfl, rfl, rfl, rfl⟩
  | step raw =>
      simp only [fsmThread, stepController]
      split <;> exact ⟨rfl, rfl, rfl, rfl⟩
  | write cmd rest =>
      simp only [fsmThread]
      split <;> exact ⟨rfl, rfl, rfl, rfl⟩
  | _ => exact ⟨rfl, rfl, rfl, rfl⟩

/-- Outside the section under the mutex the thread only works off its batch. -/
theorem remaining_fsmThread_subset {node : DriveControllerNode}
    (hPhase : ∀ raw, node.phase ≠ .step raw) :
    (fsmThread services server node).2.1.phase.remaining ⊆ node.phase.remaining := by
  obtain ⟨controller, phase⟩ := node
  cases phase with
  | readStatusword =>
      simp only [fsmThread]
      split <;> exact List.nil_subset _
  | step raw => exact absurd rfl (hPhase raw)
  | write cmd rest =>
      rw [(fsmThread_write services server controller cmd rest).2]
      exact List.subset_cons_self cmd rest
  | readErrorCode cmds | readDisplay requested cmds =>
      simp only [fsmThread, Phase.remaining_ofCommands]
      exact List.Subset.refl _
  | readVelocity | readPosition => exact List.nil_subset _

end DriveControllerNode

/-- A turn of the thread changes the drive by the write that it makes, if any. -/
theorem Drive.loopStep_fsmThread_fst {R : Type} (A : DoubleArith R) (d : Drive R)
    (node : DriveControllerNode) :
    (loopStep A (d, node) .fsmThread).1 =
      match node.phase with
      | .write cmd _ => d.step A cmd.operation
      | _ => d := by
  obtain ⟨controller, phase⟩ := node
  cases phase with
  | write cmd rest =>
      exact (DriveControllerNode.fsmThread_write (services A) d controller cmd rest).1
  | readStatusword =>
      simp only [loopStep, Ca1MotorCtrl.loopStep, DriveControllerNode.fsmThread]
      rw [syncRead_services_statusword]
  | step raw => rfl
  | _ =>
      simp only [loopStep, Ca1MotorCtrl.loopStep, DriveControllerNode.fsmThread,
        syncRead_services_fst]

namespace Drive
variable (undefinedCast : ℚ → OdValue) {d : Drive ℚ} {limit rate : ℤ}

/-- The motion of a drive that is within its limit. -/
def WithinLimit (d : Drive ℚ) (limit rate : ℤ) : Prop :=
  (d.toSimulator (.exact undefinedCast)).motion.WithinLimit limit rate

theorem withinLimit_iff (d : Drive ℚ) : d.WithinLimit undefinedCast limit rate ↔
    d.maxMotorSpeed.toInt = limit ∧ |d.velocityActual.toInt| ≤ limit ∧
      |d.targetVelocity.toInt| ≤ limit ∧ rate ≤ d.profileAcceleration.toInt ∧
      rate ≤ d.profileDeceleration.toInt := by
  rw [WithinLimit, motion_toSimulator]
  constructor
  · exact fun h => ⟨h.maxMotorSpeed, h.velocity, h.target, h.acceleration, h.deceleration⟩
  · rintro ⟨hLimit, hVelocity, hTarget, hAccel, hDecel⟩
    exact ⟨hLimit, hVelocity, hTarget, hAccel, hDecel⟩

theorem withinLimit_write (h : d.WithinLimit undefinedCast limit rate) {cmd : OdCommand}
    (hCmd : cmd.WithinLimit limit rate) :
    (d.step (.exact undefinedCast) cmd.operation).WithinLimit undefinedCast limit rate := by
  obtain ⟨o, hIndex, hSub, hValue⟩ := hCmd
  have hKey : Object.ofKey? (makeKey cmd.index cmd.subindex) = some o :=
    (ofKey?_makeKey_eq_some_iff _ _ _).mpr ⟨hIndex, hSub⟩
  rw [withinLimit_iff] at h ⊢
  obtain ⟨hLimit, hVelocity, hTarget, hAccel, hDecel⟩ := h
  simp only [OdCommand.operation, step, hKey]
  cases o with
  | controlword =>
      simp only [store]
      split <;> exact ⟨hLimit, hVelocity, hTarget, hAccel, hDecel⟩
  | targetVelocity => exact ⟨hLimit, hVelocity, hValue, hAccel, hDecel⟩
  | profileAcceleration => exact ⟨hLimit, hVelocity, hTarget, hValue, hDecel⟩
  | profileDeceleration => exact ⟨hLimit, hVelocity, hTarget, hAccel, hValue⟩
  | maxMotorSpeed => exact hValue.elim
  | _ => exact ⟨hLimit, hVelocity, hTarget, hAccel, hDecel⟩

theorem withinLimit_update (h : d.WithinLimit undefinedCast limit rate) (dt : ℚ) :
    (d.update (.exact undefinedCast) dt).WithinLimit undefinedCast limit rate := by
  have hSpeed := d.abs_velocity_step_le undefinedCast (show Operation.update dt ≠ .reset from nofun)
  have hKeep : (d.update (.exact undefinedCast) dt).maxMotorSpeed = d.maxMotorSpeed ∧
      (d.update (.exact undefinedCast) dt).targetVelocity = d.targetVelocity ∧
      (d.update (.exact undefinedCast) dt).profileAcceleration = d.profileAcceleration ∧
      (d.update (.exact undefinedCast) dt).profileDeceleration = d.profileDeceleration := by
    unfold update
    split
    · split <;> exact ⟨rfl, rfl, rfl, rfl⟩
    · exact ⟨rfl, rfl, rfl, rfl⟩
  obtain ⟨hSameLimit, hSameTarget, hSameAccel, hSameDecel⟩ := hKeep
  rw [withinLimit_iff] at h ⊢
  obtain ⟨hLimit, hVelocity, hTarget, hAccel, hDecel⟩ := h
  simp only [step, hSameLimit, hLimit] at hSpeed
  rw [hSameLimit, hSameTarget, hSameAccel, hSameDecel]
  exact ⟨hLimit, hSpeed.trans (max_le hVelocity le_rfl), hTarget, hAccel, hDecel⟩

/-- Only an update and a write change what the physics depends on. -/
theorem withinLimit_updateFsm (h : d.WithinLimit undefinedCast limit rate) :
    d.updateFsm.WithinLimit undefinedCast limit rate := by
  rw [withinLimit_iff] at h ⊢
  unfold updateFsm
  split <;> exact h

/-- The drive, the controller and the writes on their way are within the limit. -/
structure Tame (limit rate : ℤ) (config : Drive ℚ × DriveControllerNode) : Prop where
  drive : config.1.WithinLimit undefinedCast limit rate
  controller : config.2.controller.WithinLimit limit rate
  batch : ∀ cmd ∈ config.2.phase.remaining, cmd.WithinLimit limit rate

variable {node : DriveControllerNode}

theorem Tame.overspeed_eq_false (h : Tame undefinedCast limit rate (d, node)) {dt : ℚ}
    (hRate : 0 ≤ rate) (hdt : 0 ≤ dt) :
    (d.toSimulator (.exact undefinedCast)).overspeed (.exact undefinedCast) dt = false := by
  have hMotion := Motion.WithinLimit.overspeed_eq_false undefinedCast h.drive hRate hdt
  rw [motion_toSimulator] at hMotion
  rw [overspeed_toSimulator]
  exact Bool.and_eq_false_iff.mpr (Or.inr hMotion)

theorem tame_fsmThread (h : Tame undefinedCast limit rate (d, node)) :
    Tame undefinedCast limit rate (loopStep (.exact undefinedCast) (d, node) .fsmThread) := by
  obtain ⟨hDrive, hController, hBatch⟩ := h
  refine ⟨?_, ?_, ?_⟩
  · rw [loopStep_fsmThread_fst]
    split
    next cmd rest hPhase =>
      exact withinLimit_write undefinedCast hDrive (hBatch cmd (by simp [hPhase, Phase.remaining]))
    next => exact hDrive
  · obtain ⟨hTarget, hAccel, hDecel, -⟩ :=
      DriveControllerNode.settings_fsmThread (services (.exact undefinedCast)) d node
    exact ⟨hTarget ▸ hController.target, hAccel ▸ hController.acceleration,
      hDecel ▸ hController.deceleration⟩
  · by_cases hStep : ∃ raw, node.phase = .step raw
    · obtain ⟨raw, hPhase⟩ := hStep
      obtain ⟨controller, phase⟩ := node
      obtain rfl : phase = .step raw := hPhase
      have hRemaining :=
        DriveControllerNode.remaining_stepController ⟨controller, .step raw⟩ raw
      intro cmd hMem
      exact hController.of_mem_step raw (hRemaining ▸ hMem)
    · have hSubset := DriveControllerNode.remaining_fsmThread_subset
        (services (.exact undefinedCast)) d fun raw hPhase => hStep ⟨raw, hPhase⟩
      exact fun cmd hMem => hBatch cmd (hSubset hMem)

theorem tame_loopStep (h : Tame undefinedCast limit rate (d, node)) {event : LoopEvent ℚ}
    (hEvent : event.WithinLimit limit) :
    Tame undefinedCast limit rate (loopStep (.exact undefinedCast) (d, node) event) := by
  cases event with
  | fsmThread => exact tame_fsmThread undefinedCast h
  | cmdVelocity data =>
      exact ⟨h.drive, ⟨hEvent, h.controller.acceleration, h.controller.deceleration⟩, h.batch⟩
  | setEnable data =>
      exact ⟨h.drive, ⟨h.controller.target, h.controller.acceleration, h.controller.deceleration⟩,
        h.batch⟩
  | fsmTimer => exact ⟨withinLimit_updateFsm undefinedCast h.drive, h.controller, h.batch⟩
  | updateTimer dt => exact ⟨withinLimit_update undefinedCast h.drive dt, h.controller, h.batch⟩
  | _ =>
      have hFields := (withinLimit_iff undefinedCast d).mp h.drive
      exact ⟨(withinLimit_iff undefinedCast _).mpr hFields, h.controller, h.batch⟩

/-- Nothing but a fault that is raised leads into Fault. -/
theorem power_ne_fault_of_not_raised {R : Type} (A : DoubleArith R) {d : Drive R}
    (hPower : d.power ≠ .fault) {op : Operation R}
    (hEffect : ∀ code, d.effect A op ≠ .raised code) :
    (d.step A op).power ≠ .fault := by
  rw [power_step]
  cases h : d.effect A op with
  | idle => exact hPower
  | applied cw => exact PowerState.apply_ne_fault hPower _ cw
  | raised code => exact absurd h (hEffect code)
  | restarted =>
      intro hFault
      cases hFault

theorem effect_write_ne_raised {R : Type} (A : DoubleArith R) (d : Drive R) (cmd : OdCommand)
    (code : UInt32) : d.effect A cmd.operation ≠ .raised code := by
  simp only [OdCommand.operation, effect]
  split <;> (intro h; cases h)

theorem Tame.power_ne_fault (h : Tame undefinedCast limit rate (d, node)) (hRate : 0 ≤ rate)
    {event : LoopEvent ℚ} (hEvent : event.WithinLimit limit) (hInjects : ¬event.Injects)
    (hPower : d.power ≠ .fault) :
    (loopStep (.exact undefinedCast) (d, node) event).1.power ≠ .fault := by
  cases event with
  | fsmThread =>
      rw [loopStep_fsmThread_fst]
      split
      next cmd rest hPhase =>
        exact power_ne_fault_of_not_raised _ hPower (d.effect_write_ne_raised _ cmd)
      next => exact hPower
  | fsmTimer =>
      have hEffect (code : UInt32) : d.effect (.exact undefinedCast) .updateFsm ≠ .raised code := by
        simp only [effect]
        split <;> (intro h; cases h)
      exact power_ne_fault_of_not_raised _ hPower hEffect
  | updateTimer dt =>
      have hLimit := h.overspeed_eq_false undefinedCast hRate hEvent
      have hEffect (code : UInt32) :
          d.effect (.exact undefinedCast) (.update dt) ≠ .raised code := by
        rw [← d.effect_toSimulator]
        simp only [DriveSimulator.effect, hLimit]
        intro h
        cases h
      exact power_ne_fault_of_not_raised _ hPower hEffect
  | cmdVelocity data | setEnable data => exact hPower
  | _ => exact absurd trivial hInjects

end Drive

section Defaults

/-- The defaults of a drive keep to its default limit. -/
theorem withinLimit_initial (undefinedCast : ℚ → OdValue) :
    (DriveSimulator.initial (.exact undefinedCast)).motion.WithinLimit 250 1000 := by
  rw [Drive.initial_eq_powerOn]
  refine (Drive.withinLimit_iff undefinedCast _).mpr ?_
  simp only [Drive.powerOn]
  decide

/-- So do the defaults of a controller. -/
theorem withinLimit_default : DriveController.WithinLimit {} 250 1000 :=
  ⟨by decide, by decide, by decide⟩

theorem Motion.WithinLimit.mono {m : Motion ℚ} {limit rate slower : ℤ}
    (h : m.WithinLimit limit rate) (hRate : slower ≤ rate) : m.WithinLimit limit slower :=
  ⟨h.maxMotorSpeed, h.velocity, h.target, hRate.trans h.acceleration, hRate.trans h.deceleration⟩

theorem DriveController.WithinLimit.mono {c : DriveController} {limit rate slower : ℤ}
    (h : c.WithinLimit limit rate) (hRate : slower ≤ rate) : c.WithinLimit limit slower :=
  ⟨h.target, hRate.trans h.acceleration, hRate.trans h.deceleration⟩

end Defaults

section Limit
variable (undefinedCast : ℚ → OdValue)

/-- While all commands are within the speed limit, only an injected fault takes the
drive into Fault: no update trips over the limit, in either FSM mode and however
the parts of the system take turns. -/
theorem only_injected_faults {s : DriveSimulator ℚ} (hReach : s.Reachable (.exact undefinedCast))
    {limit : ℤ} (hMotion : s.motion.WithinLimit limit 0) {c : DriveController}
    (hController : c.WithinLimit limit 0) {events : List (LoopEvent ℚ)}
    (hEvents : ∀ event ∈ events, event.WithinLimit limit) :
    EveryStep (DriveSimulator.loopStep (.exact undefinedCast))
      (fun config event =>
        (∀ dt, event = .updateTimer dt →
          config.1.overspeed (.exact undefinedCast) dt = false) ∧
        (config.1.state ≠ .fault →
          (DriveSimulator.loopStep (.exact undefinedCast) config event).1.state = .fault →
            event.Injects))
      (s, { controller := c }) events := by
  obtain ⟨d, rfl⟩ := Drive.exists_of_reachable _ hReach
  let Inv (config : DriveSimulator ℚ × DriveControllerNode) : Prop :=
    ∃ d : Drive ℚ, config.1 = d.toSimulator (.exact undefinedCast) ∧
      Drive.Tame undefinedCast limit 0 (d, config.2)
  refine (everyStep_of_forall_mem hEvents _).of_guard Inv ?_ ⟨d, rfl, hMotion, hController, ?_⟩
  · intro config event hInv hEvent
    obtain ⟨_, node⟩ := config
    obtain ⟨d, rfl, hTame⟩ := hInv
    have hState (d : Drive ℚ) :
        (d.toSimulator (.exact undefinedCast)).state = .fault ↔ d.power = .fault :=
      d.state_toSimulator_eq_iff _ .fault
    rw [d.loopStep_toSimulator]
    refine ⟨⟨?_, fun hBefore hAfter => ?_⟩, _, rfl, Drive.tame_loopStep undefinedCast hTame hEvent⟩
    · rintro dt rfl
      exact hTame.overspeed_eq_false undefinedCast le_rfl hEvent
    · by_contra hInjects
      exact hTame.power_ne_fault undefinedCast le_rfl hEvent hInjects
        (fun hPower => hBefore ((hState d).mpr hPower)) ((hState _).mp hAfter)
  · exact fun cmd hMem => absurd hMem List.not_mem_nil

end Limit

/-- The default settings keep to the default limit, and so does the slider of the
web UI. -/
theorem only_injected_faults_from_powerOn :
    EveryStep (DriveSimulator.loopStep (.exact fun _ => 0))
      (fun config event =>
        (∀ dt, event = .updateTimer dt →
          config.1.overspeed (.exact fun _ => 0) dt = false) ∧
        (config.1.state ≠ .fault →
          (DriveSimulator.loopStep (.exact fun _ => 0) config event).1.state = .fault →
            event.Injects))
      (DriveSimulator.initial (.exact fun _ => 0), {})
      [.cmdVelocity 200, .fsmThread, .updateTimer (1 / 100), .cmdVelocity (-200), .injectFault] :=
  only_injected_faults (fun _ => 0) (Reachable.refl _)
    ((withinLimit_initial _).mono (by decide)) (withinLimit_default.mono (by decide))
    (by simp [LoopEvent.WithinLimit])

end Ca1MotorCtrl
