import Ca1MotorCtrl.Simulator.Effect

/-! The hand-shake before the motor is energised. Each power state stands for
the commands that lead there from Switch On Disabled; the words applied since
then contain them in order, whatever was applied in between. -/
namespace Ca1MotorCtrl

open Transition

/-- The commands that must have been applied since Switch On Disabled. -/
def PowerState.required : PowerState → List Command
  | .switchOnDisabled | .fault => []
  | .readyToSwitchOn => [.shutdown]
  | .switchedOn | .quickStopActive => [.shutdown, .switchOn]
  | .operationEnabled => [.shutdown, .switchOn, .enableOperation]

/-- No transition gets ahead of the commands it has seen. -/
theorem PowerState.required_next (state : PowerState) (command : Command) :
    (state.next command).required.Sublist (state.required ++ [command]) := by
  cases state <;> cases command <;> decide

theorem PowerState.required_apply (state : PowerState) (edge : Bool) (cw : UInt16) :
    (state.apply edge cw).required.Sublist (state.required ++ [.ofWord cw]) := by
  unfold apply
  split
  · exact List.nil_sublist _
  · exact state.required_next (.ofWord cw)

namespace DriveSimulator
variable {R : Type} (A : DoubleArith R)

/-- The words applied since the state was last Switch On Disabled. -/
def recordWords (words : List UInt16) (s : DriveSimulator R) (op : Operation R) : List UInt16 :=
  if (s.step A op).state = .switchOnDisabled then []
  else
    match s.effect A op with
    | .applied cw => words ++ [cw]
    | _ => words

end DriveSimulator

namespace Drive
variable {R : Type} (A : DoubleArith R)

/-- The recorded words contain what the power state requires. -/
theorem required_step (d : Drive R) (op : Operation R) (words : List UInt16)
    (h : d.power.required.Sublist (words.map Command.ofWord)) :
    (d.step A op).power.required.Sublist
      ((DriveSimulator.recordWords A words (d.toSimulator A) op).map Command.ofWord) := by
  have hState : ((d.step A op).toSimulator A).state = .switchOnDisabled ↔
      (d.step A op).power = .switchOnDisabled :=
    (d.step A op).state_toSimulator_eq_iff A .switchOnDisabled
  simp only [DriveSimulator.recordWords, d.step_toSimulator A op, hState, d.effect_toSimulator A op]
  split
  next hDisabled =>
    rw [hDisabled]
    exact List.nil_sublist _
  next =>
    rw [d.power_step A op]
    cases d.effect A op with
    | idle => exact h
    | applied cw =>
        rw [List.map_append]
        exact (d.power.required_apply _ cw).trans (h.append_right _)
    | raised code => exact List.nil_sublist _
    | restarted => exact List.nil_sublist _

end Drive

open DriveSimulator

/-- Operation Enabled means that Shutdown, Switch On and Enable Operation were
applied in this order since Switch On Disabled; and only applying the last
of them, by a write or by a tick, enters it. -/
theorem operationEnabled_after_handshake {R : Type} (A : DoubleArith R)
    (ops : List (Operation R)) :
    (let config := run (recordStep (step A) (recordWords A)) (initial A, []) ops
     config.1.state = .operationEnabled →
       ∃ shutdown switchOn enable, [shutdown, switchOn, enable].Sublist config.2 ∧
         shutdown &&& 0x0F = 0x06 ∧ switchOn &&& 0x0F = 0x07 ∧ enable &&& 0x0F = 0x0F) ∧
    EveryStep (step A)
      (fun s op => s.state ≠ .operationEnabled → (s.step A op).state = .operationEnabled →
        (op = .updateFsm ∨ ∃ v, op = .write Cia402Index.controlword 0 v) ∧
          ∃ cw, s.effect A op = .applied cw ∧ cw &&& 0x0F = 0x0F)
      (initial A) ops := by
  have hEnabled (d : Drive R) : (d.toSimulator A).state = .operationEnabled ↔
      d.power = .operationEnabled := d.state_toSimulator_eq_iff A .operationEnabled
  constructor
  · let Required (config : DriveSimulator R × List UInt16) : Prop :=
      ∃ d : Drive R, config.1 = d.toSimulator A ∧
        d.power.required.Sublist (config.2.map Command.ofWord)
    have hStart : Required (initial A, []) :=
      ⟨Drive.powerOn A .immediate, Drive.initial_eq_powerOn A, List.nil_sublist _⟩
    obtain ⟨d, hState, hWords⟩ : Required
        (run (recordStep (step A) (recordWords A)) (initial A, []) ops) := by
      refine run_invariant Required ?_ hStart ops
      intro config op hRequired
      obtain ⟨_, words⟩ := config
      obtain ⟨d, rfl, hWords⟩ := hRequired
      exact ⟨d.step A op, d.step_toSimulator A op, d.required_step A op words hWords⟩
    intro config hOn
    have hPower : d.power = .operationEnabled := (hEnabled d).mp (hState ▸ hOn)
    rw [hPower] at hWords
    obtain ⟨found, hFound, hCommands⟩ := List.sublist_map_iff.mp hWords
    obtain ⟨shutdown, switchOn, enable, rfl⟩ := List.length_eq_three.mp
      (by simpa [PowerState.required] using (congrArg List.length hCommands).symm)
    simp only [PowerState.required, List.map_cons, List.map_nil, List.cons.injEq] at hCommands
    exact ⟨shutdown, switchOn, enable, hFound,
      (Command.ofWord_eq_shutdown_iff _).mp hCommands.1.symm,
      (Command.ofWord_eq_switchOn_iff _).mp hCommands.2.1.symm,
      (Command.ofWord_eq_enableOperation_iff _).mp hCommands.2.2.1.symm⟩
  · refine everyStep_of_invariant (fun s => ∃ d : Drive R, s = d.toSimulator A) ?_
      ⟨_, Drive.initial_eq_powerOn A⟩ ops
    intro s op hDrive
    obtain ⟨d, rfl⟩ := hDrive
    refine ⟨fun hOff hOn => ?_, d.step A op, d.step_toSimulator A op⟩
    rw [Ne, hEnabled] at hOff
    rw [d.step_toSimulator A op, hEnabled, d.power_step A op] at hOn
    rw [d.effect_toSimulator A op]
    cases hEffect : d.effect A op with
    | applied cw =>
        rw [hEffect] at hOn
        have hEnable := ((PowerState.apply_eq_operationEnabled_iff _ _ cw hOff).mp hOn).1
        exact ⟨d.op_of_effect_applied A op hEffect, cw, rfl,
          (Command.ofWord_eq_enableOperation_iff cw).mp hEnable⟩
    | idle =>
        rw [hEffect] at hOn
        exact absurd hOn hOff
    | raised code => simp [hEffect, PowerCore.act] at hOn
    | restarted => simp [hEffect, PowerCore.act] at hOn

end Ca1MotorCtrl
