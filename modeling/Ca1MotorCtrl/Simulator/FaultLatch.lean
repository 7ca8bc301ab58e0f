import Ca1MotorCtrl.Simulator.Effect

/-! How a fault ends. Over whole runs, the drive leaves Fault only by a reset,
a fault-reset edge or Disable Voltage, and ERROR_CODE describes the active
fault until Disable Voltage takes the drive out of it. -/
namespace Ca1MotorCtrl

open Transition

namespace PowerCore

theorem act_power_of_fault {c : PowerCore} (hFault : c.power = .fault) (e : Effect) :
    (c.act e).power ≠ .fault ↔ e = .restarted ∨ ∃ cw, e = .applied cw ∧
      (risingEdge c.prevControlword cw = true ∨ Command.ofWord cw = .disableVoltage) := by
  cases e with
  | applied cw => simp [act, hFault, PowerState.apply_fault_ne_fault_iff]
  | _ => simp [act, hFault]

/-- ERROR_CODE is non-zero in Fault only. -/
def Reports (c : PowerCore) : Prop := c.errorCode ≠ 0 ↔ c.power = .fault

/-- The step that breaks the agreement: a fault left without a reset edge. -/
theorem reports_act_iff {c : PowerCore} (h : c.Reports) (e : Effect)
    (hCode : ∀ code, e = .raised code → code.toInt32 ≠ 0) :
    (c.act e).Reports ↔ (c.power = .fault → ∀ cw, e = .applied cw →
      risingEdge c.prevControlword cw = true ∨ Command.ofWord cw ≠ .disableVoltage) := by
  unfold Reports at h ⊢
  cases e with
  | idle => simpa [act] using h
  | raised code => simpa [act] using hCode code rfl
  | restarted => simp [act]
  | applied cw =>
      by_cases hFault : c.power = .fault
      · have hLeft := PowerState.apply_fault_ne_fault_iff (risingEdge c.prevControlword cw) cw
        have hCodeSet : c.errorCode ≠ 0 := h.mpr hFault
        cases hEdge : risingEdge c.prevControlword cw with
        | true => simp [act, hEdge, hFault, PowerState.apply]
        | false =>
            rw [hEdge] at hLeft
            simpa [act, hEdge, hFault, hCodeSet] using not_iff_not.mpr hLeft
      · have hStay := PowerState.apply_ne_fault hFault (risingEdge c.prevControlword cw) cw
        simp_all [act]

end PowerCore

namespace DriveSimulator
variable {R : Type} (A : DoubleArith R)

/-- The Controlword applied last, with none applied yet counted as 0. -/
def recordApplied (last : UInt16) (s : DriveSimulator R) (op : Operation R) : UInt16 :=
  match s.effect A op with
  | .applied cw => cw
  | .restarted => 0
  | _ => last

/-- The code of the fault raised last, injected or over-speed. -/
def recordRaised (last : Option UInt32) (s : DriveSimulator R) (op : Operation R) :
    Option UInt32 :=
  match s.effect A op with
  | .raised code => some code
  | _ => last

/-- ERROR_CODE is non-zero in Fault only, and then names the last fault. -/
def ReportsActiveFault (s : DriveSimulator R) (last : Option UInt32) : Prop :=
  ∃ code, s.read Cia402Index.errorCode 0 = .ok code ∧ (code ≠ 0 ↔ s.state = .fault) ∧
    (code ≠ 0 → last.map UInt32.toInt32 = some code)

end DriveSimulator

namespace Drive
variable {R : Type} (A : DoubleArith R)

theorem effect_eq_restarted_iff (d : Drive R) (op : Operation R) :
    d.effect A op = .restarted ↔ op = .reset := by
  cases op <;> simp [effect] <;> split <;> simp

/-- Every fault of the drive has a non-zero code. -/
theorem toInt32_ne_zero_of_raised (d : Drive R) (op : Operation R) {code : UInt32}
    (h : d.effect A op = .raised code) : code.toInt32 ≠ 0 := by
  have hKnown : code = ErrorCode.generic ∨ code = ErrorCode.overspeed ∨
      code = ErrorCode.sensorTimeout := by
    cases op <;> simp only [effect] at h <;> (try split at h) <;> simp_all
  rcases hKnown with rfl | rfl | rfl <;> decide

/-- The recorded word is the edge reference of the drive. -/
theorem recordApplied_toSimulator (d : Drive R) (op : Operation R) :
    DriveSimulator.recordApplied A d.prevControlword (d.toSimulator A) op =
      (d.step A op).prevControlword := by
  have hCore : (d.step A op).prevControlword = (d.core.act (d.effect A op)).prevControlword :=
    congrArg PowerCore.prevControlword (core_step A d op)
  rw [DriveSimulator.recordApplied, effect_toSimulator, hCore]
  cases d.effect A op <;> rfl

end Drive

variable {R : Type} (A : DoubleArith R)

open DriveSimulator

/-- In Fault the drive stays there, except under a reset, a rising edge on bit 7
over the word applied before, or a word with bit 1 clear. -/
theorem fault_latched (ops : List (Operation R)) :
    EveryStep (recordStep (step A) (recordApplied A))
      (fun config op => config.1.state = .fault →
        ((config.1.step A op).state ≠ .fault ↔
          op = .reset ∨ ∃ cw, config.1.effect A op = .applied cw ∧
            (cw &&& 0x80 ≠ 0 ∧ config.2 &&& 0x80 = 0 ∨ cw &&& 0x02 = 0)))
      (initial A, 0) ops := by
  refine everyStep_of_invariant
    (fun config => ∃ d : Drive R, config.1 = d.toSimulator A ∧ config.2 = d.prevControlword)
    ?_ ⟨_, Drive.initial_eq_powerOn A, rfl⟩ ops
  intro config op hDrive
  obtain ⟨_, _⟩ := config
  obtain ⟨d, rfl, rfl⟩ := hDrive
  refine ⟨fun hFault => ?_, d.step A op, d.step_toSimulator A op,
    d.recordApplied_toSimulator A op⟩
  have hPower : d.core.power = .fault := (d.state_toSimulator_eq_iff A .fault).mp hFault
  have hLeave := PowerCore.act_power_of_fault hPower (d.effect A op)
  rw [← d.core_step A op, d.effect_eq_restarted_iff A op] at hLeave
  have hState : ((d.step A op).toSimulator A).state = .fault ↔ (d.step A op).core.power = .fault :=
    (d.step A op).state_toSimulator_eq_iff A .fault
  simp only [d.step_toSimulator A op, d.effect_toSimulator A op, Ne, hState]
  simp only [risingEdge_iff, Command.ofWord_eq_disableVoltage_iff] at hLeave
  exact hLeave

/-- Disable Voltage takes a drive out of Fault without any fault-reset edge. -/
theorem fault_left_by_disableVoltage :
    ¬EveryStep
      (recordStep (step (.exact fun _ => 0)) (recordApplied (.exact fun _ => 0)))
      (fun config op => config.1.state = .fault →
        (config.1.step (.exact fun _ => 0) op).state ≠ .fault →
          op = .reset ∨ ∃ cw, config.1.effect (.exact fun _ => 0) op = .applied cw ∧
            cw &&& 0x80 ≠ 0 ∧ config.2 &&& 0x80 = 0)
      (initial (.exact fun _ => 0), 0)
      [.injectFault, .write Cia402Index.controlword 0 0] := by
  intro h
  obtain ⟨-, hWrite, -⟩ := h
  have hEdge : ∃ cw, Effect.applied 0 = Effect.applied cw ∧ cw &&& 0x80 ≠ 0 ∧
      (0 : UInt16) &&& 0x80 = 0 := (hWrite rfl (by decide +kernel)).resolve_left nofun
  simp at hEdge

theorem Drive.reportsActiveFault_toSimulator (d : Drive R) (last : Option UInt32) :
    (d.toSimulator A).ReportsActiveFault last ↔
      d.core.Reports ∧ (d.errorCode ≠ 0 → last.map UInt32.toInt32 = some d.errorCode) := by
  have hRead : (d.toSimulator A).read Cia402Index.errorCode 0 = .ok d.errorCode :=
    d.read_toSimulator A .errorCode
  have hState : (d.toSimulator A).state = .fault ↔ d.power = .fault :=
    d.state_toSimulator_eq_iff A .fault
  simp only [ReportsActiveFault, hRead, hState, Except.ok.injEq, exists_eq_left']
  rfl

/-- The recorded fault stays the active one while a step keeps ERROR_CODE. -/
theorem Drive.errorCode_step_of_recordRaised (d : Drive R) (op : Operation R) (last : Option UInt32)
    (hLast : d.errorCode ≠ 0 → last.map UInt32.toInt32 = some d.errorCode) :
    (d.step A op).errorCode ≠ 0 →
      (recordRaised A last (d.toSimulator A) op).map UInt32.toInt32 =
        some (d.step A op).errorCode := by
  have hCore : (d.step A op).errorCode = (d.core.act (d.effect A op)).errorCode :=
    congrArg PowerCore.errorCode (d.core_step A op)
  rw [recordRaised, d.effect_toSimulator A op, hCore]
  cases d.effect A op with
  | idle => exact hLast
  | applied cw =>
      simp only [PowerCore.act]
      split
      · exact fun h => absurd rfl h
      · exact hLast
  | raised code => exact fun _ => rfl
  | restarted => exact fun h => absurd rfl h

/-- ERROR_CODE reports the active fault throughout a run exactly if every word
applied in Fault is a fault-reset edge or has bit 1 set. -/
theorem errorCode_reports_iff (ops : List (Operation R)) :
    (∀ before, before <+: ops →
      let config := run (recordStep (step A) (recordRaised A)) (initial A, none) before
      config.1.ReportsActiveFault config.2) ↔
    EveryStep (step A)
      (fun s op => s.state = .fault → ∀ cw, s.effect A op = .applied cw →
        cw &&& 0x80 ≠ 0 ∧ s.prevControlword &&& 0x80 = 0 ∨ cw &&& 0x02 ≠ 0)
      (initial A) ops := by
  let Represents (config : DriveSimulator R × Option UInt32) : Prop :=
    ∃ d : Drive R, config.1 = d.toSimulator A
  let Reports (config : DriveSimulator R × Option UInt32) : Prop :=
    config.1.ReportsActiveFault config.2
  let Guard (s : DriveSimulator R) (op : Operation R) : Prop :=
    s.state = .fault → ∀ cw, s.effect A op = .applied cw →
      cw &&& 0x80 ≠ 0 ∧ s.prevControlword &&& 0x80 = 0 ∨ cw &&& 0x02 ≠ 0
  refine (forall_prefix_iff_everyStep Represents Reports ?_ ?_ ⟨_, Drive.initial_eq_powerOn A⟩ ?_
    ops).trans (everyStep_recordStep (recordRaised A) Guard (initial A, none) ops)
  · intro config op hDrive
    obtain ⟨_, last⟩ := config
    obtain ⟨d, rfl⟩ := hDrive
    exact ⟨d.step A op, d.step_toSimulator A op⟩
  · intro config op hDrive hBefore
    obtain ⟨_, last⟩ := config
    obtain ⟨d, rfl⟩ := hDrive
    obtain ⟨hReports, hLast⟩ := (d.reportsActiveFault_toSimulator A last).mp hBefore
    have hIff := PowerCore.reports_act_iff hReports (d.effect A op)
      fun code => d.toInt32_ne_zero_of_raised A op
    have hState : (d.toSimulator A).state = .fault ↔ d.core.power = .fault :=
      d.state_toSimulator_eq_iff A .fault
    simp only [Reports, Guard, recordStep, d.step_toSimulator A op]
    rw [(d.step A op).reportsActiveFault_toSimulator A, d.core_step A op,
      and_iff_left (d.errorCode_step_of_recordRaised A op last hLast), hIff]
    simp only [hState, d.effect_toSimulator A op, risingEdge_iff, Ne,
      Command.ofWord_eq_disableVoltage_iff]
    rfl
  · simp only [Reports, Drive.initial_eq_powerOn, Drive.reportsActiveFault_toSimulator]
    simp [PowerCore.Reports, Drive.core, Drive.powerOn]

/-- Disable Voltage leaves the code of a fault behind in Switch On Disabled. -/
theorem errorCode_stale_after_disableVoltage :
    ¬∀ ops : List (Operation ℚ),
      let config := run (recordStep (step (.exact fun _ => 0)) (recordRaised (.exact fun _ => 0)))
        (initial (.exact fun _ => 0), none) ops
      config.1.ReportsActiveFault config.2 := by
  intro h
  obtain ⟨code, hRead, hState, -⟩ := h [.injectFault, .write Cia402Index.controlword 0 0]
  have hCode : code = 0x3210 := (Except.ok.inj (hRead.symm.trans rfl))
  subst hCode
  exact absurd (hState.mp (by decide)) (by decide +kernel)

end Ca1MotorCtrl
