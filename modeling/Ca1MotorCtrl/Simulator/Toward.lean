import Ca1MotorCtrl.Arithmetic.RoundedRamp
import Ca1MotorCtrl.Simulator.ExactMotion

/-! The direction of one update. The clamp of the ramp stops it at the target,
but nothing stops it on the other side: a rate that is negative enough to
survive the rounding drives the motor away from its target. -/
namespace Ca1MotorCtrl

/-- A rounded step goes towards a higher target unless it rounds below its
start. -/
theorem RoundedRamp.le_step_iff {k : ℚ} {target v : ℤ} (hv : v ≤ target) :
    v ≤ step k target v ↔ -1 / 2 < k ∨ k = -1 / 2 ∧ 0 < v := by
  rw [step_eq_min, le_min_iff, and_iff_left hv, le_roundHalfAway_iff]
  constructor
  · intro h
    rcases h with hAbove | ⟨hPos, hHalf⟩
    · exact Or.inl (by linarith)
    · exact Or.inr ⟨by linarith, hPos⟩
  · intro h
    rcases h with hAbove | ⟨hHalf, hPos⟩
    · exact Or.inl (by linarith)
    · exact Or.inr ⟨hPos, by linarith⟩

namespace Motion
variable (undefinedCast : ℚ → OdValue) (m : Motion ℚ) (dt : ℚ)

theorem round_ramped_of_lt (h : m.velocity.toInt < m.target.toInt) :
    roundHalfAway (m.ramped (.exact undefinedCast) dt) =
      RoundedRamp.step (m.acceleration.toInt * dt) m.target.toInt m.velocity.toInt := by
  rw [m.ramped_of_lt undefinedCast dt h]
  rfl

theorem round_ramped_of_gt (h : m.target.toInt < m.velocity.toInt) :
    roundHalfAway (m.ramped (.exact undefinedCast) dt) =
      -RoundedRamp.step (m.deceleration.toInt * dt) (-m.target.toInt) (-m.velocity.toInt) := by
  rw [m.ramped_of_gt undefinedCast dt h, RoundedRamp.round_max_eq]

/-- The rounded ramp stays between velocity and target. -/
theorem round_ramped_mem_uIcc_iff :
    roundHalfAway (m.ramped (.exact undefinedCast) dt) ∈
        Set.uIcc m.velocity.toInt m.target.toInt ↔
      (m.velocity.toInt < m.target.toInt → -1 / 2 < m.acceleration.toInt * dt ∨
        m.acceleration.toInt * dt = -1 / 2 ∧ 0 < m.velocity.toInt) ∧
      (m.target.toInt < m.velocity.toInt → -1 / 2 < m.deceleration.toInt * dt ∨
        m.deceleration.toInt * dt = -1 / 2 ∧ m.velocity.toInt < 0) := by
  rcases lt_trichotomy m.velocity.toInt m.target.toInt with hUp | hEq | hDown
  · rw [and_iff_left fun hDown => absurd hDown hUp.not_gt, imp_iff_right hUp,
      m.round_ramped_of_lt undefinedCast dt hUp, Set.uIcc_of_le hUp.le, Set.mem_Icc,
      and_iff_left (RoundedRamp.step_le _ _ _), RoundedRamp.le_step_iff hUp.le]
  · rw [m.ramped_of_eq undefinedCast dt hEq, roundHalfAway_intCast]
    exact iff_of_true Set.left_mem_uIcc
      ⟨fun hUp => absurd hEq hUp.ne, fun hDown => absurd hEq hDown.ne'⟩
  · have hIff := RoundedRamp.le_step_iff (k := m.deceleration.toInt * dt) (neg_le_neg hDown.le)
    rw [neg_pos] at hIff
    rw [and_iff_right fun hUp => absurd hUp hDown.not_gt, imp_iff_right hDown, ← hIff,
      m.round_ramped_of_gt undefinedCast dt hDown, Set.uIcc_of_ge hDown.le, Set.mem_Icc,
      le_neg, neg_le, and_iff_right (RoundedRamp.step_le _ _ _)]

end Motion

open DriveSimulator

/-- An update without a fault moves the velocity towards the target exactly if
the rate in use, times the time step, does not round to a negative change. -/
theorem update_toward_target_iff (undefinedCast : ℚ → OdValue) (s : DriveSimulator ℚ) (dt : ℚ)
    (hOn : s.state = .operationEnabled)
    (hFault : (s.update (.exact undefinedCast) dt).state ≠ .fault) :
    let v := (s.entry Cia402Index.velocityActual).toInt
    let target := (s.entry Cia402Index.targetVelocity).toInt
    let accel := (s.entry Cia402Index.profileAcceleration).toInt
    let decel := (s.entry Cia402Index.profileDeceleration).toInt
    ((s.update (.exact undefinedCast) dt).entry Cia402Index.velocityActual).toInt ∈
        Set.uIcc v target ↔
      (v < target → -1 / 2 < accel * dt ∨ accel * dt = -1 / 2 ∧ 0 < v) ∧
      (target < v → -1 / 2 < decel * dt ∨ decel * dt = -1 / 2 ∧ v < 0) := by
  intro v target accel decel
  have hMotion := congrArg Motion.velocity (s.motion_update (.exact undefinedCast) dt)
  have hNext := s.motion.toInt_velocity_of_enabled undefinedCast dt (beq_iff_eq.mpr hOn)
    (Bool.eq_false_iff.mpr (mt (s.state_update_eq_fault_iff _ dt hOn).mpr hFault))
  rw [← hMotion] at hNext
  have hIff := s.motion.round_ramped_mem_uIcc_iff undefinedCast dt
  rw [← hNext] at hIff
  exact hIff

/-- An enabled drive at rest whose acceleration was written as -1000 RPM/s. -/
def negativeRamp : DriveSimulator ℚ :=
  Transition.run (step (.exact fun _ => 0)) (initial (.exact fun _ => 0))
    [.write Cia402Index.targetVelocity 0 100, .write Cia402Index.profileAcceleration 0 (-1000),
      .write Cia402Index.controlword 0 0x06, .write Cia402Index.controlword 0 0x07,
      .write Cia402Index.controlword 0 0x0F]

theorem negativeRamp_toward_target_iff :
    negativeRamp.state = .operationEnabled ∧
    (((negativeRamp.update (.exact fun _ => 0) (1 / 10)).entry
        Cia402Index.velocityActual).toInt ∈ Set.uIcc 0 100 ↔
      ((0 : ℤ) < 100 → -1 / 2 < ((-1000 : ℤ) : ℚ) * (1 / 10) ∨
        ((-1000 : ℤ) : ℚ) * (1 / 10) = -1 / 2 ∧ (0 : ℤ) < 0) ∧
      ((100 : ℤ) < 0 → -1 / 2 < ((1000 : ℤ) : ℚ) * (1 / 10) ∨
        ((1000 : ℤ) : ℚ) * (1 / 10) = -1 / 2 ∧ (0 : ℤ) < 0)) := by
  have hOn : negativeRamp.state = .operationEnabled := by decide +kernel
  have hVelocity : (negativeRamp.entry Cia402Index.velocityActual).toInt = 0 := by decide +kernel
  have hTarget : (negativeRamp.entry Cia402Index.targetVelocity).toInt = 100 := by decide +kernel
  have hAccel : (negativeRamp.entry Cia402Index.profileAcceleration).toInt = -1000 := by
    decide +kernel
  have hDecel : (negativeRamp.entry Cia402Index.profileDeceleration).toInt = 1000 := by
    decide +kernel
  have hToward := update_toward_target_iff (fun _ => 0) negativeRamp (1 / 10) hOn
    (by decide +kernel)
  simp only [hVelocity, hTarget, hAccel, hDecel] at hToward
  exact ⟨hOn, hToward⟩

/-- With a negative acceleration the motor starts in the wrong direction. -/
theorem negativeRamp_moves_away :
    negativeRamp.state = .operationEnabled ∧
    (negativeRamp.update (.exact fun _ => 0) (1 / 10)).state ≠ .fault ∧
    ((negativeRamp.update (.exact fun _ => 0) (1 / 10)).entry Cia402Index.velocityActual).toInt ∉
      Set.uIcc (negativeRamp.entry Cia402Index.velocityActual).toInt
        (negativeRamp.entry Cia402Index.targetVelocity).toInt := by
  refine ⟨by decide +kernel, by decide +kernel, ?_⟩
  rw [show (negativeRamp.entry Cia402Index.velocityActual).toInt = 0 by decide +kernel,
    show (negativeRamp.entry Cia402Index.targetVelocity).toInt = 100 by decide +kernel,
    show ((negativeRamp.update (.exact fun _ => 0) (1 / 10)).entry
      Cia402Index.velocityActual).toInt = -100 by decide +kernel,
    Set.uIcc_of_le (by decide), Set.mem_Icc]
  decide

end Ca1MotorCtrl
