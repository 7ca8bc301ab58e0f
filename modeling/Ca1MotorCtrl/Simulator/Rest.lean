import Ca1MotorCtrl.Simulator.ExactMotion

/-! The decay of a drive that is not enabled. Nine tenths of the velocity,
rounded, is again the velocity as soon as it is at most five, so the decay
never comes to rest from any velocity but zero. -/
namespace Ca1MotorCtrl

open Transition

/-- The velocity after one update of a disabled drive. -/
def decay (v : ℤ) : ℤ := roundHalfAway (v * (9 / 10))

theorem decay_neg (v : ℤ) : decay (-v) = -decay v := by
  have hArg : ((-v : ℤ) : ℚ) * (9 / 10) = -((v : ℚ) * (9 / 10)) := by
    push_cast
    ring
  rw [decay, hArg, roundHalfAway_neg, decay]

theorem decay_lt_iff {v : ℤ} (hv : 0 ≤ v) : decay v < v ↔ 6 ≤ v := by
  rw [← not_le, decay, le_roundHalfAway_iff]
  constructor
  · intro h
    by_contra hSmall
    have hFive : (v : ℚ) ≤ 5 := by exact_mod_cast (by omega : v ≤ 5)
    rcases hFive.lt_or_eq with hLt | hEq
    · exact h (Or.inl (by linarith))
    · have hPos : 0 < v := by
        rw [show v = 5 by exact_mod_cast hEq]
        norm_num
      exact h (Or.inr ⟨hPos, by linarith⟩)
  · intro h hBound
    have hSix : (6 : ℚ) ≤ v := by exact_mod_cast h
    rcases hBound with hLt | ⟨-, hEq⟩ <;> linarith

theorem decay_pos {v : ℤ} (hv : 0 < v) : 0 < decay v := by
  have hOne : (1 : ℚ) ≤ v := by exact_mod_cast hv
  apply (le_roundHalfAway_iff 1 _).mpr
  left
  push_cast
  linarith

theorem sign_decay (v : ℤ) : (decay v).sign = v.sign := by
  rcases lt_trichotomy v 0 with hv | rfl | hv
  · have hOpposite := decay_pos (v := -v) (by omega)
    rw [decay_neg] at hOpposite
    rw [Int.sign_eq_neg_one_of_neg hv, Int.sign_eq_neg_one_of_neg (by omega)]
  · rw [decay, Int.cast_zero, zero_mul, ← Int.cast_zero, roundHalfAway_intCast]
  · rw [Int.sign_eq_one_of_pos hv, Int.sign_eq_one_of_pos (decay_pos hv)]

theorem abs_decay_lt_iff (v : ℤ) : |decay v| < |v| ↔ 6 ≤ |v| := by
  have hNonneg {w : ℤ} (hw : 0 ≤ w) : |decay w| < |w| ↔ 6 ≤ |w| := by
    have hSign := sign_decay w
    have hDecay : 0 ≤ decay w := by
      rw [← Int.sign_nonneg_iff, hSign]
      exact Int.sign_nonneg_iff.mpr hw
    rw [abs_of_nonneg hDecay, abs_of_nonneg hw, decay_lt_iff hw]
  rcases le_total 0 v with hv | hv
  · exact hNonneg hv
  · have hOpposite := hNonneg (neg_nonneg.mpr hv)
    rw [decay_neg, abs_neg, abs_neg] at hOpposite
    exact hOpposite

namespace Motion
variable (undefinedCast : ℚ → OdValue)

theorem toInt_velocity_eq_decay (m : Motion ℚ) (dt : ℚ) (hOff : m.enabled = false) :
    (m.advance (.exact undefinedCast) dt).velocity.toInt = decay m.velocity.toInt :=
  m.toInt_velocity_of_disabled undefinedCast dt hOff

/-- Decaying keeps the drive disabled and the direction of rotation. -/
theorem disabled_run {m : Motion ℚ} (hOff : m.enabled = false) (dts : List ℚ) :
    (run (advance (.exact undefinedCast)) m dts).enabled = false ∧
      (run (advance (.exact undefinedCast)) m dts).velocity.toInt.sign = m.velocity.toInt.sign := by
  apply run_invariant fun m' : Motion ℚ =>
    m'.enabled = false ∧ m'.velocity.toInt.sign = m.velocity.toInt.sign
  · intro m' dt hInv
    obtain ⟨hDisabled, hSign⟩ := hInv
    constructor
    · rw [advance, if_neg (by simp [hDisabled])]
      split <;> exact hDisabled
    · rw [m'.toInt_velocity_eq_decay undefinedCast dt hDisabled, sign_decay, hSign]
  · exact ⟨hOff, rfl⟩

end Motion

namespace DriveSimulator

/-- Updates slow the drive down until it stands, and never reverse it. -/
def ComesToRest (A : DoubleArith ℚ) (s : DriveSimulator ℚ) : Prop :=
  (∀ dts dt,
    (s.velocityAfter A dts ≠ 0 → |s.velocityAfter A (dts ++ [dt])| < |s.velocityAfter A dts|) ∧
    0 ≤ s.velocityAfter A dts * s.velocityAfter A (dts ++ [dt])) ∧
  ∃ dts, s.velocityAfter A dts = 0

end DriveSimulator

open DriveSimulator

theorem sign_velocityAfter (undefinedCast : ℚ → OdValue) (s : DriveSimulator ℚ)
    (hOff : s.state ≠ .operationEnabled) (dts : List ℚ) :
    (s.velocityAfter (.exact undefinedCast) dts).sign =
      (s.entry Cia402Index.velocityActual).toInt.sign := by
  have hDisabled : s.motion.enabled = false := by simpa [motion, isOperationEnabled] using hOff
  rw [velocityAfter_eq]
  exact (Motion.disabled_run undefinedCast hDisabled dts).2

theorem velocityAfter_eq_zero_iff (undefinedCast : ℚ → OdValue) (s : DriveSimulator ℚ)
    (hOff : s.state ≠ .operationEnabled) (dts : List ℚ) :
    s.velocityAfter (.exact undefinedCast) dts = 0 ↔
      (s.entry Cia402Index.velocityActual).toInt = 0 := by
  rw [← Int.sign_eq_zero_iff_zero, sign_velocityAfter undefinedCast s hOff dts,
    Int.sign_eq_zero_iff_zero]

/-- A disabled drive comes to rest only if it stands already. An update slows it
down exactly from six on, and always keeps the direction of rotation. -/
theorem comesToRest_iff (undefinedCast : ℚ → OdValue) (s : DriveSimulator ℚ)
    (hOff : s.state ≠ .operationEnabled) :
    let A := DoubleArith.exact undefinedCast
    let v := (s.entry Cia402Index.velocityActual).toInt
    (s.ComesToRest A ↔ v = 0) ∧
    ∀ dt, (|s.velocityAfter A [dt]| < |v| ↔ 6 ≤ |v|) ∧ (s.velocityAfter A [dt]).sign = v.sign := by
  intro A v
  have hZero (dts : List ℚ) : s.velocityAfter A dts = 0 ↔ v = 0 :=
    velocityAfter_eq_zero_iff undefinedCast s hOff dts
  constructor
  · constructor
    · intro hRest
      obtain ⟨-, dts, hStand⟩ := hRest
      exact (hZero dts).mp hStand
    · intro hStand
      have hAlways (dts : List ℚ) : s.velocityAfter A dts = 0 := (hZero dts).mpr hStand
      refine ⟨fun dts dt => ⟨fun hMoving => absurd (hAlways dts) hMoving, ?_⟩, [], hStand⟩
      rw [hAlways dts, zero_mul]
  · intro dt
    have hDisabled : s.motion.enabled = false := by simpa [motion, isOperationEnabled] using hOff
    have hNext : s.velocityAfter A [dt] = decay v := by
      rw [velocityAfter_eq]
      exact s.motion.toInt_velocity_eq_decay undefinedCast dt hDisabled
    refine ⟨?_, sign_velocityAfter undefinedCast s hOff [dt]⟩
    rw [hNext]
    exact abs_decay_lt_iff v

/-- A drive that was enabled, reached 5 RPM and was disabled again. -/
def coasting : DriveSimulator ℚ :=
  run (step (.exact fun _ => 0)) (initial (.exact fun _ => 0))
    [.write Cia402Index.targetVelocity 0 5, .write Cia402Index.controlword 0 0x06,
      .write Cia402Index.controlword 0 0x07, .write Cia402Index.controlword 0 0x0F, .update 1,
      .write Cia402Index.controlword 0 0]

theorem coasting_comesToRest_iff : coasting.state ≠ .operationEnabled ∧
    (coasting.ComesToRest (.exact fun _ => 0) ↔
      (coasting.entry Cia402Index.velocityActual).toInt = 0) :=
  have hOff : coasting.state ≠ .operationEnabled := by decide +kernel
  ⟨hOff, (comesToRest_iff (fun _ => 0) coasting hOff).1⟩

/-- At 5 RPM a disabled drive keeps coasting. -/
theorem coasting_never_rests : ¬coasting.ComesToRest (.exact fun _ => 0) := by
  intro hRest
  obtain ⟨-, dts, hStand⟩ := hRest
  have hStart := (velocityAfter_eq_zero_iff _ coasting (by decide +kernel) dts).mp hStand
  exact absurd hStart (by decide +kernel)

end Ca1MotorCtrl
