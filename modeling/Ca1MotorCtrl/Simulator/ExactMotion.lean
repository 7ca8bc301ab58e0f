import Ca1MotorCtrl.Simulator.Motion

/-! One physics step over the exact rationals. The velocity that a step stores
is the ramped or the decayed one, rounded; both fit their object, so what the
platform makes of a conversion out of range never matters for velocities. -/
namespace Ca1MotorCtrl.Motion

variable (undefinedCast : ℚ → OdValue) (m : Motion ℚ) (dt : ℚ)

theorem ramped_of_lt (h : m.velocity.toInt < m.target.toInt) :
    m.ramped (.exact undefinedCast) dt =
      min (m.velocity.toInt + m.acceleration.toInt * dt) (m.target.toInt : ℚ) := by
  have hLt : (m.velocity.toInt : ℚ) < m.target.toInt := by exact_mod_cast h
  rw [min_comm]
  simp only [ramped, DriveSimulator.ramp, DoubleArith.min, DoubleArith.exact, hLt, decide_true,
    if_true, decide_eq_true_eq]
  exact (min_def_lt _ _).symm

theorem ramped_of_gt (h : m.target.toInt < m.velocity.toInt) :
    m.ramped (.exact undefinedCast) dt =
      max (m.velocity.toInt - m.deceleration.toInt * dt) (m.target.toInt : ℚ) := by
  have hLt : (m.target.toInt : ℚ) < m.velocity.toInt := by exact_mod_cast h
  simp only [ramped, DriveSimulator.ramp, DoubleArith.max, DoubleArith.exact, hLt, hLt.not_gt,
    decide_true, decide_false, Bool.false_eq_true, if_true, if_false, decide_eq_true_eq]
  exact (max_def_lt _ _).symm

theorem ramped_of_eq (h : m.velocity.toInt = m.target.toInt) :
    m.ramped (.exact undefinedCast) dt = m.velocity.toInt := by
  simp [ramped, DriveSimulator.ramp, DoubleArith.exact, h]

theorem overspeed_eq_false_iff :
    m.overspeed (.exact undefinedCast) dt = false ↔
      |m.ramped (.exact undefinedCast) dt| ≤ m.limit.toInt := by
  rw [← not_lt]
  exact decide_eq_false_iff_not

/-- A velocity within a limit that fits its object fits too. -/
theorem fitsInt32_of_abs_le {q : ℚ} {limit : OdValue} (h : |q| ≤ limit.toInt) :
    FitsInt32 (roundHalfAway q) := by
  obtain ⟨hLower, hUpper⟩ := abs_le.mp (abs_roundHalfAway_le h)
  have hMax := limit.toInt_lt
  exact ⟨by omega, by omega⟩

theorem abs_decaying_le :
    |m.decaying (.exact undefinedCast)| ≤ ((|m.velocity.toInt| : ℤ) : ℚ) := by
  have hDecay : m.decaying (.exact undefinedCast) = m.velocity.toInt * (9 / 10) := rfl
  rw [hDecay, abs_mul]
  push_cast
  have hAbs := abs_nonneg (m.velocity.toInt : ℚ)
  norm_num
  linarith

/-- The decay shrinks even the smallest integer into range. -/
theorem fitsInt32_decaying : FitsInt32 (roundHalfAway (m.decaying (.exact undefinedCast))) := by
  have hDecay : m.decaying (.exact undefinedCast) = m.velocity.toInt * (9 / 10) := rfl
  have hLower : ((-2 ^ 31 : ℤ) : ℚ) ≤ m.velocity.toInt := by exact_mod_cast m.velocity.le_toInt
  have hUpper : (m.velocity.toInt : ℚ) ≤ (2 ^ 31 - 1 : ℤ) := by
    have := m.velocity.toInt_lt
    exact_mod_cast Int.le_sub_one_of_lt this
  push_cast at hLower hUpper
  have hMin : ((-2 ^ 31 : ℤ) : ℚ) ≤ m.decaying (.exact undefinedCast) := by
    rw [hDecay]
    push_cast
    linarith
  have hMax : m.decaying (.exact undefinedCast) ≤ ((2 ^ 31 - 1 : ℤ) : ℚ) := by
    rw [hDecay]
    push_cast
    linarith
  have hRoundMin := roundHalfAway_mono hMin
  have hRoundMax := roundHalfAway_mono hMax
  rw [roundHalfAway_intCast] at hRoundMin hRoundMax
  exact ⟨hRoundMin, by omega⟩

/-- The velocity that an enabled step stores. -/
theorem toInt_velocity_of_enabled (hOn : m.enabled = true)
    (hLimit : m.overspeed (.exact undefinedCast) dt = false) :
    (m.advance (.exact undefinedCast) dt).velocity.toInt =
      roundHalfAway (m.ramped (.exact undefinedCast) dt) := by
  rw [advance, if_pos hOn, if_neg (by simp [hLimit])]
  exact DoubleArith.exact_toOdValue_round undefinedCast _
    (fitsInt32_of_abs_le ((m.overspeed_eq_false_iff undefinedCast dt).mp hLimit))

/-- The velocity that a disabled step stores. -/
theorem toInt_velocity_of_disabled (hOff : m.enabled = false) :
    (m.advance (.exact undefinedCast) dt).velocity.toInt =
      roundHalfAway (m.decaying (.exact undefinedCast)) := by
  rw [advance, if_neg (by simp [hOff])]
  by_cases hRest : m.velocity = 0
  · have hDecay : m.decaying (.exact undefinedCast) = ((0 : ℤ) : ℚ) := by
      rw [decaying, hRest]
      exact zero_mul _
    rw [if_neg (not_not.mpr hRest), hDecay, roundHalfAway_intCast, hRest]
    rfl
  · rw [if_pos hRest]
    exact DoubleArith.exact_toOdValue_round undefinedCast _ (m.fitsInt32_decaying undefinedCast)

/-- The accumulator moves by the unrounded velocity. -/
theorem position_of_enabled (hOn : m.enabled = true)
    (hLimit : m.overspeed (.exact undefinedCast) dt = false) :
    (m.advance (.exact undefinedCast) dt).position =
      m.position + m.ramped (.exact undefinedCast) dt * dt := by
  rw [advance, if_pos hOn, if_neg (by simp [hLimit])]
  rfl

theorem position_of_still (m : Motion ℚ) (dt : ℚ)
    (h : ¬(m.enabled = true ∧ m.overspeed (.exact undefinedCast) dt = false)) :
    (m.advance (.exact undefinedCast) dt).position = m.position := by
  unfold advance
  split
  next hOn =>
    split
    · rfl
    next hLimit => exact absurd ⟨hOn, by simpa using hLimit⟩ h
  next => split <;> rfl

end Ca1MotorCtrl.Motion
