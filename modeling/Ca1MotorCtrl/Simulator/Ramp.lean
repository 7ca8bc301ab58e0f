import Ca1MotorCtrl.Arithmetic.RoundedRamp
import Ca1MotorCtrl.Simulator.ExactMotion

/-! Repeated updates of an enabled drive with fixed settings. The velocity is a
rounded ramp: what each update adds is rounded and becomes the start of the
next one, so the error against the ideal ramp grows with the number of
updates unless the increment is almost an integer. -/
namespace Ca1MotorCtrl

open Transition

/-- What `n` rounded steps of size `k` gain agrees with `n * k`, or both ramps
are within one of the target. -/
def RoundedRamp.Accurate (k : ℚ) (v target : ℤ) (n : ℕ) : Prop :=
  |gain k v n - n * k| ≤ 1 ∨ (target : ℚ) - v ≤ min (gain k v n : ℚ) (n * k) + 1

/-- A clamped step between two numbers within a bound keeps the bound. -/
theorem RoundedRamp.abs_min_le {v target bound : ℤ} {k : ℚ} (hk : 0 ≤ k) (hv : |v| ≤ bound)
    (ht : |target| ≤ bound) : |min (v + k) (target : ℚ)| ≤ bound := by
  have hLow : (-bound : ℚ) ≤ v := by exact_mod_cast (abs_le.mp hv).1
  have hTargetLow : (-bound : ℚ) ≤ target := by exact_mod_cast (abs_le.mp ht).1
  have hTargetHigh : (target : ℚ) ≤ bound := by exact_mod_cast (abs_le.mp ht).2
  rw [abs_le]
  exact ⟨le_min (by linarith) hTargetLow, (min_le_right _ _).trans hTargetHigh⟩

namespace Motion
variable (undefinedCast : ℚ → OdValue)

/-- An enabled drive whose velocity and target are within the limit. -/
structure Ramping (m : Motion ℚ) : Prop where
  enabled : m.enabled = true
  velocity : |m.velocity.toInt| ≤ m.limit.toInt
  target : |m.target.toInt| ≤ m.limit.toInt

/-- Agreement on the settings that an update does not change. -/
structure SameProfile (m m' : Motion ℚ) : Prop where
  target : m'.target = m.target
  acceleration : m'.acceleration = m.acceleration
  deceleration : m'.deceleration = m.deceleration
  limit : m'.limit = m.limit

theorem SameProfile.refl (m : Motion ℚ) : m.SameProfile m := ⟨rfl, rfl, rfl, rfl⟩

theorem SameProfile.trans {m m' m'' : Motion ℚ} (h : m.SameProfile m') (h' : m'.SameProfile m'') :
    m.SameProfile m'' :=
  ⟨h'.target.trans h.target, h'.acceleration.trans h.acceleration,
    h'.deceleration.trans h.deceleration, h'.limit.trans h.limit⟩

theorem sameProfile_advance (m : Motion ℚ) (dt : ℚ) :
    m.SameProfile (m.advance (.exact undefinedCast) dt) := by
  unfold advance
  split
  · split <;> exact ⟨rfl, rfl, rfl, rfl⟩
  · split <;> exact ⟨rfl, rfl, rfl, rfl⟩

/-- A ramp that stays between velocity and target trips no limit. -/
theorem Ramping.next {m : Motion ℚ} {dt : ℚ} (h : m.Ramping)
    (hBetween : |m.ramped (.exact undefinedCast) dt| ≤ m.limit.toInt) :
    (m.advance (.exact undefinedCast) dt).Ramping ∧
      (m.advance (.exact undefinedCast) dt).velocity.toInt =
        roundHalfAway (m.ramped (.exact undefinedCast) dt) := by
  have hLimit := (m.overspeed_eq_false_iff undefinedCast dt).mpr hBetween
  have hVelocity := m.toInt_velocity_of_enabled undefinedCast dt h.enabled hLimit
  have hAdvance : (m.advance (.exact undefinedCast) dt).enabled = true := by
    simp [Motion.advance, h.enabled, hLimit]
  have hSame := m.sameProfile_advance undefinedCast dt
  refine ⟨⟨hAdvance, ?_, ?_⟩, hVelocity⟩
  · rw [hVelocity, hSame.limit]
    exact abs_roundHalfAway_le hBetween
  · rw [hSame.target, hSame.limit]
    exact h.target

/-- Towards a higher target the ramp uses the acceleration. -/
theorem ramped_of_le {m : Motion ℚ} {dt : ℚ} (hLe : m.velocity.toInt ≤ m.target.toInt)
    (hk : 0 ≤ m.acceleration.toInt * dt) :
    m.ramped (.exact undefinedCast) dt =
      min (m.velocity.toInt + m.acceleration.toInt * dt) (m.target.toInt : ℚ) := by
  rcases hLe.lt_or_eq with hLt | hEq
  · exact m.ramped_of_lt undefinedCast dt hLt
  · rw [m.ramped_of_eq undefinedCast dt hEq, ← hEq, min_eq_right (by linarith)]

/-- Towards a lower target it is the mirrored ramp with the deceleration. -/
theorem ramped_of_ge {m : Motion ℚ} {dt : ℚ} (hGe : m.target.toInt ≤ m.velocity.toInt)
    (hk : 0 ≤ m.deceleration.toInt * dt) :
    m.ramped (.exact undefinedCast) dt =
      -min ((-m.velocity.toInt : ℤ) + m.deceleration.toInt * dt) ((-m.target.toInt : ℤ) : ℚ) := by
  rw [RoundedRamp.neg_min_neg]
  rcases hGe.lt_or_eq with hLt | hEq
  · exact m.ramped_of_gt undefinedCast dt hLt
  · rw [m.ramped_of_eq undefinedCast dt hEq.symm, ← hEq, max_eq_right (by linarith)]

/-- Updates towards a higher target are rounded steps of the acceleration. -/
theorem Ramping.velocity_climb {m : Motion ℚ} {dt : ℚ} (h : m.Ramping)
    (hLe : m.velocity.toInt ≤ m.target.toInt) (hk : 0 ≤ m.acceleration.toInt * dt) (n : ℕ) :
    (run (advance (.exact undefinedCast)) m (List.replicate n dt)).velocity.toInt =
      (RoundedRamp.step (m.acceleration.toInt * dt) m.target.toInt)^[n] m.velocity.toInt := by
  apply observe_run_replicate (fun m' : Motion ℚ => m'.velocity.toInt) _ fun m' : Motion ℚ =>
    m'.Ramping ∧ m.SameProfile m' ∧ m'.velocity.toInt ≤ m.target.toInt
  · intro m' hInv
    obtain ⟨hRamping, hSame, hBelow⟩ := hInv
    have hRamp : m'.ramped (.exact undefinedCast) dt =
        min (m'.velocity.toInt + m.acceleration.toInt * dt) (m.target.toInt : ℚ) := by
      rw [← hSame.target, ← hSame.acceleration]
      exact ramped_of_le undefinedCast (hSame.target ▸ hBelow) (hSame.acceleration ▸ hk)
    have hBound : |m'.ramped (.exact undefinedCast) dt| ≤ m'.limit.toInt := by
      rw [hRamp, ← hSame.target]
      exact RoundedRamp.abs_min_le hk hRamping.velocity hRamping.target
    obtain ⟨hNext, hVelocity⟩ := hRamping.next undefinedCast hBound
    rw [hRamp] at hVelocity
    refine ⟨hVelocity, hNext, hSame.trans (m'.sameProfile_advance undefinedCast dt), ?_⟩
    rw [hVelocity]
    exact RoundedRamp.step_le _ _ _
  · exact ⟨h, .refl m, hLe⟩

/-- Updates towards a lower target are mirrored steps of the deceleration. -/
theorem Ramping.velocity_fall {m : Motion ℚ} {dt : ℚ} (h : m.Ramping)
    (hGe : m.target.toInt ≤ m.velocity.toInt) (hk : 0 ≤ m.deceleration.toInt * dt) (n : ℕ) :
    -(run (advance (.exact undefinedCast)) m (List.replicate n dt)).velocity.toInt =
      (RoundedRamp.step (m.deceleration.toInt * dt) (-m.target.toInt))^[n] (-m.velocity.toInt) := by
  apply observe_run_replicate (fun m' : Motion ℚ => -m'.velocity.toInt) _ fun m' : Motion ℚ =>
    m'.Ramping ∧ m.SameProfile m' ∧ m.target.toInt ≤ m'.velocity.toInt
  · intro m' hInv
    obtain ⟨hRamping, hSame, hAbove⟩ := hInv
    have hRamp : m'.ramped (.exact undefinedCast) dt =
        -min ((-m'.velocity.toInt : ℤ) + m.deceleration.toInt * dt)
          ((-m.target.toInt : ℤ) : ℚ) := by
      rw [← hSame.target, ← hSame.deceleration]
      exact ramped_of_ge undefinedCast (hSame.target ▸ hAbove) (hSame.deceleration ▸ hk)
    have hBound : |m'.ramped (.exact undefinedCast) dt| ≤ m'.limit.toInt := by
      rw [hRamp, ← hSame.target, abs_neg]
      apply RoundedRamp.abs_min_le hk
      · rw [abs_neg]
        exact hRamping.velocity
      · rw [abs_neg]
        exact hRamping.target
    obtain ⟨hNext, hVelocity⟩ := hRamping.next undefinedCast hBound
    rw [hRamp, roundHalfAway_neg, eq_neg_iff_add_eq_zero, ← neg_eq_iff_add_eq_zero] at hVelocity
    refine ⟨hVelocity, hNext, hSame.trans (m'.sameProfile_advance undefinedCast dt), ?_⟩
    apply neg_le_neg_iff.mp
    rw [hVelocity]
    exact RoundedRamp.step_le _ _ _
  · exact ⟨h, .refl m, hGe⟩

/-- The unrounded ramp from the velocity to the target. -/
def idealRamp (m : Motion ℚ) (time : ℚ) : ℚ :=
  if m.velocity.toInt < m.target.toInt then
    min (m.velocity.toInt + m.acceleration.toInt * time) m.target.toInt
  else max (m.velocity.toInt - m.deceleration.toInt * time) m.target.toInt

/-- The rounded increments of `n` steps add up to those of the unrounded ramp,
within one, or both ramps are within one of the target. -/
def Accurate (m : Motion ℚ) (dt : ℚ) (n : ℕ) : Prop :=
  if m.velocity.toInt < m.target.toInt then
    RoundedRamp.Accurate (m.acceleration.toInt * dt) m.velocity.toInt m.target.toInt n
  else RoundedRamp.Accurate (m.deceleration.toInt * dt) (-m.velocity.toInt) (-m.target.toInt) n

/-- The increment of a step does not round to nothing. -/
def Arrives (m : Motion ℚ) (dt : ℚ) : Prop :=
  (m.velocity.toInt < m.target.toInt → 1 / 2 < m.acceleration.toInt * dt ∨
    m.acceleration.toInt * dt = 1 / 2 ∧ 0 ≤ m.velocity.toInt) ∧
  (m.target.toInt < m.velocity.toInt → 1 / 2 < m.deceleration.toInt * dt ∨
    m.deceleration.toInt * dt = 1 / 2 ∧ m.velocity.toInt ≤ 0)

section Profile
variable {m : Motion ℚ} {dt : ℚ}

theorem Ramping.abs_sub_idealRamp_le_iff (h : m.Ramping) (hAccel : 0 < m.acceleration.toInt)
    (hDecel : 0 < m.deceleration.toInt) (hdt : 0 < dt) (n : ℕ) :
    |((run (advance (.exact undefinedCast)) m (List.replicate n dt)).velocity.toInt : ℚ) -
        m.idealRamp (n * dt)| ≤ 1 ↔ m.Accurate dt n := by
  have hAccel' : (0 : ℚ) < m.acceleration.toInt * dt := mul_pos (Int.cast_pos.mpr hAccel) hdt
  have hDecel' : (0 : ℚ) < m.deceleration.toInt * dt := mul_pos (Int.cast_pos.mpr hDecel) hdt
  by_cases hUp : m.velocity.toInt < m.target.toInt
  · rw [idealRamp, if_pos hUp, Accurate, if_pos hUp, mul_left_comm,
      h.velocity_climb undefinedCast hUp.le hAccel'.le n]
    exact RoundedRamp.abs_iterate_sub_le_one_iff hAccel' hUp.le n
  · have hGe := not_lt.mp hUp
    have hIff := RoundedRamp.abs_iterate_sub_le_one_iff hDecel' (neg_le_neg hGe) n
    rw [← h.velocity_fall undefinedCast hGe hDecel'.le n] at hIff
    have hMirror := RoundedRamp.neg_min_neg (n * (m.deceleration.toInt * dt)) m.target.toInt
      m.velocity.toInt
    rw [neg_eq_iff_eq_neg] at hMirror
    rw [hMirror, Int.cast_neg, ← neg_sub', abs_neg] at hIff
    rw [idealRamp, if_neg hUp, Accurate, if_neg hUp, mul_left_comm]
    exact hIff

theorem Ramping.exists_velocity_eq_target_iff (h : m.Ramping) (hAccel : 0 < m.acceleration.toInt)
    (hDecel : 0 < m.deceleration.toInt) (hdt : 0 < dt) :
    (∃ n, (run (advance (.exact undefinedCast)) m (List.replicate n dt)).velocity.toInt =
      m.target.toInt) ↔ m.Arrives dt := by
  have hAccel' : (0 : ℚ) < m.acceleration.toInt * dt := mul_pos (Int.cast_pos.mpr hAccel) hdt
  have hDecel' : (0 : ℚ) < m.deceleration.toInt * dt := mul_pos (Int.cast_pos.mpr hDecel) hdt
  rcases lt_trichotomy m.velocity.toInt m.target.toInt with hUp | hEq | hDown
  · rw [Arrives, and_iff_left fun hDown => absurd hDown hUp.not_gt, imp_iff_right hUp,
      ← RoundedRamp.exists_iterate_eq_iff hAccel' hUp]
    exact exists_congr fun n => by rw [h.velocity_climb undefinedCast hUp.le hAccel'.le n]
  · exact iff_of_true ⟨0, hEq⟩
      ⟨fun hUp => absurd hEq hUp.ne, fun hDown => absurd hEq hDown.ne'⟩
  · have hIff := RoundedRamp.exists_iterate_eq_iff hDecel' (neg_lt_neg hDown)
    rw [neg_nonneg] at hIff
    rw [Arrives, and_iff_right fun hUp => absurd hUp hDown.not_gt, imp_iff_right hDown, ← hIff]
    exact exists_congr fun n => by
      rw [← h.velocity_fall undefinedCast hDown.le hDecel'.le n, neg_inj]

end Profile

end Motion

open DriveSimulator

/-- When `n` updates of an enabled drive stay within one of the ideal ramp, and
when they reach the target. Where two ways of splitting a time interval both
follow the ramp, they agree up to the two roundings. -/
theorem updates_follow_ramp_iff (undefinedCast : ℚ → OdValue) (s : DriveSimulator ℚ) (dt : ℚ)
    (hRamping : s.motion.Ramping) (hAccel : 0 < s.motion.acceleration.toInt)
    (hDecel : 0 < s.motion.deceleration.toInt) (hdt : 0 < dt) :
    let velocity (n : ℕ) (dt : ℚ) : ℤ :=
      s.velocityAfter (.exact undefinedCast) (List.replicate n dt)
    (∀ n : ℕ, |velocity n dt - s.motion.idealRamp (n * dt)| ≤ 1 ↔ s.motion.Accurate dt n) ∧
    ((∃ n, velocity n dt = s.motion.target.toInt) ↔ s.motion.Arrives dt) ∧
    ∀ (n n' : ℕ) (dt' : ℚ), 0 < dt' → n * dt = n' * dt' → s.motion.Accurate dt n →
      s.motion.Accurate dt' n' → |(velocity n dt : ℚ) - velocity n' dt'| ≤ 2 := by
  intro velocity
  have hAccurate {dt : ℚ} (hdt : 0 < dt) (n : ℕ) :
      |velocity n dt - s.motion.idealRamp (n * dt)| ≤ 1 ↔ s.motion.Accurate dt n := by
    rw [← hRamping.abs_sub_idealRamp_le_iff undefinedCast hAccel hDecel hdt n,
      ← velocityAfter_eq]
  refine ⟨hAccurate hdt, ?_, ?_⟩
  · rw [← hRamping.exists_velocity_eq_target_iff undefinedCast hAccel hDecel hdt]
    exact exists_congr fun n => by rw [← velocityAfter_eq]
  · intro n n' dt' hdt' hTime hFirst hSecond
    have hLeft := (hAccurate hdt n).mpr hFirst
    have hRight := (hAccurate hdt' n').mpr hSecond
    rw [← hTime, abs_sub_comm] at hRight
    exact (abs_sub_le _ (s.motion.idealRamp (n * dt)) _).trans (by linarith)

/-- An enabled drive at rest with a target of 100 RPM and 40 RPM/s. -/
def slowRamp : DriveSimulator ℚ :=
  run (step (.exact fun _ => 0)) (initial (.exact fun _ => 0))
    [.write Cia402Index.targetVelocity 0 100, .write Cia402Index.profileAcceleration 0 40,
      .write Cia402Index.controlword 0 0x06, .write Cia402Index.controlword 0 0x07,
      .write Cia402Index.controlword 0 0x0F]

theorem slowRamp_ramping : slowRamp.motion.Ramping :=
  ⟨by decide +kernel, by decide +kernel, by decide +kernel⟩

theorem slowRamp_follows_iff :
    (|(slowRamp.velocityAfter (.exact fun _ => 0) (List.replicate 3 (1 / 100)) : ℚ) -
        slowRamp.motion.idealRamp ((3 : ℕ) * (1 / 100))| ≤ 1 ↔
      slowRamp.motion.Accurate (1 / 100) 3) ∧
    ((∃ n, slowRamp.velocityAfter (.exact fun _ => 0) (List.replicate n (1 / 100)) =
      slowRamp.motion.target.toInt) ↔ slowRamp.motion.Arrives (1 / 100)) :=
  have hFollow := updates_follow_ramp_iff (fun _ => 0) slowRamp (1 / 100) slowRamp_ramping
    (by decide +kernel) (by decide +kernel) (by norm_num)
  ⟨hFollow.1 3, hFollow.2.1⟩

/-- At a tick of ten milliseconds the increment of 0.4 RPM is rounded away. -/
theorem slowRamp_stands_still :
    slowRamp.motion.Ramping ∧ 0 < slowRamp.motion.acceleration.toInt ∧
    0 < slowRamp.motion.deceleration.toInt ∧
    ¬|(slowRamp.velocityAfter (.exact fun _ => 0) (List.replicate 3 (1 / 100)) : ℚ) -
        slowRamp.motion.idealRamp (3 * (1 / 100))| ≤ 1 := by
  refine ⟨slowRamp_ramping, by decide +kernel, by decide +kernel, ?_⟩
  decide +kernel

end Ca1MotorCtrl
