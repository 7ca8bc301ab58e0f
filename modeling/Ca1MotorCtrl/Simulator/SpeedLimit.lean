import Ca1MotorCtrl.Simulator.ExactMotion

/-! Over-speed protection over whole runs. The velocity never exceeds the
largest limit that the drive has held since its power-on settings, whatever is
written to the profile objects, and an enabled drive keeps the limit it has. -/
namespace Ca1MotorCtrl

open Transition

namespace Motion
variable {R : Type} (A : DoubleArith R)

/-- The number that `update` converts to an object value for the velocity. -/
def converted (m : Motion R) (dt : R) : Option R :=
  if m.enabled then
    if m.overspeed A dt then none else some (A.round (m.ramped A dt))
  else if m.velocity ≠ 0 then some (A.round (m.decaying A))
  else none

/-- A step stores the converted number, or keeps the velocity. -/
theorem velocity_advance (m : Motion R) (dt : R) :
    (m.advance A dt).velocity = (m.converted A dt).elim m.velocity A.toOdValue := by
  unfold advance converted
  split
  · split <;> rfl
  · split <;> rfl

variable (undefinedCast : ℚ → OdValue)

/-- Conversions of velocities never leave the range of their object. -/
theorem fitsInt32_converted (m : Motion ℚ) (dt : ℚ) {q : ℚ}
    (h : m.converted (.exact undefinedCast) dt = some q) : FitsInt32 (truncate q) := by
  rw [converted] at h
  split at h
  · split at h
    · cases h
    next hLimit =>
      have hWithin := (m.overspeed_eq_false_iff undefinedCast dt).mp (Bool.not_eq_true _ ▸ hLimit)
      rw [← Option.some.inj h, DoubleArith.truncate_round]
      exact fitsInt32_of_abs_le hWithin
  · split at h
    · rw [← Option.some.inj h, DoubleArith.truncate_round]
      exact m.fitsInt32_decaying undefinedCast
    · cases h

/-- A step that leaves the drive enabled respects the limit it leaves. -/
theorem abs_velocity_le_limit {m : Motion ℚ} {dt : ℚ}
    (hOn : (m.advance (.exact undefinedCast) dt).enabled = true) :
    |(m.advance (.exact undefinedCast) dt).velocity.toInt| ≤
      (m.advance (.exact undefinedCast) dt).limit.toInt := by
  cases hEnabled : m.enabled with
  | false =>
      rw [advance, if_neg (by simp [hEnabled])] at hOn
      split at hOn <;> simp [hEnabled] at hOn
  | true =>
      cases hOver : m.overspeed (.exact undefinedCast) dt with
      | true => simp [advance, hEnabled, hOver] at hOn
      | false =>
          have hLimit : (m.advance (.exact undefinedCast) dt).limit = m.limit := by
            simp [advance, hEnabled, hOver]
          rw [m.toInt_velocity_of_enabled undefinedCast dt hEnabled hOver, hLimit]
          exact abs_roundHalfAway_le ((m.overspeed_eq_false_iff undefinedCast dt).mp hOver)

/-- One step exceeds neither the old velocity nor the limit. -/
theorem abs_velocity_advance_le (m : Motion ℚ) (dt : ℚ) :
    |(m.advance (.exact undefinedCast) dt).velocity.toInt| ≤
      max |m.velocity.toInt| m.limit.toInt := by
  cases hEnabled : m.enabled with
  | false =>
      rw [m.toInt_velocity_of_disabled undefinedCast dt hEnabled]
      exact le_max_of_le_left (abs_roundHalfAway_le (m.abs_decaying_le undefinedCast))
  | true =>
      cases hOver : m.overspeed (.exact undefinedCast) dt with
      | true =>
          have hKeep : (m.advance (.exact undefinedCast) dt).velocity = m.velocity := by
            simp [advance, hEnabled, hOver]
          rw [hKeep]
          exact le_max_left _ _
      | false =>
          rw [m.toInt_velocity_of_enabled undefinedCast dt hEnabled hOver]
          exact le_max_of_le_right
            (abs_roundHalfAway_le ((m.overspeed_eq_false_iff undefinedCast dt).mp hOver))

end Motion

namespace DriveSimulator

/-- The largest MAX_MOTOR_SPEED stored since construction or the last reset. -/
def recordLimit (A : DoubleArith ℚ) (largest : ℤ) (s : DriveSimulator ℚ) (op : Operation ℚ) : ℤ :=
  match op with
  | .reset => ((s.step A op).entry Cia402Index.maxMotorSpeed).toInt
  | _ => max largest ((s.step A op).entry Cia402Index.maxMotorSpeed).toInt

end DriveSimulator

namespace Drive
variable (A : DoubleArith ℚ)

theorem recordLimit_toSimulator (d : Drive ℚ) (largest : ℤ) (op : Operation ℚ)
    (hReset : op ≠ .reset) :
    DriveSimulator.recordLimit A largest (d.toSimulator A) op =
      max largest (d.step A op).maxMotorSpeed.toInt := by
  have hEntry : ((d.step A op).toSimulator A).entry Cia402Index.maxMotorSpeed =
      (d.step A op).maxMotorSpeed := (d.step A op).entry_toSimulator A .maxMotorSpeed
  cases op <;> simp_all [DriveSimulator.recordLimit, step_toSimulator]

/-- One operation exceeds neither the old velocity nor the limit it leaves. -/
theorem abs_velocity_step_le (undefinedCast : ℚ → OdValue) (d : Drive ℚ)
    {op : Operation ℚ} (hReset : op ≠ .reset) :
    |(d.step (.exact undefinedCast) op).velocityActual.toInt| ≤
      max |d.velocityActual.toInt| (d.step (.exact undefinedCast) op).maxMotorSpeed.toInt := by
  by_cases hUpdate : ∃ dt, op = .update dt
  · obtain ⟨dt, rfl⟩ := hUpdate
    have hMotion := (d.toSimulator (.exact undefinedCast)).motion_update (.exact undefinedCast) dt
    rw [update_toSimulator, motion_toSimulator, motion_toSimulator] at hMotion
    have hLimit : (d.update (.exact undefinedCast) dt).maxMotorSpeed = d.maxMotorSpeed := by
      unfold update
      split
      · split <;> rfl
      · rfl
    have hBound := Motion.abs_velocity_advance_le undefinedCast
      (d.toSimulator (.exact undefinedCast)).motion dt
    rw [motion_toSimulator, ← hMotion] at hBound
    simp only [step, hLimit]
    exact hBound
  · have hStill := d.step_still (.exact undefinedCast) (fun dt h => hUpdate ⟨dt, h⟩) hReset
    rw [hStill.1]
    exact le_max_left _ _

/-- The velocity of the represented drive is within the recorded limit. -/
def WithinLargest (config : DriveSimulator ℚ × ℤ) : Prop :=
  ∃ d : Drive ℚ, config.1 = d.toSimulator A ∧ |d.velocityActual.toInt| ≤ config.2

theorem withinLargest_recordStep (undefinedCast : ℚ → OdValue) {config : DriveSimulator ℚ × ℤ}
    (op : Operation ℚ) (h : WithinLargest (.exact undefinedCast) config) :
    WithinLargest (.exact undefinedCast)
      (recordStep (DriveSimulator.step (.exact undefinedCast))
        (DriveSimulator.recordLimit (.exact undefinedCast)) config op) := by
  obtain ⟨_, largest⟩ := config
  obtain ⟨d, rfl, hBound⟩ := h
  refine ⟨d.step (.exact undefinedCast) op, d.step_toSimulator _ op, ?_⟩
  by_cases hReset : op = .reset
  · subst hReset
    have hEntry := (d.step (.exact undefinedCast) .reset).entry_toSimulator
      (.exact undefinedCast) .maxMotorSpeed
    rw [← step_toSimulator] at hEntry
    have hDefault : |(0 : OdValue).toInt| ≤ (250 : OdValue).toInt := by decide
    exact hDefault.trans_eq (congrArg Int32.toInt hEntry).symm
  · have hRecord := d.recordLimit_toSimulator (.exact undefinedCast) largest op hReset
    exact ((d.abs_velocity_step_le undefinedCast hReset).trans
      (max_le_max_right _ hBound)).trans_eq hRecord.symm

theorem withinLargest_run (undefinedCast : ℚ → OdValue) (ops : List (Operation ℚ)) :
    WithinLargest (.exact undefinedCast)
      (run (recordStep (DriveSimulator.step (.exact undefinedCast))
        (DriveSimulator.recordLimit (.exact undefinedCast)))
        (DriveSimulator.initial (.exact undefinedCast), 250) ops) := by
  have hStart : |(0 : OdValue).toInt| ≤ 250 := by decide
  apply run_invariant (WithinLargest (.exact undefinedCast))
  · intro config op h
    exact withinLargest_recordStep undefinedCast op h
  · exact ⟨_, initial_eq_powerOn _, hStart⟩

end Drive

open DriveSimulator

/-- In every reachable state the velocity is within the largest limit stored so
far, an update that leaves the drive enabled keeps the current limit, and an
update never converts a velocity that is out of range. -/
theorem velocity_within_limits (undefinedCast : ℚ → OdValue) (ops : List (Operation ℚ)) :
    let A := DoubleArith.exact undefinedCast
    let config := run (recordStep (step A) (recordLimit A)) (initial A, 250) ops
    |(config.1.entry Cia402Index.velocityActual).toInt| ≤ config.2 ∧
    ∀ dt : ℚ, ((config.1.update A dt).state = .operationEnabled →
        |((config.1.update A dt).entry Cia402Index.velocityActual).toInt| ≤
          ((config.1.update A dt).entry Cia402Index.maxMotorSpeed).toInt) ∧
      (config.1.update A dt).entry Cia402Index.velocityActual =
        (config.1.motion.converted A dt).elim (config.1.entry Cia402Index.velocityActual)
          A.toOdValue ∧
      ∀ q, config.1.motion.converted A dt = some q → FitsInt32 (truncate q) := by
  intro A config
  constructor
  · obtain ⟨d, hDrive, hBound⟩ := Drive.withinLargest_run undefinedCast ops
    have hEntry := d.entry_toSimulator A .velocityActual
    rw [hDrive]
    exact le_of_eq_of_le (congrArg (fun v => |v.toInt|) hEntry) hBound
  · intro dt
    have hMotion := config.1.motion_update A dt
    constructor
    · intro hOn
      have hEnabled : (config.1.update A dt).motion.enabled = true := by
        simp [motion, isOperationEnabled, hOn]
      rw [hMotion] at hEnabled
      have hBound := Motion.abs_velocity_le_limit undefinedCast hEnabled
      rw [← hMotion] at hBound
      exact hBound
    · constructor
      · exact (congrArg Motion.velocity hMotion).trans (config.1.motion.velocity_advance A dt)
      · intro q hConverted
        exact config.1.motion.fitsInt32_converted undefinedCast dt hConverted

end Ca1MotorCtrl
