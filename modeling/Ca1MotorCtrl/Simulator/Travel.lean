import Ca1MotorCtrl.Simulator.ExactMotion

/-! Reported position against reported velocity. Each update of an enabled drive
moves the accumulator by the unrounded velocity, which is within half a unit of
the reported one, so over a run the two differ by half the time under way, and
by one more because the position is rounded at both ends. -/
namespace Ca1MotorCtrl

open Transition

namespace DriveSimulator
variable (A : DoubleArith ℚ)

/-- The time step of an update that starts in OPERATION_ENABLED and raises no
fault. -/
def travelTime (s : DriveSimulator ℚ) (op : Operation ℚ) : Option ℚ :=
  match op with
  | .update dt =>
      if s.state = .operationEnabled ∧ (s.update A dt).state ≠ .fault then some dt else none
  | _ => none

/-- The distance that the reported velocities account for, and the time they
cover. -/
def recordTravel (total : ℚ × ℚ) (s : DriveSimulator ℚ) (op : Operation ℚ) : ℚ × ℚ :=
  match s.travelTime A op with
  | some dt =>
      (total.1 + ((s.step A op).entry Cia402Index.velocityActual).toInt * dt, total.2 + dt)
  | none => total

theorem travelTime_update (s : DriveSimulator ℚ) (dt : ℚ) :
    s.travelTime A (.update dt) =
      if s.motion.enabled = true ∧ s.motion.overspeed A dt = false then some dt else none := by
  by_cases hOn : s.state = .operationEnabled
  · have hEnabled : s.motion.enabled = true := beq_iff_eq.mpr hOn
    simp only [travelTime, hOn, hEnabled, true_and, ne_eq, s.state_update_eq_fault_iff A dt hOn,
      Bool.not_eq_true]
  · have hDisabled : s.motion.enabled = false := beq_false_of_ne hOn
    simp [travelTime, hOn, hDisabled]

end DriveSimulator

namespace Motion
variable (undefinedCast : ℚ → OdValue)

/-- Reported and unrounded velocity cover the same distance up to half a unit
per second. -/
theorem abs_travel_le (m : Motion ℚ) {dt : ℚ} (hdt : 0 ≤ dt) (hOn : m.enabled = true)
    (hLimit : m.overspeed (.exact undefinedCast) dt = false) :
    |(m.advance (.exact undefinedCast) dt).position - m.position -
      (m.advance (.exact undefinedCast) dt).velocity.toInt * dt| ≤ dt / 2 := by
  have hRound := abs_roundHalfAway_sub_le (m.ramped (.exact undefinedCast) dt)
  have hError : (m.advance (.exact undefinedCast) dt).position - m.position -
      (m.advance (.exact undefinedCast) dt).velocity.toInt * dt =
        -((roundHalfAway (m.ramped (.exact undefinedCast) dt) -
          m.ramped (.exact undefinedCast) dt) * dt) := by
    rw [m.position_of_enabled undefinedCast dt hOn hLimit,
      m.toInt_velocity_of_enabled undefinedCast dt hOn hLimit]
    ring
  rw [hError, abs_neg, abs_mul, abs_of_nonneg hdt]
  calc
    _ ≤ 1 / 2 * dt := mul_le_mul_of_nonneg_right hRound hdt
    _ = dt / 2 := by ring

end Motion

open DriveSimulator

namespace Drive
variable (undefinedCast : ℚ → OdValue)

theorem motion_step_update (d : Drive ℚ) (dt : ℚ) :
    ((d.step (.exact undefinedCast) (.update dt)).toSimulator (.exact undefinedCast)).motion =
      (d.toSimulator (.exact undefinedCast)).motion.advance (.exact undefinedCast) dt := by
  rw [← step_toSimulator]
  exact motion_update _ _ dt

/-- Operations that do not travel keep the position. -/
theorem position_step_of_still (d : Drive ℚ) {op : Operation ℚ} (hReset : op ≠ .reset)
    (hStill : (d.toSimulator (.exact undefinedCast)).travelTime (.exact undefinedCast) op = none) :
    (d.step (.exact undefinedCast) op).position = d.position := by
  by_cases hUpdate : ∃ dt, op = .update dt
  · obtain ⟨dt, rfl⟩ := hUpdate
    have hMotion := congrArg Motion.position (d.motion_step_update undefinedCast dt)
    rw [travelTime_update] at hStill
    rw [Motion.position_of_still undefinedCast _ dt fun h => by simp [h] at hStill] at hMotion
    exact hMotion
  · exact (d.step_still _ (fun dt h => hUpdate ⟨dt, h⟩) hReset).2

/-- The accumulator of the represented drive has moved as recorded, up to half
the recorded time. -/
def Travelled (start : ℚ) (config : DriveSimulator ℚ × ℚ × ℚ) : Prop :=
  ∃ d : Drive ℚ, config.1 = d.toSimulator (.exact undefinedCast) ∧
    |d.position - start - config.2.1| ≤ config.2.2 / 2

theorem travelled_recordStep {start : ℚ} {config : DriveSimulator ℚ × ℚ × ℚ} {op : Operation ℚ}
    (h : Travelled undefinedCast start config)
    (hAllowed : op ≠ .reset ∧ ∀ dt, op = .update dt → 0 ≤ dt) :
    Travelled undefinedCast start
      (recordStep (DriveSimulator.step (.exact undefinedCast))
        (recordTravel (.exact undefinedCast)) config op) := by
  obtain ⟨_, travel, time⟩ := config
  obtain ⟨d, rfl, hTravel⟩ := h
  refine ⟨d.step (.exact undefinedCast) op, d.step_toSimulator _ op, ?_⟩
  simp only [recordStep, recordTravel]
  cases hTime : (d.toSimulator (.exact undefinedCast)).travelTime (.exact undefinedCast) op with
  | none =>
      rw [d.position_step_of_still undefinedCast hAllowed.1 hTime]
      exact hTravel
  | some dt =>
      cases op with
      | update dt' =>
          rw [travelTime_update] at hTime
          split at hTime
          next hMoving =>
            obtain rfl : dt' = dt := Option.some.inj hTime
            obtain ⟨hOn, hLimit⟩ := hMoving
            have hStep := Motion.abs_travel_le undefinedCast _ (hAllowed.2 dt' rfl) hOn hLimit
            rw [← d.motion_step_update undefinedCast dt'] at hStep
            rw [d.step_toSimulator]
            set next := d.step (.exact undefinedCast) (.update dt')
            set velocity := ((next.toSimulator (.exact undefinedCast)).entry
              Cia402Index.velocityActual).toInt
            have hStep' : |next.position - d.position - velocity * dt'| ≤ dt' / 2 := hStep
            have hSplit : next.position - start - (travel + velocity * dt') =
                (next.position - d.position - velocity * dt') + (d.position - start - travel) := by
              ring
            rw [hSplit]
            exact (abs_add_le _ _).trans (by linarith)
          next => cases hTime
      | _ => simp [travelTime] at hTime

theorem travelled_run (d : Drive ℚ) {ops : List (Operation ℚ)}
    (hOps : ∀ op ∈ ops, op ≠ .reset ∧ ∀ dt, op = .update dt → 0 ≤ dt) :
    Travelled undefinedCast d.position
      (run (recordStep (DriveSimulator.step (.exact undefinedCast))
        (recordTravel (.exact undefinedCast)))
        (d.toSimulator (.exact undefinedCast), 0, 0) ops) := by
  apply EveryStep.invariant _ _ (everyStep_of_forall_mem hOps _)
  · intro config op h hAllowed
    exact travelled_recordStep undefinedCast h hAllowed
  · exact ⟨d, rfl, by simp⟩

/-- The reported position is the rounded accumulator. -/
theorem abs_positionActual_sub_le (d : Drive ℚ) (hFits : FitsInt32 (roundHalfAway d.position)) :
    |(((d.toSimulator (.exact undefinedCast)).entry Cia402Index.positionActual).toInt : ℚ) -
      d.position| ≤ 1 / 2 := by
  have hEntry := d.entry_toSimulator (.exact undefinedCast) .positionActual
  rw [show (d.toSimulator (.exact undefinedCast)).entry Cia402Index.positionActual = _ from hEntry,
    value, DoubleArith.exact_toOdValue_round undefinedCast _ hFits]
  exact abs_roundHalfAway_sub_le _

end Drive

/-- Over any run without a reset the reported position changes by what the
reported velocities account for, up to half the time under way and one more,
and operations that account for nothing leave it unchanged. -/
theorem position_follows_velocity (undefinedCast : ℚ → OdValue) {s : DriveSimulator ℚ}
    (hReach : s.Reachable (.exact undefinedCast)) (ops : List (Operation ℚ))
    (hOps : ∀ op ∈ ops, op ≠ .reset ∧ ∀ dt, op = .update dt → 0 ≤ dt) :
    let A := DoubleArith.exact undefinedCast
    let config := run (recordStep (step A) (recordTravel A)) (s, (0, 0)) ops
    (FitsInt32 (roundHalfAway s.positionActual) →
      FitsInt32 (roundHalfAway config.1.positionActual) →
      |((config.1.entry Cia402Index.positionActual).toInt : ℚ) -
        (s.entry Cia402Index.positionActual).toInt - config.2.1| ≤ config.2.2 / 2 + 1) ∧
    EveryStep (step A)
      (fun s op => s.travelTime A op = none →
        (s.step A op).entry Cia402Index.positionActual = s.entry Cia402Index.positionActual)
      s ops := by
  obtain ⟨d, rfl⟩ := Drive.exists_of_reachable _ hReach
  intro A config
  constructor
  · intro hStart hEnd
    obtain ⟨d', hDrive, hTravel⟩ := d.travelled_run undefinedCast hOps
    have hConfig : config.1 = d'.toSimulator A := hDrive
    rw [hConfig] at hEnd ⊢
    have hFirst := abs_le.mp (d.abs_positionActual_sub_le undefinedCast hStart)
    have hLast := abs_le.mp (d'.abs_positionActual_sub_le undefinedCast hEnd)
    have hMoved := abs_le.mp hTravel
    exact abs_le.mpr ⟨by linarith [hFirst.2, hLast.1, hMoved.1],
      by linarith [hFirst.1, hLast.2, hMoved.2]⟩
  · apply EveryStep.of_guard (fun s => ∃ d : Drive ℚ, s = d.toSimulator A) _ ⟨d, rfl⟩
      (everyStep_of_forall_mem hOps _)
    intro s op hDrive hAllowed
    obtain ⟨d, rfl⟩ := hDrive
    refine ⟨fun hStill => ?_, d.step A op, d.step_toSimulator A op⟩
    have hEntry (d : Drive ℚ) : (d.toSimulator A).entry Cia402Index.positionActual =
        A.toOdValue (A.round d.position) := d.entry_toSimulator A .positionActual
    rw [d.step_toSimulator, hEntry, hEntry,
      d.position_step_of_still undefinedCast hAllowed.1 hStill]

/-- Enable, speed up for half a second, and disable. -/
def shortRide : List (Operation ℚ) :=
  [.write Cia402Index.targetVelocity 0 100, .write Cia402Index.profileAcceleration 0 33,
    .write Cia402Index.controlword 0 0x06, .write Cia402Index.controlword 0 0x07,
    .write Cia402Index.controlword 0 0x0F, .update (1 / 4), .update (1 / 4),
    .write Cia402Index.controlword 0 0, .update 1]

/-- The state and the account after the short ride from power-on. -/
def shortRideEnd : DriveSimulator ℚ × ℚ × ℚ :=
  run (recordStep (step (.exact fun _ => 0)) (recordTravel (.exact fun _ => 0)))
    (initial (.exact fun _ => 0), (0, 0)) shortRide

theorem shortRide_follows_velocity :
    |((shortRideEnd.1.entry Cia402Index.positionActual).toInt : ℚ) -
        ((initial (.exact fun _ => 0)).entry Cia402Index.positionActual).toInt -
        shortRideEnd.2.1| ≤ shortRideEnd.2.2 / 2 + 1 :=
  (position_follows_velocity (fun _ => 0) (.refl _) shortRide (by
    simp only [shortRide, List.forall_mem_cons, List.not_mem_nil, ne_eq, reduceCtorEq,
      not_false_eq_true, Operation.update.injEq, forall_eq', true_and]
    norm_num)).1 (by decide +kernel) (by decide +kernel)

end Ca1MotorCtrl
