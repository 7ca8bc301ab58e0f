import Ca1MotorCtrl.Simulator.ExactMotion
import Mathlib.Algebra.Group.Basic

/-! The range of the position counter. The accumulator is a sum over a whole run
and nothing bounds it but the limit and the time under way, so a drive that keeps
turning in one direction at its limit leaves the range of its object. -/
namespace Ca1MotorCtrl

open Transition

/-- The numbers that round to an object value. -/
theorem fitsInt32_roundHalfAway_iff (q : ℚ) :
    FitsInt32 (roundHalfAway q) ↔ -2 ^ 31 - 1 / 2 < q ∧ q < 2 ^ 31 - 1 / 2 := by
  have hLower : -2 ^ 31 ≤ roundHalfAway q ↔ -2 ^ 31 - 1 / 2 < q := by
    rw [le_roundHalfAway_iff, or_iff_left (by norm_num)]
    norm_num
  have hUpper : roundHalfAway q < 2 ^ 31 ↔ q < 2 ^ 31 - 1 / 2 := by
    have hReached : 2 ^ 31 ≤ roundHalfAway q ↔ 2 ^ 31 - 1 / 2 ≤ q := by
      rw [le_roundHalfAway_iff, and_iff_right (by norm_num), ← le_iff_lt_or_eq]
      push_cast
      exact Iff.rfl
    rw [← not_le, hReached, not_le]
  exact and_congr hLower hUpper

namespace Motion

/-- The number that `update` converts to an object value for the position. -/
def convertedPosition {R : Type} (A : DoubleArith R) (m : Motion R) (dt : R) : Option R :=
  if m.enabled then
    if m.overspeed A dt then none
    else some (A.round (A.add m.position (A.mul (m.ramped A dt) dt)))
  else none

variable (undefinedCast : ℚ → OdValue) (m : Motion ℚ) (dt : ℚ)

/-- The step does not take the accumulator out of the range. -/
def HasRoom (m : Motion ℚ) (dt : ℚ) : Prop :=
  m.enabled = true → m.overspeed (.exact undefinedCast) dt = false →
    -2 ^ 31 - 1 / 2 < m.position + m.ramped (.exact undefinedCast) dt * dt ∧
      m.position + m.ramped (.exact undefinedCast) dt * dt < 2 ^ 31 - 1 / 2

theorem convertedPosition_fits_iff :
    (∀ q, m.convertedPosition (.exact undefinedCast) dt = some q → FitsInt32 (truncate q)) ↔
      m.HasRoom undefinedCast dt := by
  unfold convertedPosition HasRoom
  cases hOn : m.enabled with
  | false => simp
  | true =>
      cases hOver : m.overspeed (.exact undefinedCast) dt with
      | true => simp
      | false =>
          simp only [Bool.false_eq_true, if_false, if_true, Option.some.injEq, forall_eq',
            forall_const, DoubleArith.truncate_round,
            fitsInt32_roundHalfAway_iff]
          rfl

/-- A step moves the accumulator by at most the limit. -/
theorem abs_position_advance_le :
    |(m.advance (.exact undefinedCast) dt).position| ≤
      |m.position| + if m.enabled then |m.limit.toInt * dt| else 0 := by
  by_cases hMoves : m.enabled = true ∧ m.overspeed (.exact undefinedCast) dt = false
  · obtain ⟨hOn, hLimit⟩ := hMoves
    have hSpeed := (m.overspeed_eq_false_iff undefinedCast dt).mp hLimit
    rw [m.position_of_enabled undefinedCast dt hOn hLimit, if_pos hOn]
    calc
      |m.position + m.ramped (.exact undefinedCast) dt * dt| ≤
          |m.position| + |m.ramped (.exact undefinedCast) dt * dt| := abs_add_le _ _
      _ ≤ |m.position| + |m.limit.toInt * dt| := by
        rw [abs_mul, abs_mul]
        have hLimitAbs := hSpeed.trans (le_abs_self _)
        have hScaled := mul_le_mul_of_nonneg_right hLimitAbs (abs_nonneg dt)
        linarith
  · rw [m.position_of_still undefinedCast dt hMoves]
    have hNonneg : 0 ≤ if m.enabled then |(m.limit.toInt : ℚ) * dt| else 0 := by
      split
      · exact abs_nonneg _
      · exact le_refl 0
    linarith

end Motion

namespace DriveSimulator

/-- An update converts the position to an object value only if it is one. -/
def ConvertsInRange (A : DoubleArith ℚ) (s : DriveSimulator ℚ) (op : Operation ℚ) : Prop :=
  ∀ dt, op = .update dt → ∀ q, s.motion.convertedPosition A dt = some q → FitsInt32 (truncate q)

/-- What MAX_MOTOR_SPEED allows the drive to have travelled since the last reset. -/
def recordAllowance (allowance : ℚ) (s : DriveSimulator ℚ) : Operation ℚ → ℚ
  | .update dt =>
      allowance + if s.motion.enabled then |s.motion.limit.toInt * dt| else 0
  | .reset => 0
  | _ => allowance

theorem convertsInRange_iff_hasRoom (undefinedCast : ℚ → OdValue) (s : DriveSimulator ℚ)
    (op : Operation ℚ) :
    s.ConvertsInRange (.exact undefinedCast) op ↔
      ∀ dt, op = .update dt → s.motion.HasRoom undefinedCast dt :=
  forall₂_congr fun dt _ => s.motion.convertedPosition_fits_iff undefinedCast dt

/-- The converted number is the one that POSITION_ACTUAL stores. -/
theorem entry_positionActual_update {R : Type} (A : DoubleArith R) (s : DriveSimulator R)
    (dt : R) :
    (s.update A dt).entry Cia402Index.positionActual =
      (s.motion.convertedPosition A dt).elim (s.entry Cia402Index.positionActual)
        A.toOdValue := by
  cases hOn : s.isOperationEnabled with
  | false =>
      have hOff : s.motion.enabled = false := hOn
      have hOther : Cia402Index.positionActual ≠ Cia402Index.velocityActual := by decide
      rw [s.update_of_disabled A dt hOn, Motion.convertedPosition, hOff, if_neg Bool.false_ne_true]
      split
      · rw [setValue_entry, if_neg hOther, touch_entry]
        rfl
      · exact touch_entry s _ _
  | true =>
      have hMoving : s.motion.enabled = true := hOn
      rw [s.update_of_enabled A dt hOn, Motion.convertedPosition, hMoving, if_pos rfl]
      cases s.motion.overspeed A dt with
      | true =>
          simp only [if_true, Option.elim_none]
          rw [injectOverspeedFault, raiseFault_entry _ _ _ (by decide) (by decide), touch_entry]
      | false =>
          simp only [Bool.false_eq_true, if_false, Option.elim_some]
          rw [setValue_entry, if_pos rfl]
          rfl

end DriveSimulator

open DriveSimulator

namespace Drive
variable (undefinedCast : ℚ → OdValue)

/-- The accumulator of the represented drive is within the allowance. -/
def WithinAllowance (config : DriveSimulator ℚ × ℚ) : Prop :=
  ∃ d : Drive ℚ, config.1 = d.toSimulator (.exact undefinedCast) ∧ |d.position| ≤ config.2

theorem withinAllowance_recordStep {config : DriveSimulator ℚ × ℚ} (op : Operation ℚ)
    (h : WithinAllowance undefinedCast config) :
    WithinAllowance undefinedCast
      (recordStep (DriveSimulator.step (.exact undefinedCast)) recordAllowance config op) := by
  obtain ⟨_, allowance⟩ := config
  obtain ⟨d, rfl, hWithin⟩ := h
  refine ⟨d.step (.exact undefinedCast) op, d.step_toSimulator _ op, ?_⟩
  simp only [recordStep]
  by_cases hUpdate : ∃ dt, op = .update dt
  · obtain ⟨dt, rfl⟩ := hUpdate
    have hMotion := (d.toSimulator (.exact undefinedCast)).motion_update (.exact undefinedCast) dt
    rw [d.update_toSimulator] at hMotion
    have hBound := Motion.abs_position_advance_le undefinedCast
      (d.toSimulator (.exact undefinedCast)).motion dt
    rw [← hMotion] at hBound
    have hStart : |(d.toSimulator (.exact undefinedCast)).motion.position| ≤ allowance := hWithin
    exact hBound.trans (add_le_add_left hStart _)
  · by_cases hReset : op = .reset
    · subst hReset
      exact le_of_eq abs_zero
    · rw [(d.step_still _ (fun dt h => hUpdate ⟨dt, h⟩) hReset).2]
      cases op with
      | update dt => exact absurd ⟨dt, rfl⟩ hUpdate
      | reset => exact absurd rfl hReset
      | _ => exact hWithin

/-- Below the range the allowance keeps every conversion in range. -/
theorem convertsInRange_of_allowance {config : DriveSimulator ℚ × ℚ} (op : Operation ℚ)
    (h : WithinAllowance undefinedCast config)
    (hBelow : (recordStep (DriveSimulator.step (.exact undefinedCast)) recordAllowance
      config op).2 < 2 ^ 31 - 1 / 2) :
    config.1.ConvertsInRange (.exact undefinedCast) op := by
  rw [convertsInRange_iff_hasRoom]
  rintro dt rfl hOn hLimit
  have hNext := withinAllowance_recordStep undefinedCast (.update dt) h
  obtain ⟨d, hDrive, hWithin⟩ := hNext
  have hPosition : d.position = (config.1.motion.advance (.exact undefinedCast) dt).position := by
    rw [← motion_update]
    exact (congrArg DriveSimulator.positionActual hDrive).symm
  rw [hPosition, config.1.motion.position_of_enabled undefinedCast dt hOn hLimit] at hWithin
  obtain ⟨hMin, hMax⟩ := abs_le.mp hWithin
  constructor <;> linarith

end Drive

namespace Motion
variable (undefinedCast : ℚ → OdValue) {m : Motion ℚ}

/-- The drive runs at its target velocity and may do so. -/
structure Cruising (m : Motion ℚ) : Prop where
  enabled : m.enabled = true
  target : m.velocity = m.target
  limit : |(m.velocity.toInt : ℚ)| ≤ m.limit.toInt

/-- The same motion further along. -/
def moved (m : Motion ℚ) (distance : ℚ) : Motion ℚ := { m with position := m.position + distance }

theorem Cruising.moved (h : m.Cruising) (distance : ℚ) : (m.moved distance).Cruising :=
  ⟨h.enabled, h.target, h.limit⟩

/-- A cruising drive moves on with the same velocity. -/
theorem Cruising.advance (h : m.Cruising) (dt : ℚ) :
    m.overspeed (.exact undefinedCast) dt = false ∧
      m.advance (.exact undefinedCast) dt = m.moved (m.velocity.toInt * dt) := by
  have hRamp := m.ramped_of_eq undefinedCast dt (congrArg Int32.toInt h.target)
  have hOver : m.overspeed (.exact undefinedCast) dt = false := by
    rw [overspeed_eq_false_iff, hRamp]
    exact h.limit
  have hVelocity : (m.advance (.exact undefinedCast) dt).velocity = m.velocity := by
    rw [← Int32.toInt_inj, m.toInt_velocity_of_enabled undefinedCast dt h.enabled hOver, hRamp,
      roundHalfAway_intCast]
  have hPosition := m.position_of_enabled undefinedCast dt h.enabled hOver
  rw [hRamp] at hPosition
  have hOther : m.advance (.exact undefinedCast) dt =
      { m with
        velocity := (m.advance (.exact undefinedCast) dt).velocity
        position := (m.advance (.exact undefinedCast) dt).position } := by
    simp only [Motion.advance, h.enabled, hOver, if_true, Bool.false_eq_true, if_false]
  refine ⟨hOver, ?_⟩
  rw [hOther, hVelocity, hPosition]
  rfl

/-- A cruising drive has room only in the range. -/
theorem Cruising.hasRoom_iff (h : m.Cruising) (dt : ℚ) :
    m.HasRoom undefinedCast dt ↔ -2 ^ 31 - 1 / 2 < m.position + m.velocity.toInt * dt ∧
      m.position + m.velocity.toInt * dt < 2 ^ 31 - 1 / 2 := by
  obtain ⟨hOver, -⟩ := h.advance undefinedCast dt
  have hRamp := m.ramped_of_eq undefinedCast dt (congrArg Int32.toInt h.target)
  rw [HasRoom, hRamp]
  exact ⟨fun hRoom => hRoom h.enabled hOver, fun hRange _ _ => hRange⟩

end Motion

/-- Equal updates take a cruising drive along at constant velocity. -/
theorem motion_run_cruising (undefinedCast : ℚ → OdValue) {s : DriveSimulator ℚ}
    (h : s.motion.Cruising) (dt : ℚ) (n : ℕ) :
    (run (step (.exact undefinedCast)) s (List.replicate n (.update dt))).motion =
      s.motion.moved (n * (s.motion.velocity.toInt * dt)) := by
  induction n with
  | zero => simp [Motion.moved]
  | succ n ih =>
      have hStep := (run (step (.exact undefinedCast)) s
        (List.replicate n (.update dt))).motion_update (.exact undefinedCast) dt
      rw [ih, ((h.moved _).advance undefinedCast dt).2] at hStep
      rw [List.replicate_succ', run_append, run_cons, run_nil]
      refine hStep.trans ?_
      simp only [Motion.moved, Motion.mk.injEq, true_and, Nat.cast_succ]
      ring

/-- The allowance of a drive that keeps turning forwards at its limit is used up. -/
structure DriveSimulator.AtLimit (config : DriveSimulator ℚ × ℚ) : Prop where
  cruising : config.1.motion.Cruising
  velocity : config.1.motion.velocity = config.1.motion.limit
  forwards : 0 ≤ config.1.motion.position
  allowance : config.2 = config.1.motion.position

theorem DriveSimulator.AtLimit.recordStep (undefinedCast : ℚ → OdValue)
    {config : DriveSimulator ℚ × ℚ} (h : AtLimit config) {dt : ℚ} (hdt : 0 ≤ dt) :
    let next := Transition.recordStep (step (.exact undefinedCast)) recordAllowance config
      (.update dt)
    (config.1.ConvertsInRange (.exact undefinedCast) (.update dt) ↔ next.2 < 2 ^ 31 - 1 / 2) ∧
      AtLimit next := by
  obtain ⟨s, allowance⟩ := config
  obtain ⟨hCruise, hVelocity, hForwards, hStart⟩ := h
  change allowance = s.motion.position at hStart
  intro next
  have hMotion : next.1.motion = s.motion.moved (s.motion.velocity.toInt * dt) :=
    (s.motion_update (.exact undefinedCast) dt).trans (hCruise.advance undefinedCast dt).2
  have hSpeed : (0 : ℚ) ≤ s.motion.velocity.toInt := by
    have hLimit := hCruise.limit
    rw [← hVelocity] at hLimit
    exact (abs_nonneg _).trans hLimit
  have hDistance : 0 ≤ (s.motion.velocity.toInt : ℚ) * dt := mul_nonneg hSpeed hdt
  have hAllowance : next.2 = s.motion.position + s.motion.velocity.toInt * dt := by
    simp only [next, Transition.recordStep, recordAllowance, hCruise.enabled, if_true, hStart,
      ← hVelocity, abs_of_nonneg hDistance]
  constructor
  · rw [convertsInRange_iff_hasRoom, hAllowance]
    simp only [Operation.update.injEq, forall_eq', hCruise.hasRoom_iff]
    refine and_iff_right ?_
    linarith
  · refine ⟨?_, ?_, ?_, ?_⟩
    · rw [hMotion]
      exact hCruise.moved _
    · rw [hMotion]
      exact hVelocity
    · rw [hMotion]
      exact add_nonneg hForwards hDistance
    · rw [hMotion]
      exact hAllowance

/-- POSITION_ACTUAL stores the converted position, and along every run the conversion of an
update is in range as long as MAX_MOTOR_SPEED times the time under way since the last reset
does not reach the end of the range. For a drive that turns forwards at its limit the
conversions are in range no longer than that. -/
theorem position_in_range_of_allowance (undefinedCast : ℚ → OdValue) :
    let A := DoubleArith.exact undefinedCast
    let recorded := recordStep (step A) recordAllowance
    (∀ (s : DriveSimulator ℚ) dt, (s.update A dt).entry Cia402Index.positionActual =
      (s.motion.convertedPosition A dt).elim (s.entry Cia402Index.positionActual)
        A.toOdValue) ∧
    (∀ ops : List (Operation ℚ), EveryStep recorded
      (fun config op => (recorded config op).2 < 2 ^ 31 - 1 / 2 → config.1.ConvertsInRange A op)
      (initial A, 0) ops) ∧
    ∀ config : DriveSimulator ℚ × ℚ, AtLimit config → ∀ dts : List ℚ, (∀ dt ∈ dts, 0 ≤ dt) →
      EveryStep recorded
        (fun config op => config.1.ConvertsInRange A op ↔ (recorded config op).2 < 2 ^ 31 - 1 / 2)
        config (dts.map .update) := by
  intro A recorded
  refine ⟨fun s dt => s.entry_positionActual_update A dt, fun ops => ?_,
    fun config hLimit dts hdts => ?_⟩
  · apply everyStep_of_invariant (Drive.WithinAllowance undefinedCast)
    · intro config op h
      exact ⟨Drive.convertsInRange_of_allowance undefinedCast op h,
        Drive.withinAllowance_recordStep undefinedCast op h⟩
    · exact ⟨_, Drive.initial_eq_powerOn A, le_of_eq abs_zero⟩
  · have hUpdates : ∀ op ∈ dts.map Operation.update, ∃ dt, 0 ≤ dt ∧ op = .update dt := by
      intro op hMem
      obtain ⟨dt, hStep, rfl⟩ := List.mem_map.mp hMem
      exact ⟨dt, hdts dt hStep, rfl⟩
    refine EveryStep.of_guard AtLimit ?_ hLimit (everyStep_of_forall_mem hUpdates config)
    rintro config _ hConfig ⟨dt, hdt, rfl⟩
    exact hConfig.recordStep undefinedCast hdt

/-- Raise the limit, set the same target, enable, and one update. -/
def cruiseSetup : List (Operation ℚ) :=
  [.write Cia402Index.maxMotorSpeed 0 21474836, .write Cia402Index.targetVelocity 0 21474836,
    .write Cia402Index.profileAcceleration 0 2147483647, .write Cia402Index.controlword 0 0x06,
    .write Cia402Index.controlword 0 0x07, .write Cia402Index.controlword 0 0x0F,
    .update (1 / 100)]

def cruise : DriveSimulator ℚ :=
  run (step (.exact fun _ => 0)) (initial (.exact fun _ => 0)) cruiseSetup

theorem cruise_motion : cruise.motion.Cruising ∧ cruise.motion.velocity = 21474836 ∧
    cruise.motion.position = 21474836 / 100 := by
  have hLimit : cruise.motion.limit = 21474836 := by decide +kernel
  have hVelocity : cruise.motion.velocity = 21474836 := by decide +kernel
  refine ⟨⟨by decide +kernel, by decide +kernel, ?_⟩, hVelocity, by decide +kernel⟩
  rw [hVelocity, hLimit]
  exact le_of_eq (abs_of_nonneg (by decide +kernel))

/-- After a hundred seconds at full speed the position is out of range. -/
theorem cruise_leaves_range :
    ¬∀ ops : List (Operation ℚ), (∀ op ∈ ops, ∀ dt, op = .update dt → dt = 1 / 100) →
      EveryStep (step (.exact fun _ => 0)) (ConvertsInRange (.exact fun _ => 0))
        (initial (.exact fun _ => 0)) ops := by
  intro h
  have hTicks : ∀ op ∈ cruiseSetup ++ List.replicate 10000 (Operation.update (1 / 100)),
      ∀ dt, op = .update dt → dt = 1 / 100 := by
    intro op hMem dt hUpdate
    rcases List.mem_append.mp hMem with hSetup | hTick
    · subst hUpdate
      simpa [cruiseSetup] using hSetup
    · rw [List.eq_of_mem_replicate hTick] at hUpdate
      exact (Operation.update.inj hUpdate).symm
  have hAll := h _ hTicks
  rw [everyStep_append, ← cruise, List.replicate_succ', everyStep_append, everyStep_cons] at hAll
  obtain ⟨-, -, hLast, -⟩ := hAll
  obtain ⟨hCruise, hVelocity, hPosition⟩ := cruise_motion
  have hRoom := (convertsInRange_iff_hasRoom _ _ _).mp hLast (1 / 100) rfl
  rw [motion_run_cruising (fun _ => 0) hCruise, (hCruise.moved _).hasRoom_iff] at hRoom
  obtain ⟨-, hMax⟩ := hRoom
  have hSpeed : (21474836 : OdValue).toInt = 21474836 := by decide
  simp only [Motion.moved, hVelocity, hPosition, hSpeed] at hMax
  norm_num at hMax

end Ca1MotorCtrl
