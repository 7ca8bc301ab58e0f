import Ca1MotorCtrl.Simulator.ExactMotion
import Mathlib.Algebra.Order.Group.MinMax

/-! Forward and reverse rotation. An update selects the rate by comparing the
velocity with the target, so in reverse the deceleration speeds the motor up
and the acceleration slows it down: the update of a mirrored simulator is the
mirrored update with the two rates exchanged. -/
namespace Ca1MotorCtrl

open Transition

namespace Motion

/-- The same settings with the rates exchanged. -/
def swapped {R : Type} (m : Motion R) : Motion R :=
  { m with acceleration := m.deceleration, deceleration := m.acceleration }

/-- Equal but for the direction of velocity, target and position. -/
structure MirrorImage (m m' : Motion ℚ) : Prop where
  enabled : m'.enabled = m.enabled
  velocity : m'.velocity.toInt = -m.velocity.toInt
  target : m'.target.toInt = -m.target.toInt
  acceleration : m'.acceleration = m.acceleration
  deceleration : m'.deceleration = m.deceleration
  limit : m'.limit = m.limit
  position : m'.position = -m.position

variable (undefinedCast : ℚ → OdValue) {m m' : Motion ℚ} (dt : ℚ)

/-- In the mirror the ramp uses the other rate. -/
theorem MirrorImage.ramped (h : MirrorImage m m') :
    m'.ramped (.exact undefinedCast) dt = -m.swapped.ramped (.exact undefinedCast) dt := by
  have hVelocity := h.velocity
  have hTarget := h.target
  rcases lt_trichotomy m.velocity.toInt m.target.toInt with hUp | hEq | hDown
  · have hRamp : m.swapped.ramped (.exact undefinedCast) dt =
        min (m.velocity.toInt + m.deceleration.toInt * dt) (m.target.toInt : ℚ) :=
      m.swapped.ramped_of_lt undefinedCast dt hUp
    rw [hRamp, m'.ramped_of_gt undefinedCast dt (by omega), hVelocity, hTarget, h.deceleration,
      ← max_neg_neg]
    push_cast
    rw [neg_add, sub_eq_add_neg]
  · rw [m'.ramped_of_eq undefinedCast dt (by omega), m.swapped.ramped_of_eq undefinedCast dt hEq,
      hVelocity, Int.cast_neg]
    rfl
  · have hRamp : m.swapped.ramped (.exact undefinedCast) dt =
        max (m.velocity.toInt - m.acceleration.toInt * dt) (m.target.toInt : ℚ) :=
      m.swapped.ramped_of_gt undefinedCast dt hDown
    rw [hRamp, m'.ramped_of_lt undefinedCast dt (by omega), hVelocity, hTarget, h.acceleration,
      ← min_neg_neg]
    push_cast
    rw [neg_sub, neg_add_eq_sub]

/-- Two clamped increments agree if they are equal or both reach the clamp. -/
theorem min_add_eq_min_add_iff (v target k k' : ℚ) :
    min (v + k') target = min (v + k) target ↔ k' = k ∨ target - v ≤ k ∧ target - v ≤ k' := by
  constructor
  · intro h
    by_cases hClamp : target - v ≤ k
    · rw [min_eq_right (by linarith : target ≤ v + k), min_eq_right_iff] at h
      exact Or.inr ⟨hClamp, by linarith⟩
    · rw [min_eq_left (by linarith : v + k ≤ target)] at h
      rcases min_choice (v + k') target with hMin | hMin
      · exact Or.inl (by linarith)
      · exact absurd (hMin.symm.trans h) (by intro hEq; linarith)
  · intro h
    rcases h with rfl | ⟨hk, hk'⟩
    · rfl
    · rw [min_eq_right (by linarith), min_eq_right (by linarith)]

/-- When the exchange of the rates does not show. -/
theorem ramped_swapped_eq_iff (hdt : 0 < dt) :
    m.swapped.ramped (.exact undefinedCast) dt = m.ramped (.exact undefinedCast) dt ↔
      m.velocity = m.target ∨ m.acceleration = m.deceleration ∨
        |(m.target.toInt - m.velocity.toInt : ℚ)| ≤ m.acceleration.toInt * dt ∧
          |(m.target.toInt - m.velocity.toInt : ℚ)| ≤ m.deceleration.toInt * dt := by
  have hRate : (m.deceleration.toInt * dt = m.acceleration.toInt * dt) ↔
      m.acceleration = m.deceleration := by
    rw [mul_left_inj' hdt.ne', Int.cast_inj, Int32.toInt_inj, eq_comm]
  rcases lt_trichotomy m.velocity.toInt m.target.toInt with hUp | hEq | hDown
  · have hSwapped : m.swapped.ramped (.exact undefinedCast) dt =
        min (m.velocity.toInt + m.deceleration.toInt * dt) (m.target.toInt : ℚ) :=
      m.swapped.ramped_of_lt undefinedCast dt hUp
    have hDistance : (0 : ℚ) ≤ m.target.toInt - m.velocity.toInt := by
      have : (m.velocity.toInt : ℚ) < m.target.toInt := by exact_mod_cast hUp
      linarith
    have hNe : m.velocity ≠ m.target := fun h => hUp.ne (congrArg Int32.toInt h)
    rw [hSwapped, m.ramped_of_lt undefinedCast dt hUp, min_add_eq_min_add_iff, hRate,
      abs_of_nonneg hDistance, or_iff_right hNe]
  · rw [m.ramped_of_eq undefinedCast dt hEq, m.swapped.ramped_of_eq undefinedCast dt hEq]
    exact iff_of_true rfl (Or.inl (Int32.toInt_inj.mp hEq))
  · have hSwapped : m.swapped.ramped (.exact undefinedCast) dt =
        max (m.velocity.toInt - m.acceleration.toInt * dt) (m.target.toInt : ℚ) :=
      m.swapped.ramped_of_gt undefinedCast dt hDown
    have hDistance : (m.target.toInt - m.velocity.toInt : ℚ) ≤ 0 := by
      have : (m.target.toInt : ℚ) < m.velocity.toInt := by exact_mod_cast hDown
      linarith
    have hNe : m.velocity ≠ m.target := fun h => hDown.ne' (congrArg Int32.toInt h)
    have hIff := min_add_eq_min_add_iff (-m.velocity.toInt) (-m.target.toInt)
      (m.deceleration.toInt * dt) (m.acceleration.toInt * dt)
    rw [hSwapped, m.ramped_of_gt undefinedCast dt hDown, abs_of_nonpos hDistance, or_iff_right hNe,
      ← neg_inj, ← min_neg_neg, ← min_neg_neg, neg_sub, neg_sub, ← neg_add_eq_sub,
      ← neg_add_eq_sub, hIff, eq_comm, hRate, neg_sub, neg_sub_neg]
    exact or_congr_right And.comm

/-- The steps that look the same in the mirror: the drive is disabled, the
exchange of the rates does not show, or both rates run into the limit. -/
def Symmetric (m : Motion ℚ) (dt : ℚ) : Prop :=
  m.enabled = false ∨
  (m.velocity = m.target ∨ m.acceleration = m.deceleration ∨
    |(m.target.toInt - m.velocity.toInt : ℚ)| ≤ m.acceleration.toInt * dt ∧
      |(m.target.toInt - m.velocity.toInt : ℚ)| ≤ m.deceleration.toInt * dt) ∨
  m.overspeed (.exact undefinedCast) dt = true ∧
    m.swapped.overspeed (.exact undefinedCast) dt = true

theorem MirrorImage.overspeed (h : MirrorImage m m') :
    m'.overspeed (.exact undefinedCast) dt = m.swapped.overspeed (.exact undefinedCast) dt := by
  rw [Bool.eq_iff_iff, ← not_iff_not, Bool.not_eq_true, Bool.not_eq_true, overspeed_eq_false_iff,
    overspeed_eq_false_iff, h.ramped, abs_neg, h.limit]
  rfl

/-- Only a symmetric step keeps the mirror image. -/
theorem MirrorImage.symmetric_of_advance (h : MirrorImage m m') (hdt : 0 < dt)
    (hNext : MirrorImage (m.advance (.exact undefinedCast) dt)
      (m'.advance (.exact undefinedCast) dt)) : m.Symmetric undefinedCast dt := by
  cases hOn : m.enabled with
  | false => exact Or.inl hOn
  | true =>
      have hOn' : m'.enabled = true := h.enabled.trans hOn
      have hSame := hNext.enabled
      rw [enabled_advance, enabled_advance, hOn, hOn', h.overspeed] at hSame
      cases hOver : m.overspeed (.exact undefinedCast) dt with
      | true => exact Or.inr (Or.inr ⟨hOver, by simpa [hOver] using hSame⟩)
      | false =>
          have hOver' : m'.overspeed (.exact undefinedCast) dt = false := by
            rw [h.overspeed]
            simpa [hOver] using hSame
          have hPosition := hNext.position
          rw [m.position_of_enabled undefinedCast dt hOn hOver,
            m'.position_of_enabled undefinedCast dt hOn' hOver', h.position, h.ramped, neg_add,
            add_right_inj, neg_mul, neg_inj, mul_left_inj' hdt.ne'] at hPosition
          exact Or.inr (Or.inl ((ramped_swapped_eq_iff undefinedCast dt hdt).mp hPosition))

end Motion

namespace DriveSimulator

/-- The objects that change sign in the mirror. -/
def mirroredKeys : List OdAddress :=
  [makeKey Cia402Index.velocityActual 0, makeKey Cia402Index.targetVelocity 0,
    makeKey Cia402Index.positionActual 0]

/-- The value of the same object in the mirror. An integer has no mirror image
if its negation does not fit. -/
def MirroredValue (key : OdAddress) (v v' : OdValue) : Prop :=
  if key ∈ mirroredKeys then v'.toInt = -v.toInt else v' = v

/-- Two simulators that are equal but for the direction of rotation. -/
structure MirrorImage (s s' : DriveSimulator ℚ) : Prop where
  state : s'.state = s.state
  prevControlword : s'.prevControlword = s.prevControlword
  deferredFsm : s'.deferredFsm = s.deferredFsm
  cwPending : s'.cwPending = s.cwPending
  position : s'.positionActual = -s.positionActual
  access : ∀ key, (s'.entryAt key).access = (s.entryAt key).access
  value : ∀ key, MirroredValue key (s.entryAt key).value (s'.entryAt key).value

namespace MirrorImage
variable {s s' : DriveSimulator ℚ}

theorem odAt (h : MirrorImage s s') (key : OdAddress) :
    MirrorImage (s.odAt key).2 (s'.odAt key).2 where
  state := h.state
  prevControlword := h.prevControlword
  deferredFsm := h.deferredFsm
  cwPending := h.cwPending
  position := h.position
  access key' := by
    rw [odAt_entryAt, odAt_entryAt]
    exact h.access key'
  value key' := by
    rw [odAt_entryAt, odAt_entryAt]
    exact h.value key'

theorem touch (h : MirrorImage s s') (indices : List UInt16) :
    MirrorImage (s.touch indices) (s'.touch indices) := by
  induction indices generalizing s s' with
  | nil => exact h
  | cons index indices ih => exact ih (h.odAt _)

theorem setValue (h : MirrorImage s s') {key : OdAddress} {v v' : OdValue}
    (hValue : MirroredValue key v v') : MirrorImage (s.setValue key v) (s'.setValue key v') where
  state := h.state
  prevControlword := h.prevControlword
  deferredFsm := h.deferredFsm
  cwPending := h.cwPending
  position := h.position
  access key' := by
    rw [setValue_entryAt, setValue_entryAt]
    split
    · exact h.access key
    · exact h.access key'
  value key' := by
    rw [setValue_entryAt, setValue_entryAt]
    split
    next hKey =>
      rw [hKey]
      exact hValue
    next => exact h.value key'

theorem setState (h : MirrorImage s s') (state : DriveState) :
    MirrorImage (s.setState state) (s'.setState state) := by
  have hState : MirrorImage { s with state := state } { s' with state := state } :=
    { h with state := rfl }
  exact hState.setValue rfl

theorem raiseFault (h : MirrorImage s s') (code : UInt32) :
    MirrorImage (s.raiseFault code) (s'.raiseFault code) := by
  have hCode : MirrorImage (s.setValue (makeKey Cia402Index.errorCode 0) code.toInt32)
      (s'.setValue (makeKey Cia402Index.errorCode 0) code.toInt32) := h.setValue rfl
  exact (hCode.setState _).setState _

theorem place (h : MirrorImage s s') (position : ℚ) :
    MirrorImage { s with positionActual := position } { s' with positionActual := -position } :=
  { h with position := rfl }

theorem motion (h : MirrorImage s s') : Motion.MirrorImage s.motion s'.motion where
  enabled := congrArg (· == DriveState.operationEnabled) h.state
  velocity := h.value (makeKey Cia402Index.velocityActual 0)
  target := h.value (makeKey Cia402Index.targetVelocity 0)
  acceleration := h.value (makeKey Cia402Index.profileAcceleration 0)
  deceleration := h.value (makeKey Cia402Index.profileDeceleration 0)
  limit := h.value (makeKey Cia402Index.maxMotorSpeed 0)
  position := h.position

variable (undefinedCast : ℚ → OdValue)

/-- The mirror images of rounded numbers that fit. -/
theorem toOdValue_round_neg {q : ℚ} (hFits : |roundHalfAway q| < 2 ^ 31) :
    let A := DoubleArith.exact undefinedCast
    (A.toOdValue (A.round (-q))).toInt = -(A.toOdValue (A.round q)).toInt := by
  obtain ⟨hLower, hUpper⟩ := abs_lt.mp hFits
  have hNeg : FitsInt32 (roundHalfAway (-q)) := by
    rw [roundHalfAway_neg]
    exact ⟨by omega, by omega⟩
  intro A
  rw [DoubleArith.exact_toOdValue_round undefinedCast _ hNeg,
    DoubleArith.exact_toOdValue_round undefinedCast _ ⟨hLower.le, hUpper⟩, roundHalfAway_neg]

theorem update_of_disabled (h : MirrorImage s s') (dt : ℚ) (hOff : s.isOperationEnabled = false) :
    MirrorImage (s.update (.exact undefinedCast) dt) (s'.update (.exact undefinedCast) dt) := by
  have hOff' : s'.isOperationEnabled = false := h.motion.enabled.trans hOff
  have hRest : s'.motion.velocity = 0 ↔ s.motion.velocity = 0 := by
    rw [← Int32.toInt_inj, ← Int32.toInt_inj, h.motion.velocity]
    exact neg_eq_zero
  have hDecay : s'.motion.decaying (.exact undefinedCast) =
      -s.motion.decaying (.exact undefinedCast) := by
    show (s'.motion.velocity.toInt : ℚ) * (9 / 10) = -(s.motion.velocity.toInt * (9 / 10))
    rw [h.motion.velocity, Int.cast_neg, neg_mul]
  rw [s.update_of_disabled _ dt hOff, s'.update_of_disabled _ dt hOff', hDecay]
  by_cases hStand : s.motion.velocity = 0
  · rw [if_neg (not_not.mpr hStand), if_neg (not_not.mpr (hRest.mpr hStand))]
    exact h.touch _
  · rw [if_pos hStand, if_pos (mt hRest.mp hStand)]
    have hVelocity : |s.motion.velocity.toInt| < 2 ^ 31 := by
      have hLower := s.motion.velocity.le_toInt
      have hUpper := s.motion.velocity.toInt_lt
      have hMirror := s'.motion.velocity.toInt_lt
      rw [h.motion.velocity] at hMirror
      rw [abs_lt]
      omega
    have hDecayed := abs_roundHalfAway_le (s.motion.abs_decaying_le undefinedCast)
    exact (h.touch _).setValue (toOdValue_round_neg undefinedCast (hDecayed.trans_lt hVelocity))

theorem update_of_enabled (h : MirrorImage s s') {dt : ℚ} (hOn : s.isOperationEnabled = true)
    (hOver : s.motion.overspeed (.exact undefinedCast) dt = false)
    (hRamp : s'.motion.ramped (.exact undefinedCast) dt =
      -s.motion.ramped (.exact undefinedCast) dt)
    (hFits : |roundHalfAway (s.update (.exact undefinedCast) dt).positionActual| < 2 ^ 31) :
    MirrorImage (s.update (.exact undefinedCast) dt) (s'.update (.exact undefinedCast) dt) := by
  have hOn' : s'.isOperationEnabled = true := h.motion.enabled.trans hOn
  have hLimit := (s.motion.overspeed_eq_false_iff undefinedCast dt).mp hOver
  have hOver' : s'.motion.overspeed (.exact undefinedCast) dt = false := by
    rw [Motion.overspeed_eq_false_iff, hRamp, abs_neg, h.motion.limit]
    exact hLimit
  rw [s.update_of_enabled _ dt hOn, hOver] at hFits ⊢
  rw [s'.update_of_enabled _ dt hOn', hOver', hRamp]
  simp only [Bool.false_eq_true, if_false] at hFits ⊢
  set ramp := s.motion.ramped (.exact undefinedCast) dt
  have hVelocity : |roundHalfAway ramp| < 2 ^ 31 :=
    (abs_roundHalfAway_le hLimit).trans_lt s.motion.limit.toInt_lt
  have hPosition : (DoubleArith.exact undefinedCast).add s'.positionActual
        ((DoubleArith.exact undefinedCast).mul (-ramp) dt) =
      -(DoubleArith.exact undefinedCast).add s.positionActual
        ((DoubleArith.exact undefinedCast).mul ramp dt) := by
    show s'.positionActual + -ramp * dt = -(s.positionActual + ramp * dt)
    rw [h.position]
    ring
  rw [hPosition]
  have hValue : MirroredValue (makeKey Cia402Index.velocityActual 0)
      ((DoubleArith.exact undefinedCast).toOdValue ((DoubleArith.exact undefinedCast).round ramp))
      ((DoubleArith.exact undefinedCast).toOdValue
        ((DoubleArith.exact undefinedCast).round (-ramp))) :=
    toOdValue_round_neg undefinedCast hVelocity
  exact (((h.touch rampObjects).setValue hValue).place _).setValue
    (toOdValue_round_neg undefinedCast hFits)

/-- A symmetric update keeps the mirror image, and no other does. -/
theorem update_iff (h : MirrorImage s s') {dt : ℚ} (hdt : 0 < dt)
    (hFits : |roundHalfAway (s.update (.exact undefinedCast) dt).positionActual| < 2 ^ 31) :
    MirrorImage (s.update (.exact undefinedCast) dt) (s'.update (.exact undefinedCast) dt) ↔
      s.motion.Symmetric undefinedCast dt := by
  constructor
  · intro hNext
    have hMotion := hNext.motion
    rw [motion_update, motion_update] at hMotion
    exact h.motion.symmetric_of_advance undefinedCast dt hdt hMotion
  · intro hSymmetric
    cases hOn : s.isOperationEnabled with
    | false => exact h.update_of_disabled undefinedCast dt hOn
    | true =>
        have hEnabled : ¬s.motion.enabled = false := by
          rw [show s.motion.enabled = true from hOn]
          decide
        have hOver' := h.motion.overspeed undefinedCast dt
        cases hOver : s.motion.overspeed (.exact undefinedCast) dt with
        | true =>
            have hSwapped : s.motion.swapped.overspeed (.exact undefinedCast) dt = true := by
              rcases hSymmetric.resolve_left hEnabled with hSame | ⟨-, hSwapped⟩
              · rw [Motion.overspeed, (Motion.ramped_swapped_eq_iff undefinedCast dt hdt).mpr hSame]
                exact hOver
              · exact hSwapped
            rw [hSwapped] at hOver'
            rw [s.update_of_enabled _ dt hOn, if_pos hOver,
              s'.update_of_enabled _ dt (h.motion.enabled.trans hOn), if_pos hOver']
            exact (h.touch _).raiseFault _
        | false =>
            have hSame := (hSymmetric.resolve_left hEnabled).resolve_right
              fun hBoth => absurd hBoth.1 (by simp [hOver])
            have hRamp := (Motion.ramped_swapped_eq_iff undefinedCast dt hdt).mpr hSame
            refine h.update_of_enabled undefinedCast hOn hOver ?_ hFits
            rw [h.motion.ramped, hRamp]

end MirrorImage

end DriveSimulator

open DriveSimulator

/-- Two mirrored simulators stay mirrored throughout a run of updates exactly if
every update of the run is symmetric: the drive is disabled, it has reached its
target, the rates are equal, the step reaches the target with either rate, or
it exceeds the limit with either. -/
theorem stays_mirrored_iff (undefinedCast : ℚ → OdValue) {s s' : DriveSimulator ℚ}
    (hMirror : MirrorImage s s') (dts : List ℚ)
    (hAllowed : EveryStep (update (.exact undefinedCast))
      (fun s dt => 0 < dt ∧
        |roundHalfAway (s.update (.exact undefinedCast) dt).positionActual| < 2 ^ 31) s dts) :
    (∀ before, before <+: dts →
      MirrorImage (run (update (.exact undefinedCast)) s before)
        (run (update (.exact undefinedCast)) s' before)) ↔
    EveryStep (update (.exact undefinedCast))
      (fun s dt => s.motion.Symmetric undefinedCast dt) s dts := by
  have hPair := forall_prefix_iff_of_allowed
    (fun pair : DriveSimulator ℚ × DriveSimulator ℚ => MirrorImage pair.1 pair.2)
    (fun pair dt hStep hMirror => hMirror.update_iff undefinedCast hStep.1 hStep.2) hMirror
    ((everyStep_recordStep (fun s' _ dt => s'.update (.exact undefinedCast) dt) _ (s, s') dts).mpr
      hAllowed)
  refine Iff.trans ?_ (hPair.trans (everyStep_recordStep _
    (fun (s : DriveSimulator ℚ) dt => s.motion.Symmetric undefinedCast dt) _ _))
  apply forall₂_congr
  intro before _
  rw [run_recordStep_of_independent]

/-- An enabled drive at rest whose deceleration is half its acceleration. -/
def standing : DriveSimulator ℚ :=
  run (step (.exact fun _ => 0)) (initial (.exact fun _ => 0))
    [.write Cia402Index.profileDeceleration 0 500, .write Cia402Index.controlword 0 0x06,
      .write Cia402Index.controlword 0 0x07, .write Cia402Index.controlword 0 0x0F]

/-- The same drive with a target. -/
def starting (target : OdValue) : DriveSimulator ℚ :=
  standing.setValue (makeKey Cia402Index.targetVelocity 0) target

/-- A drive at rest in the origin is its own mirror image. -/
theorem mirrorImage_self {s : DriveSimulator ℚ} (hPosition : s.positionActual = 0)
    (hRest : ∀ key ∈ mirroredKeys, (s.entryAt key).value = 0) : MirrorImage s s where
  state := rfl
  prevControlword := rfl
  deferredFsm := rfl
  cwPending := rfl
  position := by rw [hPosition, neg_zero]
  access _ := rfl
  value key := by
    rw [MirroredValue]
    split
    next hKey =>
      rw [hRest key hKey]
      decide
    next => rfl

theorem starting_mirrored : MirrorImage (starting 100) (starting (-100)) := by
  have hRest : ∀ key ∈ mirroredKeys, (standing.entryAt key).value = 0 := by
    simp only [mirroredKeys, List.forall_mem_cons, List.not_mem_nil, false_imp_iff, implies_true,
      and_true]
    decide +kernel
  have hStanding : MirrorImage standing standing := mirrorImage_self (by decide +kernel) hRest
  have hTarget : MirroredValue (makeKey Cia402Index.targetVelocity 0) 100 (-100) := by
    rw [MirroredValue, if_pos (by decide)]
    decide
  exact hStanding.setValue hTarget

theorem starting_stays_mirrored_iff :
    (∀ before, before <+: [(1 / 100 : ℚ)] →
      MirrorImage (run (update (.exact fun _ => 0)) (starting 100) before)
        (run (update (.exact fun _ => 0)) (starting (-100)) before)) ↔
    EveryStep (update (.exact fun _ => 0)) (fun s dt => s.motion.Symmetric (fun _ => 0) dt)
      (starting 100) [1 / 100] :=
  stays_mirrored_iff (fun _ => 0) starting_mirrored [1 / 100]
    ⟨⟨by norm_num, by decide +kernel⟩, trivial⟩

/-- Reverse starts with the deceleration, at half the pace. -/
theorem reverse_starts_slower :
    MirrorImage (starting 100) (starting (-100)) ∧
    ¬MirrorImage ((starting 100).update (.exact fun _ => 0) (1 / 100))
      ((starting (-100)).update (.exact fun _ => 0) (1 / 100)) := by
  refine ⟨starting_mirrored, fun hMirror => ?_⟩
  exact absurd hMirror.motion.velocity (by decide +kernel)

end Ca1MotorCtrl
