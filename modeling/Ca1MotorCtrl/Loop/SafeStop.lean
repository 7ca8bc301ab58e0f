import Ca1MotorCtrl.Loop.Revocation
import Ca1MotorCtrl.Loop.Velocity
import Ca1MotorCtrl.Simulator.Rest
import Ca1MotorCtrl.Simulator.Travel
import Ca1MotorCtrl.Transition.Ranking

/-! The stopped drive. Once a drive is not energised and no word that could energise it
is on the way, a controller without permission leaves it so, through faults and their
recovery. The position stands and the velocity decays to at most five. -/
namespace Ca1MotorCtrl

open Transition

/-- A word that leads neither to Operation Enabled nor to Quick Stop Active. -/
def Harmless (cw : UInt16) : Prop :=
  Command.ofWord cw ≠ .enableOperation ∧ Command.ofWord cw ≠ .quickStop

/-- A state in which the motor is off and from which the controller keeps it off. -/
def PowerState.Off (power : PowerState) : Prop :=
  power ≠ .operationEnabled ∧ power ≠ .quickStopActive

theorem PowerState.off_apply {power : PowerState} (h : power.Off) (edge : Bool) {cw : UInt16}
    (hWord : Harmless cw) : (power.apply edge cw).Off := by
  obtain ⟨hOn, hQuickStop⟩ := h
  obtain ⟨hEnable, hStop⟩ := hWord
  cases power <;> cases edge <;> cases hCommand : Command.ofWord cw <;>
    simp_all [PowerState.apply, PowerState.next, PowerState.Off]

/-- Without permission the controller writes harmless words, except in Quick Stop Active. -/
theorem PowerState.harmless_of_mem_batch {power : PowerState} (h : power.Off) {cw : UInt16}
    (hMem : some cw ∈ DriveController.batch false power.toDriveState) : Harmless cw := by
  have hAnswer := PowerState.answer_of_mem_batch hMem
  constructor <;> intro hCommand <;> rw [hCommand] at hAnswer <;>
    cases power <;> simp_all [PowerState.answer, PowerState.Off]

namespace LoopView

/-- Nothing energises the motor, now or later. -/
structure Stopped (v : LoopView) : Prop where
  enabled : v.enabled = false
  power : v.core.power.Off
  upcoming : ∀ cw, some cw ∈ v.upcoming → Harmless cw
  pending : ∀ cw, v.pending = some cw → Harmless cw

theorem Stopped.off_step {v : LoopView} (h : v.Stopped) (action : LoopAction) :
    (v.step action).core.power.Off := by
  obtain ⟨core, pending, enabled, poll⟩ := v
  cases action with
  | decide | write => cases poll <;> exact h.power
  | tick =>
      cases pending with
      | none => exact h.power
      | some cw => exact PowerState.off_apply h.power _ (h.pending cw rfl)
  | raise code => exact ⟨by simp [step, PowerCore.act], by simp [step, PowerCore.act]⟩
  | _ => exact h.power

theorem Stopped.step {v : LoopView} (h : v.Stopped) {action : LoopAction}
    (hEnable : action ≠ .enable true) : (v.step action).Stopped := by
  have hKeep := enable_eq_of_disabled h.enabled hEnable
  refine ⟨(v.enabled_step action hKeep).trans h.enabled, h.off_step action, fun cw hMem => ?_,
    fun cw hPending => ?_⟩
  · by_cases hAction : action = .read
    · subst hAction
      refine PowerState.harmless_of_mem_batch h.power ?_
      rw [← h.enabled]
      exact hMem
    · exact h.upcoming cw ((v.upcoming_step_sublist action hAction hKeep).subset hMem)
  · rcases v.pending_step action with ⟨-, hNone⟩ | hSame | ⟨word, hMem, hWord⟩
    · rw [hNone] at hPending
      cases hPending
    · exact h.pending cw (hSame ▸ hPending)
    · obtain rfl : word = cw := Option.some.inj (hWord.symm.trans hPending)
      exact h.upcoming word hMem

end LoopView

/-- The decay loses at least one unit with every update down to five. -/
theorem abs_decay_le (v : ℤ) : |decay v| ≤ max 5 (|v| - 1) := by
  have hBound : |decay v| ≤ |v| := by
    refine abs_roundHalfAway_le ?_
    rw [abs_mul]
    push_cast
    have hAbs := abs_nonneg (v : ℚ)
    norm_num
    linarith
  have hLower := abs_decay_lt_iff v
  omega

theorem abs_iterate_decay_le (v : ℤ) (n : ℕ) : |decay^[n] v| ≤ max 5 (|v| - n) := by
  induction n with
  | zero => simp
  | succ n ih =>
      rw [Function.iterate_succ_apply']
      have hNext := abs_decay_le (decay^[n] v)
      omega

theorem sign_iterate_decay (v : ℤ) (n : ℕ) : (decay^[n] v).sign = v.sign := by
  induction n with
  | zero => rfl
  | succ n ih => rw [Function.iterate_succ_apply', sign_decay, ih]

def LoopEvent.isUpdate {R : Type} : LoopEvent R → Bool
  | .updateTimer _ => true
  | _ => false

namespace Drive

theorem stopped_loopStep {R : Type} (A : DoubleArith R) (d : Drive R) (node : DriveControllerNode)
    {event : LoopEvent R} (hDeferred : d.mode.isDeferred = true)
    (h : (view (d, node)).Stopped) (hEvent : event ≠ .setEnable true) :
    (view (loopStep A (d, node) event)).Stopped := by
  rw [(view_loopStep A (d, node) event hDeferred).1]
  refine h.step ?_
  cases event with
  | fsmThread => exact LoopView.not_enable_of_polls (d.polls_fsmThread A node) true
  | setEnable data =>
      cases data with
      | true => exact absurd rfl hEvent
      | false => simp [action]
  | updateTimer dt =>
      rcases d.effect_update A dt with hEffect | hEffect <;> simp [action, hEffect]
  | _ => simp [action]

/-- Outside Operation Enabled nothing in the loop but an update changes the velocity,
which then decays, and nothing changes the position. -/
theorem motion_loopStep_of_off (undefinedCast : ℚ → OdValue) (d : Drive ℚ)
    (node : DriveControllerNode) (hOff : d.power ≠ .operationEnabled) (event : LoopEvent ℚ) :
    let next := (loopStep (.exact undefinedCast) (d, node) event).1
    next.position = d.position ∧
      next.velocityActual.toInt =
        if event.isUpdate then decay d.velocityActual.toInt else d.velocityActual.toInt := by
  have hStill {op : Operation ℚ} (hUpdate : ∀ dt, op ≠ .update dt) (hReset : op ≠ .reset) :
      (d.step (.exact undefinedCast) op).position = d.position ∧
        (d.step (.exact undefinedCast) op).velocityActual.toInt = d.velocityActual.toInt := by
    obtain ⟨hVelocity, hPosition⟩ := d.step_still (.exact undefinedCast) hUpdate hReset
    exact ⟨hPosition, congrArg Int32.toInt hVelocity⟩
  intro next
  cases event with
  | fsmThread =>
      have hNext : next = _ := loopStep_fsmThread_fst (.exact undefinedCast) d node
      rw [hNext]
      split
      next cmd rest hPhase => exact hStill (fun dt h => by cases h) (fun h => by cases h)
      next => exact ⟨rfl, rfl⟩
  | cmdVelocity data | setEnable data => exact ⟨rfl, rfl⟩
  | updateTimer dt =>
      set m := (d.toSimulator (.exact undefinedCast)).motion with hm
      have hStart := hm.trans (d.motion_toSimulator (.exact undefinedCast))
      have hDisabled : m.enabled = false := by
        rw [hStart]
        exact beq_false_of_ne hOff
      have hMotion := (next.motion_toSimulator (.exact undefinedCast)).symm.trans
        (d.motion_step_update undefinedCast dt)
      have hPosition := m.position_of_still undefinedCast dt fun h => by simp [hDisabled] at h
      have hVelocity := m.toInt_velocity_eq_decay undefinedCast dt hDisabled
      rw [← hMotion, hStart] at hPosition hVelocity
      exact ⟨hPosition, hVelocity⟩
  | _ => exact hStill (fun dt h => by cases h) (fun h => by cases h)

/-- A stopped drive at a position, with a velocity that has decayed `n` times. -/
def StoppedAt (undefinedCast : ℚ → OdValue) (position : ℚ) (velocity : ℤ) (n : ℕ)
    (config : DriveSimulator ℚ × DriveControllerNode) : Prop :=
  ∃ d : Drive ℚ, config.1 = d.toSimulator (.exact undefinedCast) ∧ d.mode.isDeferred = true ∧
    (view (d, config.2)).Stopped ∧ d.position = position ∧
    d.velocityActual.toInt = decay^[n] velocity

theorem stoppedAt_loopStep {undefinedCast : ℚ → OdValue} {position : ℚ} {velocity : ℤ} {n : ℕ}
    {config : DriveSimulator ℚ × DriveControllerNode} {event : LoopEvent ℚ}
    (h : StoppedAt undefinedCast position velocity n config) (hEvent : event ≠ .setEnable true) :
    StoppedAt undefinedCast position velocity (n + if event.isUpdate then 1 else 0)
      (DriveSimulator.loopStep (.exact undefinedCast) config event) := by
  obtain ⟨_, node⟩ := config
  obtain ⟨d, rfl, hDeferred, hStopped, hPosition, hVelocity⟩ := h
  obtain ⟨hKeep, hDecay⟩ := d.motion_loopStep_of_off undefinedCast node hStopped.power.1 event
  rw [loopStep_toSimulator]
  refine ⟨_, rfl, (view_loopStep (.exact undefinedCast) (d, node) event hDeferred).2,
    d.stopped_loopStep (.exact undefinedCast) node hDeferred hStopped hEvent,
    hKeep.trans hPosition, ?_⟩
  rw [hDecay, hVelocity]
  cases event.isUpdate with
  | true => exact (Function.iterate_succ_apply' decay n velocity).symm
  | false => rfl

/-- With every update the speed loses at least one unit down to five. -/
theorem StoppedAt.velocity_loopStep {undefinedCast : ℚ → OdValue} {position : ℚ} {velocity : ℤ}
    {n : ℕ} {config : DriveSimulator ℚ × DriveControllerNode}
    (h : StoppedAt undefinedCast position velocity n config) (event : LoopEvent ℚ) :
    let before := (config.1.entry Cia402Index.velocityActual).toInt
    let next := (DriveSimulator.loopStep (.exact undefinedCast) config event).1
    let after := (next.entry Cia402Index.velocityActual).toInt
    (event.isUpdate = true → |after| ≤ max 5 (|before| - 1)) ∧
      (event.isUpdate = false → after = before) := by
  obtain ⟨_, node⟩ := config
  obtain ⟨d, rfl, -, hStopped, -, -⟩ := h
  intro before next after
  obtain ⟨-, hDecay⟩ := d.motion_loopStep_of_off undefinedCast node hStopped.power.1 event
  have hBefore : before = d.velocityActual.toInt :=
    congrArg Int32.toInt (d.entry_toSimulator (.exact undefinedCast) .velocityActual)
  have hAfter : after =
      (loopStep (.exact undefinedCast) (d, node) event).1.velocityActual.toInt := by
    simp only [after, next, loopStep_toSimulator]
    exact congrArg Int32.toInt (entry_toSimulator (.exact undefinedCast) _ .velocityActual)
  rw [hAfter, hBefore, hDecay]
  constructor
  · intro hUpdate
    rw [if_pos hUpdate]
    exact abs_decay_le _
  · intro hOther
    rw [if_neg (Bool.eq_false_iff.mp hOther)]

theorem stopped_of_pending (d : Drive ℚ) {A : DoubleArith ℚ} {node : DriveControllerNode}
    (hOff : d.power.Off) (hDisabled : node.controller.enabled = false)
    (hPhase : node.phase.writesDone = true)
    (hPending : (d.toSimulator A).cwPending = true → ∀ v,
      (d.toSimulator A).read Cia402Index.controlword 0 = .ok v → Harmless (lowWord v)) :
    (view (d, node)).Stopped := by
  have hIdle : (view (d, node)).poll = .idle := (Phase.view_eq_idle_iff _).mpr hPhase
  refine ⟨hDisabled, hOff, fun cw hMem => ?_, fun cw hWord => ?_⟩
  · exact absurd ⟨cw, hMem⟩ (LoopView.not_willWrite_of_idle hIdle)
  · have hMode : d.mode = .deferred true ∧ lowWord d.controlword = cw := by
      simpa [view, pendingWord] using hWord
    rw [← hMode.2]
    refine hPending ?_ _ (d.read_toSimulator A .controlword)
    simp [toSimulator, hMode.1, FsmMode.isPending]

end Drive

/-- A deferred drive that is not energised, with no harmful word pending, under a
controller without permission: in every run in which the permission stays revoked it never
enters Operation Enabled. Its position stands. Its velocity keeps its sign, loses at least
one unit with each update until it is at most five, and changes with no other event. -/
theorem stopped_loop_stays_stopped (undefinedCast : ℚ → OdValue) {s : DriveSimulator ℚ}
    (hReach : s.Reachable (.exact undefinedCast)) (hDeferred : s.deferredFsm = true)
    (hOff : s.state ≠ .operationEnabled ∧ s.state ≠ .quickStopActive)
    (hPending : s.cwPending = true → ∀ v, s.read Cia402Index.controlword 0 = .ok v →
      Harmless (lowWord v))
    {node : DriveControllerNode} (hDisabled : node.controller.enabled = false)
    (hPhase : node.phase.writesDone = true) {events : List (LoopEvent ℚ)}
    (hEvents : ∀ event ∈ events, event ≠ .setEnable true) :
    let velocity (s : DriveSimulator ℚ) : ℤ := (s.entry Cia402Index.velocityActual).toInt
    let last := (run (DriveSimulator.loopStep (.exact undefinedCast)) (s, node) events).1
    last.state ≠ .operationEnabled ∧
      last.entry Cia402Index.positionActual = s.entry Cia402Index.positionActual ∧
      (velocity last).sign = (velocity s).sign ∧
      |velocity last| ≤ max 5 (|velocity s| - events.countP LoopEvent.isUpdate) ∧
      EveryStep (DriveSimulator.loopStep (.exact undefinedCast))
        (fun config event =>
          let next := (DriveSimulator.loopStep (.exact undefinedCast) config event).1
          (event.isUpdate = true → |velocity next| ≤ max 5 (|velocity config.1| - 1)) ∧
            (event.isUpdate = false → velocity next = velocity config.1))
        (s, node) events := by
  obtain ⟨d, rfl⟩ := Drive.exists_of_reachable _ hReach
  intro velocity last
  have hState (d : Drive ℚ) (power : PowerState) :=
    d.state_toSimulator_eq_iff (.exact undefinedCast) power
  have hEntry (d : Drive ℚ) (o : Object) := d.entry_toSimulator (.exact undefinedCast) o
  have hPower : d.power.Off :=
    ⟨fun h => hOff.1 ((hState d _).mpr h), fun h => hOff.2 ((hState d _).mpr h)⟩
  have hStart : Drive.StoppedAt undefinedCast d.position d.velocityActual.toInt 0
      (d.toSimulator (.exact undefinedCast), node) :=
    ⟨d, rfl, hDeferred, d.stopped_of_pending hPower hDisabled hPhase hPending, rfl, rfl⟩
  obtain ⟨d', hLast, -, hStopped, hPosition, hVelocity⟩ :=
    run_countP _ LoopEvent.isUpdate (fun _ _ _ => Drive.stoppedAt_loopStep) hStart
      (everyStep_of_forall_mem hEvents _)
  rw [Nat.zero_add] at hVelocity
  have hFirst : velocity (d.toSimulator (.exact undefinedCast)) = d.velocityActual.toInt :=
    congrArg Int32.toInt (hEntry d .velocityActual)
  have hDecayed : velocity last = decay^[events.countP LoopEvent.isUpdate]
      d.velocityActual.toInt := by
    rw [← hVelocity]
    exact (congrArg velocity hLast).trans (congrArg Int32.toInt (hEntry d' .velocityActual))
  have hStand : last.entry Cia402Index.positionActual =
      (d'.toSimulator (.exact undefinedCast)).entry Cia402Index.positionActual :=
    congrArg (fun s : DriveSimulator ℚ => s.entry Cia402Index.positionActual) hLast
  refine ⟨fun hOn => hStopped.power.1 ((hState d' _).mp (hLast ▸ hOn)), ?_, ?_, ?_, ?_⟩
  · rw [hStand]
    refine (hEntry d' .positionActual).trans ?_
    refine Eq.trans ?_ (hEntry d .positionActual).symm
    simp only [Drive.value, hPosition]
  · rw [hDecayed, hFirst, sign_iterate_decay]
  · rw [hDecayed, hFirst]
    exact abs_iterate_decay_le _ _
  · let Inv (config : DriveSimulator ℚ × DriveControllerNode) : Prop :=
      ∃ n, Drive.StoppedAt undefinedCast d.position d.velocityActual.toInt n config
    refine EveryStep.of_guard Inv ?_ ⟨0, hStart⟩ (everyStep_of_forall_mem hEvents _)
    intro config event hInv hEvent
    obtain ⟨n, hAt⟩ := hInv
    exact ⟨hAt.velocity_loopStep event, _, Drive.stoppedAt_loopStep hAt hEvent⟩

/-- The motor was disabled at 5 RPM and faults while it coasts. The controller resets the
fault, and the motor stays off. -/
theorem stopped_loop_stays_stopped_coasting :
    let A : DoubleArith ℚ := .exact fun _ => 0
    let events : List (LoopEvent ℚ) :=
      [.updateTimer (1 / 10), .injectFault] ++ List.replicate 9 .fsmThread ++ [.fsmTimer]
    (run (DriveSimulator.loopStep A)
      (coasting.setFsmDeferred true, { controller := { enabled := false } }) events).1.state ≠
        .operationEnabled := by
  intro A events
  have hCoasting : coasting.Reachable A := ⟨_, rfl⟩
  have hReach : (coasting.setFsmDeferred true).Reachable A :=
    hCoasting.step_event (.setFsmDeferred true)
  have hEvents (event : LoopEvent ℚ) (hMem : event ∈ events) : event ≠ .setEnable true := by
    rintro rfl
    simp [events] at hMem
  have hPending : (coasting.setFsmDeferred true).cwPending = false := by decide +kernel
  exact (stopped_loop_stays_stopped (fun _ => 0) hReach rfl (by decide +kernel)
    (fun h => absurd (hPending.symm.trans h) (by decide)) rfl rfl hEvents).1

end Ca1MotorCtrl
