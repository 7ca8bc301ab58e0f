import Ca1MotorCtrl.Drive.Refinement

/-! What `reset` forgets. Everything but the FSM mode and the pending flag is
set anew, so a client can tell the result from a new object exactly if a
Controlword was pending. -/
namespace Ca1MotorCtrl

open Transition

variable {R : Type} (A : DoubleArith R)

namespace DriveSimulator

/-- What a client sees of one operation: the reply and the state after it. -/
def observe (s : DriveSimulator R) (op : Operation R) : Reply × DriveState :=
  (s.reply op, (s.step A op).state)

end DriveSimulator

namespace Drive

theorem reset_toSimulator (d : Drive R) :
    (d.toSimulator A).reset A = (powerOn A d.mode).toSimulator A :=
  reset_eq_powerOn A _ d.mode rfl rfl

theorem setFsmDeferred_initial (deferred : Bool) :
    (DriveSimulator.initial A).setFsmDeferred deferred =
      (powerOn A (.ofDeferred deferred)).toSimulator A := by
  rw [initial_eq_powerOn]
  cases deferred <;> rfl

/-- A pending word survives `reset` and is applied by the next tick: its value
is 0 then, which takes the drive out of a fault. -/
theorem observe_fault_after_reset (pending : Bool) :
    (trace (DriveSimulator.step A) (DriveSimulator.observe A)
      ((powerOn A (.deferred pending)).toSimulator A) [.injectFault, .updateFsm]).map Prod.snd =
        [.fault, if pending then .switchOnDisabled else .fault] := by
  simp only [trace, DriveSimulator.observe, step_toSimulator, List.map_cons, List.map_nil]
  cases pending with
  | false => rfl
  | true =>
      have hTick : (step A (step A (powerOn A (.deferred true)) .injectFault) .updateFsm).power =
          PowerState.fault.apply (risingEdge 0 (lowWord 0)) (lowWord 0) := by
        simp only [step, updateFsm, raiseFault, powerOn, applyWord]
      have hLeave : PowerState.fault.apply (risingEdge 0 (lowWord 0)) (lowWord 0) =
          .switchOnDisabled := by decide
      rw [toSimulator, toSimulator, hTick, hLeave]
      rfl

end Drive

open DriveSimulator

/-- Every later sequence of operations runs after `reset` as on a new object in
the same FSM mode exactly if no Controlword was pending. -/
theorem reset_indistinguishable_iff {s : DriveSimulator R} (hReach : s.Reachable A) :
    (∀ ops, trace (step A) (observe A) (s.reset A) ops =
      trace (step A) (observe A) ((initial A).setFsmDeferred s.deferredFsm) ops) ↔
    s.cwPending = false := by
  obtain ⟨d, rfl⟩ := Drive.exists_of_reachable A hReach
  rw [d.reset_toSimulator A, Drive.setFsmDeferred_initial]
  have hPending : (d.toSimulator A).cwPending = d.mode.isPending := rfl
  have hDeferred : (d.toSimulator A).deferredFsm = d.mode.isDeferred := rfl
  rw [hPending, hDeferred]
  rcases d.mode with _ | pending
  · exact ⟨fun _ => rfl, fun _ _ => rfl⟩
  · cases pending with
    | false => exact ⟨fun _ => rfl, fun _ _ => rfl⟩
    | true =>
        refine ⟨fun h => ?_, nofun⟩
        have hStates := congrArg (List.map Prod.snd) (h [.injectFault, .updateFsm])
        have hFresh := Drive.observe_fault_after_reset A false
        rw [Drive.observe_fault_after_reset] at hStates
        exact absurd (hStates.trans hFresh) (by simp)

/-- A simulator that has been in use, with nothing pending, faults once more. -/
theorem reset_indistinguishable_after_fault :
    trace (step (.exact fun _ => 0)) (observe (.exact fun _ => 0))
        ((initial (.exact fun _ => 0)).injectFault.reset (.exact fun _ => 0))
        [.read Cia402Index.errorCode 0, .injectFault, .updateFsm] =
      trace (step (.exact fun _ => 0)) (observe (.exact fun _ => 0))
        ((initial (.exact fun _ => 0)).setFsmDeferred false)
        [.read Cia402Index.errorCode 0, .injectFault, .updateFsm] :=
  (reset_indistinguishable_iff (.exact fun _ => 0) ⟨[.injectFault], rfl⟩).mpr rfl _

/-- A Controlword left pending at the reset releases a later fault. -/
theorem reset_distinguishable_of_pending :
    ¬∀ (s : DriveSimulator ℚ), s.Reachable (.exact fun _ => 0) → ∀ ops,
      trace (step (.exact fun _ => 0)) (observe (.exact fun _ => 0))
          (s.reset (.exact fun _ => 0)) ops =
        trace (step (.exact fun _ => 0)) (observe (.exact fun _ => 0))
          ((initial (.exact fun _ => 0)).setFsmDeferred s.deferredFsm) ops := by
  intro h
  have hTrace := h _ ⟨[.setFsmDeferred true, .write Cia402Index.controlword 0 6], rfl⟩
    [.injectFault, .updateFsm]
  exact absurd (congrArg (List.map Prod.snd) hTrace) (by decide +kernel)

end Ca1MotorCtrl
