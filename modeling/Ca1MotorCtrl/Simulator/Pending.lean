import Ca1MotorCtrl.Simulator.Motion

/-! The Controlword that a client reads back. It is the edge reference, unless
it still waits for a tick or a mode switch has dropped it while it waited. -/
namespace Ca1MotorCtrl

open Transition

namespace DriveSimulator
variable {R : Type}

/-- Whether `set_fsm_deferred` has dropped a pending word since CONTROLWORD was
last written or reset. -/
def recordDropped (dropped : Bool) (s : DriveSimulator R) : Operation R → Bool
  | .write index subindex _ =>
      if index = Cia402Index.controlword ∧ subindex = 0 then false else dropped
  | .setFsmDeferred _ => dropped || s.cwPending
  | .reset => false
  | _ => dropped

/-- The word in the dictionary has been applied, is waiting or was dropped. -/
def Accounted (config : DriveSimulator R × Bool) : Prop :=
  config.1.cwPending = true ∨ config.2 = true ∨
    config.1.prevControlword = lowWord (config.1.entry Cia402Index.controlword)

end DriveSimulator

namespace Drive
variable {R : Type} (A : DoubleArith R) {d : Drive R} {dropped : Bool}

/-- The same of the represented drive. -/
def Accounted (d : Drive R) (dropped : Bool) : Prop :=
  d.mode = .deferred true ∨ dropped = true ∨ d.prevControlword = lowWord d.controlword

theorem Accounted.of_eq {next : Drive R} (h : d.Accounted dropped) (hMode : next.mode = d.mode)
    (hWord : next.controlword = d.controlword)
    (hPrev : next.prevControlword = d.prevControlword) : next.Accounted dropped := by
  rw [Accounted, hMode, hWord, hPrev]
  exact h

/-- A written word is applied or waits. -/
theorem accounted_store_controlword (v : OdValue) :
    (d.store .controlword v).Accounted dropped := by
  cases hMode : d.mode with
  | immediate =>
      rw [store_controlword_of_immediate hMode]
      exact Or.inr (Or.inr rfl)
  | deferred pending =>
      rw [store_controlword_of_deferred hMode]
      exact Or.inl rfl

theorem Accounted.step (h : d.Accounted dropped) (op : Operation R) :
    (d.step A op).Accounted (DriveSimulator.recordDropped dropped (d.toSimulator A) op) := by
  cases op with
  | write index subindex v =>
      simp only [Drive.step, DriveSimulator.recordDropped]
      cases hObject : Object.ofKey? (makeKey index subindex) with
      | none =>
          have hOther : ¬(index = Cia402Index.controlword ∧ subindex = 0) := by
            rintro ⟨rfl, rfl⟩
            cases hObject
          rw [if_neg hOther]
          exact h
      | some o =>
          obtain ⟨rfl, rfl⟩ := (ofKey?_makeKey_eq_some_iff index subindex o).mp hObject
          cases o with
          | controlword => exact accounted_store_controlword v
          | _ => exact h.of_eq rfl rfl rfl
  | update dt =>
      have hFrame := d.update_frame A dt
      exact h.of_eq hFrame.1 hFrame.2 (d.update_prevControlword A dt)
  | updateFsm =>
      by_cases hMode : d.mode = .deferred true
      · simp only [Drive.step, updateFsm_of_pending hMode]
        exact Or.inr (Or.inr rfl)
      · simp only [Drive.step, updateFsm_of_idle hMode]
        exact h
  | setFsmDeferred deferred =>
      rcases h with hPending | hDropped | hApplied
      · have hRecord := (d.cwPending_toSimulator A).mpr hPending
        refine Or.inr (Or.inl ?_)
        rw [DriveSimulator.recordDropped, hRecord, Bool.or_true]
      · refine Or.inr (Or.inl ?_)
        rw [DriveSimulator.recordDropped, hDropped, Bool.true_or]
      · exact Or.inr (Or.inr hApplied)
  | reset => exact Or.inr (Or.inr rfl)
  | _ => exact h.of_eq rfl rfl rfl

end Drive

open DriveSimulator

/-- In every reachable state the word that a client reads back has been applied,
is waiting, or was dropped by `set_fsm_deferred` while it was waiting. -/
theorem controlword_accounted {R : Type} (A : DoubleArith R) (ops : List (Operation R)) :
    Accounted (run (recordStep (step A) recordDropped) (initial A, false) ops) := by
  have hRun : ∃ d : Drive R,
      (run (recordStep (step A) recordDropped) (initial A, false) ops).1 = d.toSimulator A ∧
      d.Accounted (run (recordStep (step A) recordDropped) (initial A, false) ops).2 := by
    refine run_invariant (fun config : DriveSimulator R × Bool =>
      ∃ d : Drive R, config.1 = d.toSimulator A ∧ d.Accounted config.2) ?_ ?_ ops
    · rintro ⟨s, dropped⟩ op ⟨d, rfl, hAccounted⟩
      exact ⟨d.step A op, d.step_toSimulator A op, hAccounted.step A op⟩
    · exact ⟨_, Drive.initial_eq_powerOn A, Or.inr (Or.inr rfl)⟩
  obtain ⟨d, hDrive, hAccounted⟩ := hRun
  have hEntry : (d.toSimulator A).entry Cia402Index.controlword = d.controlword :=
    d.entry_toSimulator A .controlword
  rw [Accounted, hDrive, d.cwPending_toSimulator A, hEntry]
  exact hAccounted

/-- A mode switch drops a Shutdown that was accepted before. -/
theorem setFsmDeferred_drops_controlword :
    ¬∀ ops : List (Operation ℚ),
      let s := run (step (.exact fun _ => 0)) (initial (.exact fun _ => 0)) ops
      s.cwPending = false → s.prevControlword = lowWord (s.entry Cia402Index.controlword) := by
  intro h
  have hDropped := h [.setFsmDeferred true, .write Cia402Index.controlword 0 6,
    .setFsmDeferred true] rfl
  exact absurd hDropped (by decide +kernel)

end Ca1MotorCtrl
