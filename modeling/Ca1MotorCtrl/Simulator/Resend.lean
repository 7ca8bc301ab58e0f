import Ca1MotorCtrl.Drive.Refinement

/-! Controlword writes that a cyclic master repeats. In immediate mode a
repetition changes nothing, except where the word is a Shutdown that moves
the drive: Shutdown toggles the two states it leads to. -/
namespace Ca1MotorCtrl

open Transition

variable {R : Type}

namespace DriveSimulator

/-- Writing the value would apply a Shutdown that changes the state, possibly
by way of a fault reset. -/
def ShutdownMoves (s : DriveSimulator R) (v : OdValue) : Prop :=
  lowWord v &&& 0x0F = 0x06 ∧ s.state ≠ .quickStopActive ∧
    (s.state = .fault → lowWord v &&& 0x80 ≠ 0 ∧ s.prevControlword &&& 0x80 = 0)

end DriveSimulator

/-- Each operation followed by its repetitions. -/
def resent (ops : List (Operation R × ℕ)) : List (Operation R) :=
  ops.flatMap fun event => List.replicate (event.2 + 1) event.1

theorem PowerState.apply_apply_eq_iff (state : PowerState) (edge : Bool) (cw : UInt16) :
    (state.apply edge cw).apply false cw = state.apply edge cw ↔
      ¬(Command.ofWord cw = .shutdown ∧ state ≠ .quickStopActive ∧
        (state = .fault → edge = true)) := by
  simp only [apply, Bool.false_and, Bool.false_eq_true, if_false]
  generalize Command.ofWord cw = command
  cases edge <;> cases state <;> cases command <;> decide

namespace Drive
variable (A : DoubleArith R)

theorem shutdownMoves_toSimulator (d : Drive R) (v : OdValue) :
    (d.toSimulator A).ShutdownMoves v ↔
      Command.ofWord (lowWord v) = .shutdown ∧ d.power ≠ .quickStopActive ∧
        (d.power = .fault → risingEdge d.prevControlword (lowWord v) = true) := by
  have hQuickStop : (d.toSimulator A).state = .quickStopActive ↔ d.power = .quickStopActive :=
    d.state_toSimulator_eq_iff A .quickStopActive
  have hFault : (d.toSimulator A).state = .fault ↔ d.power = .fault :=
    d.state_toSimulator_eq_iff A .fault
  rw [DriveSimulator.ShutdownMoves, Ne, hQuickStop, hFault, Command.ofWord_eq_shutdown_iff,
    risingEdge_iff]
  rfl

/-- A second write of the same word only sees the new state. -/
theorem store_store_controlword (d : Drive R) (v : OdValue) (hMode : d.mode = .immediate) :
    (d.store .controlword v).store .controlword v =
      { d.store .controlword v with
        power := (d.store .controlword v).power.apply false (lowWord v) } := by
  simp [store, hMode, applyWord]

theorem step_write_controlword (d : Drive R) (v : OdValue) :
    (d.toSimulator A).step A (.write Cia402Index.controlword 0 v) =
      (d.store .controlword v).toSimulator A := d.step_toSimulator A _

theorem power_store_controlword (d : Drive R) (v : OdValue) (hMode : d.mode = .immediate) :
    (d.store .controlword v).power =
      d.power.apply (risingEdge d.prevControlword (lowWord v)) (lowWord v) := by
  simp [store, hMode, applyWord]

/-- The second write is idle exactly if its power transition is. -/
theorem power_store_store_iff (d : Drive R) (v : OdValue) (hMode : d.mode = .immediate) :
    ((d.store .controlword v).store .controlword v).power = (d.store .controlword v).power ↔
      ¬(d.toSimulator A).ShutdownMoves v := by
  rw [store_store_controlword d v hMode, power_store_controlword d v hMode,
    PowerState.apply_apply_eq_iff, shutdownMoves_toSimulator]

theorem store_store_of_power (d : Drive R) (v : OdValue) (hMode : d.mode = .immediate)
    (hPower : ((d.store .controlword v).store .controlword v).power =
      (d.store .controlword v).power) :
    (d.store .controlword v).store .controlword v = d.store .controlword v := by
  have hApply : (d.store .controlword v).power.apply false (lowWord v) =
      (d.store .controlword v).power :=
    (congrArg power (store_store_controlword d v hMode)).symm.trans hPower
  rw [store_store_controlword d v hMode, hApply]

end Drive

open DriveSimulator

section Repetition
variable (A : DoubleArith R) {s : DriveSimulator R}

/-- The first repetition changes the state exactly if the word is a Shutdown
that moves the drive. -/
theorem state_repeat_controlword_iff (hReach : s.Reachable A) (hImmediate : s.deferredFsm = false)
    (v : OdValue) :
    ((s.step A (.write Cia402Index.controlword 0 v)).step A
        (.write Cia402Index.controlword 0 v)).state =
      (s.step A (.write Cia402Index.controlword 0 v)).state ↔ ¬s.ShutdownMoves v := by
  obtain ⟨d, rfl⟩ := Drive.exists_of_reachable A hReach
  have hMode := d.mode_of_deferredFsm A hImmediate
  rw [d.step_write_controlword A, (d.store _ v).step_write_controlword A,
    ← d.power_store_store_iff A v hMode]
  exact PowerState.toDriveState_inj

/-- A repetition that keeps the state keeps everything. -/
theorem repeat_controlword (hReach : s.Reachable A) (hImmediate : s.deferredFsm = false)
    (v : OdValue) (hStay : ¬s.ShutdownMoves v) (n : ℕ) :
    run (step A) (s.step A (.write Cia402Index.controlword 0 v))
        (List.replicate n (.write Cia402Index.controlword 0 v)) =
      s.step A (.write Cia402Index.controlword 0 v) := by
  refine run_replicate_of_step_eq (step A) ?_ n
  obtain ⟨d, rfl⟩ := Drive.exists_of_reachable A hReach
  have hMode := d.mode_of_deferredFsm A hImmediate
  rw [d.step_write_controlword A, (d.store _ v).step_write_controlword A,
    d.store_store_of_power v hMode ((d.power_store_store_iff A v hMode).mpr hStay)]

/-- An event of the repeated sequence is run in immediate mode, and what it
repeats is a Controlword write that is no moving Shutdown. -/
def RepeatsHarmlessly (s : DriveSimulator R) (event : Operation R × ℕ) : Prop :=
  s.deferredFsm = false ∧ (event.2 = 0 ∨
    ∃ v, event.1 = .write Cia402Index.controlword 0 v ∧ ¬s.ShutdownMoves v)

theorem resent_run_eq_of_reachable (hReach : s.Reachable A) (ops : List (Operation R × ℕ))
    (hOps : EveryStep (fun s event => s.step A event.1) RepeatsHarmlessly s ops) :
    run (step A) s (resent ops) = run (step A) s (ops.map Prod.fst) := by
  induction ops generalizing s with
  | nil => rfl
  | cons event ops ih =>
      obtain ⟨⟨hImmediate, hRepeat⟩, hOps⟩ := hOps
      have hEvent : run (step A) (s.step A event.1) (List.replicate event.2 event.1) =
          s.step A event.1 := by
        rcases hRepeat with hNone | ⟨v, hWord, hStay⟩
        · rw [hNone]
          rfl
        · rw [hWord]
          exact repeat_controlword A hReach hImmediate v hStay event.2
      rw [resent, List.flatMap_cons, run_append, List.replicate_succ, run_cons, hEvent]
      exact ih (hReach.step_event event.1) hOps

/-- Repeated Controlword writes leave no trace in a run as long as none of them
is a moving Shutdown. Any other word leaves none however often it is repeated; such
a Shutdown changes the state of the drive when it is repeated once. -/
theorem resent_run_eq :
    (∀ ops : List (Operation R × ℕ),
      EveryStep (fun s event => s.step A event.1) RepeatsHarmlessly (initial A) ops →
        run (step A) (initial A) (resent ops) = run (step A) (initial A) (ops.map Prod.fst)) ∧
    ∀ (s : DriveSimulator R) (v : OdValue), s.Reachable A → s.deferredFsm = false →
      ((∀ n, run (step A) s (resent [(.write Cia402Index.controlword 0 v, n)]) =
          s.step A (.write Cia402Index.controlword 0 v)) ↔ ¬s.ShutdownMoves v) ∧
      ((run (step A) s (resent [(.write Cia402Index.controlword 0 v, 1)])).state =
          (s.step A (.write Cia402Index.controlword 0 v)).state ↔ ¬s.ShutdownMoves v) := by
  refine ⟨fun ops => resent_run_eq_of_reachable A (Reachable.refl _) ops,
    fun s v hReach hImmediate => ?_⟩
  have hState := state_repeat_controlword_iff A hReach hImmediate v
  refine ⟨⟨fun h => hState.mp (congrArg DriveSimulator.state (h 1)), fun hStay n => ?_⟩, hState⟩
  have hOnce : EveryStep (fun s event => s.step A event.1) RepeatsHarmlessly s
      [(.write Cia402Index.controlword 0 v, n)] :=
    ⟨⟨hImmediate, Or.inr ⟨v, rfl, hStay⟩⟩, trivial⟩
  exact resent_run_eq_of_reachable A hReach _ hOnce

end Repetition

/-- A Switch On that is sent four times after a single Shutdown. -/
theorem resent_run_eq_of_switchOn :
    run (step (.exact fun _ => 0)) (initial (.exact fun _ => 0))
        (resent [(.write Cia402Index.controlword 0 6, 0),
          (.write Cia402Index.controlword 0 7, 3)]) =
      run (step (.exact fun _ => 0)) (initial (.exact fun _ => 0))
        [.write Cia402Index.controlword 0 6, .write Cia402Index.controlword 0 7] :=
  (resent_run_eq (.exact fun _ => 0)).1 _
    ⟨⟨rfl, Or.inl rfl⟩,
      ⟨⟨rfl, Or.inr ⟨7, rfl, fun hMoves => absurd hMoves.1 (by decide)⟩⟩, trivial⟩⟩

/-- A second Shutdown takes a drive in Ready To Switch On back again. -/
theorem resent_shutdown_toggles :
    ¬∀ ops : List (Operation ℚ × ℕ),
      EveryStep (fun s event => s.step (.exact fun _ => 0) event.1)
        (fun s event => s.deferredFsm = false ∧
          (event.2 = 0 ∨ ∃ v, event.1 = .write Cia402Index.controlword 0 v))
        (initial (.exact fun _ => 0)) ops →
      (run (step (.exact fun _ => 0)) (initial (.exact fun _ => 0)) (resent ops)).state =
        (run (step (.exact fun _ => 0)) (initial (.exact fun _ => 0))
          (ops.map Prod.fst)).state := by
  intro h
  have hState := h [(.write Cia402Index.controlword 0 6, 1)] ⟨⟨rfl, Or.inr ⟨6, rfl⟩⟩, trivial⟩
  exact absurd hState (by decide +kernel)

end Ca1MotorCtrl
