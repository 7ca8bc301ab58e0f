import Ca1MotorCtrl.Controller.Commands

/-! The polling loop of the controller's usage example: read the Statusword,
step the controller, execute its writes. A poll with a disabled controller
energises the motor from Quick Stop Active, and from nowhere else. -/
namespace Ca1MotorCtrl

open Transition

variable {R : Type} (A : DoubleArith R)

/-- One cycle of the usage example. -/
def poll (s : DriveSimulator R) (c : DriveController) : DriveSimulator R × DriveController :=
  match s.read Cia402Index.statusword 0 with
  | .ok sw => (run (DriveSimulator.step A) s ((c.step sw).2.map OdCommand.operation), (c.step sw).1)
  | .error _ => (s, c)

/-- A poll, an operation by someone else, or a setter call. -/
inductive PollEvent (R : Type) where
  | poll
  | operation (op : Operation R)
  | set (setting : Setting)

def pollStep (config : DriveSimulator R × DriveController) :
    PollEvent R → DriveSimulator R × DriveController
  | .poll => Ca1MotorCtrl.poll A config.1 config.2
  | .operation op => (config.1.step A op, config.2)
  | .set setting => (config.1, config.2.set setting)

/-- What may happen while a disabled controller stays disabled and the
simulator stays in immediate mode. -/
def PollEvent.KeepsDisabled : PollEvent R → Prop
  | .operation (.setFsmDeferred true) => False
  | .set (.enable true) => False
  | _ => True

/-- The words for a disabled controller enable the drive in one state only. -/
theorem PowerCore.applyWords_enters_iff (c : PowerCore) :
    (c.power ≠ .operationEnabled ∧ (c.applyWords (c.power.words false)).power = .operationEnabled) ↔
      c.power = .quickStopActive := by
  rcases c with ⟨power, prev, code⟩
  cases power <;>
    simp [applyWords, PowerState.words, DriveController.batch, PowerState.toDriveState, act,
      PowerState.apply, PowerState.next]

namespace Drive

/-- A poll of an immediate drive applies the words for its state. -/
theorem poll_toSimulator (d : Drive R) (c : DriveController) (hMode : d.mode = .immediate) :
    ∃ d' : Drive R, (poll A (d.toSimulator A) c).1 = d'.toSimulator A ∧
      d'.mode = .immediate ∧ d'.core = d.core.applyWords (d.power.words c.enabled) ∧
      (poll A (d.toSimulator A) c).2.enabled = c.enabled := by
  have hRead : (d.toSimulator A).read Cia402Index.statusword 0 =
      .ok (odValueOfUInt16 (DriveSimulator.encodeState d.power.toDriveState)) :=
    d.read_toSimulator A .statusword
  simp only [poll, hRead]
  obtain ⟨hCore, hLast⟩ := d.core_run_operation A
    (c.step (odValueOfUInt16 (DriveSimulator.encodeState d.power.toDriveState))).2 hMode
  rw [c.words_step d.power] at hCore
  exact ⟨_, d.run_toSimulator A _, hLast, hCore, rfl⟩

/-- A poll with a disabled controller enters Operation Enabled from Quick Stop
Active only. -/
theorem poll_enters_iff (d : Drive R) (c : DriveController) (hMode : d.mode = .immediate)
    (hDisabled : c.enabled = false) :
    ((d.toSimulator A).state ≠ .operationEnabled ∧
      (poll A (d.toSimulator A) c).1.state = .operationEnabled) ↔
      (d.toSimulator A).state = .quickStopActive := by
  obtain ⟨d', hPoll, -, hCore, -⟩ := d.poll_toSimulator A c hMode
  have hEnabled (d : Drive R) : (d.toSimulator A).state = .operationEnabled ↔
      d.core.power = .operationEnabled := d.state_toSimulator_eq_iff A .operationEnabled
  have hQuickStop : (d.toSimulator A).state = .quickStopActive ↔ d.core.power = .quickStopActive :=
    d.state_toSimulator_eq_iff A .quickStopActive
  rw [hPoll, Ne, hEnabled, hEnabled, hQuickStop, hCore, hDisabled]
  exact d.core.applyWords_enters_iff

end Drive

/-- With a disabled controller a poll enters Operation Enabled exactly from
Quick Stop Active, and the polls of a run never do so exactly if none of
them meets that state. -/
theorem disabled_poll_enters_iff {s : DriveSimulator R} (hReach : s.Reachable A)
    (hImmediate : s.deferredFsm = false) {c : DriveController} (hDisabled : c.enabled = false) :
    ((s.state ≠ .operationEnabled ∧ (poll A s c).1.state = .operationEnabled) ↔
      s.state = .quickStopActive) ∧
    ∀ events : List (PollEvent R), (∀ event ∈ events, event.KeepsDisabled) →
      (EveryStep (pollStep A)
        (fun config event => event = .poll → config.1.state ≠ .operationEnabled →
          (pollStep A config event).1.state ≠ .operationEnabled) (s, c) events ↔
      EveryStep (pollStep A)
        (fun config event => event = .poll → config.1.state ≠ .quickStopActive) (s, c) events) := by
  obtain ⟨d, rfl⟩ := Drive.exists_of_reachable A hReach
  have hMode := d.mode_of_deferredFsm A hImmediate
  refine ⟨d.poll_enters_iff A c hMode hDisabled, fun events hEvents => ?_⟩
  let Inv (config : DriveSimulator R × DriveController) : Prop :=
    config.2.enabled = false ∧ ∃ d : Drive R, config.1 = d.toSimulator A ∧ d.mode = .immediate
  refine everyStep_congr Inv ?_ ?_ ⟨hDisabled, d, rfl, hMode⟩ hEvents
  · intro config event hEvent hInv
    obtain ⟨_, c⟩ := config
    obtain ⟨hDisabled, d, rfl, hMode⟩ := hInv
    cases event with
    | poll =>
        obtain ⟨d', hPoll, hMode', -, hKeep⟩ := d.poll_toSimulator A c hMode
        exact ⟨hKeep.trans hDisabled, d', hPoll, hMode'⟩
    | operation op =>
        have hOp : op ≠ .setFsmDeferred true := by
          intro hOp
          rw [hOp] at hEvent
          exact hEvent
        exact ⟨hDisabled, d.step A op, d.step_toSimulator A op,
          d.mode_step_of_immediate A op hMode hOp⟩
    | set setting =>
        refine ⟨?_, d, rfl, hMode⟩
        cases setting with
        | enable enable =>
            cases enable with
            | false => rfl
            | true => exact hEvent.elim
        | _ => exact hDisabled
  · intro config event _ hInv
    obtain ⟨_, c⟩ := config
    obtain ⟨hDisabled, d, rfl, hMode⟩ := hInv
    cases event with
    | poll =>
        have hEnters := not_congr (d.poll_enters_iff A c hMode hDisabled)
        simpa only [pollStep, forall_const, not_and, Ne] using hEnters
    | _ => exact ⟨fun _ => nofun, fun _ => nofun⟩

/-- A fault and its recovery under a disabled controller. -/
theorem disabled_poll_after_fault :
    EveryStep (pollStep (.exact fun _ => 0))
      (fun config event => event = .poll → config.1.state ≠ .operationEnabled →
        (pollStep (.exact fun _ => 0) config event).1.state ≠ .operationEnabled)
      (DriveSimulator.initial (.exact fun _ => 0), { enabled := false })
      [.poll, .operation .injectFault, .poll] :=
  ((disabled_poll_enters_iff (.exact fun _ => 0) (Reachable.refl _) rfl rfl).2
    [.poll, .operation .injectFault, .poll] (by simp [PollEvent.KeepsDisabled])).mpr
    ⟨fun _ => by decide +kernel, nofun, fun _ => by decide +kernel, trivial⟩

/-- After the words 6, 7, 15 and 2 a disabled controller enables the drive. -/
theorem disabled_poll_enters_from_quickStop :
    ¬∀ (s : DriveSimulator ℚ) (c : DriveController), s.Reachable (.exact fun _ => 0) →
      s.deferredFsm = false → c.enabled = false → s.state ≠ .operationEnabled →
        (poll (.exact fun _ => 0) s c).1.state ≠ .operationEnabled := by
  intro h
  let word (v : OdValue) : Operation ℚ := .write Cia402Index.controlword 0 v
  have hPoll := h _ { enabled := false } ⟨[word 6, word 7, word 15, word 2], rfl⟩ rfl rfl
    (by decide +kernel)
  exact absurd hPoll (by decide +kernel)

end Ca1MotorCtrl
