import Ca1MotorCtrl.Loop.View

/-! Withdrawing the permission to run. A history variable follows a call of
`set_enable(false)` through the next whole poll. After that no tick energises
the motor, provided that poll did not find the drive in Switched On with
Enable Operation still pending: there the controller writes nothing. -/
namespace Ca1MotorCtrl

open Transition

/-- Nothing while the controller may run, else how far the next poll has got. -/
abbrev Revocation := Option PollProgress

namespace LoopView

/-- Running is not permitted and the current poll will not enable the drive. -/
def Withheld (v : LoopView) : Prop :=
  v.enabled = false ∧ ∀ cw, some cw ∈ v.upcoming → Command.ofWord cw ≠ .enableOperation

/-- The next tick does not enable the drive. -/
def PendingSafe (v : LoopView) : Prop :=
  ∀ cw, v.pending = some cw → Command.ofWord cw ≠ .enableOperation

/-- A disabled controller writes Enable Operation in Quick Stop Active only. -/
theorem ofWord_ne_of_mem_batch {power : PowerState} (hPower : power ≠ .quickStopActive)
    {cw : UInt16} (hMem : some cw ∈ DriveController.batch false power.toDriveState) :
    Command.ofWord cw ≠ .enableOperation := by
  have hAnswer := PowerState.answer_of_mem_batch hMem
  intro hEnable
  rw [hEnable] at hAnswer
  cases power with
  | quickStopActive => exact hPower rfl
  | _ => simp [PowerState.answer] at hAnswer

theorem enable_eq_of_disabled {v : LoopView} (hDisabled : v.enabled = false) {action : LoopAction}
    (hEnable : action ≠ .enable true) (enabled : Bool) (hAction : action = .enable enabled) :
    enabled = v.enabled := by
  cases enabled with
  | false => exact hDisabled.symm
  | true => exact absurd hAction hEnable

theorem withheld_step {v : LoopView} (h : v.Withheld) (action : LoopAction)
    (hRead : action = .read → v.core.power ≠ .quickStopActive)
    (hEnable : action ≠ .enable true) : (v.step action).Withheld := by
  have hKeep := enable_eq_of_disabled h.1 hEnable
  refine ⟨(v.enabled_step action hKeep).trans h.1, fun cw hMem => ?_⟩
  by_cases hAction : action = .read
  · subst hAction
    refine ofWord_ne_of_mem_batch (hRead rfl) ?_
    rw [← h.1]
    exact hMem
  · exact h.2 cw ((v.upcoming_step_sublist action hAction hKeep).subset hMem)

theorem pendingSafe_step {v : LoopView} (h : v.Withheld) (hSafe : v.PendingSafe)
    (action : LoopAction) : (v.step action).PendingSafe := by
  intro cw hPending
  rcases v.pending_step action with ⟨-, hNone⟩ | hSame | ⟨word, hMem, hWord⟩
  · rw [hNone] at hPending
    cases hPending
  · exact hSafe cw (hSame ▸ hPending)
  · obtain rfl : word = cw := Option.some.inj (hWord.symm.trans hPending)
    exact h.2 word hMem

/-- The pending word stays harmless or is still to be replaced. -/
theorem pendingSafe_or_willWrite_step {v : LoopView} (h : v.Withheld)
    (hSafe : v.PendingSafe ∨ v.WillWrite) (action : LoopAction)
    (hRead : action = .read → v.poll = .idle) (hEnable : action ≠ .enable true) :
    (v.step action).PendingSafe ∨ (v.step action).WillWrite := by
  rcases hSafe with hSafe | hWrite
  · exact Or.inl (pendingSafe_step h hSafe action)
  · rcases v.willWrite_step action hWrite hRead (enable_eq_of_disabled h.1 hEnable) with
      hWrite | ⟨word, hMem, hWord⟩
    · exact Or.inr hWrite
    · refine Or.inl fun cw hPending => ?_
      obtain rfl : word = cw := Option.some.inj (hWord.symm.trans hPending)
      exact h.2 word hMem

/-- A tick that finds a harmless word pending enters no Operation Enabled. -/
theorem tick_ne_operationEnabled {v : LoopView} (hSafe : v.PendingSafe)
    (hOff : v.core.power ≠ .operationEnabled) :
    (v.step .tick).core.power ≠ .operationEnabled := by
  obtain ⟨core, pending, enabled, poll⟩ := v
  cases pending with
  | none => exact hOff
  | some cw =>
      intro hOn
      have hEnable := (PowerState.apply_eq_operationEnabled_iff _ _ cw hOff).mp hOn
      exact hSafe cw rfl hEnable.1

/-- The invariant of each stage of a revocation. -/
def Honours (v : LoopView) : Revocation → Prop
  | none => True
  | some .awaited => v.enabled = false
  | some .running => v.Withheld ∧ (v.PendingSafe ∨ v.WillWrite)
  | some .finished => v.Withheld ∧ v.PendingSafe

/-- Every action but a grant keeps the invariant of the stage. -/
theorem honours_step {v : LoopView} {stage : Revocation} (h : v.Honours stage)
    (action : LoopAction)
    (hRead : action = .read → v.poll = .idle ∧ v.core.power ≠ .quickStopActive)
    (hEnable : action ≠ .enable true) : (v.step action).Honours stage := by
  match stage with
  | none => trivial
  | some .awaited => exact (v.enabled_step action (enable_eq_of_disabled h hEnable)).trans h
  | some .running =>
      exact ⟨withheld_step h.1 action (fun hAction => (hRead hAction).2) hEnable,
        pendingSafe_or_willWrite_step h.1 h.2 action (fun hAction => (hRead hAction).1) hEnable⟩
  | some .finished =>
      exact ⟨withheld_step h.1 action (fun hAction => (hRead hAction).2) hEnable,
        pendingSafe_step h.1 h.2 action⟩

/-- The answering poll either writes a Controlword or finds a harmless one. -/
theorem honours_read {v : LoopView} (h : v.Honours (some .awaited))
    (hQuickStop : v.core.power ≠ .quickStopActive)
    (hAnswer : v.core.power = .switchedOn → v.PendingSafe) :
    (v.step .read).Honours (some .running) := by
  obtain ⟨⟨power, prev, code⟩, pending, enabled, poll⟩ := v
  obtain rfl : enabled = false := h
  refine ⟨⟨rfl, fun cw hMem => ofWord_ne_of_mem_batch hQuickStop hMem⟩, ?_⟩
  cases power with
  | switchedOn => exact Or.inl (hAnswer rfl)
  | quickStopActive => exact absurd rfl hQuickStop
  | _ => exact Or.inr ⟨_, List.mem_cons_self⟩

/-- At the end of the answering poll no harmful word can be pending. -/
theorem honours_revoked {v : LoopView} (h : v.Honours (some .running)) (hIdle : v.poll = .idle) :
    v.Honours (some .finished) :=
  ⟨h.1, h.2.resolve_right (not_willWrite_of_idle hIdle)⟩

end LoopView

section System
variable {R : Type} (A : DoubleArith R)

/-- The drive would be enabled by the word that waits for the next tick. -/
def DriveSimulator.EnablePending (s : DriveSimulator R) : Prop :=
  s.cwPending = true ∧
    ∃ v, s.read Cia402Index.controlword 0 = .ok v ∧ lowWord v &&& 0x0F = 0x0F

/-- A call of `set_enable(false)` is followed to the end of the next whole poll;
`set_enable(true)` ends the revocation. -/
def recordRevocation (stage : Revocation) (config : DriveSimulator R × DriveControllerNode) :
    LoopEvent R → Revocation
  | .setEnable true => none
  | .setEnable false => some (stage.getD .awaited)
  | event => stage.map fun progress => recordPoll A progress config event

/-- The poll that answers a revocation does not start in Switched On with
Enable Operation pending. -/
def AnswersRevocation (config : (DriveSimulator R × DriveControllerNode) × Revocation)
    (event : LoopEvent R) : Prop :=
  config.2 = some .awaited → event = .fsmThread → config.1.2.phase = .readStatusword →
    config.1.1.state = .switchedOn → ¬config.1.1.EnablePending

/-- A tick after the revocation does not enter Operation Enabled. -/
def TickStaysDisabled (config : (DriveSimulator R × DriveControllerNode) × Revocation)
    (event : LoopEvent R) : Prop :=
  config.2 = some .finished → event = .fsmTimer → config.1.1.state ≠ .operationEnabled →
    (DriveSimulator.loopStep A config.1 event).1.state ≠ .operationEnabled

namespace Drive

theorem enablePending_toSimulator (d : Drive R) (node : DriveControllerNode) :
    ¬(d.toSimulator A).EnablePending ↔ (view (d, node)).PendingSafe := by
  have hRead : (d.toSimulator A).read Cia402Index.controlword 0 = .ok d.controlword :=
    d.read_toSimulator A .controlword
  have hPending : (d.toSimulator A).cwPending = true ↔ d.mode = .deferred true := by
    rw [toSimulator]
    cases d.mode <;> simp [FsmMode.isPending]
  simp only [DriveSimulator.EnablePending, hRead, hPending, Except.ok.injEq, exists_eq_left',
    LoopView.PendingSafe, view, pendingWord, ← Command.ofWord_eq_enableOperation_iff]
  split
  next hMode => simp [hMode]
  next hMode => simp [hMode]

/-- One event of the loop keeps the invariant of the recorded stage. -/
theorem honours_loopStep (d : Drive R) (node : DriveControllerNode) (stage : Revocation)
    (event : LoopEvent R) (hDeferred : d.mode.isDeferred = true)
    (h : (view (d, node)).Honours stage)
    (hQuickStop : (d.toSimulator A).state ≠ .quickStopActive)
    (hAnswer : AnswersRevocation ((d.toSimulator A, node), stage) event) :
    (view (loopStep A (d, node) event)).Honours
      (recordRevocation A stage (d.toSimulator A, node) event) := by
  have hPower : (view (d, node)).core.power ≠ .quickStopActive := fun hPower =>
    hQuickStop ((d.state_toSimulator_eq_iff A .quickStopActive).mpr hPower)
  have hView := (view_loopStep A (d, node) event hDeferred).1
  have hKeep (hRead : action A (d, node) event = .read → (view (d, node)).poll = .idle)
      (hEnable : action A (d, node) event ≠ .enable true) :
      (view (loopStep A (d, node) event)).Honours stage := by
    rw [hView]
    exact LoopView.honours_step h _ (fun hAction => ⟨hRead hAction, hPower⟩) hEnable
  cases event with
  | fsmThread =>
      have hRead := d.poll_idle_of_action_read A node
      have hEnable := LoopView.not_enable_of_polls (d.polls_fsmThread A node) true
      match stage with
      | none => trivial
      | some .awaited =>
          by_cases hPhase : node.phase = .readStatusword
          · have hStage : recordRevocation A (some .awaited) (d.toSimulator A, node) .fsmThread =
                some .running := congrArg some (if_pos hPhase)
            rw [hStage, hView, (action_fsmThread_eq_read_iff A d node).mpr hPhase]
            refine LoopView.honours_read h hPower fun hOn => ?_
            have hState : (d.toSimulator A).state = .switchedOn :=
              (d.state_toSimulator_eq_iff A .switchedOn).mpr hOn
            exact (d.enablePending_toSimulator A node).mp (hAnswer rfl rfl hPhase hState)
          · have hStage : recordRevocation A (some .awaited) (d.toSimulator A, node) .fsmThread =
                some .awaited := congrArg some (if_neg hPhase)
            rw [hStage]
            exact hKeep hRead hEnable
      | some .running =>
          have hNext := hKeep hRead hEnable
          simp only [recordRevocation, recordPoll, Option.map_some, loopStep_toSimulator]
          split
          next hDone => exact LoopView.honours_revoked hNext ((Phase.view_eq_idle_iff _).mpr hDone)
          next => exact hNext
      | some .finished => exact hKeep hRead hEnable
  | setEnable data =>
      cases data with
      | true => trivial
      | false =>
          match stage with
          | none => exact rfl
          | some progress => exact hKeep (by simp [action]) (by simp [action])
  | updateTimer dt =>
      simp only [recordRevocation, recordPoll, Option.map_id']
      refine hKeep ?_ ?_ <;> simp only [action] <;>
        rcases d.effect_update A dt with hEffect | hEffect <;> simp [hEffect]
  | _ =>
      simp only [recordRevocation, recordPoll, Option.map_id']
      exact hKeep (by simp [action]) (by simp [action])

/-- In Switched On a disabled controller reads, steps and writes nothing. -/
theorem loopStep_of_switchedOn (d : Drive R) (node : DriveControllerNode)
    (hDisabled : node.controller.enabled = false) (hPhase : node.phase = .readStatusword)
    (hPower : d.power = .switchedOn) :
    ∃ decided finished : DriveControllerNode,
      loopStep A (d, node) .fsmThread = (d, decided) ∧ decided.phase ≠ .readStatusword ∧
        loopStep A (d, decided) .fsmThread = (d, finished) ∧ finished.phase.writesDone = true := by
  let raw := odValueOfUInt16 (DriveSimulator.encodeState d.power.toDriveState)
  let decided : DriveControllerNode := { node with phase := .step raw }
  have hRead : loopStep A (d, node) .fsmThread = (d, decided) := by
    simp only [loopStep, Ca1MotorCtrl.loopStep, DriveControllerNode.fsmThread, hPhase,
      syncRead_services_statusword]
    rfl
  obtain ⟨-, hPoll⟩ := decided.view_stepController raw
  have hEnabled : decided.controller.enabled = false := hDisabled
  rw [hEnabled, decodeStatusword_encodeState, hPower] at hPoll
  exact ⟨decided, (decided.stepController raw).1, hRead, by simp [decided], rfl,
    (Phase.view_eq_idle_iff _).mp hPoll⟩

/-- A tick keeps a drive disabled if its view promises so. -/
theorem tickStaysDisabled_of_honours (d : Drive R) (node : DriveControllerNode)
    (stage : Revocation) (event : LoopEvent R) (hDeferred : d.mode.isDeferred = true)
    (h : (view (d, node)).Honours stage) :
    TickStaysDisabled A ((d.toSimulator A, node), stage) event := by
  intro hStage hEvent hOff
  obtain rfl : stage = some .finished := hStage
  obtain rfl : event = .fsmTimer := hEvent
  have hState (d : Drive R) : (d.toSimulator A).state = .operationEnabled ↔
      d.core.power = .operationEnabled := d.state_toSimulator_eq_iff A .operationEnabled
  have hView := (view_loopStep A (d, node) .fsmTimer hDeferred).1
  rw [Ne, hState] at hOff
  rw [loopStep_toSimulator, Ne, hState]
  have hTick := LoopView.tick_ne_operationEnabled h.2 hOff
  exact fun hOn => hTick (hView ▸ hOn)

end Drive

section Runs
variable {s : DriveSimulator R} (node : DriveControllerNode)

theorem everyStep_tickStaysDisabled (hReach : s.Reachable A) (hDeferred : s.deferredFsm = true)
    {events : List (LoopEvent R)}
    (hQuickStop : EveryStep (DriveSimulator.loopStep A)
      (fun config _ => config.1.state ≠ .quickStopActive) (s, node) events)
    (hAnswer : EveryStep (recordStep (DriveSimulator.loopStep A) (recordRevocation A))
      AnswersRevocation ((s, node), none) events) :
    EveryStep (recordStep (DriveSimulator.loopStep A) (recordRevocation A)) (TickStaysDisabled A)
      ((s, node), none) events := by
  obtain ⟨d, rfl⟩ := Drive.exists_of_reachable A hReach
  let Inv (config : (DriveSimulator R × DriveControllerNode) × Revocation) : Prop :=
    ∃ d : Drive R, config.1.1 = d.toSimulator A ∧ d.mode.isDeferred = true ∧
      (Drive.view (d, config.1.2)).Honours config.2
  have hRecorded := (everyStep_recordStep (recordRevocation A)
    (fun config _ => config.1.state ≠ .quickStopActive) ((d.toSimulator A, node), none)
    events).mpr hQuickStop
  have hStart : Inv ((d.toSimulator A, node), none) := ⟨d, rfl, hDeferred, trivial⟩
  refine EveryStep.of_guard Inv ?_ hStart (hRecorded.and hAnswer)
  intro config event hInv hGuard
  obtain ⟨⟨_, node⟩, stage⟩ := config
  obtain ⟨d, rfl, hMode, hHonours⟩ := hInv
  obtain ⟨hQuickStop, hAnswer⟩ := hGuard
  refine ⟨d.tickStaysDisabled_of_honours A node stage event hMode hHonours,
    (Drive.loopStep A (d, node) event).1, ?_, ?_, ?_⟩
  · rw [recordStep, Drive.loopStep_toSimulator]
  · exact (Drive.view_loopStep A (d, node) event hMode).2
  · rw [recordStep, Drive.loopStep_toSimulator]
    exact d.honours_loopStep A node stage event hMode hHonours hQuickStop hAnswer

/-- From Switched On with Enable Operation pending a revocation comes to nothing. -/
theorem not_tickStaysDisabled_of_enablePending (hReach : s.Reachable A)
    (hDeferred : s.deferredFsm = true) (hDisabled : node.controller.enabled = false)
    (hPhase : node.phase = .readStatusword) (hState : s.state = .switchedOn)
    (hPending : s.EnablePending) :
    ¬EveryStep (recordStep (DriveSimulator.loopStep A) (recordRevocation A)) (TickStaysDisabled A)
      ((s, node), some .awaited) [.fsmThread, .fsmThread, .fsmTimer] := by
  obtain ⟨d, rfl⟩ := Drive.exists_of_reachable A hReach
  have hPower : d.power = .switchedOn := (d.state_toSimulator_eq_iff A .switchedOn).mp hState
  obtain ⟨decided, finished, hRead, hDecided, hStep, hDone⟩ :=
    d.loopStep_of_switchedOn A node hDisabled hPhase hPower
  have hFirst : recordStep (DriveSimulator.loopStep A) (recordRevocation A)
      ((d.toSimulator A, node), some .awaited) .fsmThread =
        ((d.toSimulator A, decided), some .running) := by
    simp only [recordStep, recordRevocation, recordPoll, Option.map_some,
      d.loopStep_toSimulator A, hRead, hPhase, if_true]
  have hSecond : recordStep (DriveSimulator.loopStep A) (recordRevocation A)
      ((d.toSimulator A, decided), some .running) .fsmThread =
        ((d.toSimulator A, finished), some .finished) := by
    simp only [recordStep, recordRevocation, recordPoll, Option.map_some,
      d.loopStep_toSimulator A, hStep, hDone, if_true]
  obtain ⟨cw, hWord, hEnable⟩ : ∃ cw, (Drive.view (d, node)).pending = some cw ∧
      Command.ofWord cw = .enableOperation := by
    have hUnsafe := not_not.mpr hPending
    rw [d.enablePending_toSimulator A node] at hUnsafe
    simpa [LoopView.PendingSafe] using hUnsafe
  change d.pendingWord = some cw at hWord
  have hOn : (d.step A .updateFsm).core.power = .operationEnabled := by
    rw [(d.tick_of_deferred A hDeferred).2.2, hWord]
    refine (PowerState.apply_eq_operationEnabled_iff _ _ cw ?_).mpr ⟨hEnable, Or.inl hPower⟩
    simp [Drive.core, hPower]
  intro hSteps
  obtain ⟨-, -, hTick, -⟩ := hSteps
  rw [hFirst, hSecond] at hTick
  refine hTick rfl rfl (by simp [hState]) ?_
  rw [d.loopStep_toSimulator A]
  exact ((d.step A .updateFsm).state_toSimulator_eq_iff A .operationEnabled).mpr hOn

end Runs

/-- After a revocation and its answering poll no tick enters Operation Enabled,
in every run without Quick Stop in which that poll does not start in
Switched On with Enable Operation pending. From a state where it does, the
poll writes nothing and the next tick enters Operation Enabled. -/
theorem revoked_ticks_stay_disabled :
    (∀ (s : DriveSimulator R) (node : DriveControllerNode) (events : List (LoopEvent R)),
      s.Reachable A → s.deferredFsm = true →
      EveryStep (DriveSimulator.loopStep A) (fun config _ => config.1.state ≠ .quickStopActive)
        (s, node) events →
      EveryStep (recordStep (DriveSimulator.loopStep A) (recordRevocation A)) AnswersRevocation
        ((s, node), none) events →
      EveryStep (recordStep (DriveSimulator.loopStep A) (recordRevocation A)) (TickStaysDisabled A)
        ((s, node), none) events) ∧
    ∀ (s : DriveSimulator R) (node : DriveControllerNode), s.Reachable A → s.deferredFsm = true →
      node.controller.enabled = false → node.phase = .readStatusword →
      s.state = .switchedOn → s.EnablePending →
      ¬EveryStep (recordStep (DriveSimulator.loopStep A) (recordRevocation A)) (TickStaysDisabled A)
        ((s, node), some .awaited) [.fsmThread, .fsmThread, .fsmTimer] :=
  ⟨fun _ node _ hReach hDeferred hQuickStop hAnswer =>
    everyStep_tickStaysDisabled A node hReach hDeferred hQuickStop hAnswer,
   fun _ node hReach hDeferred hDisabled hPhase hState hPending =>
    not_tickStaysDisabled_of_enablePending A node hReach hDeferred hDisabled hPhase hState hPending⟩

end System

/-- An Enable Operation that is pending when the operation is revoked. The answering poll
reads Fault, and its write takes the place of the pending word. -/
theorem revoked_ticks_stay_disabled_replaced :
    let A : DoubleArith ℚ := .exact fun _ => 0
    let start : DriveSimulator ℚ := (DriveSimulator.initial A).setFsmDeferred true
    let turns (n : ℕ) : List (LoopEvent ℚ) := List.replicate n .fsmThread
    let before := turns 5 ++ .fsmTimer :: turns 5 ++ .fsmTimer :: turns 9
    let after := .injectFault :: .setEnable false :: turns 5 ++ [.fsmTimer]
    (run (DriveSimulator.loopStep A) (start, {}) before).1.EnablePending ∧
      EveryStep (recordStep (DriveSimulator.loopStep A) (recordRevocation A)) (TickStaysDisabled A)
        ((start, {}), none) (before ++ after) := by
  intro A start turns before after
  let recorded := recordStep (DriveSimulator.loopStep A) (recordRevocation A)
  have hNotOn : EveryStep recorded
      (fun config _ => ¬(config.2 = some .awaited ∧ config.1.1.state = .switchedOn))
      ((start, {}), none) (before ++ after) := by decide +kernel
  have hAnswer : EveryStep recorded AnswersRevocation ((start, {}), none) (before ++ after) :=
    hNotOn.of_guard (fun _ => True)
      (fun _ _ _ hGuard => ⟨fun hStage _ _ hState => (hGuard ⟨hStage, hState⟩).elim, trivial⟩)
      trivial
  have hPending : (run (DriveSimulator.loopStep A) (start, {}) before).1.EnablePending :=
    ⟨by decide +kernel, 15, by decide +kernel, by decide +kernel⟩
  exact ⟨hPending, (revoked_ticks_stay_disabled A).1 start {} _ ⟨[.setFsmDeferred true], rfl⟩ rfl
    (by decide +kernel) hAnswer⟩

/-- Revoked in Switched On with Enable Operation pending: the answering poll
writes nothing, and the next tick energises the motor. -/
theorem revoked_tick_enters_operationEnabled :
    ¬∀ events : List (LoopEvent ℚ),
      EveryStep (DriveSimulator.loopStep (.exact fun _ => 0))
        (fun config _ => config.1.state ≠ .quickStopActive)
        ((DriveSimulator.initial (.exact fun _ => 0)).setFsmDeferred true, {}) events →
      EveryStep
        (recordStep (DriveSimulator.loopStep (.exact fun _ => 0))
          (recordRevocation (.exact fun _ => 0)))
        (TickStaysDisabled (.exact fun _ => 0))
        (((DriveSimulator.initial (.exact fun _ => 0)).setFsmDeferred true, {}), none)
        events := by
  intro h
  let turns (n : ℕ) : List (LoopEvent ℚ) := List.replicate n .fsmThread
  have hRun := h (turns 5 ++ .fsmTimer :: turns 5 ++ .fsmTimer :: turns 9 ++ .setEnable false ::
    turns 2 ++ [.fsmTimer]) (by decide +kernel)
  have hLast := (everyStep_append _ _ (turns 5 ++ .fsmTimer :: turns 5 ++ .fsmTimer :: turns 9 ++
    .setEnable false :: turns 2) [.fsmTimer]).mp hRun
  exact absurd (hLast.2.1 (by decide +kernel) rfl (by decide +kernel)) (by decide +kernel)

end Ca1MotorCtrl
