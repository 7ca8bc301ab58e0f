import Ca1MotorCtrl.Loop.Velocity

/-! A settled drive follows its commands. The first whole poll after a command
writes it to the drive, later polls write it again, and every update shortens
the distance to it by the increment of the ramp. -/
namespace Ca1MotorCtrl

open Transition

/-- A step whose increment is at least `k` gains `k`, up to the target. -/
theorem RoundedRamp.min_le_step {k : ℤ} {q : ℚ} (hk : k ≤ q) (target v : ℤ) :
    min (v + k) target ≤ step q target v := by
  have hMono : ((min (v + k) target : ℤ) : ℚ) ≤ min (v + q) (target : ℚ) := by
    push_cast
    exact min_le_min_right _ (by linarith)
  have hRound := roundHalfAway_mono hMono
  rwa [roundHalfAway_intCast] at hRound

/-- An update in which a ramp gains something takes time. -/
theorem pos_of_le_ramp {rate k : ℤ} {dt : ℚ} (hRate : 0 ≤ rate) (hk : 0 < k)
    (hdt : k ≤ rate * dt) : 0 < dt := by
  have hGain : (0 : ℚ) < k := by exact_mod_cast hk
  have hRate' : (0 : ℚ) ≤ rate := by exact_mod_cast hRate
  exact pos_of_mul_pos_right (hGain.trans_le hdt) hRate'

/-- An update takes the velocity at least `k` closer to the target. -/
theorem Motion.WithinLimit.abs_sub_le {m : Motion ℚ} {limit rate k : ℤ}
    (undefinedCast : ℚ → OdValue) (h : m.WithinLimit limit rate) (hOn : m.enabled = true)
    (hRate : 0 ≤ rate) (hk : 0 < k) {dt : ℚ} (hdt : k ≤ rate * dt) :
    |m.target.toInt - (m.advance (.exact undefinedCast) dt).velocity.toInt| ≤
      max 0 (|m.target.toInt - m.velocity.toInt| - k) := by
  have hdt' : 0 < dt := pos_of_le_ramp hRate hk hdt
  have hAccel : (k : ℚ) ≤ m.acceleration.toInt * dt :=
    hdt.trans (mul_le_mul_of_nonneg_right (by exact_mod_cast h.acceleration) hdt'.le)
  have hDecel : (k : ℚ) ≤ m.deceleration.toInt * dt :=
    hdt.trans (mul_le_mul_of_nonneg_right (by exact_mod_cast h.deceleration) hdt'.le)
  have hLimit := h.overspeed_eq_false undefinedCast hRate hdt'.le
  rw [m.toInt_velocity_of_enabled undefinedCast dt hOn hLimit]
  rcases lt_trichotomy m.velocity.toInt m.target.toInt with hUp | hEq | hDown
  · rw [m.round_ramped_of_lt undefinedCast dt hUp]
    have hGain := RoundedRamp.min_le_step hAccel m.target.toInt m.velocity.toInt
    have hTop := RoundedRamp.step_le (m.acceleration.toInt * dt) m.target.toInt m.velocity.toInt
    rw [abs_of_nonneg (by omega), abs_of_nonneg (by omega)]
    omega
  · rw [m.ramped_of_eq undefinedCast dt hEq, roundHalfAway_intCast, hEq, sub_self, abs_zero]
    exact le_max_left _ _
  · rw [m.round_ramped_of_gt undefinedCast dt hDown]
    have hGain := RoundedRamp.min_le_step hDecel (-m.target.toInt) (-m.velocity.toInt)
    have hTop := RoundedRamp.step_le (m.deceleration.toInt * dt) (-m.target.toInt)
      (-m.velocity.toInt)
    rw [abs_of_nonpos (by omega), abs_of_nonpos (by omega)]
    omega

section System
variable (A : DoubleArith ℚ)

/-- The ticks so far with the polls between them, the first whole poll since the
loop has settled and the last velocity command has arrived, and the updates
since that poll. -/
structure Course where
  schedule : Schedule := {}
  poll : PollProgress := .awaited
  updates : ℕ := 0
  deriving DecidableEq, Repr

def recordCourse (course : Course) (config : DriveSimulator ℚ × DriveControllerNode)
    (event : LoopEvent ℚ) : Course where
  schedule := recordSchedule A course.schedule config event
  poll :=
    match event with
    | .cmdVelocity _ => .awaited
    | event =>
        if 5 ≤ course.schedule.ticks then recordPoll A course.poll config event else .awaited
  updates :=
    match event with
    | .cmdVelocity _ => 0
    | .updateTimer _ => if course.poll = .finished then course.updates + 1 else course.updates
    | _ => course.updates

/-- Polls, velocity commands within the limit, updates in which the ramp gains at
least `k`, and ticks with a whole poll between any two of them. -/
def FollowsCourse (limit rate k : ℤ)
    (config : (DriveSimulator ℚ × DriveControllerNode) × Course) : LoopEvent ℚ → Prop
  | .fsmThread => True
  | .cmdVelocity data => |data.toInt| ≤ limit
  | .fsmTimer => config.2.schedule.ticks = 0 ∨ config.2.schedule.poll = .finished
  | .updateTimer dt => k ≤ rate * dt
  | _ => False

instance (limit rate k : ℤ) (config : (DriveSimulator ℚ × DriveControllerNode) × Course) :
    (event : LoopEvent ℚ) → Decidable (FollowsCourse limit rate k config event)
  | .fsmThread => isTrue trivial
  | .cmdVelocity data => inferInstanceAs (Decidable (|data.toInt| ≤ limit))
  | .fsmTimer =>
      inferInstanceAs
        (Decidable (config.2.schedule.ticks = 0 ∨ config.2.schedule.poll = .finished))
  | .updateTimer dt => inferInstanceAs (Decidable (k ≤ rate * dt))
  | .setEnable _ | .injectFault | .injectOverspeedFault | .injectSensorTimeoutFault =>
      isFalse id

/-- The velocity commanded last. -/
def commanded (initial : OdValue) (events : List (LoopEvent ℚ)) : OdValue :=
  (events.filterMap fun event =>
    match event with
    | .cmdVelocity data => some data
    | _ => none).getLastD initial

end System

/-- The poll reads Operation Enabled and writes nothing but the setpoint. -/
def Phase.OnTarget (phase : Phase) (target : OdValue) : Prop :=
  (∀ raw, phase = .step raw → DriveController.decodeStatusword raw = .operationEnabled) ∧
    ∀ cmd ∈ phase.remaining, cmd = ⟨Cia402Index.targetVelocity, 0, target⟩

/-- The poll has still to write the setpoint, or the drive has it. -/
def Drive.Receives {R : Type} (d : Drive R) (node : DriveControllerNode) : Prop :=
  (∃ raw, node.phase = .step raw) ∨ node.phase.remaining ≠ [] ∨
    d.targetVelocity = node.controller.targetVelocity

/-- Only the read of the Statusword leads to the section under the mutex. -/
theorem DriveControllerNode.phase_ne_step {Server : Type} (services : Services Server)
    (server : Server) {node : DriveControllerNode} (hPhase : node.phase ≠ .readStatusword)
    (raw : OdValue) : (fsmThread services server node).2.1.phase ≠ .step raw := by
  have hCommands (cmds : List OdCommand) : Phase.ofCommands cmds ≠ .step raw := by
    cases cmds <;> (intro h; cases h)
  obtain ⟨controller, phase⟩ := node
  cases phase with
  | readStatusword => exact absurd rfl hPhase
  | step raw =>
      simp only [fsmThread, stepController]
      split
      · split
        · intro h
          cases h
        · exact hCommands _
      · exact hCommands _
  | write cmd rest =>
      simp only [fsmThread]
      split
      · intro h
        cases h
      · exact hCommands _
  | readErrorCode cmds | readDisplay requested cmds => exact hCommands _
  | readVelocity | readPosition =>
      intro h
      cases h

section Turn
variable {R : Type} (A : DoubleArith R) {d : Drive R} {node : DriveControllerNode}

theorem Drive.phase_of_readStatusword (d : Drive R) (c : DriveController) :
    (loopStep A (d, ⟨c, .readStatusword⟩) .fsmThread).2.phase =
      .step (odValueOfUInt16 (DriveSimulator.encodeState d.power.toDriveState)) := by
  simp only [loopStep, Ca1MotorCtrl.loopStep, DriveControllerNode.fsmThread]
  rw [syncRead_services_statusword]

/-- What a poll starts with in Operation Enabled. -/
theorem Drive.onTarget_readStatusword (c : DriveController) (hPower : d.power = .operationEnabled)
    (target : OdValue) :
    (loopStep A (d, ⟨c, .readStatusword⟩) .fsmThread).2.phase.OnTarget target ∧
      ∃ raw, (loopStep A (d, ⟨c, .readStatusword⟩) .fsmThread).2.phase = .step raw := by
  rw [d.phase_of_readStatusword A c]
  refine ⟨⟨fun raw hRaw => ?_, fun cmd hMem => absurd hMem List.not_mem_nil⟩, _, rfl⟩
  rw [← Phase.step.inj hRaw, decodeStatusword_encodeState, hPower]
  rfl

/-- In Operation Enabled an enabled controller writes its setpoint. -/
theorem DriveController.step_of_operationEnabled {c : DriveController} {raw : OdValue}
    (hEnabled : c.enabled = true) (hDecoded : decodeStatusword raw = .operationEnabled) :
    (c.step raw).2 = [⟨Cia402Index.targetVelocity, 0, c.targetVelocity⟩] := by
  simp [step, commands, hDecoded, hEnabled]

/-- A turn of the thread keeps the poll on the setpoint of the controller. -/
theorem Drive.onTarget_fsmThread (hPower : d.power = .operationEnabled)
    (hEnabled : node.controller.enabled = true)
    (h : node.phase.OnTarget node.controller.targetVelocity) :
    (loopStep A (d, node) .fsmThread).2.phase.OnTarget node.controller.targetVelocity := by
  obtain ⟨controller, phase⟩ := node
  by_cases hRead : phase = .readStatusword
  · rw [hRead]
    exact (Drive.onTarget_readStatusword A controller hPower _).1
  · refine ⟨fun raw hRaw => absurd hRaw ?_, ?_⟩
    · exact DriveControllerNode.phase_ne_step (services A) d hRead raw
    · by_cases hStep : ∃ raw, phase = .step raw
      · obtain ⟨raw, rfl⟩ := hStep
        have hRemaining :=
          DriveControllerNode.remaining_stepController ⟨controller, .step raw⟩ raw
        rw [DriveController.step_of_operationEnabled hEnabled (h.1 raw rfl)] at hRemaining
        intro cmd hMem
        exact List.mem_singleton.mp (hRemaining ▸ hMem)
      · have hSubset := DriveControllerNode.remaining_fsmThread_subset (services A) d
          (show ∀ raw, (DriveControllerNode.mk controller phase).phase ≠ .step raw from
            fun raw hRaw => hStep ⟨raw, hRaw⟩)
        exact fun cmd hMem => h.2 cmd (hSubset hMem)

theorem Drive.receives_fsmThread (hEnabled : node.controller.enabled = true)
    (h : node.phase.OnTarget node.controller.targetVelocity) (hReceives : d.Receives node) :
    (loopStep A (d, node) .fsmThread).1.Receives (loopStep A (d, node) .fsmThread).2 := by
  have hTarget : (loopStep A (d, node) .fsmThread).2.controller.targetVelocity =
      node.controller.targetVelocity :=
    (DriveControllerNode.settings_fsmThread (services A) d node).1
  obtain ⟨controller, phase⟩ := node
  cases phase with
  | step raw =>
      have hRemaining := DriveControllerNode.remaining_stepController ⟨controller, .step raw⟩ raw
      rw [DriveController.step_of_operationEnabled hEnabled (h.1 raw rfl)] at hRemaining
      exact Or.inr (Or.inl fun hNil => List.cons_ne_nil _ _ (hRemaining.symm.trans hNil))
  | write cmd rest =>
      have hCmd := h.2 cmd List.mem_cons_self
      refine Or.inr (Or.inr ?_)
      rw [hTarget, loopStep_fsmThread_fst]
      simp only [hCmd, OdCommand.operation, step]
      rfl
  | readErrorCode cmds | readDisplay requested cmds =>
      have hSame : (Phase.ofCommands cmds).remaining = cmds := Phase.remaining_ofCommands cmds
      rcases hReceives with ⟨raw, hRaw⟩ | hWaiting | hHas
      · cases hRaw
      · exact Or.inr (Or.inl fun hNil => hWaiting (hSame.symm.trans hNil))
      · refine Or.inr (Or.inr ?_)
        rw [hTarget, loopStep_fsmThread_fst]
        exact hHas
  | readStatusword =>
      exact Or.inl ⟨_, d.phase_of_readStatusword A controller⟩
  | readVelocity | readPosition =>
      rcases hReceives with ⟨raw, hRaw⟩ | hWaiting | hHas
      · cases hRaw
      · exact absurd rfl hWaiting
      · refine Or.inr (Or.inr ?_)
        rw [hTarget, loopStep_fsmThread_fst]
        exact hHas

end Turn

namespace Drive
variable (undefinedCast : ℚ → OdValue) {limit rate k : ℤ} {d : Drive ℚ}
  {node : DriveControllerNode} {course : Course}

/-- What has become of the last velocity command. -/
structure Delivers (limit k : ℤ) (d : Drive ℚ) (node : DriveControllerNode)
    (course : Course) : Prop where
  settled : course.poll ≠ .awaited → 5 ≤ course.schedule.ticks
  onTarget : course.poll ≠ .awaited → node.phase.OnTarget node.controller.targetVelocity
  running : course.poll = .running → d.Receives node
  finished : course.poll = .finished → d.targetVelocity = node.controller.targetVelocity ∧
    |d.targetVelocity.toInt - d.velocityActual.toInt| ≤ max 0 (2 * limit - k * course.updates)
  updates : course.poll ≠ .finished → course.updates = 0

/-- What holds of the loop on its course. -/
structure Tracks (limit rate k : ℤ) (d : Drive ℚ) (node : DriveControllerNode)
    (course : Course) : Prop where
  deferred : d.mode.isDeferred = true
  enabled : node.controller.enabled = true
  settles : (view (d, node)).Settles course.schedule.ticks course.schedule.poll
  tame : Tame undefinedCast limit rate (d, node)
  delivers : Delivers limit k d node course

/-- A command that no poll has seen yet. -/
theorem delivers_awaited (hPoll : course.poll = .awaited) (hUpdates : course.updates = 0) :
    Delivers limit k d node course where
  settled hOther := absurd hPoll hOther
  onTarget hOther := absurd hPoll hOther
  running hRunning := by rw [hPoll] at hRunning; cases hRunning
  finished hFinished := by rw [hPoll] at hFinished; cases hFinished
  updates _ := hUpdates

theorem Delivers.of_not_settled (h : Delivers limit k d node course)
    (hTicks : ¬5 ≤ course.schedule.ticks) : course.poll = .awaited ∧ course.updates = 0 := by
  have hPoll : course.poll = .awaited := by
    by_contra hOther
    exact hTicks (h.settled hOther)
  exact ⟨hPoll, h.updates (by simp [hPoll])⟩

theorem Tracks.power (h : Tracks undefinedCast limit rate k d node course)
    (hTicks : 5 ≤ course.schedule.ticks) : d.power = .operationEnabled := by
  have hGoal := LoopView.power_eq_goal h.settles hTicks
  simp only [view, h.enabled, PowerState.goal, if_true] at hGoal
  exact hGoal

/-- The setpoint and the velocity are both within the limit. -/
theorem abs_sub_le_of_withinLimit (h : d.WithinLimit undefinedCast limit rate) :
    |d.targetVelocity.toInt - d.velocityActual.toInt| ≤ 2 * limit := by
  obtain ⟨-, hVelocity, hTarget, -, -⟩ := (withinLimit_iff undefinedCast d).mp h
  rw [abs_le] at hVelocity hTarget ⊢
  omega

/-- A turn of the thread leaves the velocity alone. -/
theorem velocityActual_fsmThread {R : Type} (A : DoubleArith R) (d : Drive R)
    (node : DriveControllerNode) :
    (loopStep A (d, node) .fsmThread).1.velocityActual = d.velocityActual := by
  rw [loopStep_fsmThread_fst]
  split
  next cmd rest _ =>
    have hUpdate : ∀ dt : R, cmd.operation ≠ .update dt := nofun
    exact (d.step_still A hUpdate nofun).1
  next => rfl

/-- A drive that has the setpoint keeps it. -/
theorem targetVelocity_fsmThread {R : Type} (A : DoubleArith R) {d : Drive R}
    {node : DriveControllerNode} (h : node.phase.OnTarget node.controller.targetVelocity)
    (hHas : d.targetVelocity = node.controller.targetVelocity) :
    (loopStep A (d, node) .fsmThread).1.targetVelocity = node.controller.targetVelocity := by
  rw [loopStep_fsmThread_fst]
  split
  next cmd rest hPhase =>
    have hCmd := h.2 cmd (by simp [hPhase, Phase.remaining])
    simp only [hCmd, OdCommand.operation, step]
    rfl
  next => exact hHas

/-- A poll that has nothing left to write has delivered the setpoint. -/
theorem Receives.of_writesDone {R : Type} {d : Drive R} {node : DriveControllerNode}
    (h : d.Receives node) (hDone : node.phase.writesDone = true) :
    d.targetVelocity = node.controller.targetVelocity := by
  rcases h with ⟨raw, hRaw⟩ | hWaiting | hHas
  · rw [hRaw] at hDone
    cases hDone
  · have hEmpty : node.phase.remaining.isEmpty = true := by
      cases hPhase : node.phase <;> rw [hPhase] at hDone <;> first | exact hDone | cases hDone
    exact absurd (List.isEmpty_iff.mp hEmpty) hWaiting
  · exact hHas

theorem Tracks.delivers_fsmThread (h : Tracks undefinedCast limit rate k d node course) :
    Delivers limit k (loopStep (.exact undefinedCast) (d, node) .fsmThread).1
      (loopStep (.exact undefinedCast) (d, node) .fsmThread).2
      (recordCourse (.exact undefinedCast) course
        (d.toSimulator (.exact undefinedCast), node) .fsmThread) := by
  have hDelivers := h.delivers
  by_cases hTicks : 5 ≤ course.schedule.ticks
  · have hPower := h.power undefinedCast hTicks
    have hTarget :
        (loopStep (.exact undefinedCast) (d, node) .fsmThread).2.controller.targetVelocity =
          node.controller.targetVelocity :=
      (DriveControllerNode.settings_fsmThread (services (.exact undefinedCast)) d node).1
    have hPoll : (recordCourse (.exact undefinedCast) course
        (d.toSimulator (.exact undefinedCast), node) .fsmThread).poll =
          recordPoll (.exact undefinedCast) course.poll
            (d.toSimulator (.exact undefinedCast), node) .fsmThread := if_pos hTicks
    cases hProgress : course.poll with
    | awaited =>
        have hUpdates : course.updates = 0 := hDelivers.updates (by simp [hProgress])
        rw [hProgress] at hPoll
        simp only [recordPoll] at hPoll
        by_cases hPhase : node.phase = .readStatusword
        · rw [if_pos hPhase] at hPoll
          obtain ⟨controller, phase⟩ := node
          obtain rfl : phase = .readStatusword := hPhase
          obtain ⟨hOn, hStep⟩ := onTarget_readStatusword (.exact undefinedCast) controller hPower
            controller.targetVelocity
          exact
            { settled := fun _ => hTicks
              onTarget := fun _ => hTarget ▸ hOn
              running := fun _ => Or.inl hStep
              finished := fun hFinished => by cases hPoll.symm.trans hFinished
              updates := fun _ => hUpdates }
        · rw [if_neg hPhase] at hPoll
          exact delivers_awaited hPoll hUpdates
    | running =>
        have hUpdates : course.updates = 0 := hDelivers.updates (by simp [hProgress])
        have hOn := hDelivers.onTarget (by simp [hProgress])
        have hNext := onTarget_fsmThread (.exact undefinedCast) hPower h.enabled hOn
        have hReceives := receives_fsmThread (.exact undefinedCast) h.enabled hOn
          (hDelivers.running hProgress)
        rw [hProgress] at hPoll
        simp only [recordPoll, loopStep_toSimulator] at hPoll
        refine
          { settled := fun _ => hTicks
            onTarget := fun _ => hTarget ▸ hNext
            running := fun _ => hReceives
            finished := fun hFinished => ?_
            updates := fun _ => hUpdates }
        rw [hFinished] at hPoll
        split at hPoll
        next hDone =>
          refine ⟨hReceives.of_writesDone hDone, ?_⟩
          have hBound := abs_sub_le_of_withinLimit undefinedCast
            (tame_fsmThread undefinedCast h.tame).drive
          have hNone : (recordCourse (.exact undefinedCast) course
              (d.toSimulator (.exact undefinedCast), node) .fsmThread).updates = 0 := hUpdates
          rw [hNone]
          exact hBound.trans (by simp)
        next => cases hPoll
    | finished =>
        have hOn := hDelivers.onTarget (by simp [hProgress])
        have hNext := onTarget_fsmThread (.exact undefinedCast) hPower h.enabled hOn
        obtain ⟨hHas, hDistance⟩ := hDelivers.finished hProgress
        have hKeep := targetVelocity_fsmThread (.exact undefinedCast) hOn hHas
        rw [hProgress] at hPoll
        exact
          { settled := fun _ => hTicks
            onTarget := fun _ => hTarget ▸ hNext
            running := fun hRunning => by cases hPoll.symm.trans hRunning
            finished := fun _ => by
              rw [hTarget, hKeep, velocityActual_fsmThread, ← hHas]
              exact ⟨rfl, hDistance⟩
            updates := fun hOther => absurd hPoll hOther }
  · obtain ⟨-, hUpdates⟩ := hDelivers.of_not_settled hTicks
    exact delivers_awaited (if_neg hTicks) hUpdates

/-- An update takes an enabled drive at least `k` closer to its setpoint. -/
theorem abs_sub_update_le (h : Tame undefinedCast limit rate (d, node))
    (hPower : d.power = .operationEnabled) (hRate : 0 ≤ rate) (hk : 0 < k) {dt : ℚ}
    (hdt : k ≤ rate * dt) :
    |d.targetVelocity.toInt - (d.update (.exact undefinedCast) dt).velocityActual.toInt| ≤
      max 0 (|d.targetVelocity.toInt - d.velocityActual.toInt| - k) := by
  have hOn : (d.toSimulator (.exact undefinedCast)).motion.enabled = true := by
    rw [motion_toSimulator, hPower]
    rfl
  have hCloser := Motion.WithinLimit.abs_sub_le undefinedCast h.drive hOn hRate hk hdt
  rw [← DriveSimulator.motion_update, d.update_toSimulator, motion_toSimulator,
    motion_toSimulator] at hCloser
  exact hCloser

theorem Tracks.delivers_updateTimer (h : Tracks undefinedCast limit rate k d node course)
    (hRate : 0 ≤ rate) (hk : 0 < k) {dt : ℚ} (hdt : k ≤ rate * dt) :
    Delivers limit k (d.update (.exact undefinedCast) dt) node
      (recordCourse (.exact undefinedCast) course
        (d.toSimulator (.exact undefinedCast), node) (.updateTimer dt)) := by
  have hDelivers := h.delivers
  by_cases hTicks : 5 ≤ course.schedule.ticks
  · have hPoll : (recordCourse (.exact undefinedCast) course
        (d.toSimulator (.exact undefinedCast), node) (.updateTimer dt)).poll = course.poll :=
      if_pos hTicks
    have hSame := d.targetVelocity_of_update (.exact undefinedCast) dt
    refine
      { settled := fun _ => hTicks
        onTarget := fun hOther => hDelivers.onTarget (hPoll ▸ hOther)
        running := fun hRunning => ?_
        finished := fun hFinished => ?_
        updates := fun hOther => ?_ }
    · rw [Receives, hSame]
      exact hDelivers.running (hPoll ▸ hRunning)
    · rw [hPoll] at hFinished
      obtain ⟨hHas, hDistance⟩ := hDelivers.finished hFinished
      have hUpdates : (recordCourse (.exact undefinedCast) course
          (d.toSimulator (.exact undefinedCast), node) (.updateTimer dt)).updates =
            course.updates + 1 := if_pos hFinished
      have hCloser := abs_sub_update_le undefinedCast h.tame (h.power undefinedCast hTicks)
        hRate hk hdt
      rw [hSame, hUpdates]
      refine ⟨hHas, ?_⟩
      push_cast
      rw [mul_add, mul_one]
      omega
    · rw [hPoll] at hOther
      have hUpdates : (recordCourse (.exact undefinedCast) course
          (d.toSimulator (.exact undefinedCast), node) (.updateTimer dt)).updates =
            course.updates := if_neg hOther
      exact hUpdates.trans (hDelivers.updates hOther)
  · obtain ⟨hPoll, hUpdates⟩ := hDelivers.of_not_settled hTicks
    refine delivers_awaited (if_neg hTicks) ?_
    simp only [recordCourse, hPoll, hUpdates]
    rfl

theorem Tracks.delivers_fsmTimer (h : Tracks undefinedCast limit rate k d node course) :
    Delivers limit k d.updateFsm node
      (recordCourse (.exact undefinedCast) course
        (d.toSimulator (.exact undefinedCast), node) .fsmTimer) := by
  have hDelivers := h.delivers
  have hStill := d.step_still (.exact undefinedCast) (show ∀ dt, Operation.updateFsm ≠ .update dt
    from nofun) nofun
  by_cases hTicks : 5 ≤ course.schedule.ticks
  · have hPoll : (recordCourse (.exact undefinedCast) course
        (d.toSimulator (.exact undefinedCast), node) .fsmTimer).poll = course.poll :=
      if_pos hTicks
    refine
      { settled := fun _ => hTicks.trans (Nat.le_succ _)
        onTarget := fun hOther => hDelivers.onTarget (hPoll ▸ hOther)
        running := fun hRunning => ?_
        finished := fun hFinished => ?_
        updates := fun hOther => hDelivers.updates (hPoll ▸ hOther) }
    · rw [Receives, d.targetVelocity_of_updateFsm]
      exact hDelivers.running (hPoll ▸ hRunning)
    · rw [d.targetVelocity_of_updateFsm, show d.updateFsm.velocityActual = d.velocityActual
        from hStill.1]
      exact hDelivers.finished (hPoll ▸ hFinished)
  · obtain ⟨-, hUpdates⟩ := hDelivers.of_not_settled hTicks
    exact delivers_awaited (if_neg hTicks) hUpdates

/-- One event on the course. -/
theorem Tracks.loopStep (h : Tracks undefinedCast limit rate k d node course)
    (hRate : 0 ≤ rate) (hk : 0 < k) {event : LoopEvent ℚ}
    (hCourse : FollowsCourse limit rate k ((d.toSimulator (.exact undefinedCast), node), course)
      event) :
    Tracks undefinedCast limit rate k
      (Drive.loopStep (.exact undefinedCast) (d, node) event).1
      (Drive.loopStep (.exact undefinedCast) (d, node) event).2
      (recordCourse (.exact undefinedCast) course
        (d.toSimulator (.exact undefinedCast), node) event) := by
  have hWithin : event.WithinLimit limit := by
    cases event with
    | updateTimer dt => exact (pos_of_le_ramp hRate hk hCourse).le
    | cmdVelocity data => exact hCourse
    | _ => trivial
  have hSchedule : FollowsSchedule (.exact undefinedCast)
      ((d.toSimulator (.exact undefinedCast), node), course.schedule) event := by
    cases event with
    | updateTimer dt => exact h.tame.overspeed_eq_false undefinedCast hRate hWithin
    | cmdVelocity data => trivial
    | _ => exact hCourse
  obtain ⟨hEnabled, hSettles⟩ := d.settles_loopStep (.exact undefinedCast) node course.schedule
    event h.deferred h.settles hSchedule
  exact
    { deferred := (view_loopStep (.exact undefinedCast) (d, node) event h.deferred).2
      enabled := hEnabled.trans h.enabled
      settles := hSettles
      tame := tame_loopStep undefinedCast h.tame hWithin
      delivers := by
        cases event with
        | fsmThread => exact h.delivers_fsmThread undefinedCast
        | cmdVelocity data => exact delivers_awaited rfl rfl
        | fsmTimer => exact h.delivers_fsmTimer undefinedCast
        | updateTimer dt => exact h.delivers_updateTimer undefinedCast hRate hk hCourse
        | _ => exact hCourse.elim }

end Drive

@[simp] theorem commanded_cons (initial : OdValue) (event : LoopEvent ℚ)
    (events : List (LoopEvent ℚ)) :
    commanded initial (event :: events) =
      commanded (match event with
        | .cmdVelocity data => data
        | _ => initial) events := by
  cases event with
  | cmdVelocity data => exact List.getLastD_cons
  | _ => rfl

/-- The setpoint of the controller is the velocity commanded last. -/
theorem targetVelocity_run (A : DoubleArith ℚ)
    (config : (DriveSimulator ℚ × DriveControllerNode) × Course) (events : List (LoopEvent ℚ)) :
    (run (recordStep (DriveSimulator.loopStep A) (recordCourse A)) config
        events).1.2.controller.targetVelocity =
      commanded config.1.2.controller.targetVelocity events := by
  induction events generalizing config with
  | nil => rfl
  | cons event events ih =>
      rw [run_cons, ih, commanded_cons]
      cases event with
      | fsmThread =>
          have hTarget := (DriveControllerNode.settings_fsmThread DriveSimulator.services
            config.1.1 config.1.2).1
          exact congrArg (commanded · events) hTarget
      | _ => rfl

/-- A settled drive follows its commands. After the first whole poll that follows a
velocity command, the drive has the velocity commanded last as its setpoint and
is at least `k` closer to it with every update, while other polls and ticks go on. -/
theorem settled_loop_follows_commands (undefinedCast : ℚ → OdValue) {s : DriveSimulator ℚ}
    (hReach : s.Reachable (.exact undefinedCast)) (hDeferred : s.deferredFsm = true)
    {limit rate k : ℤ} (hRate : 0 ≤ rate) (hk : 0 < k) (hMotion : s.motion.WithinLimit limit rate)
    {c : DriveController} (hEnabled : c.enabled = true) (hController : c.WithinLimit limit rate)
    {events : List (LoopEvent ℚ)}
    (hCourse : EveryStep (recordStep (DriveSimulator.loopStep (.exact undefinedCast))
        (recordCourse (.exact undefinedCast)))
      (FollowsCourse limit rate k) ((s, ⟨c, .readStatusword⟩), {}) events) :
    let config := run (recordStep (DriveSimulator.loopStep (.exact undefinedCast))
      (recordCourse (.exact undefinedCast))) ((s, ⟨c, .readStatusword⟩), {}) events
    config.2.poll = .finished →
      config.1.1.motion.target = commanded c.targetVelocity events ∧
      |config.1.1.motion.target.toInt - config.1.1.motion.velocity.toInt| ≤
        max 0 (2 * limit - k * config.2.updates) := by
  obtain ⟨d, rfl⟩ := Drive.exists_of_reachable _ hReach
  let Inv (config : (DriveSimulator ℚ × DriveControllerNode) × Course) : Prop :=
    ∃ d : Drive ℚ, config.1.1 = d.toSimulator (.exact undefinedCast) ∧
      Drive.Tracks undefinedCast limit rate k d config.1.2 config.2
  have hStart : Inv ((d.toSimulator (.exact undefinedCast), ⟨c, .readStatusword⟩), {}) :=
    ⟨d, rfl,
      { deferred := hDeferred
        enabled := hEnabled
        settles := LoopView.settles_start rfl
        tame := ⟨hMotion, hController, fun cmd hMem => absurd hMem List.not_mem_nil⟩
        delivers := Drive.delivers_awaited rfl rfl }⟩
  have hEnd : Inv (run (recordStep (DriveSimulator.loopStep (.exact undefinedCast))
      (recordCourse (.exact undefinedCast)))
      ((d.toSimulator (.exact undefinedCast), ⟨c, .readStatusword⟩), {}) events) := by
    refine EveryStep.invariant ?_ hStart hCourse
    intro config event hInv hAllowed
    obtain ⟨⟨_, node⟩, course⟩ := config
    obtain ⟨d, rfl, hTracks⟩ := hInv
    refine ⟨(Drive.loopStep (.exact undefinedCast) (d, node) event).1, ?_, ?_⟩
    · rw [recordStep, Drive.loopStep_toSimulator]
    · rw [recordStep, Drive.loopStep_toSimulator]
      exact hTracks.loopStep undefinedCast hRate hk hAllowed
  intro config hFinished
  have hLast := targetVelocity_run (.exact undefinedCast)
    ((d.toSimulator (.exact undefinedCast), ⟨c, .readStatusword⟩), {}) events
  obtain ⟨d, hState, hTracks⟩ := hEnd
  obtain ⟨hHas, hDistance⟩ := hTracks.delivers.finished hFinished
  rw [hState, Drive.motion_toSimulator]
  exact ⟨hHas.trans hLast, hDistance⟩

/-- A new drive settles, is sent to 200 and, a tenth of a second later, to -50. -/
def reversal : List (LoopEvent ℚ) :=
  [.fsmTimer] ++ List.replicate 6 .fsmThread ++ [.fsmTimer] ++ List.replicate 9 .fsmThread ++
    [.fsmTimer] ++ List.replicate 9 .fsmThread ++ [.fsmTimer] ++ List.replicate 5 .fsmThread ++
    [.fsmTimer, .cmdVelocity 200] ++ List.replicate 9 .fsmThread ++
    [.updateTimer (1 / 10), .cmdVelocity (-50)] ++ List.replicate 9 .fsmThread ++
    List.replicate 5 (.updateTimer (1 / 10))

/-- Half a second after the second command the drive runs at -50. -/
theorem settled_loop_follows_reversal :
    let config := run (recordStep (DriveSimulator.loopStep (.exact fun _ => 0))
      (recordCourse (.exact fun _ => 0)))
      (((DriveSimulator.initial (.exact fun _ => 0)).setFsmDeferred true, {}), {}) reversal
    config.1.1.motion.target = -50 ∧
      |config.1.1.motion.target.toInt - config.1.1.motion.velocity.toInt| ≤ 0 := by
  have hReach : ((DriveSimulator.initial (.exact fun _ => 0)).setFsmDeferred true).Reachable
      (.exact fun _ => 0) := ⟨[.setFsmDeferred true], rfl⟩
  have hMotion : ((DriveSimulator.initial (.exact fun _ => 0)).setFsmDeferred
      true).motion.WithinLimit 250 1000 := withinLimit_initial fun _ => 0
  have hCourse : EveryStep (recordStep (DriveSimulator.loopStep (.exact fun _ => 0))
      (recordCourse (.exact fun _ => 0))) (FollowsCourse 250 1000 100)
      (((DriveSimulator.initial (.exact fun _ => 0)).setFsmDeferred true, {}), {}) reversal := by
    decide +kernel
  have hUpdates : (run (recordStep (DriveSimulator.loopStep (.exact fun _ => 0))
      (recordCourse (.exact fun _ => 0)))
      (((DriveSimulator.initial (.exact fun _ => 0)).setFsmDeferred true, {}), {})
      reversal).2.updates = 5 := by
    decide +kernel
  have hFollows := settled_loop_follows_commands (fun _ => 0) hReach rfl
    (by decide) (by decide) hMotion rfl withinLimit_default hCourse (by decide +kernel)
  rw [hUpdates] at hFollows
  exact hFollows

end Ca1MotorCtrl
