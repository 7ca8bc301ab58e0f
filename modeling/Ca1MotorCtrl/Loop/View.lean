import Ca1MotorCtrl.Loop.ClosedLoop

/-! The closed loop in deferred mode, reduced to what decides its power state:
the drive's state machine, the pending word, the enable flag, and what is
left of the current poll. Every event of the loop is one action on this view. -/
namespace Ca1MotorCtrl

/-- A poll before its read, between its read and its step, or between its
step and its last write. Commands count by what they do to the Controlword. -/
inductive PollPhase where
  | idle
  | decided (state : DriveState)
  | batch (cmd : Option UInt16) (rest : List (Option UInt16))
  deriving DecidableEq, Repr

def PollPhase.ofBatch : List (Option UInt16) → PollPhase
  | [] => .idle
  | cmd :: rest => .batch cmd rest

structure LoopView where
  core : PowerCore
  pending : Option UInt16
  enabled : Bool
  poll : PollPhase
  deriving DecidableEq, Repr

inductive LoopAction where
  | rest
  | read
  | decide
  | write
  | tick
  | raise (code : UInt32)
  | enable (enabled : Bool)
  deriving DecidableEq, Repr

/-- The actions of the polling thread. -/
def LoopAction.Polls : LoopAction → Prop
  | .rest | .read | .decide | .write => True
  | .tick | .raise _ | .enable _ => False

namespace LoopView

/-- What an action does. An action that the poll is not ready for does nothing. -/
def step (v : LoopView) : LoopAction → LoopView
  | .rest => v
  | .read => { v with poll := .decided v.core.power.toDriveState }
  | .decide =>
      match v.poll with
      | .decided state => { v with poll := .ofBatch (DriveController.batch v.enabled state) }
      | _ => v
  | .write =>
      match v.poll with
      | .batch cmd rest => { v with pending := cmd <|> v.pending, poll := .ofBatch rest }
      | _ => v
  | .tick =>
      match v.pending with
      | some cw => { v with core := v.core.act (.applied cw), pending := none }
      | none => v
  | .raise code => { v with core := v.core.act (.raised code) }
  | .enable enabled => { v with enabled := enabled }

/-- The commands that the current poll has still to write. -/
def upcoming (v : LoopView) : List (Option UInt16) :=
  match v.poll with
  | .idle => []
  | .decided state => DriveController.batch v.enabled state
  | .batch cmd rest => cmd :: rest

/-- The current poll will replace the pending word. -/
def WillWrite (v : LoopView) : Prop := ∃ cw, some cw ∈ v.upcoming

@[simp] theorem upcoming_ofBatch (core : PowerCore) (pending : Option UInt16) (enabled : Bool)
    (cmds : List (Option UInt16)) :
    upcoming ⟨core, pending, enabled, .ofBatch cmds⟩ = cmds := by
  cases cmds <;> rfl

theorem not_willWrite_of_idle {v : LoopView} (hIdle : v.poll = .idle) : ¬v.WillWrite := by
  intro h
  obtain ⟨cw, hMem⟩ := h
  rw [upcoming, hIdle] at hMem
  cases hMem

/-- Between two reads the controller only works off its batch, as long as the
enable flag keeps its value. -/
theorem upcoming_step_sublist (v : LoopView) (action : LoopAction) (hRead : action ≠ .read)
    (hEnable : ∀ enabled, action = .enable enabled → enabled = v.enabled) :
    (v.step action).upcoming.Sublist v.upcoming := by
  obtain ⟨core, pending, enabled, poll⟩ := v
  cases action with
  | read => exact absurd rfl hRead
  | rest | raise code => exact List.Sublist.refl _
  | decide =>
      cases poll with
      | decided state =>
          simp only [step, upcoming_ofBatch]
          exact List.Sublist.refl _
      | _ => exact List.Sublist.refl _
  | write =>
      cases poll with
      | batch cmd rest =>
          simp only [step, upcoming_ofBatch]
          exact List.sublist_cons_self cmd rest
      | _ => exact List.Sublist.refl _
  | tick => cases pending <;> exact List.Sublist.refl _
  | enable data =>
      obtain rfl : data = enabled := hEnable data rfl
      exact List.Sublist.refl _

theorem enabled_step (v : LoopView) (action : LoopAction)
    (hEnable : ∀ enabled, action = .enable enabled → enabled = v.enabled) :
    (v.step action).enabled = v.enabled := by
  obtain ⟨core, pending, enabled, poll⟩ := v
  cases action with
  | decide | write => cases poll <;> rfl
  | tick => cases pending <;> rfl
  | enable data => exact hEnable data rfl
  | _ => rfl

/-- Only a tick clears the pending word, and only a word of the current poll
replaces it. -/
theorem pending_step (v : LoopView) (action : LoopAction) :
    (action = .tick ∧ (v.step action).pending = none) ∨ (v.step action).pending = v.pending ∨
      ∃ cw, some cw ∈ v.upcoming ∧ (v.step action).pending = some cw := by
  obtain ⟨core, pending, enabled, poll⟩ := v
  cases action with
  | tick => cases pending <;> exact Or.inl ⟨rfl, rfl⟩
  | decide => cases poll <;> exact Or.inr (Or.inl rfl)
  | write =>
      cases poll with
      | batch cmd rest =>
          cases cmd with
          | none => exact Or.inr (Or.inl rfl)
          | some cw => exact Or.inr (Or.inr ⟨cw, List.mem_cons_self, rfl⟩)
      | _ => exact Or.inr (Or.inl rfl)
  | _ => exact Or.inr (Or.inl rfl)

/-- The thread leaves the state machine and the enable flag alone. -/
theorem step_of_polls (v : LoopView) {action : LoopAction} (hPolls : action.Polls) :
    (v.step action).core = v.core ∧ (v.step action).enabled = v.enabled := by
  obtain ⟨core, pending, enabled, poll⟩ := v
  cases action with
  | rest | read => exact ⟨rfl, rfl⟩
  | decide | write => cases poll <;> exact ⟨rfl, rfl⟩
  | _ => exact hPolls.elim

theorem not_enable_of_polls {action : LoopAction} (hPolls : action.Polls) (enabled : Bool) :
    action ≠ .enable enabled := by
  intro h
  rw [h] at hPolls
  exact hPolls

/-- A word that is still to be written stays so until it is pending. -/
theorem willWrite_step (v : LoopView) (action : LoopAction) (hWrite : v.WillWrite)
    (hRead : action = .read → v.poll = .idle)
    (hEnable : ∀ enabled, action = .enable enabled → enabled = v.enabled) :
    (v.step action).WillWrite ∨ ∃ cw, some cw ∈ v.upcoming ∧ (v.step action).pending = some cw := by
  by_cases hAction : action = .read
  · exact absurd hWrite (not_willWrite_of_idle (hRead hAction))
  obtain ⟨cw, hMem⟩ := hWrite
  obtain ⟨core, pending, enabled, poll⟩ := v
  cases action with
  | read => exact absurd rfl hAction
  | rest | raise code => exact Or.inl ⟨cw, hMem⟩
  | decide =>
      cases poll with
      | decided state =>
          have hBatch : some cw ∈ DriveController.batch enabled state := hMem
          exact Or.inl ⟨cw, by simpa only [step, upcoming_ofBatch] using hBatch⟩
      | _ => exact Or.inl ⟨cw, hMem⟩
  | write =>
      cases poll with
      | batch cmd rest =>
          cases cmd with
          | none =>
              have hRest : some cw ∈ rest := by simpa [upcoming] using hMem
              exact Or.inl ⟨cw, by simpa only [step, upcoming_ofBatch] using hRest⟩
          | some word => exact Or.inr ⟨word, List.mem_cons_self, rfl⟩
      | _ => exact Or.inl ⟨cw, hMem⟩
  | tick => cases pending <;> exact Or.inl ⟨cw, hMem⟩
  | enable data =>
      obtain rfl : data = enabled := hEnable data rfl
      exact Or.inl ⟨cw, hMem⟩

end LoopView

/-- The poll that a phase of the FSM thread belongs to. -/
def Phase.view : Phase → PollPhase
  | .step raw => .decided (DriveController.decodeStatusword raw)
  | phase => .ofBatch (phase.remaining.map OdCommand.word?)

@[simp] theorem Phase.view_ofCommands (cmds : List OdCommand) :
    (ofCommands cmds).view = .ofBatch (cmds.map OdCommand.word?) := by
  cases cmds <;> rfl

theorem Phase.view_eq_idle_iff (phase : Phase) : phase.view = .idle ↔ phase.writesDone = true := by
  cases phase with
  | readErrorCode cmds => cases cmds <;> simp [view, writesDone, remaining, PollPhase.ofBatch]
  | readDisplay requested rest =>
      cases rest <;> simp [view, writesDone, remaining, PollPhase.ofBatch]
  | _ => simp [view, writesDone, remaining, PollPhase.ofBatch]

/-- The section under the mutex starts the batch for the decoded state. -/
theorem DriveControllerNode.view_stepController (node : DriveControllerNode) (raw : OdValue) :
    (node.stepController raw).1.controller.enabled = node.controller.enabled ∧
      (node.stepController raw).1.phase.view =
        .ofBatch (DriveController.batch node.controller.enabled
          (DriveController.decodeStatusword raw)) := by
  have hEnabled := node.controller.step_enabled raw
  rw [← node.controller.map_word?_step raw]
  unfold stepController
  generalize node.controller.step raw = result at *
  obtain ⟨controller, cmds⟩ := result
  simp only
  split
  · refine ⟨hEnabled, ?_⟩
    simp only
    split
    · rfl
    · exact Phase.view_ofCommands cmds
  · exact ⟨hEnabled, Phase.view_ofCommands cmds⟩

namespace Drive
variable {R : Type} (A : DoubleArith R)

/-- The word that waits for the next tick. -/
def pendingWord (d : Drive R) : Option UInt16 :=
  if d.mode = .deferred true then some (lowWord d.controlword) else none

def view (config : Drive R × DriveControllerNode) : LoopView where
  core := config.1.core
  pending := config.1.pendingWord
  enabled := config.2.controller.enabled
  poll := config.2.phase.view

/-- The action that an event amounts to. -/
def action (config : Drive R × DriveControllerNode) : LoopEvent R → LoopAction
  | .fsmThread =>
      match config.2.phase with
      | .readStatusword => .read
      | .step _ => .decide
      | .write _ _ => .write
      | _ => .rest
  | .cmdVelocity _ => .rest
  | .setEnable data => .enable data
  | .fsmTimer => .tick
  | .updateTimer dt =>
      match config.1.effect A (.update dt) with
      | .raised code => .raise code
      | _ => .rest
  | .injectFault => .raise ErrorCode.generic
  | .injectOverspeedFault => .raise ErrorCode.overspeed
  | .injectSensorTimeoutFault => .raise ErrorCode.sensorTimeout

/-- A write to a deferred drive holds its Controlword back and leaves the
state machine alone. -/
theorem write_of_deferred (d : Drive R) (cmd : OdCommand) (hMode : d.mode.isDeferred = true) :
    (d.step A cmd.operation).core = d.core ∧
      (d.step A cmd.operation).mode.isDeferred = true ∧
      (d.step A cmd.operation).pendingWord = (cmd.word? <|> d.pendingWord) := by
  have hDeferred : d.mode ≠ .immediate := by
    intro h
    rw [h] at hMode
    cases hMode
  refine ⟨?_, ?_⟩
  · have hIdle : d.effect A cmd.operation = .idle := by
      simp [OdCommand.operation, effect, hDeferred]
    rw [core_step, hIdle]
    rfl
  · simp only [OdCommand.operation, step, OdCommand.word?]
    cases hObject : Object.ofKey? (makeKey cmd.index cmd.subindex) with
    | none =>
        have hOther : ¬(cmd.index = Object.controlword.index ∧ cmd.subindex = 0) := by
          intro h
          obtain ⟨hIndex, hSub⟩ := h
          rw [hIndex, hSub] at hObject
          cases hObject
        rw [if_neg hOther]
        exact ⟨hMode, rfl⟩
    | some o =>
        obtain ⟨hIndex, hSub⟩ := (ofKey?_makeKey_eq_some_iff _ _ o).mp hObject
        rw [hIndex, hSub]
        cases o with
        | controlword =>
            cases hCase : d.mode with
            | immediate => exact absurd hCase hDeferred
            | deferred pending => simp [store, hCase, pendingWord, FsmMode.isDeferred]
        | _ => exact ⟨hMode, rfl⟩

/-- A tick applies the pending word. -/
theorem tick_of_deferred (d : Drive R) (hMode : d.mode.isDeferred = true) :
    (d.step A .updateFsm).mode.isDeferred = true ∧
      (d.step A .updateFsm).pendingWord = none ∧
      (d.step A .updateFsm).core = match d.pendingWord with
        | some cw => d.core.act (.applied cw)
        | none => d.core := by
  have hCore : (d.step A .updateFsm).core = d.core.act (d.effect A .updateFsm) :=
    d.core_step A .updateFsm
  by_cases hPending : d.mode = .deferred true
  · have hTick : d.step A .updateFsm =
        { d with mode := .deferred false }.applyWord (lowWord d.controlword) := by
      simp only [step, updateFsm, hPending]
    refine ⟨by rw [hTick]; rfl, by rw [hTick]; rfl, ?_⟩
    rw [hCore]
    simp [effect, pendingWord, hPending]
  · have hTick : d.step A .updateFsm = d := by
      simp only [step]
      unfold updateFsm
      split
      · exact absurd (by assumption) hPending
      · rfl
    refine ⟨hTick.symm ▸ hMode, by simp [hTick, pendingWord, hPending], ?_⟩
    rw [hCore]
    simp [effect, pendingWord, hPending, PowerCore.act]

/-- Reads do not change the drive. -/
theorem syncRead_services_fst (d : Drive R) (index : UInt16) (subindex : UInt8) :
    (DriveControllerNode.syncRead (services A) d index subindex).1 = d := by
  simp only [DriveControllerNode.syncRead, services]
  split <;> rfl

/-- The poll reads the state that the drive rests in. -/
theorem syncRead_services_statusword (d : Drive R) :
    DriveControllerNode.syncRead (services A) d Cia402Index.statusword 0 =
      (d, some (odValueOfUInt16 (DriveSimulator.encodeState d.power.toDriveState)), []) := by
  have hRead : (d.toSimulator A).read Cia402Index.statusword 0 =
      .ok (odValueOfUInt16 (DriveSimulator.encodeState d.power.toDriveState)) :=
    d.read_toSimulator A .statusword
  simp [DriveControllerNode.syncRead, services, DriveSimulator.handleRead, hRead]

theorem view_fsmThread (d : Drive R) (node : DriveControllerNode)
    (hMode : d.mode.isDeferred = true) :
    view (loopStep A (d, node) .fsmThread) =
        (view (d, node)).step (action A (d, node) .fsmThread) ∧
      (loopStep A (d, node) .fsmThread).1.mode.isDeferred = true := by
  obtain ⟨controller, phase⟩ := node
  simp only [loopStep, Ca1MotorCtrl.loopStep, DriveControllerNode.fsmThread, action]
  cases phase with
  | readStatusword =>
      rw [syncRead_services_statusword]
      refine ⟨?_, hMode⟩
      simp only [view, LoopView.step, Phase.view, decodeStatusword_encodeState]
      rfl
  | step raw =>
      obtain ⟨hEnabled, hPoll⟩ :=
        (DriveControllerNode.mk controller (.step raw)).view_stepController raw
      refine ⟨?_, hMode⟩
      simp only [view, hEnabled, hPoll]
      rfl
  | readErrorCode cmds =>
      simp only [view, syncRead_services_fst, Phase.view_ofCommands]
      exact ⟨rfl, hMode⟩
  | write cmd rest =>
      obtain ⟨hCore, hDeferred, hPending⟩ := d.write_of_deferred A cmd hMode
      have hServer : (DriveControllerNode.syncWrite (services A) d cmd.index cmd.subindex
          cmd.value).1 = d.step A cmd.operation := rfl
      simp only [view]
      split
      · exact ⟨by simp only [hServer, hCore, hPending]; rfl, hServer ▸ hDeferred⟩
      · refine ⟨?_, hServer ▸ hDeferred⟩
        simp only [hServer, hCore, hPending, Phase.view_ofCommands]
        rfl
  | readDisplay requested rest =>
      simp only [view, syncRead_services_fst, Phase.view_ofCommands]
      exact ⟨rfl, hMode⟩
  | readVelocity =>
      simp only [view, syncRead_services_fst]
      exact ⟨rfl, hMode⟩
  | readPosition =>
      simp only [view, syncRead_services_fst]
      exact ⟨rfl, hMode⟩

/-- The state machine and the poll of a drive change by the action only. -/
theorem view_loopStep (config : Drive R × DriveControllerNode) (event : LoopEvent R)
    (hMode : config.1.mode.isDeferred = true) :
    view (loopStep A config event) = (view config).step (action A config event) ∧
      (loopStep A config event).1.mode.isDeferred = true := by
  obtain ⟨d, node⟩ := config
  cases event with
  | fsmThread => exact view_fsmThread A d node hMode
  | fsmTimer =>
      obtain ⟨hDeferred, hPending, hCore⟩ := d.tick_of_deferred A hMode
      refine ⟨?_, hDeferred⟩
      simp only [loopStep, Ca1MotorCtrl.loopStep, view, action, LoopView.step, hPending, hCore]
      cases d.pendingWord <;> rfl
  | updateTimer dt =>
      obtain ⟨hKeepMode, hKeepWord⟩ := d.update_frame A dt
      have hCore : (d.update A dt).core = d.core.act (d.effect A (.update dt)) :=
        d.core_step A (.update dt)
      refine ⟨?_, hKeepMode ▸ hMode⟩
      simp only [loopStep, Ca1MotorCtrl.loopStep, view, action, step, hCore, pendingWord,
        hKeepMode, hKeepWord]
      rcases d.effect_update A dt with hEffect | hEffect <;> simp only [hEffect] <;> rfl
  | _ => exact ⟨rfl, hMode⟩

theorem action_fsmThread_eq_read_iff (d : Drive R) (node : DriveControllerNode) :
    action A (d, node) .fsmThread = .read ↔ node.phase = .readStatusword := by
  simp only [action]
  cases node.phase <;> simp

theorem poll_idle_of_action_read (d : Drive R) (node : DriveControllerNode)
    (hAction : action A (d, node) .fsmThread = .read) : (view (d, node)).poll = .idle := by
  have hPhase := (action_fsmThread_eq_read_iff A d node).mp hAction
  simp only [view, hPhase]
  rfl

/-- The thread polls; it neither ticks nor calls a setter. -/
theorem polls_fsmThread (d : Drive R) (node : DriveControllerNode) :
    (action A (d, node) .fsmThread).Polls := by
  simp only [action]
  cases node.phase <;> trivial

end Drive

end Ca1MotorCtrl
