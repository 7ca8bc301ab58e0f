import Ca1MotorCtrl.Loop.Setpoint
import Ca1MotorCtrl.Transition.Ranking

/-! The life of the FSM thread: it waits for both services of the simulator, polls
until the destructor clears `running_`, and then ends its poll and returns. The
services may time out or fail at any call. -/
namespace Ca1MotorCtrl

open Transition

/-- The next thing that `run` does: a turn of one of the two waiting loops, a test
of `running_`, or a transition of the poll. -/
inductive RunStage where
  | awaitRead
  | awaitWrite
  | checkRunning
  | loopHead
  | poll
  | returned
  deriving DecidableEq, Repr

/-- The node with its flag `running_` and the thread that the constructor starts. -/
structure RunningNode where
  node : DriveControllerNode := {}
  running : Bool := true
  stage : RunStage := .awaitRead
  deriving DecidableEq, Repr

inductive LifeEvent (R : Type) where
  /-- A turn of the thread; `ready` is what `wait_for_service` answers, if it is asked. -/
  | turn (ready : Bool)
  | destroy
  | cmdVelocity (data : OdValue)
  | setEnable (data : Bool)
  | server (op : Operation R)

def LifeEvent.isTurn {R : Type} : LifeEvent R → Bool
  | .turn _ => true
  | _ => false

/-- What the thread has seen, decided and done. -/
structure RunHistory where
  sawRead : Bool := false
  sawWrite : Bool := false
  decided : List OdCommand := []
  written : List OdCommand := []
  deriving DecidableEq, Repr

/-- A write of the mode is followed by a read. -/
def OdCommand.turns (cmd : OdCommand) : ℕ :=
  if cmd.index = Cia402Index.modesOfOperation then 2 else 1

/-- The transitions up to the end of the poll, at most. -/
def Phase.turnsLeft : Phase → ℕ
  | .readStatusword => 9
  | .step _ => 8
  | .readErrorCode cmds => 3 + (cmds.map OdCommand.turns).sum
  | .write cmd rest => 2 + ((cmd :: rest).map OdCommand.turns).sum
  | .readDisplay _ rest => 3 + (rest.map OdCommand.turns).sum
  | .readVelocity => 2
  | .readPosition => 1

namespace RunningNode
variable {Server R : Type} (services : Services Server) (act : Server → Operation R → Server)

/-- One transition of `run`. -/
def runTurn (server : Server) (t : RunningNode) (ready : Bool) : Server × RunningNode :=
  match t.stage with
  | .awaitRead => (server, if t.running && !ready then t else { t with stage := .awaitWrite })
  | .awaitWrite => (server, if t.running && !ready then t else { t with stage := .checkRunning })
  | .checkRunning => (server, { t with stage := if t.running then .loopHead else .returned })
  | .loopHead => (server, { t with stage := if t.running then .poll else .returned })
  | .poll =>
      let (server, node, _) := DriveControllerNode.fsmThread services server t.node
      (server,
        { t with
          node := node
          stage := if node.phase = .readStatusword then .loopHead else .poll })
  | .returned => (server, t)

def lifeStep (config : Server × RunningNode) : LifeEvent R → Server × RunningNode
  | .turn ready => runTurn services config.1 config.2 ready
  | .destroy => (config.1, { config.2 with running := false })
  | .cmdVelocity data => (config.1, { config.2 with node := config.2.node.cmdVelocity data })
  | .setEnable data => (config.1, { config.2 with node := (config.2.node.setEnable data).1 })
  | .server op => (act config.1 op, config.2)

def recordRun (history : RunHistory) (config : Server × RunningNode) : LifeEvent R → RunHistory
  | .turn ready =>
      match config.2.stage with
      | .awaitRead => { history with sawRead := history.sawRead || config.2.running && ready }
      | .awaitWrite => { history with sawWrite := history.sawWrite || config.2.running && ready }
      | .poll =>
          match config.2.node.phase with
          | .step raw =>
              { history with decided := history.decided ++ (config.2.node.controller.step raw).2 }
          | .write cmd _ => { history with written := history.written ++ [cmd] }
          | _ => history
      | _ => history
  | _ => history

/-- The transitions until the thread has returned, once `running_` is cleared. -/
def turnsLeft (t : RunningNode) : ℕ :=
  match t.stage with
  | .awaitRead => 3
  | .awaitWrite => 2
  | .checkRunning | .loopHead => 1
  | .poll => t.node.phase.turnsLeft + 1
  | .returned => 0

end RunningNode

section Poll

theorem Phase.turnsLeft_pos (phase : Phase) : 0 < phase.turnsLeft := by
  cases phase <;> simp only [turnsLeft] <;> omega

theorem Phase.turnsLeft_ofCommands (cmds : List OdCommand) :
    (ofCommands cmds).turnsLeft = 2 + (cmds.map OdCommand.turns).sum := by
  cases cmds <;> rfl

/-- The longest batch configures the drive and enables it. -/
theorem DriveControllerNode.turnsLeft_stepController (node : DriveControllerNode) (raw : OdValue) :
    (node.stepController raw).1.phase.turnsLeft ≤ 7 := by
  have hBatch : ((node.controller.step raw).2.map OdCommand.turns).sum ≤ 5 ∧
      ((node.controller.step raw).1.state = .fault →
        ((node.controller.step raw).2.map OdCommand.turns).sum ≤ 2) := by
    simp only [DriveController.step, DriveController.commands]
    cases DriveController.decodeStatusword raw <;> cases node.controller.enabled <;>
      simp [OdCommand.turns, DriveController.controlwordCommand, Cia402Index.controlword,
        Cia402Index.modesOfOperation, Cia402Index.profileAcceleration,
        Cia402Index.profileDeceleration, Cia402Index.targetVelocity]
  unfold stepController
  generalize node.controller.step raw = result at *
  obtain ⟨controller, cmds⟩ := result
  simp only at hBatch ⊢
  split
  · simp only
    split
    next hFault =>
      have hShort := hBatch.2 hFault
      simp only [Phase.turnsLeft]
      omega
    next =>
      rw [Phase.turnsLeft_ofCommands]
      omega
  · rw [Phase.turnsLeft_ofCommands]
    omega

/-- Every transition of the poll brings its end closer. -/
theorem DriveControllerNode.turnsLeft_fsmThread {Server : Type} (services : Services Server)
    (server : Server) (node : DriveControllerNode) :
    (fsmThread services server node).2.1.phase = .readStatusword ∨
      (fsmThread services server node).2.1.phase.turnsLeft < node.phase.turnsLeft := by
  obtain ⟨controller, phase⟩ := node
  cases phase with
  | readStatusword =>
      simp only [fsmThread]
      split
      · exact Or.inl rfl
      · exact Or.inr (by simp only [Phase.turnsLeft]; omega)
  | step raw =>
      have hShort := turnsLeft_stepController ⟨controller, .step raw⟩ raw
      exact Or.inr (Nat.lt_succ_of_le hShort)
  | write cmd rest =>
      refine Or.inr ?_
      simp only [fsmThread]
      split
      next hMode =>
        simp only [Phase.turnsLeft, List.map_cons, List.sum_cons, OdCommand.turns, if_pos hMode]
        omega
      next hOther =>
        have hRest := Phase.turnsLeft_ofCommands rest
        simp only [Phase.turnsLeft, List.map_cons, List.sum_cons, OdCommand.turns,
          if_neg hOther] at hRest ⊢
        omega
  | readErrorCode cmds | readDisplay requested cmds =>
      have hRest := Phase.turnsLeft_ofCommands cmds
      exact Or.inr (by simp only [fsmThread, Phase.turnsLeft] at hRest ⊢; omega)
  | readVelocity => exact Or.inr (by simp only [fsmThread, Phase.turnsLeft]; omega)
  | readPosition => exact Or.inl rfl

theorem DriveControllerNode.remaining_fsmThread_readStatusword {Server : Type}
    (services : Services Server) (server : Server) (c : DriveController) :
    (fsmThread services server ⟨c, .readStatusword⟩).2.1.phase.remaining = [] := by
  simp only [fsmThread]
  split <;> rfl

end Poll

namespace RunningNode
variable {Server R : Type} (services : Services Server) (act : Server → Operation R → Server)

/-- What holds from the constructor on. A thread that has left its waiting loops
with `running_` still set has seen both services. -/
structure WellFormed (t : RunningNode) (history : RunHistory) : Prop where
  turns : t.node.phase.turnsLeft ≤ 9
  phase : t.stage ≠ .poll → t.node.phase = .readStatusword
  batches : history.decided = history.written ++ t.node.phase.remaining
  sawRead : t.running = true → t.stage ≠ .awaitRead → history.sawRead = true
  sawWrite : t.running = true → t.stage ≠ .awaitRead → t.stage ≠ .awaitWrite →
    history.sawWrite = true
  ready : t.stage = .loopHead ∨ t.stage = .poll →
    history.sawRead = true ∧ history.sawWrite = true

variable {server : Server} {t : RunningNode} {history : RunHistory}

/-- In a poll the batch is what has been written of it and what remains. -/
theorem WellFormed.batches_poll (h : WellFormed t history) (hStage : t.stage = .poll)
    (ready : Bool) :
    (recordRun history (server, t) (.turn ready : LifeEvent R)).decided =
      (recordRun history (server, t) (.turn ready : LifeEvent R)).written ++
        (DriveControllerNode.fsmThread services server t.node).2.1.phase.remaining := by
  have hBatches := h.batches
  obtain ⟨⟨controller, phase⟩, running, stage⟩ := t
  obtain rfl : stage = .poll := hStage
  cases phase with
  | readStatusword =>
      have hRemaining :=
        DriveControllerNode.remaining_fsmThread_readStatusword services server controller
      rw [hRemaining]
      exact hBatches
  | step raw =>
      have hRemaining := DriveControllerNode.remaining_stepController ⟨controller, .step raw⟩ raw
      have hDone : history.decided = history.written := hBatches.trans (List.append_nil _)
      simp only [recordRun, DriveControllerNode.fsmThread, hRemaining, hDone]
  | write cmd rest =>
      rw [(DriveControllerNode.fsmThread_write services server controller cmd rest).2]
      simp only [recordRun]
      exact hBatches.trans (List.append_cons _ _ _)
  | readErrorCode cmds | readDisplay requested cmds =>
      simp only [recordRun, DriveControllerNode.fsmThread, Phase.remaining_ofCommands]
      exact hBatches
  | readVelocity | readPosition => exact hBatches

theorem WellFormed.poll (h : WellFormed t history) (hStage : t.stage = .poll) (ready : Bool) :
    WellFormed (runTurn services server t ready).2
      (recordRun history (server, t) (.turn ready : LifeEvent R)) := by
  have hTurn : (runTurn services server t ready).2 =
      { t with
        node := (DriveControllerNode.fsmThread services server t.node).2.1
        stage :=
          if (DriveControllerNode.fsmThread services server t.node).2.1.phase = .readStatusword
          then .loopHead else .poll } := by
    simp only [runTurn, hStage]
  have hSaw : (recordRun history (server, t) (.turn ready : LifeEvent R)).sawRead = true ∧
      (recordRun history (server, t) (.turn ready : LifeEvent R)).sawWrite = true := by
    have hReady := h.ready (Or.inr hStage)
    simp only [recordRun, hStage]
    split <;> exact hReady
  rw [hTurn]
  exact
    { turns := by
        rcases DriveControllerNode.turnsLeft_fsmThread services server t.node with hEnd | hLess
        · rw [hEnd]
          exact Nat.le_refl 9
        · exact hLess.le.trans h.turns
      phase := by
        intro hOther
        by_contra hPhase
        exact hOther (if_neg hPhase)
      batches := h.batches_poll services hStage ready
      sawRead := fun _ _ => hSaw.1
      sawWrite := fun _ _ _ => hSaw.2
      ready := fun _ => hSaw }

/-- Outside a poll only the stage and the sightings change. -/
theorem WellFormed.wait (h : WellFormed t history) (hStage : t.stage ≠ .poll) {stage : RunStage}
    {sawRead sawWrite : Bool} (hRead : t.running = true → stage ≠ .awaitRead → sawRead = true)
    (hWrite : t.running = true → stage ≠ .awaitRead → stage ≠ .awaitWrite → sawWrite = true)
    (hReady : stage = .loopHead ∨ stage = .poll → t.running = true) :
    WellFormed { t with stage := stage }
      { history with sawRead := sawRead, sawWrite := sawWrite } where
  turns := h.turns
  phase _ := h.phase hStage
  batches := h.batches
  sawRead := hRead
  sawWrite := hWrite
  ready hActive := by
    have hRunning := hReady hActive
    rcases hActive with rfl | rfl
    · exact ⟨hRead hRunning nofun, hWrite hRunning nofun nofun⟩
    · exact ⟨hRead hRunning nofun, hWrite hRunning nofun nofun⟩

theorem WellFormed.awaitRead (h : WellFormed t history) (hStage : t.stage = .awaitRead)
    (ready : Bool) : WellFormed (runTurn services server t ready).2
      (recordRun history (server, t) (.turn ready : LifeEvent R)) := by
  have hNext : (runTurn services server t ready).2 =
      { t with stage := if t.running && !ready then .awaitRead else .awaitWrite } := by
    obtain ⟨node, running, stage⟩ := t
    obtain rfl : stage = .awaitRead := hStage
    simp only [runTurn]
    split <;> rfl
  have hSaw : recordRun history (server, t) (.turn ready : LifeEvent R) =
      { history with sawRead := history.sawRead || t.running && ready } := by
    simp only [recordRun, hStage]
  rw [hNext, hSaw]
  refine h.wait (by rw [hStage]; nofun) ?_ ?_ ?_
  · intro hRunning
    cases ready <;> simp [hRunning]
  · cases ready <;> cases t.running <;> simp
  · cases ready <;> cases t.running <;> simp

theorem WellFormed.awaitWrite (h : WellFormed t history) (hStage : t.stage = .awaitWrite)
    (ready : Bool) : WellFormed (runTurn services server t ready).2
      (recordRun history (server, t) (.turn ready : LifeEvent R)) := by
  have hNext : (runTurn services server t ready).2 =
      { t with stage := if t.running && !ready then .awaitWrite else .checkRunning } := by
    obtain ⟨node, running, stage⟩ := t
    obtain rfl : stage = .awaitWrite := hStage
    simp only [runTurn]
    split <;> rfl
  have hSaw : recordRun history (server, t) (.turn ready : LifeEvent R) =
      { history with sawWrite := history.sawWrite || t.running && ready } := by
    simp only [recordRun, hStage]
  rw [hNext, hSaw]
  refine h.wait (by rw [hStage]; nofun) ?_ ?_ ?_
  · exact fun hRunning _ => h.sawRead hRunning (by rw [hStage]; nofun)
  · intro hRunning
    cases ready <;> simp [hRunning]
  · cases ready <;> cases t.running <;> simp

/-- Both tests of `running_`. -/
theorem WellFormed.test (h : WellFormed t history)
    (hStage : t.stage = .checkRunning ∨ t.stage = .loopHead) (ready : Bool) :
    WellFormed (runTurn services server t ready).2
      (recordRun history (server, t) (.turn ready : LifeEvent R)) := by
  have hOutside : t.stage ≠ .poll := by
    rcases hStage with hStage | hStage <;> rw [hStage] <;> nofun
  have hRead : t.running = true → history.sawRead = true := fun hRunning =>
    h.sawRead hRunning (by rcases hStage with hStage | hStage <;> rw [hStage] <;> nofun)
  have hWrite : t.running = true → history.sawWrite = true := fun hRunning =>
    h.sawWrite hRunning (by rcases hStage with hStage | hStage <;> rw [hStage] <;> nofun)
      (by rcases hStage with hStage | hStage <;> rw [hStage] <;> nofun)
  have hSaw : recordRun history (server, t) (.turn ready : LifeEvent R) = history := by
    rcases hStage with hStage | hStage <;> simp only [recordRun, hStage]
  rw [hSaw]
  rcases hStage with hStage | hStage
  · simp only [runTurn, hStage]
    exact h.wait hOutside (fun hRunning _ => hRead hRunning) (fun hRunning _ _ => hWrite hRunning)
      (by cases t.running <;> simp)
  · simp only [runTurn, hStage]
    exact h.wait hOutside (fun hRunning _ => hRead hRunning) (fun hRunning _ _ => hWrite hRunning)
      (by cases t.running <;> simp)

theorem wellFormed_step (h : WellFormed t history) (event : LifeEvent R) :
    WellFormed (lifeStep services act (server, t) event).2
      (recordRun history (server, t) event) := by
  cases event with
  | turn ready =>
      cases hStage : t.stage with
      | awaitRead => exact h.awaitRead services hStage ready
      | awaitWrite => exact h.awaitWrite services hStage ready
      | checkRunning => exact h.test services (Or.inl hStage) ready
      | loopHead => exact h.test services (Or.inr hStage) ready
      | poll => exact h.poll services hStage ready
      | returned =>
          simp only [lifeStep, runTurn, recordRun, hStage]
          exact h
  | destroy => exact ⟨h.turns, h.phase, h.batches, nofun, nofun, h.ready⟩
  | _ => exact ⟨h.turns, h.phase, h.batches, h.sawRead, h.sawWrite, h.ready⟩

theorem wellFormed_run (server : Server) (events : List (LifeEvent R)) :
    let config := run (recordStep (lifeStep services act) recordRun) ((server, {}), {}) events
    WellFormed config.1.2 config.2 := by
  have hStart : WellFormed {} {} :=
    ⟨Nat.le_refl 9, fun _ => rfl, rfl, fun _ hOther => absurd rfl hOther,
      fun _ hOther => absurd rfl hOther, by simp⟩
  exact run_invariant
    (fun config : (Server × RunningNode) × RunHistory => WellFormed config.1.2 config.2)
    (fun config event h => wellFormed_step services act h event) hStart events

theorem WellFormed.turnsLeft_le (h : WellFormed t history) : t.turnsLeft ≤ 10 := by
  have hPhase := h.turns
  unfold turnsLeft
  split <;> omega

theorem running_runTurn (ready : Bool) :
    (runTurn services server t ready).2.running = t.running := by
  unfold runTurn
  split
  · split <;> rfl
  · split <;> rfl
  all_goals rfl

/-- Without `running_` every turn brings the end of the thread closer. -/
theorem turnsLeft_runTurn (hRunning : t.running = false) (ready : Bool) :
    (runTurn services server t ready).2.turnsLeft ≤ t.turnsLeft - 1 := by
  obtain ⟨node, running, stage⟩ := t
  obtain rfl : running = false := hRunning
  cases stage with
  | poll =>
      have hPos := node.phase.turnsLeft_pos
      have hNext := DriveControllerNode.turnsLeft_fsmThread services server node
      simp only [runTurn, turnsLeft]
      by_cases hEnd : (DriveControllerNode.fsmThread services server node).2.1.phase =
          .readStatusword
      · rw [if_pos hEnd]
        exact hPos
      · rw [if_neg hEnd]
        exact Nat.succ_le_of_lt (hNext.resolve_left hEnd)
  | _ => simp [runTurn, turnsLeft]

theorem turnsLeft_run {config : (Server × RunningNode) × RunHistory}
    (hRunning : config.1.2.running = false) (events : List (LifeEvent R)) :
    (run (recordStep (lifeStep services act) recordRun) config events).1.2.turnsLeft ≤
      config.1.2.turnsLeft - events.countP LifeEvent.isTurn := by
  refine rank_run_le (fun config : (Server × RunningNode) × RunHistory => config.1.2.turnsLeft)
    LifeEvent.isTurn
    (fun config : (Server × RunningNode) × RunHistory => config.1.2.running = false)
    ?_ ?_ ?_ hRunning events
  · intro config event hRunning
    cases event with
    | turn ready => exact (running_runTurn services ready).trans hRunning
    | destroy => rfl
    | _ => exact hRunning
  · intro config event hRunning hTurn
    cases event with
    | turn ready => exact turnsLeft_runTurn services hRunning ready
    | _ => cases hTurn
  · intro config event _ hOther
    cases event with
    | turn ready => cases hOther
    | _ => exact Nat.le_refl _

/-- Only a thread that has returned has no turns left. -/
theorem stage_of_turnsLeft (h : t.turnsLeft = 0) : t.stage = .returned := by
  unfold turnsLeft at h
  split at h
  all_goals first | assumption | omega

end RunningNode

section System
variable {Server R : Type} (services : Services Server) (act : Server → Operation R → Server)

open RunningNode

/-- The destructor does not wait for ever: ten turns after it has cleared `running_`
the thread has returned, whichever calls fail or time out, and it has made all
writes of every batch that it has started. -/
theorem destroyed_thread_returns (server : Server) (before : List (LifeEvent R))
    {after : List (LifeEvent R)} (hTurns : 10 ≤ after.countP LifeEvent.isTurn) :
    let config := run (recordStep (lifeStep services act) recordRun) ((server, {}), {})
      (before ++ .destroy :: after)
    config.1.2.stage = .returned ∧ config.2.written = config.2.decided := by
  intro config
  have hFormed : WellFormed config.1.2 config.2 := wellFormed_run services act server _
  have hReturned : config.1.2.stage = .returned := by
    let stopped := run (recordStep (lifeStep services act) recordRun) ((server, {}), {})
      (before ++ [.destroy])
    have hBound : stopped.1.2.turnsLeft ≤ 10 :=
      (wellFormed_run services act server (before ++ [.destroy])).turnsLeft_le
    have hStopped : stopped.1.2.running = false := by
      simp only [stopped, run_append, run_cons, run_nil]
      rfl
    have hRank := turnsLeft_run services act hStopped after
    have hRun : run (recordStep (lifeStep services act) recordRun) stopped after = config := by
      simp only [stopped, config, run_append, run_cons, run_nil]
    rw [hRun] at hRank
    exact stage_of_turnsLeft (by omega)
  have hPhase := hFormed.phase (by rw [hReturned]; nofun)
  have hBatches := hFormed.batches
  rw [hPhase] at hBatches
  exact ⟨hReturned, (hBatches.trans (List.append_nil _)).symm⟩

/-- The thread makes no call before `wait_for_service` has reported both services. -/
theorem thread_waits_for_services (server : Server) (events : List (LifeEvent R)) :
    EveryStep (recordStep (lifeStep services act) recordRun)
      (fun config event => event.isTurn = true →
        (lifeStep services act config.1 event).1 ≠ config.1.1 →
          config.2.sawRead = true ∧ config.2.sawWrite = true)
      ((server, {}), {}) events := by
  refine everyStep_of_invariant
    (fun config : (Server × RunningNode) × RunHistory => WellFormed config.1.2 config.2)
    ?_ (wellFormed_run services act server []) events
  intro config event h
  refine ⟨fun hTurn hCall => ?_, wellFormed_step services act h event⟩
  cases event with
  | turn ready =>
      cases hStage : config.1.2.stage with
      | poll => exact h.ready (Or.inr hStage)
      | _ =>
          refine absurd ?_ hCall
          simp only [lifeStep, runTurn, hStage]
  | _ => cases hTurn

end System

/-- Destroyed between its step and its first write, the thread still makes the write. -/
theorem destroyed_thread_returns_after_write :
    let config := run (recordStep (RunningNode.lifeStep DriveSimulator.services
        (DriveSimulator.step (.exact fun _ => 0))) RunningNode.recordRun)
      ((DriveSimulator.initial (.exact fun _ => 0), {}), {})
      (List.replicate 6 (.turn true) ++ .destroy :: List.replicate 10 (.turn false))
    config.1.2.stage = .returned ∧ config.2.written = config.2.decided :=
  destroyed_thread_returns DriveSimulator.services (DriveSimulator.step (.exact fun _ => 0))
    (DriveSimulator.initial (.exact fun _ => 0)) (List.replicate 6 (.turn true)) (by decide)

end Ca1MotorCtrl
