import Ca1MotorCtrl.Loop.View

/-! The closed loop settles. Each power state has a distance from the state the
controller aims at, and the command that the controller answers it with
shortens it. A whole poll between two ticks puts such a word in place, so the
distance falls with every tick after the first, and a poll cut by the tick
that arrives has nothing left to write that would lead away again. -/
namespace Ca1MotorCtrl

open Transition

namespace PowerState

/-- Where the controller takes the drive. -/
def goal (enabled : Bool) : PowerState := if enabled then .operationEnabled else .switchedOn

/-- The number of words from each state to the goal. -/
def distance (enabled : Bool) : PowerState → ℕ
  | .fault => if enabled then 4 else 3
  | .switchOnDisabled => if enabled then 3 else 2
  | .readyToSwitchOn => if enabled then 2 else 1
  | .switchedOn => if enabled then 1 else 0
  | .operationEnabled => if enabled then 0 else 1
  | .quickStopActive => if enabled then 1 else 2

theorem distance_eq_zero_iff (enabled : Bool) (power : PowerState) :
    power.distance enabled = 0 ↔ power = goal enabled := by
  cases enabled <;> cases power <;> decide

theorem distance_le (enabled : Bool) (power : PowerState) : power.distance enabled ≤ 4 := by
  cases enabled <;> cases power <;> decide

theorem goal_ne_fault (enabled : Bool) : goal enabled ≠ .fault := by
  cases enabled <;> decide

/-- Away from the goal the controller writes a word. -/
theorem exists_word_of_ne_goal {enabled : Bool} {power : PowerState} (h : power ≠ goal enabled) :
    ∃ cw, some cw ∈ DriveController.batch enabled power.toDriveState := by
  cases enabled <;> cases power <;> simp_all [DriveController.batch, toDriveState, goal]

/-- Every answer leads closer to the goal. -/
theorem distance_next_lt {enabled : Bool} {power : PowerState} {command : Command}
    (h : power.answer enabled = some command) :
    (power.next command).distance enabled < power.distance enabled := by
  cases enabled <;> cases power <;> cases h <;> decide

/-- An answer to a fault leaves it with or without a fault-reset edge. -/
theorem distance_apply_lt {enabled : Bool} {power : PowerState} {cw : UInt16} (edge : Bool)
    (h : power.answer enabled = some (.ofWord cw)) :
    (power.apply edge cw).distance enabled < power.distance enabled := by
  by_cases hFault : power = .fault
  · subst hFault
    have hReset : fault.apply edge cw = .switchOnDisabled := by
      simp [apply, ← Option.some.inj h, next]
    rw [hReset]
    cases enabled <;> decide
  · rw [apply_of_ne_fault hFault]
    exact distance_next_lt h

/-- The answer in a state from which the goal is one transition away keeps the
drive at the goal. -/
theorem next_goal_of_arrives {enabled edge : Bool} {power : PowerState}
    {command answer : Command} (hAnswer : power.answer enabled = some answer)
    (h : (if edge && power == .fault then .switchOnDisabled else power.next command) =
      goal enabled) : (goal enabled).next answer = goal enabled := by
  revert h
  cases enabled <;> cases power <;> cases hAnswer <;> cases edge <;> cases command <;> decide

/-- At the goal the controller has no command. -/
theorem answer_goal (enabled : Bool) : (goal enabled).answer enabled = none := by
  cases enabled <;> rfl

end PowerState

namespace LoopView

/-- The word answers the present state. -/
def Answers (v : LoopView) (cw : UInt16) : Prop :=
  v.core.power.answer v.enabled = some (.ofWord cw)

/-- What the current poll still writes answers the present state. -/
def Current (v : LoopView) : Prop := ∀ cw, some cw ∈ v.upcoming → v.Answers cw

/-- The pending word answers the present state. -/
def PendingCurrent (v : LoopView) : Prop := ∃ cw, v.pending = some cw ∧ v.Answers cw

/-- Neither the pending word nor the current poll leads away from the goal. -/
def StaysAtGoal (v : LoopView) : Prop :=
  ∀ cw, v.pending = some cw ∨ some cw ∈ v.upcoming →
    (PowerState.goal v.enabled).next (.ofWord cw) = .goal v.enabled

/-- What holds after some ticks, with a whole poll since the last one awaited,
running or finished. Five is the greatest distance and one tick for a word
that was pending at the start. -/
structure Settles (v : LoopView) (ticks : ℕ) (progress : PollProgress) : Prop where
  distance : 0 < ticks → v.core.power.distance v.enabled ≤ 5 - ticks
  staysAtGoal : 0 < ticks → v.core.power = .goal v.enabled → v.StaysAtGoal
  current : ticks = 0 ∨ progress ≠ .awaited → v.Current
  running : progress = .running → v.core.power ≠ .goal v.enabled →
    v.PendingCurrent ∨ v.WillWrite
  finished : progress = .finished → v.core.power ≠ .goal v.enabled → v.PendingCurrent

section Polls
variable {v : LoopView} {action : LoopAction} (hPolls : action.Polls)

include hPolls

/-- The thread changes neither the state nor what answers it. -/
theorem answers_step_iff (cw : UInt16) : (v.step action).Answers cw ↔ v.Answers cw := by
  obtain ⟨hCore, hEnabled⟩ := v.step_of_polls hPolls
  rw [Answers, Answers, hCore, hEnabled]

/-- What is left to write answers the state that the poll has read. -/
theorem current_step (h : v.Current) : (v.step action).Current := by
  intro cw hMem
  rw [answers_step_iff hPolls]
  by_cases hRead : action = .read
  · subst hRead
    exact PowerState.answer_of_mem_batch hMem
  · have hSublist := v.upcoming_step_sublist action hRead fun enabled hAction =>
      absurd hAction (not_enable_of_polls hPolls enabled)
    exact h cw (hSublist.subset hMem)

theorem pendingCurrent_of_pending {cw : UInt16} (h : v.Current) (hMem : some cw ∈ v.upcoming)
    (hPending : (v.step action).pending = some cw) : (v.step action).PendingCurrent :=
  ⟨cw, hPending, (answers_step_iff hPolls cw).mpr (h cw hMem)⟩

theorem pendingCurrent_step (h : v.Current) (hPending : v.PendingCurrent) :
    (v.step action).PendingCurrent := by
  rcases v.pending_step action with ⟨rfl, -⟩ | hSame | ⟨cw, hMem, hWord⟩
  · exact hPolls.elim
  · obtain ⟨cw, hWord, hAnswer⟩ := hPending
    exact ⟨cw, hSame.trans hWord, (answers_step_iff hPolls cw).mpr hAnswer⟩
  · exact pendingCurrent_of_pending hPolls h hMem hWord

theorem pendingCurrent_or_willWrite_step (h : v.Current)
    (hPending : v.PendingCurrent ∨ v.WillWrite) (hRead : action = .read → v.poll = .idle) :
    (v.step action).PendingCurrent ∨ (v.step action).WillWrite := by
  rcases hPending with hPending | hWrite
  · exact Or.inl (pendingCurrent_step hPolls h hPending)
  · rcases v.willWrite_step action hWrite hRead (fun enabled hAction =>
      absurd hAction (not_enable_of_polls hPolls enabled)) with hWrite | ⟨cw, hMem, hWord⟩
    · exact Or.inr hWrite
    · exact Or.inl (pendingCurrent_of_pending hPolls h hMem hWord)

theorem staysAtGoal_step (hGoal : v.core.power = .goal v.enabled) (h : v.StaysAtGoal) :
    (v.step action).StaysAtGoal := by
  obtain ⟨-, hEnabled⟩ := v.step_of_polls hPolls
  intro cw hNext
  rw [hEnabled]
  rcases hNext with hPending | hMem
  · rcases v.pending_step action with ⟨rfl, -⟩ | hSame | ⟨word, hMem, hWord⟩
    · exact hPolls.elim
    · exact h cw (Or.inl (hSame ▸ hPending))
    · obtain rfl : word = cw := Option.some.inj (hWord.symm.trans hPending)
      exact h word (Or.inr hMem)
  · by_cases hRead : action = .read
    · subst hRead
      have hAnswer : v.Answers cw := PowerState.answer_of_mem_batch hMem
      rw [Answers, hGoal, PowerState.answer_goal] at hAnswer
      cases hAnswer
    · have hSublist := v.upcoming_step_sublist action hRead fun enabled hAction =>
        absurd hAction (not_enable_of_polls hPolls enabled)
      exact h cw (Or.inr (hSublist.subset hMem))

/-- One transition of the thread keeps the invariant. -/
theorem settles_polls {ticks : ℕ} {progress : PollProgress} (h : v.Settles ticks progress)
    (hRead : action = .read → v.poll = .idle) : (v.step action).Settles ticks progress := by
  obtain ⟨hCore, hEnabled⟩ := v.step_of_polls hPolls
  constructor
  · rw [hCore, hEnabled]
    exact h.distance
  · rw [hCore, hEnabled]
    exact fun hTicks hGoal => staysAtGoal_step hPolls hGoal (h.staysAtGoal hTicks hGoal)
  · exact fun hProgress => current_step hPolls (h.current hProgress)
  · rw [hCore, hEnabled]
    intro hProgress hAway
    have hCurrent := h.current (Or.inr (by rw [hProgress]; nofun))
    exact pendingCurrent_or_willWrite_step hPolls hCurrent (h.running hProgress hAway) hRead
  · rw [hCore, hEnabled]
    intro hProgress hAway
    have hCurrent := h.current (Or.inr (by rw [hProgress]; nofun))
    exact pendingCurrent_step hPolls hCurrent (h.finished hProgress hAway)

end Polls

section Progress
variable {v : LoopView} {ticks : ℕ}

/-- Before the first tick and the first poll there is nothing to keep. -/
theorem settles_start (hIdle : v.poll = .idle) : v.Settles 0 .awaited where
  distance := nofun
  staysAtGoal := nofun
  current := fun _ cw hMem => absurd ⟨cw, hMem⟩ (not_willWrite_of_idle hIdle)
  running := nofun
  finished := nofun

/-- A poll that starts away from the goal will write a word. -/
theorem settles_read (h : v.Settles ticks .awaited) :
    (v.step .read).Settles ticks .running where
  distance := h.distance
  staysAtGoal := by
    intro hTicks hGoal
    have hPolls : LoopAction.Polls .read := trivial
    exact staysAtGoal_step hPolls hGoal (h.staysAtGoal hTicks hGoal)
  current := fun _ _ hMem => PowerState.answer_of_mem_batch hMem
  running := fun _ hAway => Or.inr (PowerState.exists_word_of_ne_goal hAway)
  finished := nofun

/-- A poll that has written everything has left an answer pending. -/
theorem settles_finished (h : v.Settles ticks .running) (hIdle : v.poll = .idle) :
    v.Settles ticks .finished where
  distance := h.distance
  staysAtGoal := h.staysAtGoal
  current := fun _ => h.current (Or.inr nofun)
  running := nofun
  finished := fun _ hAway => (h.running rfl hAway).resolve_right (not_willWrite_of_idle hIdle)

/-- What a poll cut by the arriving tick still writes keeps the drive there. -/
theorem staysAtGoal_tick (hCurrent : v.Current)
    (hGoal : (v.step .tick).core.power = .goal v.enabled) : (v.step .tick).StaysAtGoal := by
  obtain ⟨core, pending, enabled, poll⟩ := v
  cases pending with
  | none =>
      obtain hGoal : core.power = .goal enabled := hGoal
      rintro cw (hPending | hMem)
      · cases hPending
      · have hAnswer : core.power.answer enabled = some (.ofWord cw) := hCurrent cw hMem
        rw [hGoal, PowerState.answer_goal] at hAnswer
        cases hAnswer
  | some word =>
      rintro cw (hPending | hMem)
      · cases hPending
      · exact PowerState.next_goal_of_arrives (hCurrent cw hMem) hGoal

/-- After the first tick every tick shortens the distance or keeps it zero. -/
theorem distance_tick (hTicks : 0 < ticks) (h : v.Settles ticks .finished) :
    (v.step .tick).core.power.distance v.enabled ≤ 5 - (ticks + 1) := by
  by_cases hGoal : v.core.power = .goal v.enabled
  · have hArrived : (v.step .tick).core.power = .goal v.enabled := by
      have hStay := h.staysAtGoal hTicks hGoal
      obtain ⟨core, pending, enabled, poll⟩ := v
      obtain hGoal : core.power = .goal enabled := hGoal
      cases pending with
      | none => exact hGoal
      | some cw =>
          have hNext := hStay cw (Or.inl rfl)
          simp only [step, PowerCore.act, hGoal]
          rw [PowerState.apply_of_ne_fault (PowerState.goal_ne_fault enabled)]
          exact hNext
    rw [hArrived, (PowerState.distance_eq_zero_iff _ _).mpr rfl]
    exact Nat.zero_le _
  · obtain ⟨cw, hPending, hAnswer⟩ := h.finished rfl hGoal
    have hBefore := h.distance hTicks
    have hCloser := PowerState.distance_apply_lt (risingEdge v.core.prevControlword cw) hAnswer
    have hTick : (v.step .tick).core.power =
        v.core.power.apply (risingEdge v.core.prevControlword cw) cw := by
      simp only [step, hPending, PowerCore.act]
    rw [hTick]
    omega

/-- A tick applies an answer to the present state or leaves the goal alone. -/
theorem settles_tick {progress : PollProgress} (h : v.Settles ticks progress)
    (hPoll : ticks = 0 ∨ progress = .finished) : (v.step .tick).Settles (ticks + 1) .awaited := by
  have hEnabled : (v.step .tick).enabled = v.enabled := v.enabled_step .tick nofun
  have hCurrent : v.Current := h.current (hPoll.imp_right (by rintro rfl; nofun))
  constructor
  · intro _
    rw [hEnabled]
    by_cases hTicks : ticks = 0
    · rw [hTicks]
      exact PowerState.distance_le _ _
    · obtain rfl : progress = .finished := hPoll.resolve_left hTicks
      exact distance_tick (Nat.pos_of_ne_zero hTicks) h
  · rw [hEnabled]
    exact fun _ hGoal => staysAtGoal_tick hCurrent hGoal
  · exact fun hProgress => absurd hProgress (by simp)
  · nofun
  · nofun

/-- The fifth tick is the last one needed. -/
theorem power_eq_goal {progress : PollProgress} (h : v.Settles ticks progress)
    (hTicks : 5 ≤ ticks) : v.core.power = .goal v.enabled := by
  have hDistance := h.distance (by omega)
  exact (PowerState.distance_eq_zero_iff _ _).mp (by omega)

end Progress

end LoopView

section System
variable {R : Type} (A : DoubleArith R)

/-- The ticks so far, and the first whole poll since the last one. -/
structure Schedule where
  ticks : ℕ := 0
  poll : PollProgress := .awaited
  deriving DecidableEq, Repr

def recordSchedule (schedule : Schedule) (config : DriveSimulator R × DriveControllerNode) :
    LoopEvent R → Schedule
  | .fsmTimer => ⟨schedule.ticks + 1, .awaited⟩
  | event => { schedule with poll := recordPoll A schedule.poll config event }

/-- Polls, velocity commands, physics updates that raise no fault, and ticks
with a whole poll between any two of them. -/
def FollowsSchedule (config : (DriveSimulator R × DriveControllerNode) × Schedule) :
    LoopEvent R → Prop
  | .fsmThread | .cmdVelocity _ => True
  | .fsmTimer => config.2.ticks = 0 ∨ config.2.poll = .finished
  | .updateTimer dt => config.1.1.overspeed A dt = false
  | _ => False

instance (config : (DriveSimulator R × DriveControllerNode) × Schedule) :
    (event : LoopEvent R) → Decidable (FollowsSchedule A config event)
  | .fsmThread | .cmdVelocity _ => isTrue trivial
  | .fsmTimer =>
      inferInstanceAs (Decidable (config.2.ticks = 0 ∨ config.2.poll = .finished))
  | .updateTimer dt => inferInstanceAs (Decidable (config.1.1.overspeed A dt = false))
  | .setEnable _ | .injectFault | .injectOverspeedFault | .injectSensorTimeoutFault =>
      isFalse id

namespace Drive

/-- A physics update without overspeed leaves the state machine alone. -/
theorem action_updateTimer_of_not_overspeed (d : Drive R) (node : DriveControllerNode) {dt : R}
    (h : (d.toSimulator A).overspeed A dt = false) :
    action A (d, node) (.updateTimer dt) = .rest := by
  have hEffect : d.effect A (.update dt) = .idle := by
    rw [← d.effect_toSimulator A]
    simp only [DriveSimulator.effect, h, Bool.false_eq_true, if_false]
  simp only [action, hEffect]

/-- One transition of the thread keeps the invariant. -/
theorem settles_fsmThread (d : Drive R) (node : DriveControllerNode) (schedule : Schedule)
    (hDeferred : d.mode.isDeferred = true)
    (h : (view (d, node)).Settles schedule.ticks schedule.poll) :
    (view (loopStep A (d, node) .fsmThread)).Settles schedule.ticks
      (recordPoll A schedule.poll (d.toSimulator A, node) .fsmThread) := by
  have hView := (view_loopStep A (d, node) .fsmThread hDeferred).1
  have hKeep : (view (loopStep A (d, node) .fsmThread)).Settles schedule.ticks schedule.poll := by
    rw [hView]
    exact LoopView.settles_polls (d.polls_fsmThread A node) h (d.poll_idle_of_action_read A node)
  obtain ⟨ticks, poll⟩ := schedule
  cases poll with
  | awaited =>
      simp only [recordPoll]
      split
      next hPhase =>
        rw [hView, (action_fsmThread_eq_read_iff A d node).mpr hPhase]
        exact LoopView.settles_read h
      next => exact hKeep
  | running =>
      simp only [recordPoll, loopStep_toSimulator]
      split
      next hDone => exact LoopView.settles_finished hKeep ((Phase.view_eq_idle_iff _).mpr hDone)
      next => exact hKeep
  | finished => exact hKeep

/-- One scheduled event keeps the enable flag and the invariant. -/
theorem settles_loopStep (d : Drive R) (node : DriveControllerNode) (schedule : Schedule)
    (event : LoopEvent R) (hDeferred : d.mode.isDeferred = true)
    (h : (view (d, node)).Settles schedule.ticks schedule.poll)
    (hSchedule : FollowsSchedule A ((d.toSimulator A, node), schedule) event) :
    (loopStep A (d, node) event).2.controller.enabled = node.controller.enabled ∧
      (view (loopStep A (d, node) event)).Settles
        (recordSchedule A schedule (d.toSimulator A, node) event).ticks
        (recordSchedule A schedule (d.toSimulator A, node) event).poll := by
  have hView := (view_loopStep A (d, node) event hDeferred).1
  have hEnabled : (loopStep A (d, node) event).2.controller.enabled =
      ((view (d, node)).step (action A (d, node) event)).enabled :=
    congrArg LoopView.enabled hView
  rw [hEnabled]
  cases event with
  | fsmThread =>
      exact ⟨(LoopView.step_of_polls _ (d.polls_fsmThread A node)).2,
        d.settles_fsmThread A node schedule hDeferred h⟩
  | cmdVelocity data => exact ⟨rfl, h⟩
  | fsmTimer =>
      exact ⟨LoopView.enabled_step _ _ nofun, hView ▸ LoopView.settles_tick h hSchedule⟩
  | updateTimer dt =>
      rw [d.action_updateTimer_of_not_overspeed A node hSchedule] at hView ⊢
      exact ⟨rfl, hView ▸ h⟩
  | _ => exact hSchedule.elim

end Drive

/-- The closed loop settles. From any reachable state in deferred mode with a
poll about to start, the drive is where the controller aims at from the fifth
tick on, whatever word was pending and however the polls straddle the ticks. -/
theorem loop_settles {s : DriveSimulator R} (hReach : s.Reachable A)
    (hDeferred : s.deferredFsm = true) (controller : DriveController) {events : List (LoopEvent R)}
    (hSchedule : EveryStep (recordStep (DriveSimulator.loopStep A) (recordSchedule A))
      (FollowsSchedule A) ((s, ⟨controller, .readStatusword⟩), {}) events) :
    let config := run (recordStep (DriveSimulator.loopStep A) (recordSchedule A))
      ((s, ⟨controller, .readStatusword⟩), {}) events
    5 ≤ config.2.ticks →
      config.1.1.state = if controller.enabled then .operationEnabled else .switchedOn := by
  obtain ⟨d, rfl⟩ := Drive.exists_of_reachable A hReach
  let Inv (config : (DriveSimulator R × DriveControllerNode) × Schedule) : Prop :=
    ∃ d : Drive R, config.1.1 = d.toSimulator A ∧ d.mode.isDeferred = true ∧
      config.1.2.controller.enabled = controller.enabled ∧
      (Drive.view (d, config.1.2)).Settles config.2.ticks config.2.poll
  have hStart : Inv ((d.toSimulator A, ⟨controller, .readStatusword⟩), {}) :=
    ⟨d, rfl, hDeferred, rfl, LoopView.settles_start rfl⟩
  have hEnd : Inv (run (recordStep (DriveSimulator.loopStep A) (recordSchedule A))
      ((d.toSimulator A, ⟨controller, .readStatusword⟩), {}) events) := by
    refine EveryStep.invariant ?_ hStart hSchedule
    intro config event hInv hAllowed
    obtain ⟨⟨_, node⟩, schedule⟩ := config
    obtain ⟨d, rfl, hMode, hEnabled, hSettles⟩ := hInv
    obtain ⟨hKeep, hNext⟩ := d.settles_loopStep A node schedule event hMode hSettles hAllowed
    refine ⟨(Drive.loopStep A (d, node) event).1, ?_, ?_, ?_, ?_⟩
    · rw [recordStep, Drive.loopStep_toSimulator]
    · exact (Drive.view_loopStep A (d, node) event hMode).2
    · rw [recordStep, Drive.loopStep_toSimulator]
      exact hKeep.trans hEnabled
    · rw [recordStep, Drive.loopStep_toSimulator]
      exact hNext
  intro config hTicks
  obtain ⟨d, hState, -, hEnabled, hSettles⟩ := hEnd
  have hPower := LoopView.power_eq_goal hSettles hTicks
  have hGoal := (d.state_toSimulator_eq_iff A _).mpr hPower
  rw [hState, hGoal]
  simp only [Drive.view, hEnabled]
  cases controller.enabled <;> rfl

end System

/-- A new drive reaches Operation Enabled in five ticks, although the poll that
straddles the second one repeats a Shutdown. -/
theorem loop_settles_initial :
    (run (recordStep (DriveSimulator.loopStep (.exact fun _ => 0))
        (recordSchedule (.exact fun _ => 0)))
      (((DriveSimulator.initial (.exact fun _ => 0)).setFsmDeferred true, {}), {})
      ([.fsmTimer] ++ List.replicate 6 .fsmThread ++ [.fsmTimer] ++ List.replicate 9 .fsmThread ++
        [.fsmTimer] ++ List.replicate 9 .fsmThread ++ [.fsmTimer, .updateTimer (1 / 100)] ++
        List.replicate 5 .fsmThread ++ [.fsmTimer])).1.1.state = .operationEnabled :=
  loop_settles (.exact fun _ => 0) ⟨[.setFsmDeferred true], rfl⟩ rfl {} (by decide +kernel)
    (by decide +kernel)

end Ca1MotorCtrl
