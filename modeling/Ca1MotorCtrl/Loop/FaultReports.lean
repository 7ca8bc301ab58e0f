import Ca1MotorCtrl.Loop.Announcements
import Ca1MotorCtrl.Loop.View
import Ca1MotorCtrl.Simulator.FaultLatch

/-! The error codes that the controller node reports. The controller writes words
that can end a fault only after it has decoded Fault, and it reads the error code
first. So the fault that it has seen is still there when it reads the code, and
the code is that of the fault raised last. -/
namespace Ca1MotorCtrl

open Transition

/-- The words of the recovery from a fault carry Disable Voltage. -/
def Recovers (cw : UInt16) : Prop := Command.ofWord cw = .disableVoltage

/-- The commands that the batch of the current poll has still to write. -/
def LoopView.remaining (v : LoopView) : List (Option UInt16) :=
  match v.poll with
  | .batch cmd rest => cmd :: rest
  | _ => []

@[simp] theorem LoopView.remaining_ofBatch (core : PowerCore) (pending : Option UInt16)
    (enabled : Bool) (cmds : List (Option UInt16)) :
    remaining ⟨core, pending, enabled, .ofBatch cmds⟩ = cmds := by
  cases cmds <;> rfl

namespace DriveController

/-- Bit 7 is set in a word of the recovery only, and only Fault asks for one. -/
theorem recovers_of_mem_batch {enabled : Bool} {state : DriveState} {cw : UInt16}
    (h : some cw ∈ batch enabled state) :
    (cw &&& 0x80 = 0 ∨ Recovers cw) ∧ (Recovers cw ↔ state = .fault) := by
  by_cases hFault : state = .fault
  · subst hFault
    have hWord : cw = 0x00 ∨ cw = 0x80 := by simpa [batch] using h
    rcases hWord with rfl | rfl <;> simp [Recovers]
  · have hWord : cw = 0x06 ∨ cw = 0x07 ∨ cw = 0x0F := by
      cases state <;> cases enabled <;> simp_all [batch]
    refine ⟨Or.inl ?_, iff_of_false ?_ hFault⟩
    · rcases hWord with rfl | rfl | rfl <;> decide
    · rcases hWord with rfl | rfl | rfl <;> simp [Recovers]

theorem exists_word_of_switchOnDisabled (enabled : Bool) :
    ∃ cw, some cw ∈ batch enabled .switchOnDisabled :=
  ⟨0x06, List.mem_singleton_self _⟩

end DriveController

namespace PowerState

theorem apply_fault_of_not_recovers {cw : UInt16} (hBit : cw &&& 0x80 = 0 ∨ Recovers cw)
    (hWord : ¬Recovers cw) (prev : UInt16) : fault.apply (risingEdge prev cw) cw = .fault := by
  have hEdge : ¬risingEdge prev cw = true :=
    fun hRise => ((risingEdge_iff prev cw).mp hRise).1 (hBit.resolve_right hWord)
  have hLeave := mt (apply_fault_ne_fault_iff (risingEdge prev cw) cw).mp
    (not_or.mpr ⟨hEdge, hWord⟩)
  exact not_not.mp hLeave

/-- A drive in Fault stays there or gets to Switch On Disabled. -/
theorem apply_fault (edge : Bool) (cw : UInt16) :
    fault.apply edge cw = .fault ∨ fault.apply edge cw = .switchOnDisabled := by
  cases edge <;> cases hc : Command.ofWord cw <;> simp [apply, next, hc]

theorem apply_switchOnDisabled_of_recovers {cw : UInt16} (hWord : Recovers cw) (edge : Bool) :
    switchOnDisabled.apply edge cw = .switchOnDisabled := by
  rw [apply_of_ne_fault (by decide), show Command.ofWord cw = .disableVoltage from hWord]
  rfl

end PowerState

/-- What the controller knows about a fault: `known` is the state it has decoded
last, and `due` says that it is about to read the error code. -/
structure FaultKnown (v : LoopView) (known : DriveState) (due : Bool) : Prop where
  words : ∀ cw, v.pending = some cw ∨ some cw ∈ v.remaining → cw &&& 0x80 = 0 ∨ Recovers cw
  power : known = .fault → v.core.power = .fault ∨
    v.core.power = .switchOnDisabled ∧ ∀ cw, v.pending = some cw → Recovers cw
  batch : ∀ cw, some cw ∈ v.remaining → (Recovers cw ↔ known = .fault)
  pending : ∀ cw, v.pending = some cw → Recovers cw →
    known = .fault ∨ ∃ next, some next ∈ v.remaining
  decided : ∀ state, v.poll = .decided state →
    (state = .fault → known = .fault ∨ v.core.power = .fault) ∧
      ∀ cw, v.pending = some cw → Recovers cw → state = .fault ∨ state = .switchOnDisabled
  report : due = true → v.core.power = .fault ∧ ∀ cw, v.pending = some cw → ¬Recovers cw

namespace FaultKnown
variable {v : LoopView} {known : DriveState} {due : Bool}

/-- Outside a batch only a known fault has a word of the recovery pending. -/
theorem known_of_pending (h : FaultKnown v known due) (hBatch : v.remaining = []) {cw : UInt16}
    (hPending : v.pending = some cw) (hWord : Recovers cw) : known = .fault := by
  refine (h.pending cw hPending hWord).resolve_right ?_
  rintro ⟨next, hMem⟩
  rw [hBatch] at hMem
  cases hMem

theorem read (h : FaultKnown v known due) (hIdle : v.poll = .idle) :
    FaultKnown (v.step .read) known due := by
  have hBatch : v.remaining = [] := by rw [LoopView.remaining, hIdle]
  have hNone : ∀ cw, some cw ∉ (v.step .read).remaining := fun cw => List.not_mem_nil
  refine ⟨fun cw hWord => h.words cw (hWord.imp_right fun hMem => absurd hMem (hNone cw)), h.power,
    fun cw hMem => absurd hMem (hNone cw), fun cw hPending hWord =>
      Or.inl (h.known_of_pending hBatch hPending hWord), ?_, h.report⟩
  intro state hState
  obtain rfl : v.core.power.toDriveState = state := PollPhase.decided.inj hState
  refine ⟨fun hFault => Or.inr (PowerState.toDriveState_injective hFault), ?_⟩
  intro cw hPending hWord
  rcases h.power (h.known_of_pending hBatch hPending hWord) with hPower | ⟨hPower, -⟩
  · exact Or.inl (congrArg PowerState.toDriveState hPower)
  · exact Or.inr (congrArg PowerState.toDriveState hPower)

/-- A fault that the controller has not known before is reported before its
recovery starts. -/
theorem decide {state : DriveState} (h : FaultKnown v known false)
    (hPoll : v.poll = .decided state) :
    FaultKnown (v.step .decide) state (state != known && state == .fault) := by
  have hBatch : v.remaining = [] := by rw [LoopView.remaining, hPoll]
  obtain ⟨hFault, hPending⟩ := h.decided state hPoll
  have hStep : v.step .decide =
      { v with poll := .ofBatch (DriveController.batch v.enabled state) } := by
    simp only [LoopView.step, hPoll]
  have hRemaining : (v.step .decide).remaining = DriveController.batch v.enabled state := by
    rw [hStep, LoopView.remaining_ofBatch]
  have hOld : (v.step .decide).pending = v.pending ∧ (v.step .decide).core = v.core := by
    rw [hStep]
    exact ⟨rfl, rfl⟩
  have hNot : ∀ other, (v.step .decide).poll ≠ .decided other := by
    rw [hStep]
    intro other hOther
    simp only at hOther
    cases hCommands : DriveController.batch v.enabled state <;>
      rw [hCommands] at hOther <;> cases hOther
  refine ⟨?_, ?_, ?_, ?_, fun other hOther => absurd hOther (hNot other), ?_⟩
  · rw [hOld.1, hRemaining]
    rintro cw (hWord | hMem)
    · exact h.words cw (Or.inl hWord)
    · exact (DriveController.recovers_of_mem_batch hMem).1
  · rw [hOld.1, hOld.2]
    intro hState
    exact (hFault hState).elim h.power Or.inl
  · rw [hRemaining]
    exact fun cw hMem => (DriveController.recovers_of_mem_batch hMem).2
  · rw [hOld.1, hRemaining]
    intro cw hWord hRecovers
    refine (hPending cw hWord hRecovers).imp_right fun hState => ?_
    rw [hState]
    exact DriveController.exists_word_of_switchOnDisabled v.enabled
  · rw [hOld.1, hOld.2]
    intro hDue
    obtain ⟨hNew, hState⟩ := (Bool.and_eq_true _ _).mp hDue
    obtain rfl : state = .fault := beq_iff_eq.mp hState
    have hUnknown : known ≠ .fault := (bne_iff_ne.mp hNew).symm
    exact ⟨(hFault rfl).resolve_left hUnknown,
      fun cw hWord hRecovers => hUnknown (h.known_of_pending hBatch hWord hRecovers)⟩

theorem write {cmd : Option UInt16} {rest : List (Option UInt16)} (h : FaultKnown v known false)
    (hPoll : v.poll = .batch cmd rest) : FaultKnown (v.step .write) known false := by
  have hBatch : v.remaining = cmd :: rest := by rw [LoopView.remaining, hPoll]
  have hStep : v.step .write = { v with pending := cmd <|> v.pending, poll := .ofBatch rest } := by
    simp only [LoopView.step, hPoll]
  have hRest : ∀ cw, some cw ∈ rest → some cw ∈ v.remaining := by
    intro cw hMem
    rw [hBatch]
    exact List.mem_cons_of_mem cmd hMem
  -- The pending word is the one just written or, if none was, the old one.
  have hWritten : ∀ cw, (cmd <|> v.pending) = some cw →
      some cw ∈ v.remaining ∨ cmd = none ∧ v.pending = some cw := by
    intro cw hWord
    cases cmd with
    | none => exact Or.inr ⟨rfl, hWord⟩
    | some first =>
        obtain rfl : first = cw := Option.some.inj hWord
        rw [hBatch]
        exact Or.inl List.mem_cons_self
  rw [hStep]
  refine ⟨?_, ?_, ?_, ?_, ?_, fun hDue => by cases hDue⟩
  · rw [LoopView.remaining_ofBatch]
    rintro cw (hWord | hMem)
    · exact h.words cw ((hWritten cw hWord).symm.imp_left And.right)
    · exact h.words cw (Or.inr (hRest cw hMem))
  · intro hKnown
    refine (h.power hKnown).imp_right fun hPower => ⟨hPower.1, fun cw hWord => ?_⟩
    rcases hWritten cw hWord with hMem | ⟨-, hOld⟩
    · exact (h.batch cw hMem).mpr hKnown
    · exact hPower.2 cw hOld
  · rw [LoopView.remaining_ofBatch]
    exact fun cw hMem => h.batch cw (hRest cw hMem)
  · rw [LoopView.remaining_ofBatch]
    intro cw hWord hRecovers
    rcases hWritten cw hWord with hMem | ⟨rfl, hOld⟩
    · exact Or.inl ((h.batch cw hMem).mp hRecovers)
    · refine (h.pending cw hOld hRecovers).imp_right fun hNext => ?_
      obtain ⟨next, hMem⟩ := hNext
      rw [hBatch] at hMem
      exact ⟨next, (List.mem_cons.mp hMem).resolve_left fun h => by cases h⟩
  · intro state hState
    cases rest <;> cases hState

/-- A pending word ends a fault only if the controller knows it. -/
theorem tick (h : FaultKnown v known due) : FaultKnown (v.step .tick) known due := by
  obtain ⟨core, pending, enabled, poll⟩ := v
  cases pending with
  | none => exact h
  | some cw =>
      have hFault : core.power = .fault → ¬Recovers cw →
          (core.act (.applied cw)).power = .fault := by
        intro hPower hWord
        simp only [PowerCore.act, hPower]
        exact PowerState.apply_fault_of_not_recovers (h.words cw (Or.inl rfl)) hWord _
      have hNone : ∀ word, (none : Option UInt16) ≠ some word :=
        fun word => (Option.some_ne_none word).symm
      refine ⟨fun word hWord => h.words word (hWord.imp_left fun hOld => absurd hOld (hNone word)),
        fun hKnown => ?_, h.batch, fun word hOld => absurd hOld (hNone word), ?_, fun hDue => ?_⟩
      · have hPower : core.power = .fault ∨ core.power = .switchOnDisabled ∧
            ∀ word, some cw = some word → Recovers word := h.power hKnown
        rcases hPower with hPower | ⟨hPower, hWord⟩
        · simp only [LoopView.step, PowerCore.act, hPower]
          exact (PowerState.apply_fault _ cw).imp_right fun hLeft =>
            ⟨hLeft, fun word hOld => absurd hOld (hNone word)⟩
        · refine Or.inr ⟨?_, fun word hOld => absurd hOld (hNone word)⟩
          simp only [LoopView.step, PowerCore.act, hPower]
          exact PowerState.apply_switchOnDisabled_of_recovers (hWord cw rfl) _
      · intro state hState
        obtain ⟨hDecided, -⟩ := h.decided state hState
        refine ⟨fun hEq => ?_, fun word hOld => absurd hOld (hNone word)⟩
        by_cases hKnown : known = .fault
        · exact Or.inl hKnown
        · have hBatch : LoopView.remaining ⟨core, some cw, enabled, poll⟩ = [] := by
            have hPoll : poll = .decided state := hState
            simp only [LoopView.remaining, hPoll]
          exact Or.inr (hFault ((hDecided hEq).resolve_left hKnown)
            fun hWord => hKnown (h.known_of_pending hBatch rfl hWord))
      · obtain ⟨hPower, hWord⟩ := h.report hDue
        exact ⟨hFault hPower (hWord cw rfl), fun word hOld => absurd hOld (hNone word)⟩

theorem raise (h : FaultKnown v known due) (code : UInt32) :
    FaultKnown (v.step (.raise code)) known due :=
  ⟨h.words, fun _ => Or.inl rfl, h.batch, h.pending,
    fun state hState => ⟨fun _ => Or.inr rfl, (h.decided state hState).2⟩,
    fun hDue => ⟨rfl, (h.report hDue).2⟩⟩

theorem enable (h : FaultKnown v known due) (enabled : Bool) :
    FaultKnown (v.step (.enable enabled)) known due :=
  ⟨h.words, h.power, h.batch, h.pending, h.decided, h.report⟩

/-- Once the code is read, nothing is due any more. -/
theorem reported (h : FaultKnown v known due) : FaultKnown v known false :=
  ⟨h.words, h.power, h.batch, h.pending, h.decided, fun hDue => by cases hDue⟩

end FaultKnown

/-- The operation of the simulator that an event stands for, unless the event
belongs to the controller node. -/
def LoopEvent.operation? {R : Type} : LoopEvent R → Option (Operation R)
  | .fsmTimer => some .updateFsm
  | .updateTimer dt => some (.update dt)
  | .injectFault => some .injectFault
  | .injectOverspeedFault => some .injectOverspeedFault
  | .injectSensorTimeoutFault => some .injectSensorTimeoutFault
  | .fsmThread | .cmdVelocity _ | .setEnable _ => none

section System
variable {R : Type} (A : DoubleArith R)

/-- The code of the fault raised last in a run of the loop. -/
def recordLoopRaised (last : Option UInt32) (config : DriveSimulator R × DriveControllerNode)
    (event : LoopEvent R) : Option UInt32 :=
  match event.operation? with
  | some op => DriveSimulator.recordRaised A last config.1 op
  | none => last

namespace Drive

/-- In Fault the error code is that of the fault raised last. -/
def ReportsLast (d : Drive R) (last : Option UInt32) : Prop :=
  d.power = .fault → last.map UInt32.toInt32 = some d.errorCode

theorem reportsLast_step {d : Drive R} {last : Option UInt32} (h : d.ReportsLast last)
    (op : Operation R) :
    (d.step A op).ReportsLast (DriveSimulator.recordRaised A last (d.toSimulator A) op) := by
  have hCore := d.core_step A op
  intro hFault
  have hCode : (d.step A op).errorCode = (d.core.act (d.effect A op)).errorCode :=
    congrArg PowerCore.errorCode hCore
  rw [d.power_step A op] at hFault
  rw [DriveSimulator.recordRaised, d.effect_toSimulator A op, hCode]
  cases hEffect : d.effect A op with
  | idle =>
      rw [hEffect] at hFault
      exact h hFault
  | applied cw =>
      rw [hEffect] at hFault
      have hPower : d.power = .fault := by
        by_contra hOther
        exact PowerState.apply_ne_fault hOther _ cw hFault
      have hEdge : risingEdge d.prevControlword cw = false := by
        by_contra hRise
        rw [Bool.not_eq_false] at hRise
        simp [PowerCore.act, core, hPower, hRise, PowerState.apply] at hFault
      simp only [PowerCore.act, core, hEdge, Bool.false_and, Bool.false_eq_true, if_false]
      exact h hPower
  | raised code => rfl
  | restarted =>
      rw [hEffect] at hFault
      cases hFault

/-- What the loop knows about faults. -/
structure Informed (d : Drive R) (node : DriveControllerNode) (last : Option UInt32) : Prop where
  deferred : d.mode.isDeferred = true
  known : FaultKnown (view (d, node)) node.controller.state node.phase.reports
  last : d.ReportsLast last

theorem known_fsmThread {d : Drive R} {node : DriveControllerNode}
    (h : FaultKnown (view (d, node)) node.controller.state node.phase.reports) :
    FaultKnown ((view (d, node)).step (action A (d, node) .fsmThread))
      (loopStep A (d, node) .fsmThread).2.controller.state
      (loopStep A (d, node) .fsmThread).2.phase.reports := by
  obtain ⟨controller, phase⟩ := node
  simp only [loopStep, Ca1MotorCtrl.loopStep, DriveControllerNode.fsmThread, action]
  cases phase with
  | readStatusword =>
      rw [syncRead_services_statusword]
      exact h.read rfl
  | step raw =>
      have hDecide := FaultKnown.decide h
        (show (view (d, ⟨controller, .step raw⟩)).poll = .decided _ from rfl)
      have hChanged : (controller.step raw).1.stateChanged =
          (DriveController.decodeStatusword raw != controller.state) := rfl
      have hDecoded : (controller.step raw).1.state = DriveController.decodeStatusword raw := rfl
      simp only [DriveControllerNode.stepController, hChanged, hDecoded]
      cases hNew : DriveController.decodeStatusword raw != controller.state with
      | false =>
          rw [hNew, Bool.false_and] at hDecide
          simpa [Phase.reports_ofCommands, hDecoded] using hDecide
      | true =>
          rw [hNew, Bool.true_and] at hDecide
          by_cases hFault : DriveController.decodeStatusword raw = .fault
          · simpa [hDecoded, hFault, Phase.reports] using hDecide
          · rw [beq_false_of_ne hFault] at hDecide
            simpa [hDecoded, hFault, Phase.reports_ofCommands] using hDecide
  | readErrorCode cmds =>
      simp only [Phase.reports_ofCommands]
      exact h.reported
  | write cmd rest =>
      have hWrite := FaultKnown.write h rfl
      simp only
      split
      · exact hWrite
      · simp only [Phase.reports_ofCommands]
        exact hWrite
  | readDisplay requested rest =>
      simp only [Phase.reports_ofCommands]
      exact h
  | readVelocity | readPosition => exact h

theorem informed_fsmThread {d : Drive R} {node : DriveControllerNode} {last : Option UInt32}
    (h : d.Informed node last) :
    (loopStep A (d, node) .fsmThread).1.Informed (loopStep A (d, node) .fsmThread).2 last := by
  obtain ⟨hView, hDeferred⟩ := d.view_fsmThread A node h.deferred
  refine ⟨hDeferred, ?_, ?_⟩
  · rw [hView]
    exact known_fsmThread A h.known
  · have hCore : (loopStep A (d, node) .fsmThread).1.core = d.core :=
      (congrArg LoopView.core hView).trans
        ((view (d, node)).step_of_polls (d.polls_fsmThread A node)).1
    have hPower : (loopStep A (d, node) .fsmThread).1.power = d.power :=
      congrArg PowerCore.power hCore
    have hCode : (loopStep A (d, node) .fsmThread).1.errorCode = d.errorCode :=
      congrArg PowerCore.errorCode hCore
    rw [ReportsLast, hPower, hCode]
    exact h.last

theorem informed_loopStep {d : Drive R} {node : DriveControllerNode} {last : Option UInt32}
    (h : d.Informed node last) (event : LoopEvent R) :
    (loopStep A (d, node) event).1.Informed (loopStep A (d, node) event).2
      (recordLoopRaised A last (d.toSimulator A, node) event) := by
  obtain ⟨hView, hDeferred⟩ := view_loopStep A (d, node) event h.deferred
  cases event with
  | fsmThread => exact informed_fsmThread A h
  | cmdVelocity data => exact ⟨h.deferred, h.known, h.last⟩
  | setEnable data => exact ⟨h.deferred, h.known.enable data, h.last⟩
  | fsmTimer =>
      refine ⟨hDeferred, ?_, reportsLast_step A h.last .updateFsm⟩
      rw [hView]
      exact h.known.tick
  | updateTimer dt =>
      refine ⟨hDeferred, ?_, reportsLast_step A h.last (.update dt)⟩
      rw [hView]
      simp only [action]
      split
      · exact h.known.raise _
      · exact h.known
  | injectFault => exact ⟨hDeferred, h.known.raise _, reportsLast_step A h.last .injectFault⟩
  | injectOverspeedFault =>
      exact ⟨hDeferred, h.known.raise _, reportsLast_step A h.last .injectOverspeedFault⟩
  | injectSensorTimeoutFault =>
      exact ⟨hDeferred, h.known.raise _, reportsLast_step A h.last .injectSensorTimeoutFault⟩

/-- After power-on nothing is pending. -/
theorem known_powerOn (c : DriveController) :
    FaultKnown (view (powerOn A (.deferred false), { controller := c })) c.state false where
  words cw hWord := by rcases hWord with hPending | hMem <;> contradiction
  power _ := Or.inr ⟨rfl, nofun⟩
  batch cw hMem := absurd hMem List.not_mem_nil
  pending cw hPending := nomatch hPending
  decided state hState := nomatch hState
  report hDue := nomatch hDue

/-- The thread is about to read an error code only while the drive is in Fault,
and the code is that of the fault raised last. -/
theorem Informed.of_reports {d : Drive R} {node : DriveControllerNode} {last : Option UInt32}
    (h : d.Informed node last) (hReports : node.phase.reports = true) :
    d.power = .fault ∧ last.map UInt32.toInt32 = some d.errorCode :=
  have hPower := (h.known.report hReports).1
  ⟨hPower, h.last hPower⟩

end Drive

end System

end Ca1MotorCtrl
