import Ca1MotorCtrl.Loop.FaultReports
import Ca1MotorCtrl.Loop.Linearization

/-! The reports of error codes, with the messages between the nodes. A report
gives the code that the simulator answered with. It is published when the thread
has taken the response, and the next fault may be raised in between. -/
namespace Ca1MotorCtrl

open Transition

/-- The report of an error code. -/
def faultReport (code : UInt32) : Publication :=
  .event ("[FAULT] Fault detected (error " ++ hexString 4 code.toNat ++ ") — resetting.")

/-- The events with the tag of a fault. -/
def faultEvents (published : List Publication) : List Publication :=
  published.filter (Publication.isTagged "[FAULT]")

theorem faultEvents_append (first second : List Publication) :
    faultEvents (first ++ second) = faultEvents first ++ faultEvents second :=
  List.filter_append first second

theorem faultEvents_setEnable (node : DriveControllerNode) (data : Bool) :
    faultEvents (node.setEnable data).2.2 = [] := by
  cases data <;> rfl

namespace DriveControllerNode

/-- A turn of the thread reports a fault only where it reads an error code. -/
theorem faultEvents_fsmThread {Server : Type} (services : Services Server) (server : Server)
    (node : DriveControllerNode) : faultEvents (fsmThread services server node).2.2 =
      (node.reportedCode services server).toList.map Publication.ofErrorCode := by
  have hAnnounces : ∀ p : Publication, (p.isTagged "[FAULT]" && p.announces) =
      p.isTagged "[FAULT]" := by
    intro p
    cases p with
    | driveState name => rfl
    | event text =>
        have hText : (Publication.event text).announces =
          ((Publication.event text).isTagged "[STATE]" ||
            (Publication.event text).isTagged "[FAULT]") := rfl
        rw [hText]
        cases (Publication.event text).isTagged "[FAULT]" <;> simp
    | _ => rfl
  have hFilter (published : List Publication) :
      faultEvents (published.filter Publication.announces) = faultEvents published := by
    simp only [faultEvents, List.filter_filter, hAnnounces]
  have hStates (states : List DriveState) :
      faultEvents (states.flatMap Publication.ofState) = [] := by
    refine List.filter_eq_nil_iff.mpr fun p hMem => ?_
    obtain ⟨state, -, hText⟩ := List.mem_flatMap.mp hMem
    have hOther : ∀ q ∈ Publication.ofState state, q.isTagged "[FAULT]" = false := by
      cases state <;> decide
    rw [hOther p hText]
    exact Bool.false_ne_true
  have hCodes (codes : List OdValue) :
      faultEvents (codes.map Publication.ofErrorCode) = codes.map Publication.ofErrorCode := by
    refine List.filter_eq_self.mpr fun p hMem => ?_
    obtain ⟨err, -, rfl⟩ := List.mem_map.mp hMem
    exact Publication.isTagged_ofErrorCode err
  rw [← hFilter, filter_announces_fsmThread, faultEvents_append, hStates, hCodes, List.nil_append]

/-- Only that phase of the thread reads the error code. -/
theorem request_eq_errorCode_iff (node : DriveControllerNode) :
    node.request = some (.read Cia402Index.errorCode 0) ↔ node.phase.reports = true := by
  obtain ⟨controller, phase⟩ := node
  cases phase <;> simp [request, Phase.reports] <;> decide

end DriveControllerNode

namespace Drive
variable {R : Type} {A : DoubleArith R}

theorem handleRead_errorCode (d : Drive R) :
    (d.toSimulator A).handleRead Cia402Index.errorCode 0 =
      { value := d.errorCode, success := true } := by
  have hRead : (d.toSimulator A).read Cia402Index.errorCode 0 = .ok d.errorCode :=
    d.read_toSimulator A .errorCode
  simp only [DriveSimulator.handleRead, hRead]

theorem reportedCode_toSimulator (d : Drive R) (node : DriveControllerNode) :
    node.reportedCode DriveSimulator.services (d.toSimulator A) =
      if node.phase.reports then some d.errorCode else none := by
  obtain ⟨controller, phase⟩ := node
  cases phase with
  | readErrorCode cmds =>
      simp [DriveControllerNode.reportedCode, DriveControllerNode.syncRead,
        DriveSimulator.services, handleRead_errorCode, Phase.reports]
  | _ => rfl

end Drive

namespace ControllerNetwork
variable {R : Type} (A : DoubleArith R)

/-- The node once it has taken the response in flight. -/
def current (s : ControllerNetwork R) : DriveControllerNode :=
  match s.inFlight with
  | some res => (s.node.resume (some res)).1
  | none => s.node

/-- The fault events that the thread publishes when it takes the response in flight. -/
def upcoming (s : ControllerNetwork R) : List Publication :=
  match s.inFlight with
  | some res => faultEvents (s.node.resume (some res)).2
  | none => []

/-- What an event amounts to in the closed loop. -/
def loopTurn? (s : ControllerNetwork R) : NetworkEvent R → Option (LoopEvent R)
  | .thread => if s.waiting = none ∧ s.node.request = none then some .fsmThread else none
  | .serve id => if s.requests id = none then none else some .fsmThread
  | event => event.loopEvent?

/-- A step of the network and the event of the closed loop that it amounts to. -/
structure Matches (s next : ControllerNetwork R) (turn : Option (LoopEvent R)) : Prop where
  config : (next.sim, next.current) =
    turn.elim (s.sim, s.current) (DriveSimulator.loopStep A (s.sim, s.current))
  events : faultEvents next.published ++ next.upcoming = faultEvents s.published ++ s.upcoming ++
    turn.elim [] fun turn =>
      faultEvents (loopPublished DriveSimulator.services (s.sim, s.current) turn)

section Steps
variable {A} {s next : ControllerNetwork R}

theorem current_of_none (h : s.inFlight = none) : s.current = s.node := by
  simp only [current, h]

theorem current_of_some {res : OdResponse} (h : s.inFlight = some res) :
    s.current = (s.node.resume (some res)).1 := by
  simp only [current, h]

theorem upcoming_of_none (h : s.inFlight = none) : s.upcoming = [] := by
  simp only [upcoming, h]

theorem upcoming_of_some {res : OdResponse} (h : s.inFlight = some res) :
    s.upcoming = faultEvents (s.node.resume (some res)).2 := by
  simp only [upcoming, h]

/-- At most one event is on its way. -/
theorem length_upcoming (s : ControllerNetwork R) : s.upcoming.length ≤ 1 := by
  cases hCall : s.inFlight with
  | none => rw [upcoming_of_none hCall]; exact Nat.zero_le 1
  | some res =>
      rw [upcoming_of_some hCall, DriveControllerNode.resume,
        DriveControllerNode.faultEvents_fsmThread, List.length_map]
      exact Option.length_toList_le

/-- A step that concerns messages only. -/
theorem Matches.of_unseen (hSim : next.sim = s.sim) (hNode : next.node = s.node)
    (hCall : next.inFlight = s.inFlight) (hPublished : next.published = s.published) :
    s.Matches A next none := by
  have hCurrent : next.current = s.current := by rw [current, current, hNode, hCall]
  have hUpcoming : next.upcoming = s.upcoming := by rw [upcoming, upcoming, hNode, hCall]
  refine ⟨by rw [hSim, hCurrent]; rfl, ?_⟩
  rw [hPublished, hUpcoming]
  exact (List.append_nil _).symm

/-- A step from a node that waits for no response. -/
theorem Matches.of_fsmThread {outcome : Option OdResponse} (hCall : s.inFlight = none)
    (hThread : DriveControllerNode.fsmThread DriveSimulator.services s.sim s.node =
      (next.sim, s.node.resume outcome))
    (hCurrent : next.current = (s.node.resume outcome).1)
    (hEvents : faultEvents next.published ++ next.upcoming =
      faultEvents s.published ++ faultEvents (s.node.resume outcome).2) :
    s.Matches A next (some .fsmThread) := by
  refine ⟨?_, ?_⟩
  · simp only [Option.elim_some, DriveSimulator.loopStep, loopStep, current_of_none hCall, hThread,
      hCurrent]
  · simp only [Option.elim_some, loopPublished, current_of_none hCall, hThread, hEvents,
      upcoming_of_none hCall, List.append_nil]

/-- A callback of the controller node. -/
theorem Traced.matches_callback (h : s.Traced) (f : DriveController → DriveController)
    {published : List Publication} (turn : LoopEvent R) (hEvents : faultEvents published = [])
    (hNext : next = { s with
      node := s.node.mapController f, published := s.published ++ published })
    (hStep : ∀ node, DriveSimulator.loopStep A (s.sim, node) turn =
      (s.sim, node.mapController f))
    (hPublished : ∀ node, faultEvents (loopPublished DriveSimulator.services (s.sim, node) turn) =
      []) : s.Matches A next (some turn) := by
  have hCall : next.inFlight = s.inFlight := by rw [hNext]; rfl
  have hNode : next.node = s.node.mapController f := by rw [hNext]
  have hBoth : next.current = s.current.mapController f ∧ next.upcoming = s.upcoming := by
    cases hFlight : s.inFlight with
    | none =>
        rw [hFlight] at hCall
        rw [current_of_none hCall, current_of_none hFlight, upcoming_of_none hCall,
          upcoming_of_none hFlight]
        exact ⟨hNode, rfl⟩
    | some res =>
        rw [hFlight] at hCall
        obtain ⟨id, hWaiting, -⟩ := Option.bind_eq_some_iff.mp hFlight
        have hResume := s.node.resume_mapController f (h.waiting id hWaiting).2 (some res)
        rw [current_of_some hCall, current_of_some hFlight, upcoming_of_some hCall,
          upcoming_of_some hFlight, hNode, hResume]
        exact ⟨rfl, rfl⟩
  refine ⟨?_, ?_⟩
  · rw [Option.elim_some, hStep, hBoth.1, hNext]
  · rw [Option.elim_some, hPublished, hBoth.2, hNext, faultEvents_append, hEvents, List.append_nil,
      List.append_nil]

theorem Alone.matches_thread (h : s.Alone) :
    s.Matches A (s.step A .thread) (s.loopTurn? .thread) := by
  cases hWaiting : s.waiting with
  | some id =>
      have hStep : s.step A .thread = s := by simp only [ControllerNetwork.step, hWaiting]
      have hTurn : s.loopTurn? .thread = none := by simp [loopTurn?, hWaiting]
      rw [hStep, hTurn]
      exact .of_unseen rfl rfl rfl rfl
  | none =>
      have hCall := inFlight_of_waiting_eq_none hWaiting
      cases hRequest : s.node.request with
      | none =>
          have hStep : s.step A .thread = s.resume none := by
            simp only [ControllerNetwork.step, hWaiting, hRequest]
          have hTurn : s.loopTurn? .thread = some .fsmThread := if_pos ⟨hWaiting, hRequest⟩
          have hThread := s.node.fsmThread_of_no_request hRequest DriveSimulator.services s.sim
          rw [hStep, hTurn]
          refine .of_fsmThread hCall hThread (current_of_none rfl) ?_
          rw [upcoming_of_none rfl, List.append_nil]
          exact faultEvents_append _ _
      | some req =>
          have hStep : s.step A .thread = { s.send req with waiting := some s.nextId } := by
            simp only [ControllerNetwork.step, hWaiting, hRequest]
          have hTurn : s.loopTurn? .thread = none :=
            if_neg fun hNone => absurd (hRequest.symm.trans hNone.2) (Option.some_ne_none _)
          rw [hStep, hTurn]
          exact .of_unseen rfl rfl ((h.traced.inFlight_send req).trans hCall.symm) rfl

/-- The thread gets to where it was bound to get to. -/
theorem Alone.matches_threadReady (h : s.Alone) :
    s.Matches A (s.step A .threadReady) none := by
  cases hReady : s.waiting.bind s.futures with
  | none =>
      have hStep : s.step A .threadReady = s := by simp only [ControllerNetwork.step, hReady]
      rw [hStep]
      exact .of_unseen rfl rfl rfl rfl
  | some res =>
      have hStep : s.step A .threadReady = s.resume (some res) := by
        simp only [ControllerNetwork.step, hReady]
      have hFlight := h.traced.inFlight_of_ready hReady
      rw [hStep]
      refine ⟨?_, ?_⟩
      · rw [current_of_some hFlight, current_of_none rfl]
        rfl
      · rw [upcoming_of_some hFlight, upcoming_of_none rfl, Option.elim_none, List.append_nil,
          List.append_nil]
        exact faultEvents_append _ _

/-- Serving the request of the thread is its call. -/
theorem Alone.matches_serve (h : s.Alone) (id : ℕ) :
    s.Matches A (s.step A (.serve id)) (s.loopTurn? (.serve id)) := by
  cases hRequest : s.requests id with
  | none =>
      have hStep : s.step A (.serve id) = s := by simp only [ControllerNetwork.step, hRequest]
      rw [hStep, loopTurn?, if_pos hRequest]
      exact .of_unseen rfl rfl rfl rfl
  | some req =>
      have hSome : s.requests id ≠ none := by rw [hRequest]; exact Option.some_ne_none _
      have hWaiting := h.requests id hSome
      have hCall := inFlight_serve (A := A) hWaiting hRequest
      have hNext : (s.step A (.serve id)).sim = (s.sim.serve req).1 ∧
          (s.step A (.serve id)).node = s.node ∧
          (s.step A (.serve id)).published = s.published := by
        simp only [ControllerNetwork.step, hRequest, and_self]
      have hCalled := s.node.fsmThread_services s.sim (h.traced.request id req hWaiting hRequest)
      rw [← hNext.1] at hCalled
      rw [loopTurn?, if_neg hSome]
      refine .of_fsmThread (h.traced.inFlight_eq_none hWaiting hSome) hCalled ?_ ?_
      · rw [current_of_some hCall, hNext.2.1]
      · rw [upcoming_of_some hCall, hNext.2.1, hNext.2.2]

/-- Every event without other clients is one event of the closed loop or none. -/
theorem Alone.matches_step (h : s.Alone) {event : NetworkEvent R} (hLoop : event.InLoop) :
    s.Matches A (s.step A event) (s.loopTurn? event) := by
  have hFree : s.handler.isSome = false := by rw [h.handler]; rfl
  cases event with
  | thread => exact h.matches_thread
  | threadReady => exact h.matches_threadReady
  | threadTimeout => exact hLoop.elim
  | manual req => exact hLoop.elim
  | manualReady | manualTimeout =>
      simp only [ControllerNetwork.step, h.handler]
      exact .of_unseen rfl rfl rfl rfl
  | cmdVelocity data =>
      refine h.traced.matches_callback (fun c => c.setTargetVelocity data) (.cmdVelocity data)
        (show faultEvents [] = [] from rfl) ?_ (fun _ => rfl) (fun _ => rfl)
      simp only [ControllerNetwork.step, hFree, Bool.false_eq_true, if_false, List.append_nil]
      rfl
  | setEnable data =>
      refine h.traced.matches_callback (fun c => c.setEnable data) (.setEnable data)
        (faultEvents_setEnable s.node data) ?_ (fun _ => rfl)
        (fun node => faultEvents_setEnable node data)
      simp only [ControllerNetwork.step, hFree, Bool.false_eq_true, if_false]
      rfl
  | serve id => exact h.matches_serve id
  | process id =>
      have hCall : (s.step A (.process id)).inFlight = s.inFlight := s.inFlight_process id
      refine .of_unseen ?_ ?_ hCall ?_ <;> simp only [ControllerNetwork.step] <;> split <;> rfl
  | operation op =>
      cases op with
      | updateFsm | update dt | injectFault | injectOverspeedFault | injectSensorTimeoutFault =>
          exact ⟨rfl, (List.append_nil _).symm⟩
      | _ => exact absurd hLoop Bool.false_ne_true

end Steps

/-- The code of the fault raised last, and the codes that were the last ones
where the simulator answered a read of the error code. -/
structure AnswerHistory where
  raised : Option UInt32 := none
  answered : List UInt32 := []

def recordAnswers (history : AnswerHistory) (s : ControllerNetwork R) :
    NetworkEvent R → AnswerHistory
  | .operation op =>
      { history with raised := DriveSimulator.recordRaised A history.raised s.sim op }
  | .serve id =>
      if s.requests id = some (.read Cia402Index.errorCode 0) then
        { history with answered := history.answered ++ history.raised.toList }
      else history
  | _ => history

/-- The simulator is in Fault and answers a read of the error code with the code
of the fault raised last. -/
def AnswersLast (sim : DriveSimulator R) (last : Option UInt32) : Prop :=
  sim.state = .fault ∧ ∃ code : UInt32, last = some code ∧
    (sim.serve (.read Cia402Index.errorCode 0)).2 =
      .read { value := code.toInt32, success := true }

/-- The fault events published and on their way are those of the codes answered. -/
structure ReportsAnswered (s : ControllerNetwork R) (history : AnswerHistory) : Prop where
  alone : s.Alone
  informed : ∃ d : Drive R, s.sim = d.toSimulator A ∧ d.Informed s.current history.raised
  events : faultEvents s.published ++ s.upcoming = history.answered.map faultReport

section History
variable {A} {s : ControllerNetwork R} {history : AnswerHistory}

/-- Where the thread is about to read the error code, the simulator knows it. -/
theorem ReportsAnswered.answersLast (h : s.ReportsAnswered A history)
    (hReports : s.current.phase.reports = true) : AnswersLast s.sim history.raised := by
  obtain ⟨d, hDrive, hInformed⟩ := h.informed
  obtain ⟨hPower, hLast⟩ := hInformed.of_reports hReports
  obtain ⟨code, hCode, hValue⟩ := Option.map_eq_some_iff.mp hLast
  rw [hDrive]
  refine ⟨(d.state_toSimulator_eq_iff A .fault).mpr hPower, code, hCode, ?_⟩
  rw [DriveSimulator.serve, Drive.handleRead_errorCode, hValue]

/-- Serving the request for the error code is the turn that reports, and no other. -/
theorem Alone.reports_iff (h : s.Alone) {id : ℕ} {req : OdRequest}
    (hRequest : s.requests id = some req) :
    s.current.phase.reports = true ↔ req = .read Cia402Index.errorCode 0 := by
  have hSome : s.requests id ≠ none := by rw [hRequest]; exact Option.some_ne_none _
  have hWaiting := h.requests id hSome
  rw [current_of_none (h.traced.inFlight_eq_none hWaiting hSome),
    ← s.node.request_eq_errorCode_iff, h.traced.request id req hWaiting hRequest,
    Option.some.injEq]

theorem ReportsAnswered.faultEvents_turn (h : s.ReportsAnswered A history) :
    faultEvents (loopPublished (R := R) DriveSimulator.services (s.sim, s.current) .fsmThread) =
      if s.current.phase.reports then history.raised.toList.map faultReport else [] := by
  obtain ⟨d, hDrive, hInformed⟩ := h.informed
  rw [loopPublished, DriveControllerNode.faultEvents_fsmThread, hDrive,
    Drive.reportedCode_toSimulator]
  cases hReports : s.current.phase.reports with
  | false => rfl
  | true =>
      obtain ⟨-, hLast⟩ := hInformed.of_reports hReports
      obtain ⟨code, hCode, hValue⟩ := Option.map_eq_some_iff.mp hLast
      simp [hCode, ← hValue, Publication.ofErrorCode, faultReport]

/-- The codes answered are those that the turns of the closed loop report. -/
theorem ReportsAnswered.answered_step (h : s.ReportsAnswered A history) {event : NetworkEvent R}
    (hLoop : event.InLoop) : (recordAnswers A history s event).answered.map faultReport =
      history.answered.map faultReport ++ (s.loopTurn? event).elim [] fun turn =>
        faultEvents (loopPublished DriveSimulator.services (s.sim, s.current) turn) := by
  cases event with
  | thread =>
      by_cases hSection : s.waiting = none ∧ s.node.request = none
      · obtain ⟨hWaiting, hRequest⟩ := hSection
        have hReports : ¬s.current.phase.reports = true := by
          rw [current_of_none (inFlight_of_waiting_eq_none hWaiting),
            ← s.node.request_eq_errorCode_iff, hRequest]
          exact (Option.some_ne_none _).symm
        rw [loopTurn?, if_pos ⟨hWaiting, hRequest⟩, Option.elim_some, h.faultEvents_turn,
          if_neg hReports, List.append_nil]
        rfl
      · rw [loopTurn?, if_neg hSection]
        exact (List.append_nil _).symm
  | serve id =>
      simp only [recordAnswers, loopTurn?]
      cases hRequest : s.requests id with
      | none => exact (List.append_nil _).symm
      | some req =>
          rw [if_neg (Option.some_ne_none req), Option.elim_some, h.faultEvents_turn]
          by_cases hRead : req = .read Cia402Index.errorCode 0
          · rw [if_pos (congrArg some hRead), if_pos ((h.alone.reports_iff hRequest).mpr hRead),
              List.map_append]
          · rw [if_neg fun hEq => hRead (Option.some.inj hEq),
              if_neg (mt (h.alone.reports_iff hRequest).mp hRead), List.append_nil]
  | setEnable data =>
      exact ((congrArg _ (faultEvents_setEnable s.current data)).trans (List.append_nil _)).symm
  | operation op =>
      cases op with
      | updateFsm | update dt | injectFault | injectOverspeedFault | injectSensorTimeoutFault =>
          exact (List.append_nil _).symm
      | _ => exact absurd hLoop Bool.false_ne_true
  | _ => exact (List.append_nil _).symm

theorem raised_step {event : NetworkEvent R} (hLoop : event.InLoop) :
    (recordAnswers A history s event).raised = (s.loopTurn? event).elim history.raised
      (recordLoopRaised A history.raised (s.sim, s.current)) := by
  cases event with
  | thread =>
      simp only [recordAnswers, loopTurn?]
      split <;> rfl
  | serve id =>
      simp only [recordAnswers, loopTurn?]
      split <;> split <;> rfl
  | operation op =>
      cases op with
      | updateFsm | update dt | injectFault | injectOverspeedFault | injectSensorTimeoutFault => rfl
      | _ => exact absurd hLoop Bool.false_ne_true
  | _ => rfl

theorem ReportsAnswered.step (h : s.ReportsAnswered A history) {event : NetworkEvent R}
    (hLoop : event.InLoop) :
    (s.step A event).ReportsAnswered A (recordAnswers A history s event) := by
  have hMatches := h.alone.matches_step (A := A) hLoop
  have hConfig := hMatches.config
  obtain ⟨d, hDrive, hInformed⟩ := h.informed
  refine ⟨h.alone.step hLoop, ?_, ?_⟩
  · rw [raised_step hLoop]
    cases hTurn : s.loopTurn? event with
    | none =>
        rw [hTurn] at hConfig
        obtain ⟨hSim, hCurrent⟩ := Prod.mk.inj hConfig
        rw [hSim, hCurrent]
        exact ⟨d, hDrive, hInformed⟩
    | some turn =>
        rw [hTurn, Option.elim_some, hDrive, d.loopStep_toSimulator A] at hConfig
        obtain ⟨hSim, hCurrent⟩ := Prod.mk.inj hConfig
        rw [hSim, hCurrent, hDrive]
        exact ⟨_, rfl, Drive.informed_loopStep A hInformed turn⟩
  · rw [hMatches.events, h.events, h.answered_step hLoop]

end History

theorem reportsAnswered_powerOn (c : DriveController) :
    ReportsAnswered A { sim := (DriveSimulator.initial A).setFsmDeferred true
                        node := { controller := c } } {} where
  alone := ⟨traced_initial _ _, rfl, fun _ h => absurd rfl h⟩
  informed := by
    refine ⟨Drive.powerOn A (.deferred false), ?_, rfl, Drive.known_powerOn A c,
      fun hFault => by cases hFault⟩
    rw [Drive.initial_eq_powerOn]
    rfl
  events := rfl

end ControllerNetwork

open ControllerNetwork

/-- From power-on the controller node reads the error code only while the drive is
in Fault, and the simulator answers with the code of the fault raised last. The
fault events that the node publishes are those of the codes answered, in order;
the last one may still be on its way. -/
theorem fault_events_report_answers {R : Type} (A : DoubleArith R) (c : DriveController)
    {events : List (NetworkEvent R)} (hLoop : ∀ event ∈ events, event.InLoop) :
    let step := recordStep (step A) (recordAnswers A)
    let start : ControllerNetwork R × AnswerHistory :=
      ({ sim := (DriveSimulator.initial A).setFsmDeferred true, node := { controller := c } }, {})
    let finish := run step start events
    EveryStep step
      (fun config event => ∀ id, event = .serve id →
        config.1.requests id = some (.read Cia402Index.errorCode 0) →
          AnswersLast config.1.sim config.2.raised) start events ∧
    ∃ upcoming, finish.2.answered.map faultReport = faultEvents finish.1.published ++ upcoming ∧
      upcoming.length ≤ 1 ∧ (finish.1.waiting = none → upcoming = []) := by
  intro step start finish
  let Inv (config : ControllerNetwork R × AnswerHistory) : Prop :=
    config.1.ReportsAnswered A config.2
  have hAllowed : EveryStep step (fun _ event => event.InLoop) start events :=
    everyStep_of_forall_mem hLoop start
  have hStep (config : ControllerNetwork R × AnswerHistory) (event : NetworkEvent R)
      (h : Inv config) (hEvent : event.InLoop) : Inv (step config event) := h.step hEvent
  have hStart : Inv start := reportsAnswered_powerOn A c
  have hFinish : Inv finish := hAllowed.invariant hStep hStart
  refine ⟨hAllowed.of_guard Inv (fun config event h hEvent => ⟨?_, hStep config event h hEvent⟩)
    hStart, finish.1.upcoming, hFinish.events.symm, finish.1.length_upcoming,
    fun hDone => upcoming_of_none (inFlight_of_waiting_eq_none hDone)⟩
  rintro id rfl hRequest
  exact h.answersLast ((h.alone.reports_iff hRequest).mpr rfl)

/-- A second fault is raised while the code of the first is on its way to the thread:
the event gives the code of the first one. -/
theorem fault_events_report_answers_overtaken :
    let A : DoubleArith ℚ := .exact fun _ => 0
    let finish := run (recordStep (step A) (recordAnswers A))
      ({ sim := (DriveSimulator.initial A).setFsmDeferred true, node := {} }, {})
      [.operation .injectFault, .thread, .serve 0, .process 0, .threadReady, .thread, .thread,
        .serve 1, .operation .injectSensorTimeoutFault, .process 1, .threadReady]
    faultEvents finish.1.published = [faultReport 0x3210] ∧ finish.2.raised = some 0xFF01 := by
  intro A finish
  have hLoop : ∀ event ∈ ([.operation .injectFault, .thread, .serve 0, .process 0, .threadReady,
      .thread, .thread, .serve 1, .operation .injectSensorTimeoutFault, .process 1,
      .threadReady] : List (NetworkEvent ℚ)), event.InLoop := by
    simp [NetworkEvent.InLoop, NetworkEvent.loopEvent?]
  obtain ⟨-, upcoming, hEvents, -, hUpcoming⟩ := fault_events_report_answers A {} hLoop
  have hDone : finish.1.waiting = none := by decide +kernel
  have hAnswered : finish.2.answered = [0x3210] := by decide +kernel
  refine ⟨?_, by decide +kernel⟩
  rw [hUpcoming hDone, List.append_nil] at hEvents
  exact hEvents.symm.trans (congrArg _ hAnswered)

end Ca1MotorCtrl
