import Ca1MotorCtrl.Loop.ClosedLoop
import Ca1MotorCtrl.Loop.ManualAccess

/-! The messages between the controller node and the simulator, seen as atomic
calls. A call of the FSM thread takes effect where the simulator executes its
request, if the response arrives before the thread gives up. A request that
is executed for nobody is the operation of another client. -/
namespace Ca1MotorCtrl

open Transition

/-- The events of a simulator and a controller node that call each other
without delay, with other clients of the simulator. -/
inductive AtomicEvent (R : Type) where
  /-- A call with its response, or the section under the mutex. -/
  | thread
  | threadTimeout
  | cmdVelocity (data : OdValue)
  | setEnable (data : Bool)
  | operation (op : Operation R)

/-- An event of the closed loop. -/
def AtomicEvent.ofLoop {R : Type} : LoopEvent R → AtomicEvent R
  | .fsmThread => .thread
  | .cmdVelocity data => .cmdVelocity data
  | .setEnable data => .setEnable data
  | .fsmTimer => .operation .updateFsm
  | .updateTimer dt => .operation (.update dt)
  | .injectFault => .operation .injectFault
  | .injectOverspeedFault => .operation .injectOverspeedFault
  | .injectSensorTimeoutFault => .operation .injectSensorTimeoutFault

/-- All but the turns of the FSM thread. -/
def LoopEvent.isOther {R : Type} : LoopEvent R → Bool
  | .fsmThread => false
  | _ => true

/-- The callbacks, timers and injections among the events of a network. -/
def NetworkEvent.loopEvent? {R : Type} : NetworkEvent R → Option (LoopEvent R)
  | .cmdVelocity data => some (.cmdVelocity data)
  | .setEnable data => some (.setEnable data)
  | .operation .updateFsm => some .fsmTimer
  | .operation (.update dt) => some (.updateTimer dt)
  | .operation .injectFault => some .injectFault
  | .operation .injectOverspeedFault => some .injectOverspeedFault
  | .operation .injectSensorTimeoutFault => some .injectSensorTimeoutFault
  | _ => none

/-- No other client of the simulator, and no call that is given up. -/
def NetworkEvent.InLoop {R : Type} : NetworkEvent R → Prop
  | .manual _ | .threadTimeout => False
  | .operation op => (loopEvent? (.operation op)).isSome
  | _ => True

/-- The execution of a request. -/
def OdRequest.operation {R : Type} : OdRequest → Operation R
  | .read index subindex => .read index subindex
  | .write index subindex value => .write index subindex value

section Atomic
variable {R : Type} (A : DoubleArith R)

def atomicStep (config : DriveSimulator R × DriveControllerNode) :
    AtomicEvent R → DriveSimulator R × DriveControllerNode
  | .thread =>
      let (sim, node, _) := DriveControllerNode.fsmThread DriveSimulator.services config.1 config.2
      (sim, node)
  | .threadTimeout => (config.1, (config.2.resume none).1)
  | .cmdVelocity data => (config.1, config.2.cmdVelocity data)
  | .setEnable data => (config.1, (config.2.setEnable data).1)
  | .operation op => (config.1.step A op, config.2)

theorem atomicStep_ofLoop (config : DriveSimulator R × DriveControllerNode)
    (event : LoopEvent R) :
    atomicStep A config (.ofLoop event) = DriveSimulator.loopStep A config event := by
  cases event <;> rfl

theorem run_ofLoop (config : DriveSimulator R × DriveControllerNode) (loop : List (LoopEvent R)) :
    run (atomicStep A) config (loop.map .ofLoop) = run (DriveSimulator.loopStep A) config loop := by
  simp only [run, List.foldl_map, atomicStep_ofLoop]

theorem DriveSimulator.serve_fst (s : DriveSimulator R) (req : OdRequest) :
    (s.serve req).1 = s.step A req.operation := by
  cases req with
  | read index subindex => rfl
  | write index subindex value => exact s.handleWrite_fst A index subindex value

end Atomic

namespace DriveControllerNode

/-- The section under the mutex calls nobody. -/
theorem fsmThread_of_no_request (node : DriveControllerNode) (hRequest : node.request = none)
    {Server : Type} (services : Services Server) (server : Server) :
    fsmThread services server node = (server, node.resume none) := by
  obtain ⟨controller, phase⟩ := node
  cases phase with
  | step raw => rfl
  | _ => cases hRequest

/-- What the callbacks do to the node. -/
def mapController (f : DriveController → DriveController) (node : DriveControllerNode) :
    DriveControllerNode :=
  { node with controller := f node.controller }

/-- The thread that waits for a response leaves the controller alone. -/
theorem resume_mapController (f : DriveController → DriveController) (node : DriveControllerNode)
    (hRequest : node.request ≠ none) (outcome : Option OdResponse) :
    (node.mapController f).resume outcome =
      Prod.map (mapController f) id (node.resume outcome) := by
  obtain ⟨controller, phase⟩ := node
  cases phase with
  | step raw => exact absurd rfl hRequest
  | readStatusword =>
      simp only [mapController, resume, fsmThread]
      split <;> rfl
  | write cmd rest =>
      simp only [mapController, resume, fsmThread]
      split <;> rfl
  | _ => rfl

end DriveControllerNode

namespace ControllerNetwork
variable {R : Type} (A : DoubleArith R)

/-- The response to the call that the thread waits for, sent or processed. -/
def inFlight (s : ControllerNetwork R) : Option OdResponse :=
  s.waiting.bind fun id => s.responses id <|> s.futures id

/-- In the rest of the run the thread goes on with the response to its call. -/
def answered (s : ControllerNetwork R) : List (NetworkEvent R) → Bool
  | [] => false
  | .threadReady :: rest =>
      (s.waiting.bind s.futures).isSome || answered (s.step A .threadReady) rest
  | .threadTimeout :: rest =>
      (s.waiting.bind s.futures).isSome && answered (s.step A .threadTimeout) rest
  | event :: rest => answered (s.step A event) rest

/-- What an event of the network amounts to. Serving the thread's request is its
call if the response will be taken. -/
def atomicEvents (s : ControllerNetwork R) (event : NetworkEvent R)
    (rest : List (NetworkEvent R)) : List (AtomicEvent R) :=
  match event with
  | .thread => if s.waiting = none ∧ s.node.request = none then [.thread] else []
  | .threadTimeout =>
      if s.waiting ≠ none ∧ s.waiting.bind s.futures = none then [.threadTimeout] else []
  | .cmdVelocity data => if s.handler.isSome then [] else [.cmdVelocity data]
  | .setEnable data => if s.handler.isSome then [] else [.setEnable data]
  | .serve id =>
      match s.requests id with
      | none => []
      | some req =>
          if s.waiting = some id ∧ (s.step A event).answered A rest then [.thread]
          else [.operation req.operation]
  | .operation op => [.operation op]
  | .threadReady | .manual _ | .manualReady | .manualTimeout | .process _ => []

/-- The node once it has taken the response in flight, if it will. -/
def caughtUp (s : ControllerNetwork R) (rest : List (NetworkEvent R)) : DriveControllerNode :=
  match s.inFlight with
  | some res => if s.answered A rest then (s.node.resume (some res)).1 else s.node
  | none => s.node

/-- A call is a request, then a response, then a future; the call of the thread
carries the request of its phase. -/
structure Traced (s : ControllerNetwork R) : Prop where
  wellFormed : s.WellFormed
  waiting : ∀ id, s.waiting = some id → id < s.nextId ∧ s.node.request ≠ none
  request : ∀ id req, s.waiting = some id → s.requests id = some req → s.node.request = some req
  requested : ∀ id, s.requests id ≠ none → s.responses id = none ∧ s.futures id = none
  processed : ∀ id, s.futures id ≠ none → s.responses id = none

section Traced
variable {A} {s : ControllerNetwork R}

theorem Traced.resume (h : s.Traced) (outcome : Option OdResponse) : (s.resume outcome).Traced :=
  ⟨h.wellFormed.resume outcome, nofun, nofun, h.requested, h.processed⟩

theorem Traced.answer (h : s.Traced) (req : OdRequest) (id : ℕ) (outcome : Option OdResponse) :
    (s.answer req id outcome).Traced :=
  ⟨h.wellFormed.answer req id outcome, h.waiting, h.request, h.requested, h.processed⟩

/-- A fresh call has neither a response nor a future. -/
theorem Traced.requested_send (h : s.Traced) (req : OdRequest) (id : ℕ)
    (hRequest : (s.send req).requests id ≠ none) :
    s.responses id = none ∧ s.futures id = none := by
  by_cases hId : id = s.nextId
  · rw [hId]
    exact ⟨h.wellFormed.responses _ le_rfl, h.wellFormed.futures _ le_rfl⟩
  · refine h.requested id ?_
    simpa only [send, Function.update_of_ne hId] using hRequest

theorem Traced.step (h : s.Traced) (event : NetworkEvent R) : (s.step A event).Traced := by
  have hWellFormed := h.wellFormed.step (A := A) event
  cases event with
  | thread =>
      simp only [ControllerNetwork.step] at hWellFormed ⊢
      split
      · exact h
      · exact h.resume none
      · rename_i req _ hRequest
        refine ⟨?_, ?_, ?_, h.requested_send req, h.processed⟩
        · have hSend := h.wellFormed.send req
          exact ⟨hSend.requests, hSend.responses, hSend.futures, hSend.handler⟩
        · intro id hId
          obtain rfl := Option.some.inj hId
          exact ⟨Nat.lt_succ_self _, by rw [send, hRequest]; exact Option.some_ne_none _⟩
        · intro id sent hId hSent
          obtain rfl := Option.some.inj hId
          simp only [send, Function.update_self, Option.some.injEq] at hSent
          rw [send, hRequest, hSent]
  | threadReady =>
      simp only [ControllerNetwork.step]
      split
      · exact h
      · exact h.resume _
  | threadTimeout =>
      simp only [ControllerNetwork.step]
      split
      · exact h
      · split
        · exact h
        · exact h.resume none
  | manual req =>
      simp only [ControllerNetwork.step] at hWellFormed ⊢
      split
      · exact h
      · rename_i hHandler
        rw [hHandler] at hWellFormed
        refine ⟨hWellFormed, ?_, ?_, h.requested_send req, h.processed⟩
        · intro id hId
          exact ⟨Nat.lt_succ_of_lt (h.waiting id hId).1, (h.waiting id hId).2⟩
        · intro id sent hId hSent
          refine h.request id sent hId ?_
          simpa only [send, Function.update_of_ne (h.waiting id hId).1.ne] using hSent
  | manualReady =>
      simp only [ControllerNetwork.step]
      split
      · exact h
      · split
        · exact h
        · exact h.answer _ _ _
  | manualTimeout =>
      simp only [ControllerNetwork.step]
      split
      · exact h
      · split
        · exact h
        · exact h.answer _ _ _
  | cmdVelocity data =>
      simp only [ControllerNetwork.step] at hWellFormed ⊢
      split
      · exact h
      next hFree =>
        rw [if_neg hFree] at hWellFormed
        exact ⟨hWellFormed, h.waiting, h.request, h.requested, h.processed⟩
  | setEnable data =>
      simp only [ControllerNetwork.step] at hWellFormed ⊢
      split
      · exact h
      next hFree =>
        rw [if_neg hFree] at hWellFormed
        exact ⟨hWellFormed, h.waiting, h.request, h.requested, h.processed⟩
  | serve id =>
      simp only [ControllerNetwork.step] at hWellFormed ⊢
      split
      · exact h
      · rename_i req hRequest
        rw [hRequest] at hWellFormed
        have hSome : s.requests id ≠ none := by rw [hRequest]; exact Option.some_ne_none _
        refine ⟨hWellFormed, h.waiting, ?_, ?_, ?_⟩
        · intro call sent hCall hSent
          by_cases hId : call = id
          · simp [hId] at hSent
          · exact h.request call sent hCall (by simpa [Function.update_of_ne hId] using hSent)
        · intro call hCall
          by_cases hId : call = id
          · simp [hId] at hCall
          · simp only [Function.update_of_ne hId] at hCall ⊢
            exact h.requested call hCall
        · intro call hCall
          by_cases hId : call = id
          · rw [hId] at hCall
            exact absurd (h.requested id hSome).2 hCall
          · simp only [Function.update_of_ne hId]
            exact h.processed call hCall
  | process id =>
      simp only [ControllerNetwork.step] at hWellFormed ⊢
      split
      · exact h
      next hFree =>
        rw [if_neg hFree] at hWellFormed
        refine ⟨hWellFormed, h.waiting, h.request, ?_, ?_⟩
        · intro call hCall
          by_cases hId : call = id
          · subst hId
            simp [h.requested call hCall]
          · simp only [Function.update_of_ne hId]
            exact h.requested call hCall
        · intro call hCall
          by_cases hId : call = id
          · simp [hId]
          · simp only [Function.update_of_ne hId] at hCall ⊢
            exact h.processed call hCall
  | operation op => exact ⟨hWellFormed, h.waiting, h.request, h.requested, h.processed⟩

end Traced

section Simulation
variable {A} {s : ControllerNetwork R}

theorem caughtUp_of_none (h : s.inFlight = none) (rest : List (NetworkEvent R)) :
    s.caughtUp A rest = s.node := by
  simp only [caughtUp, h]

theorem caughtUp_of_some {res : OdResponse} (h : s.inFlight = some res)
    (rest : List (NetworkEvent R)) : s.caughtUp A rest =
      if s.answered A rest then (s.node.resume (some res)).1 else s.node := by
  simp only [caughtUp, h]

/-- At the end of the run nothing more is taken. -/
theorem caughtUp_nil : s.caughtUp A [] = s.node := by
  cases h : s.inFlight with
  | none => exact caughtUp_of_none h []
  | some res => rw [caughtUp_of_some h, answered, if_neg Bool.false_ne_true]

/-- An event that concerns neither the thread nor its call. -/
theorem caughtUp_congr {next : ControllerNetwork R} {rest rest' : List (NetworkEvent R)}
    (hNode : next.node = s.node) (hCall : next.inFlight = s.inFlight)
    (hAnswered : s.answered A rest = next.answered A rest') :
    next.caughtUp A rest' = s.caughtUp A rest := by
  rw [caughtUp, caughtUp, hNode, hCall, hAnswered]

/-- A thread that does not wait has nothing to take. -/
theorem inFlight_of_waiting_eq_none (h : s.waiting = none) : s.inFlight = none := by
  rw [inFlight, h]
  rfl

/-- Nor has one that has just sent its request. -/
theorem Traced.inFlight_send (h : s.Traced) (req : OdRequest) :
    ({ s.send req with waiting := some s.nextId } : ControllerNetwork R).inFlight = none := by
  rw [inFlight, Option.bind_some, send, h.wellFormed.responses _ le_rfl,
    h.wellFormed.futures _ le_rfl]
  rfl

/-- The response to the thread's call is in flight as soon as the simulator has answered. -/
theorem inFlight_serve {id : ℕ} {req : OdRequest} (hWaiting : s.waiting = some id)
    (hRequest : s.requests id = some req) :
    (s.step A (.serve id)).inFlight = some (s.sim.serve req).2 := by
  simp only [ControllerNetwork.step, hRequest, inFlight, hWaiting, Option.bind_some,
    Function.update_self]
  rfl

theorem Traced.inFlight_eq_none (h : s.Traced) {id : ℕ} (hWaiting : s.waiting = some id)
    (hRequest : s.requests id ≠ none) : s.inFlight = none := by
  obtain ⟨hResponse, hFuture⟩ := h.requested id hRequest
  rw [inFlight, hWaiting, Option.bind_some, hResponse, hFuture]
  rfl

theorem Traced.inFlight_of_ready (h : s.Traced) {res : OdResponse}
    (hReady : s.waiting.bind s.futures = some res) : s.inFlight = some res := by
  obtain ⟨id, hWaiting, hFuture⟩ := Option.bind_eq_some_iff.mp hReady
  have hResponse := h.processed id (by rw [hFuture]; exact Option.some_ne_none _)
  rw [inFlight, hWaiting, Option.bind_some, hResponse, hFuture]
  rfl

/-- Processing a response leaves it in flight. -/
theorem inFlight_process (s : ControllerNetwork R) (id : ℕ) :
    (s.step A (.process id)).inFlight = s.inFlight := by
  simp only [ControllerNetwork.step]
  split
  · rfl
  · cases hWaiting : s.waiting with
    | none => simp only [inFlight, hWaiting, Option.bind_none]
    | some call =>
        simp only [inFlight, hWaiting, Option.bind_some]
        by_cases hId : call = id
        · subst hId
          simp only [Function.update_self]
          rfl
        · simp only [Function.update_of_ne hId]

/-- A callback acts on the node that has caught up, too. -/
theorem Traced.caughtUp_mapController (h : s.Traced) (f : DriveController → DriveController)
    {next : ControllerNetwork R} {rest rest' : List (NetworkEvent R)}
    (hNode : next.node = s.node.mapController f) (hCall : next.inFlight = s.inFlight)
    (hAnswered : s.answered A rest = next.answered A rest') :
    next.caughtUp A rest' = (s.caughtUp A rest).mapController f := by
  cases hFlight : s.inFlight with
  | none => rw [caughtUp_of_none hFlight, caughtUp_of_none (hCall.trans hFlight), hNode]
  | some res =>
      obtain ⟨id, hWaiting, -⟩ := Option.bind_eq_some_iff.mp hFlight
      have hResume := congrArg Prod.fst
        (s.node.resume_mapController f (h.waiting id hWaiting).2 (some res))
      simp only [Prod.map] at hResume
      rw [caughtUp_of_some hFlight, caughtUp_of_some (hCall.trans hFlight), hNode, hResume,
        hAnswered]
      split <;> rfl

/-- An event, what it amounts to, and the rest of the run. -/
def Simulates (s : ControllerNetwork R) (event : NetworkEvent R) (rest : List (NetworkEvent R)) :
    Prop :=
  run (atomicStep A) (s.sim, s.caughtUp A (event :: rest)) (s.atomicEvents A event rest) =
    ((s.step A event).sim, (s.step A event).caughtUp A rest)

/-- An event that concerns messages only. -/
theorem simulates_of_unseen {event : NetworkEvent R} {rest : List (NetworkEvent R)}
    (hSim : (s.step A event).sim = s.sim) (hNode : (s.step A event).node = s.node)
    (hCall : (s.step A event).inFlight = s.inFlight) (hEvents : s.atomicEvents A event rest = [])
    (hAnswered : s.answered A (event :: rest) = (s.step A event).answered A rest) :
    s.Simulates (A := A) event rest := by
  rw [Simulates, hEvents, run_nil, hSim, caughtUp_congr hNode hCall hAnswered]

theorem simulates_of_idle {event : NetworkEvent R} {rest : List (NetworkEvent R)}
    (hStep : s.step A event = s) (hEvents : s.atomicEvents A event rest = [])
    (hAnswered : s.answered A (event :: rest) = s.answered A rest) :
    s.Simulates (A := A) event rest :=
  simulates_of_unseen (by rw [hStep]) (by rw [hStep]) (by rw [hStep]) hEvents
    (by rw [hStep, hAnswered])

theorem Traced.simulates_thread (h : s.Traced) (rest : List (NetworkEvent R)) :
    s.Simulates (A := A) .thread rest := by
  cases hWaiting : s.waiting with
  | some id =>
      have hStep : s.step A .thread = s := by simp only [ControllerNetwork.step, hWaiting]
      refine simulates_of_idle hStep (by simp [atomicEvents, hWaiting]) ?_
      exact congrArg (fun next => next.answered A rest) hStep
  | none =>
      have hCall := inFlight_of_waiting_eq_none hWaiting
      rw [Simulates, caughtUp_of_none hCall]
      cases hRequest : s.node.request with
      | none =>
          have hStep : s.step A .thread = s.resume none := by
            simp only [ControllerNetwork.step, hWaiting, hRequest]
          have hEvents : s.atomicEvents A .thread rest = [.thread] :=
            if_pos ⟨hWaiting, hRequest⟩
          have hThread := s.node.fsmThread_of_no_request hRequest DriveSimulator.services s.sim
          rw [hStep, hEvents, caughtUp_of_none rfl, run_cons, run_nil, atomicStep, hThread]
          rfl
      | some req =>
          have hStep : s.step A .thread = { s.send req with waiting := some s.nextId } := by
            simp only [ControllerNetwork.step, hWaiting, hRequest]
          have hEvents : s.atomicEvents A .thread rest = [] :=
            if_neg fun hNone => absurd (hRequest.symm.trans hNone.2) (Option.some_ne_none _)
          rw [hStep, hEvents, caughtUp_of_none (h.inFlight_send req)]
          rfl

theorem Traced.simulates_threadReady (h : s.Traced) (rest : List (NetworkEvent R)) :
    s.Simulates (A := A) .threadReady rest := by
  cases hReady : s.waiting.bind s.futures with
  | none =>
      have hStep : s.step A .threadReady = s := by simp only [ControllerNetwork.step, hReady]
      refine simulates_of_idle hStep rfl ?_
      rw [answered, hReady, hStep]
      rfl
  | some res =>
      have hStep : s.step A .threadReady = s.resume (some res) := by
        simp only [ControllerNetwork.step, hReady]
      have hAnswered : s.answered A (.threadReady :: rest) = true := by
        rw [answered, hReady]
        rfl
      rw [Simulates, hStep, caughtUp_of_some (h.inFlight_of_ready hReady), if_pos hAnswered,
        caughtUp_of_none rfl]
      rfl

theorem simulates_threadTimeout (rest : List (NetworkEvent R)) :
    s.Simulates (A := A) .threadTimeout rest := by
  cases hWaiting : s.waiting with
  | none =>
      have hStep : s.step A .threadTimeout = s := by simp only [ControllerNetwork.step, hWaiting]
      have hCall := inFlight_of_waiting_eq_none hWaiting
      have hEvents : s.atomicEvents A .threadTimeout rest = [] := by
        simp [atomicEvents, hWaiting]
      rw [Simulates, hStep, hEvents, caughtUp_of_none hCall, caughtUp_of_none hCall]
      rfl
  | some id =>
      cases hFuture : s.futures id with
      | some res =>
          have hReady : s.waiting.bind s.futures = some res := by rw [hWaiting]; exact hFuture
          have hStep : s.step A .threadTimeout = s := by
            simp [ControllerNetwork.step, hWaiting, hFuture]
          refine simulates_of_idle hStep (by simp [atomicEvents, hReady]) ?_
          rw [answered, hReady, hStep]
          rfl
      | none =>
          have hReady : s.waiting.bind s.futures = none := by rw [hWaiting]; exact hFuture
          have hStep : s.step A .threadTimeout = s.resume none := by
            simp [ControllerNetwork.step, hWaiting, hFuture]
          have hEvents : s.atomicEvents A .threadTimeout rest = [.threadTimeout] :=
            if_pos ⟨by simp [hWaiting], hReady⟩
          have hAnswered : s.answered A (.threadTimeout :: rest) = false := by
            rw [answered, hReady]
            rfl
          have hBehind : s.caughtUp A (.threadTimeout :: rest) = s.node := by
            cases hCall : s.inFlight with
            | none => exact caughtUp_of_none hCall _
            | some res => rw [caughtUp_of_some hCall, if_neg (by simp [hAnswered])]
          rw [Simulates, hStep, hEvents, hBehind, caughtUp_of_none rfl]
          rfl

theorem Traced.simulates_serve (h : s.Traced) (id : ℕ) (rest : List (NetworkEvent R)) :
    s.Simulates (A := A) (.serve id) rest := by
  cases hRequest : s.requests id with
  | none =>
      have hStep : s.step A (.serve id) = s := by simp only [ControllerNetwork.step, hRequest]
      refine simulates_of_idle hStep (by simp only [atomicEvents, hRequest]) ?_
      exact congrArg (fun next => next.answered A rest) hStep
  | some req =>
      have hSome : s.requests id ≠ none := by rw [hRequest]; exact Option.some_ne_none _
      have hSim : (s.step A (.serve id)).sim = (s.sim.serve req).1 := by
        simp only [ControllerNetwork.step, hRequest]
      have hNode : (s.step A (.serve id)).node = s.node := by
        simp only [ControllerNetwork.step, hRequest]
      by_cases hWaiting : s.waiting = some id
      · have hCall := inFlight_serve (A := A) hWaiting hRequest
        have hCalled := DriveControllerNode.fsmThread_services s.sim s.node
          (h.request id req hWaiting hRequest)
        rw [Simulates, caughtUp_of_none (h.inFlight_eq_none hWaiting hSome),
          caughtUp_of_some hCall, hSim, hNode]
        simp only [atomicEvents, hRequest, hWaiting, true_and]
        split
        · rw [run_cons, run_nil, atomicStep, hCalled]
        · rw [run_cons, run_nil, atomicStep, s.sim.serve_fst A]
      · have hOther : (s.step A (.serve id)).inFlight = s.inFlight := by
          simp only [ControllerNetwork.step, hRequest, inFlight]
          cases hCall : s.waiting with
          | none => rfl
          | some call =>
              have hNe : call ≠ id := fun hEq => hWaiting (hEq ▸ hCall)
              simp only [Option.bind_some, Function.update_of_ne hNe]
        have hAnswered : s.answered A (.serve id :: rest) =
            (s.step A (.serve id)).answered A rest := rfl
        rw [Simulates, caughtUp_congr hNode hOther hAnswered, hSim, s.sim.serve_fst A]
        simp only [atomicEvents, hRequest, hWaiting, false_and, if_false]
        rfl

/-- A callback that waits for the group, or acts on the controller at once. -/
theorem Traced.simulates_callback (h : s.Traced) (f : DriveController → DriveController)
    (published : List Publication) {event : NetworkEvent R} {rest : List (NetworkEvent R)}
    {callback : AtomicEvent R}
    (hStep : s.step A event = if s.handler.isSome then s
      else { s with node := s.node.mapController f, published := published })
    (hEvents : s.atomicEvents A event rest = if s.handler.isSome then [] else [callback])
    (hCallback : ∀ config, atomicStep A config callback = (config.1, config.2.mapController f))
    (hAnswered : s.answered A (event :: rest) = (s.step A event).answered A rest) :
    s.Simulates (A := A) event rest := by
  cases hHandler : s.handler.isSome with
  | true =>
      rw [hHandler, if_pos rfl] at hStep hEvents
      exact simulates_of_idle hStep hEvents (by rw [hAnswered, hStep])
  | false =>
      rw [hHandler, if_neg Bool.false_ne_true] at hStep hEvents
      have hNode : (s.step A event).node = s.node.mapController f := by rw [hStep]
      have hCall : (s.step A event).inFlight = s.inFlight := by rw [hStep]; rfl
      rw [Simulates, h.caughtUp_mapController f hNode hCall hAnswered, hEvents, run_cons, run_nil,
        hCallback, hStep]

/-- Every event of the network is what it amounts to. -/
theorem Traced.simulates (h : s.Traced) (event : NetworkEvent R)
    (rest : List (NetworkEvent R)) : s.Simulates (A := A) event rest := by
  cases event with
  | thread => exact h.simulates_thread rest
  | threadReady => exact h.simulates_threadReady rest
  | threadTimeout => exact simulates_threadTimeout rest
  | serve id => exact h.simulates_serve id rest
  | manual req =>
      apply simulates_of_unseen _ _ _ rfl rfl <;>
        simp only [ControllerNetwork.step] <;> split <;> rfl
  | manualReady | manualTimeout =>
      apply simulates_of_unseen _ _ _ rfl rfl <;> simp only [ControllerNetwork.step] <;> split <;>
        first | rfl | split <;> rfl
  | process id =>
      have hCall := inFlight_process (A := A) s id
      apply simulates_of_unseen _ _ hCall rfl rfl <;>
        simp only [ControllerNetwork.step] <;> split <;> rfl
  | cmdVelocity data =>
      exact h.simulates_callback (fun c => c.setTargetVelocity data) s.published rfl rfl
        (fun _ => rfl) rfl
  | setEnable data =>
      exact h.simulates_callback (fun c => c.setEnable data)
        (s.published ++ (s.node.setEnable data).2.2) rfl rfl (fun _ => rfl) rfl
  | operation op =>
      have hAnswered : s.answered A (.operation op :: rest) =
          (s.step A (.operation op)).answered A rest := rfl
      rw [Simulates, caughtUp_congr rfl rfl hAnswered]
      rfl

end Simulation

section Runs

theorem traced_initial (sim : DriveSimulator R) (node : DriveControllerNode) :
    ({ sim := sim, node := node } : ControllerNetwork R).Traced where
  wellFormed := ⟨fun _ _ => rfl, fun _ _ => rfl, fun _ _ => rfl, nofun⟩
  waiting := nofun
  request := nofun
  requested _ h := absurd rfl h
  processed _ h := absurd rfl h

/-- From the start on the atomic calls are with the node that has caught up. -/
theorem run_atomicEvents (sim : DriveSimulator R) (node : DriveControllerNode)
    (events : List (NetworkEvent R)) :
    let start : ControllerNetwork R := { sim := sim, node := node }
    run (atomicStep A) (sim, node) (foresee (step A) (atomicEvents A) start events) =
      ((run (step A) start events).sim, (run (step A) start events).node) := by
  intro start
  let Rel (rest : List (NetworkEvent R)) (s : ControllerNetwork R)
      (config : DriveSimulator R × DriveControllerNode) : Prop :=
    s.Traced ∧ config = (s.sim, s.caughtUp A rest)
  have hStart : Rel events start (sim, node) :=
    ⟨traced_initial sim node, by rw [caughtUp_of_none rfl]⟩
  have hStep : ∀ (s : ControllerNetwork R) (config : DriveSimulator R × DriveControllerNode)
      (event : NetworkEvent R) (rest : List (NetworkEvent R)), Rel (event :: rest) s config →
      Rel rest (s.step A event) (run (atomicStep A) config (s.atomicEvents A event rest)) := by
    rintro s _ event rest ⟨h, rfl⟩
    exact ⟨h.step event, h.simulates event rest⟩
  have hEnd := (run_foresee Rel hStep hStart).2
  rw [hEnd, caughtUp_nil]

end Runs

section Alone
variable {A} {s : ControllerNetwork R}

/-- Without manual requests the only request is the one of the thread. -/
structure Alone (s : ControllerNetwork R) : Prop where
  traced : s.Traced
  handler : s.handler = none
  requests : ∀ id, s.requests id ≠ none → s.waiting = some id

/-- A call ends where the thread takes its response or gives up. -/
theorem waiting_step {event : NetworkEvent R} (hWaiting : s.waiting ≠ none)
    (hReady : event = .threadReady → s.waiting.bind s.futures = none)
    (hTimeout : event ≠ .threadTimeout) : (s.step A event).waiting = s.waiting := by
  obtain ⟨id, hId⟩ := Option.ne_none_iff_exists'.mp hWaiting
  cases event with
  | thread => simp only [ControllerNetwork.step, hId]
  | threadReady => simp only [ControllerNetwork.step, hReady rfl]
  | threadTimeout => exact absurd rfl hTimeout
  | manualReady | manualTimeout =>
      simp only [ControllerNetwork.step]
      split
      · rfl
      · split <;> rfl
  | operation op => rfl
  | _ =>
      simp only [ControllerNetwork.step]
      split <;> rfl

/-- A call that is over at the end, and not given up, was answered. -/
theorem answered_of_done {events : List (NetworkEvent R)} (hWaiting : s.waiting ≠ none)
    (hTimeout : ∀ event ∈ events, event ≠ .threadTimeout)
    (hDone : (run (ControllerNetwork.step A) s events).waiting = none) :
    s.answered A events = true := by
  induction events generalizing s with
  | nil => exact absurd hDone hWaiting
  | cons event events ih =>
      obtain ⟨hEvent, hEvents⟩ := List.forall_mem_cons.mp hTimeout
      by_cases hReady : event = .threadReady ∧ s.waiting.bind s.futures ≠ none
      · obtain ⟨rfl, hFuture⟩ := hReady
        rw [answered, Option.isSome_iff_ne_none.mpr hFuture, Bool.true_or]
      · have hKeep := waiting_step (A := A) hWaiting
          (fun hEq => not_not.mp fun hFuture => hReady ⟨hEq, hFuture⟩) hEvent
        have hRest := ih (hKeep ▸ hWaiting) hEvents hDone
        cases event with
        | threadTimeout => exact absurd rfl hEvent
        | threadReady => rw [answered, hRest, Bool.or_true]
        | _ => exact hRest

/-- The events of the closed loop that a step without other clients amounts to. -/
theorem Alone.exists_loopEvents (h : s.Alone) {event : NetworkEvent R} (hLoop : event.InLoop)
    {rest : List (NetworkEvent R)} (hTimeout : ∀ event ∈ rest, event ≠ .threadTimeout)
    (hDone : (run (ControllerNetwork.step A) (s.step A event) rest).waiting = none) :
    ∃ loop : List (LoopEvent R), s.atomicEvents A event rest = loop.map AtomicEvent.ofLoop ∧
      loop.filter LoopEvent.isOther = event.loopEvent?.toList := by
  cases event with
  | thread =>
      simp only [atomicEvents]
      split
      · exact ⟨[.fsmThread], rfl, rfl⟩
      · exact ⟨[], rfl, rfl⟩
  | threadTimeout => exact hLoop.elim
  | manual req => exact hLoop.elim
  | cmdVelocity data =>
      refine ⟨[.cmdVelocity data], ?_, rfl⟩
      rw [atomicEvents, h.handler]
      rfl
  | setEnable data =>
      refine ⟨[.setEnable data], ?_, rfl⟩
      rw [atomicEvents, h.handler]
      rfl
  | serve id =>
      cases hRequest : s.requests id with
      | none => exact ⟨[], by simp only [atomicEvents, hRequest]; rfl, rfl⟩
      | some req =>
          have hWaiting := h.requests id (by rw [hRequest]; exact Option.some_ne_none _)
          have hSome : s.waiting ≠ none := by rw [hWaiting]; exact Option.some_ne_none _
          have hServe : NetworkEvent.serve id ≠ (.threadTimeout : NetworkEvent R) := by simp
          have hKeep : (s.step A (.serve id)).waiting = s.waiting :=
            waiting_step hSome (by simp) hServe
          have hAnswered := answered_of_done (hKeep ▸ hSome) hTimeout hDone
          refine ⟨[.fsmThread], ?_, rfl⟩
          simp only [atomicEvents, hRequest, hWaiting, hAnswered, and_self, if_true]
          rfl
  | operation op =>
      cases op with
      | updateFsm => exact ⟨[.fsmTimer], rfl, rfl⟩
      | update dt => exact ⟨[.updateTimer dt], rfl, rfl⟩
      | injectFault => exact ⟨[.injectFault], rfl, rfl⟩
      | injectOverspeedFault => exact ⟨[.injectOverspeedFault], rfl, rfl⟩
      | injectSensorTimeoutFault => exact ⟨[.injectSensorTimeoutFault], rfl, rfl⟩
      | _ => exact absurd hLoop Bool.false_ne_true
  | _ => exact ⟨[], rfl, rfl⟩

theorem Alone.step (h : s.Alone) {event : NetworkEvent R} (hLoop : event.InLoop) :
    (s.step A event).Alone := by
  have hHandler : (s.step A event).handler = none := by
    rw [Option.eq_none_iff_forall_ne_some]
    rintro ⟨req, id⟩ hNext
    rcases handler_step hNext with hOld | ⟨rfl, -⟩
    · rw [h.handler] at hOld
      cases hOld
    · exact hLoop
  refine ⟨h.traced.step event, hHandler, fun id hRequest => ?_⟩
  cases event with
  | thread =>
      simp only [ControllerNetwork.step] at hRequest ⊢
      split at hRequest
      · exact h.requests id hRequest
      · rename_i hWaiting _
        exact absurd ((h.requests id hRequest).symm.trans hWaiting) (Option.some_ne_none id)
      · rename_i hWaiting _
        by_cases hId : id = s.nextId
        · rw [hId]
        · simp only [send, Function.update_of_ne hId] at hRequest
          exact absurd ((h.requests id hRequest).symm.trans hWaiting) (Option.some_ne_none id)
  | threadReady =>
      simp only [ControllerNetwork.step] at hRequest ⊢
      split at hRequest
      · exact h.requests id hRequest
      · rename_i res hReady
        have hFuture := (h.traced.requested id hRequest).2
        rw [h.requests id hRequest, Option.bind_some, hFuture] at hReady
        cases hReady
  | threadTimeout => exact hLoop.elim
  | manual req => exact hLoop.elim
  | manualReady | manualTimeout =>
      simp only [ControllerNetwork.step, h.handler] at hRequest ⊢
      exact h.requests id hRequest
  | serve served =>
      simp only [ControllerNetwork.step] at hRequest ⊢
      split at hRequest
      · exact h.requests id hRequest
      · by_cases hId : id = served
        · simp [hId] at hRequest
        · simp only [Function.update_of_ne hId] at hRequest
          exact h.requests id hRequest
  | operation op => exact h.requests id hRequest
  | _ =>
      simp only [ControllerNetwork.step, h.handler, Option.isSome_none, Bool.false_eq_true,
        if_false] at hRequest ⊢
      exact h.requests id hRequest

/-- A whole run without other clients and without timeouts. -/
theorem Alone.exists_loop (h : s.Alone) {events : List (NetworkEvent R)}
    (hLoop : ∀ event ∈ events, event.InLoop)
    (hDone : (run (ControllerNetwork.step A) s events).waiting = none) :
    ∃ loop : List (LoopEvent R),
      foresee (ControllerNetwork.step A) (atomicEvents A) s events = loop.map AtomicEvent.ofLoop ∧
      loop.filter LoopEvent.isOther = events.filterMap NetworkEvent.loopEvent? := by
  induction events generalizing s with
  | nil => exact ⟨[], rfl, rfl⟩
  | cons event events ih =>
      obtain ⟨hEvent, hEvents⟩ := List.forall_mem_cons.mp hLoop
      have hTimeout : ∀ event ∈ events, event ≠ .threadTimeout := by
        rintro event hMem rfl
        exact hEvents _ hMem
      obtain ⟨first, hFirst, hFirstOther⟩ := h.exists_loopEvents hEvent hTimeout hDone
      obtain ⟨rest, hRest, hRestOther⟩ := ih (h.step hEvent) hEvents hDone
      refine ⟨first ++ rest, ?_, ?_⟩
      · rw [foresee, hFirst, hRest, List.map_append]
      · rw [List.filter_append, hFirstOther, hRestOther, List.filterMap_cons]
        cases event.loopEvent? <;> rfl

end Alone

end ControllerNetwork

open ControllerNetwork

section Results
variable {R : Type} (A : DoubleArith R) (sim : DriveSimulator R) (node : DriveControllerNode)

/-- A run of the controller node and the simulator, with any delays, losses and
manual requests, is a run of atomic calls: the thread's call is where the
simulator executes its request, if its response is taken, and everything else
that the simulator executes is an operation of another client. -/
theorem network_refines_atomic (events : List (NetworkEvent R)) :
    let start : ControllerNetwork R := { sim := sim, node := node }
    run (atomicStep A) (sim, node) (foresee (step A) (atomicEvents A) start events) =
      ((run (step A) start events).sim, (run (step A) start events).node) :=
  run_atomicEvents A sim node events

/-- Without manual requests and without calls that are given up, the node and the
simulator behave as in the closed loop: the thread takes its turns at once,
between the same callbacks and timers in the same order. -/
theorem network_is_closed_loop {events : List (NetworkEvent R)}
    (hLoop : ∀ event ∈ events, event.InLoop) :
    let start : ControllerNetwork R := { sim := sim, node := node }
    let finish := run (step A) start events
    finish.waiting = none →
      ∃ loop : List (LoopEvent R), loop.filter LoopEvent.isOther =
          events.filterMap NetworkEvent.loopEvent? ∧
        run (DriveSimulator.loopStep A) (sim, node) loop = (finish.sim, finish.node) := by
  intro start finish hDone
  have hStart : start.Alone := ⟨traced_initial sim node, rfl, fun _ h => absurd rfl h⟩
  obtain ⟨loop, hAtomic, hOther⟩ := hStart.exists_loop hLoop hDone
  refine ⟨loop, hOther, ?_⟩
  have hRun : run (atomicStep A) (sim, node) (foresee (step A) (atomicEvents A) start events) =
      (finish.sim, finish.node) := run_atomicEvents A sim node events
  rwa [hAtomic, run_ofLoop] at hRun

end Results

/-- A poll starts, the node is disabled while the response is on its way, and a
tick comes between the response and the next turn. -/
theorem network_is_closed_loop_delayed :
    let A : DoubleArith ℚ := .exact fun _ => 0
    let start : ControllerNetwork ℚ := { sim := .initial A, node := {} }
    let finish := run (step A) start
      [.thread, .serve 0, .setEnable false, .process 0, .operation .updateFsm, .threadReady]
    ∃ loop : List (LoopEvent ℚ), loop.filter LoopEvent.isOther = [.setEnable false, .fsmTimer] ∧
      run (DriveSimulator.loopStep A) (start.sim, start.node) loop = (finish.sim, finish.node) :=
  have hLoop : ∀ event ∈ ([.thread, .serve 0, .setEnable false, .process 0, .operation .updateFsm,
      .threadReady] : List (NetworkEvent ℚ)), event.InLoop := by
    simp [NetworkEvent.InLoop, NetworkEvent.loopEvent?]
  network_is_closed_loop _ _ _ hLoop rfl

end Ca1MotorCtrl
