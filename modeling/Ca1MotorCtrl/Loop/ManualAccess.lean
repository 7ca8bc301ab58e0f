import Ca1MotorCtrl.Controller.DriveControllerNode
import Ca1MotorCtrl.Transition.Numbered

/-! The controller node as its executor runs it. Callbacks, manual handlers and
the processing of responses belong to one mutually exclusive group; only the
FSM thread runs outside it. A manual handler that waits for a response keeps
the group, so the response it waits for is not processed before it gives up. -/
namespace Ca1MotorCtrl

open Transition

/-- The requests of the two dictionary services. -/
inductive OdRequest where
  | read (index : UInt16) (subindex : UInt8)
  | write (index : UInt16) (subindex : UInt8) (value : OdValue)
  deriving DecidableEq, Repr

inductive OdResponse where
  | read (response : OdReadResponse)
  | write (response : OdWriteResponse)
  deriving DecidableEq, Repr

/-- The response of a manual handler whose call timed out or failed. -/
def OdRequest.refused : OdRequest → OdResponse
  | .read _ _ => .read { success := false, message := "read failed" }
  | .write _ _ _ => .write { success := false, message := "write failed", abortCode := 0 }

/-- The same success flag and, for a read that succeeded, the same value. -/
def OdResponse.Agrees : OdResponse → OdResponse → Prop
  | .read response, .read reply =>
      response.success = reply.success ∧ (reply.success = true → response.value = reply.value)
  | .write response, .write reply => response.success = reply.success
  | _, _ => False

/-- The simulator node answers a request. -/
def DriveSimulator.serve {R : Type} (s : DriveSimulator R) :
    OdRequest → DriveSimulator R × OdResponse
  | .read index subindex => (s, .read (s.handleRead index subindex))
  | .write index subindex value =>
      let (next, response) := s.handleWrite index subindex value
      (next, .write response)

/-- A client whose next future is settled: ready with a response, or timed out. -/
def settled (outcome : Option OdResponse) : Services Unit where
  odRead _ _ _ :=
    ((), match outcome with
      | some (.read response) => some response
      | _ => none)
  odWrite _ _ _ _ :=
    ((), match outcome with
      | some (.write response) => some response
      | _ => none)

namespace DriveControllerNode

/-- The request that the FSM thread sends next, if it makes a call. -/
def request (node : DriveControllerNode) : Option OdRequest :=
  match node.phase with
  | .readStatusword => some (.read Cia402Index.statusword 0)
  | .step _ => none
  | .readErrorCode _ => some (.read Cia402Index.errorCode 0)
  | .write cmd _ => some (.write cmd.index cmd.subindex cmd.value)
  | .readDisplay _ _ => some (.read Cia402Index.modesOfOperationDisplay 0)
  | .readVelocity => some (.read Cia402Index.velocityActual 0)
  | .readPosition => some (.read Cia402Index.positionActual 0)

/-- The FSM thread goes on once its future is settled. -/
def resume (node : DriveControllerNode) (outcome : Option OdResponse) :
    DriveControllerNode × List Publication :=
  (fsmThread (settled outcome) () node).2

/-- The response of `/ca1/od_read_manual` or `/ca1/od_write_manual`. -/
def manualResponse (outcome : Option OdResponse) :
    OdRequest → OdResponse × List Publication
  | .read index subindex =>
      let (_, val, published) := syncRead (settled outcome) () index subindex
      match val with
      | some value => (.read { value := value, success := true }, published)
      | none => (.read { success := false, message := "read failed" }, published)
  | .write index subindex value =>
      let (_, ok, published) := syncWrite (settled outcome) () index subindex value
      (.write { success := ok, message := if ok then "" else "write failed", abortCode := 0 },
        published)

/-- Whatever the outcome, a handler that gives up reports a failure. -/
theorem manualResponse_none (req : OdRequest) : (manualResponse none req).1 = req.refused := by
  cases req <;> rfl

section Call
variable {R : Type} (s : DriveSimulator R)

/-- One transition of the thread is the request it sends and what it does with
the response. -/
theorem fsmThread_services (node : DriveControllerNode) {req : OdRequest}
    (hRequest : node.request = some req) :
    fsmThread DriveSimulator.services s node =
      ((s.serve req).1, node.resume (some (s.serve req).2)) := by
  obtain ⟨controller, phase⟩ := node
  cases phase with
  | step raw => cases hRequest
  | write cmd rest =>
      obtain rfl := Option.some.inj hRequest
      simp only [fsmThread, resume]
      split <;> rfl
  | _ =>
      obtain rfl := Option.some.inj hRequest
      simp only [fsmThread, resume, syncRead, settled, DriveSimulator.services,
        DriveSimulator.serve]
      cases (s.handleRead _ 0).success <;> rfl

end Call

end DriveControllerNode

/-- A manual request that was answered: the reply that the simulator had sent
by then, if any, and the response of the handler. -/
structure ManualAnswer where
  request : OdRequest
  reply : Option OdResponse
  response : OdResponse
  deriving DecidableEq, Repr

/-- The simulator, the controller node and the messages between them. A call is
known by a number: its request until it is served, its response until it is
processed, its future from then on. -/
structure ControllerNetwork (R : Type) where
  sim : DriveSimulator R
  node : DriveControllerNode := {}
  /-- The call that the FSM thread waits for. -/
  waiting : Option ℕ := none
  /-- The manual handler that holds the callback group, and its call. -/
  handler : Option (OdRequest × ℕ) := none
  requests : ℕ → Option OdRequest := fun _ => none
  responses : ℕ → Option OdResponse := fun _ => none
  futures : ℕ → Option OdResponse := fun _ => none
  nextId : ℕ := 0
  answers : List ManualAnswer := []
  published : List Publication := []

inductive NetworkEvent (R : Type) where
  | thread
  | threadReady
  | threadTimeout
  | manual (req : OdRequest)
  | manualReady
  | manualTimeout
  | cmdVelocity (data : OdValue)
  | setEnable (data : Bool)
  | serve (id : ℕ)
  | process (id : ℕ)
  | operation (op : Operation R)

namespace ControllerNetwork
variable {R : Type} (A : DoubleArith R)

/-- `async_send_request`. -/
def send (s : ControllerNetwork R) (req : OdRequest) : ControllerNetwork R :=
  { s with requests := Function.update s.requests s.nextId (some req), nextId := s.nextId + 1 }

/-- The FSM thread goes on. -/
def resume (s : ControllerNetwork R) (outcome : Option OdResponse) : ControllerNetwork R :=
  let (node, published) := s.node.resume outcome
  { s with node := node, waiting := none, published := s.published ++ published }

/-- The handler of the call `id` returns and releases the group. -/
def answer (s : ControllerNetwork R) (req : OdRequest) (id : ℕ) (outcome : Option OdResponse) :
    ControllerNetwork R :=
  let (response, published) := DriveControllerNode.manualResponse outcome req
  { s with
    handler := none
    answers := s.answers ++ [{ request := req, reply := s.responses id, response := response }]
    published := s.published ++ published }

/-- One event. An event that is not possible in a state changes nothing. -/
def step (s : ControllerNetwork R) : NetworkEvent R → ControllerNetwork R
  | .thread =>
      match s.waiting, s.node.request with
      | some _, _ => s
      | none, none => s.resume none
      | none, some req => { s.send req with waiting := some s.nextId }
  | .threadReady =>
      match s.waiting.bind s.futures with
      | none => s
      | some res => s.resume (some res)
  | .threadTimeout =>
      match s.waiting with
      | none => s
      | some id => if (s.futures id).isSome then s else s.resume none
  | .manual req =>
      match s.handler with
      | some _ => s
      | none => { s.send req with handler := some (req, s.nextId) }
  | .manualReady =>
      match s.handler with
      | none => s
      | some (req, id) =>
          match s.futures id with
          | none => s
          | some res => s.answer req id (some res)
  | .manualTimeout =>
      match s.handler with
      | none => s
      | some (req, id) => if (s.futures id).isSome then s else s.answer req id none
  | .cmdVelocity data =>
      if s.handler.isSome then s else { s with node := s.node.cmdVelocity data }
  | .setEnable data =>
      if s.handler.isSome then s
      else
        let (node, _, published) := s.node.setEnable data
        { s with node := node, published := s.published ++ published }
  | .serve id =>
      match s.requests id with
      | none => s
      | some req =>
          let (sim, response) := s.sim.serve req
          { s with
            sim := sim
            requests := Function.update s.requests id none
            responses := Function.update s.responses id (some response) }
  | .process id =>
      if s.handler.isSome then s
      else
        { s with
          responses := Function.update s.responses id none
          futures := Function.update s.futures id (s.responses id <|> s.futures id) }
  | .operation op => { s with sim := s.sim.step A op }

/-- A manual handler waits for a reply that the simulator has sent and that
cannot be processed while the handler holds the group. -/
def Blocked (s : ControllerNetwork R) : Prop :=
  ∃ req id, s.handler = some (req, id) ∧ (s.responses id).isSome = true ∧
    s.step A (.process id) = s

/-- Manual requests whose reply arrived in time are answered as the simulator
replied. -/
def Faithful (s : ControllerNetwork R) : Prop :=
  ∀ answered ∈ s.answers, ∀ reply, answered.reply = some reply → answered.response.Agrees reply

/-- The simulator executes the request of the manual handler that waits. -/
def ServesHandler (s : ControllerNetwork R) (event : NetworkEvent R) : Prop :=
  ∃ req id, s.handler = some (req, id) ∧ event = .serve id ∧ (s.requests id).isSome = true

/-- Unused calls carry no message, and the future of a waiting handler is not
ready. -/
structure WellFormed (s : ControllerNetwork R) : Prop where
  requests : UnusedFrom s.nextId s.requests
  responses : UnusedFrom s.nextId s.responses
  futures : UnusedFrom s.nextId s.futures
  handler : ∀ req id, s.handler = some (req, id) → id < s.nextId ∧ s.futures id = none

/-- Neither the handler nor a reply nor an answer changes. -/
structure Quiet (s next : ControllerNetwork R) : Prop where
  handler : next.handler = s.handler
  responses : next.responses = s.responses
  answers : next.answers = s.answers

section Messages
variable {A} {s : ControllerNetwork R}

theorem blocked_iff :
    s.Blocked A ↔ ∃ req id, s.handler = some (req, id) ∧ (s.responses id).isSome = true := by
  constructor
  · intro ⟨req, id, hHandler, hReply, _⟩
    exact ⟨req, id, hHandler, hReply⟩
  · intro ⟨req, id, hHandler, hReply⟩
    exact ⟨req, id, hHandler, hReply, by simp [step, hHandler]⟩

theorem WellFormed.resume (h : s.WellFormed) (outcome : Option OdResponse) :
    (s.resume outcome).WellFormed :=
  ⟨h.requests, h.responses, h.futures, h.handler⟩

/-- A call that starts is a fresh one. -/
theorem WellFormed.send (h : s.WellFormed) (req : OdRequest) : (s.send req).WellFormed where
  requests := h.requests.update_next _
  responses := h.responses.succ
  futures := h.futures.succ
  handler held id hHandler :=
    ⟨Nat.lt_succ_of_lt (h.handler held id hHandler).1, (h.handler held id hHandler).2⟩

theorem WellFormed.answer (h : s.WellFormed) (req : OdRequest) (id : ℕ)
    (outcome : Option OdResponse) : (s.answer req id outcome).WellFormed :=
  ⟨h.requests, h.responses, h.futures, fun _ _ hHandler => nomatch hHandler⟩

theorem WellFormed.serve (h : s.WellFormed) (id : ℕ) : (s.step A (.serve id)).WellFormed := by
  simp only [step]
  split
  · exact h
  · rename_i req hRequest
    have hId : id < s.nextId := h.requests.lt_of_eq_some hRequest
    exact ⟨h.requests.update_none id, h.responses.update_of_lt hId _, h.futures, h.handler⟩

theorem WellFormed.process (h : s.WellFormed) (id : ℕ) : (s.step A (.process id)).WellFormed := by
  simp only [step]
  split
  · exact h
  · rename_i hFree
    refine ⟨h.requests, h.responses.update_none id, ?_, fun req held hHandler =>
      absurd (Option.isSome_of_eq_some hHandler) hFree⟩
    by_cases hId : id < s.nextId
    · exact h.futures.update_of_lt hId _
    · have hLe : s.nextId ≤ id := Nat.le_of_not_lt hId
      rw [h.responses id hLe, h.futures id hLe]
      exact h.futures.update_none id

theorem WellFormed.step (h : s.WellFormed) (event : NetworkEvent R) :
    (s.step A event).WellFormed := by
  cases event with
  | thread =>
      simp only [ControllerNetwork.step]
      split
      · exact h
      · exact h.resume none
      · rename_i req _ _
        have hSend := h.send req
        exact ⟨hSend.requests, hSend.responses, hSend.futures, hSend.handler⟩
  | threadReady =>
      simp only [ControllerNetwork.step]
      split
      · exact h
      · exact h.resume _
  | threadTimeout =>
      simp only [ControllerNetwork.step]
      split
      · exact h
      · split
        · exact h
        · exact h.resume none
  | manual req =>
      simp only [ControllerNetwork.step]
      split
      · exact h
      · have hSend := h.send req
        refine ⟨hSend.requests, hSend.responses, hSend.futures, fun held id hHandler => ?_⟩
        obtain ⟨rfl, rfl⟩ := Prod.mk.inj (Option.some.inj hHandler)
        exact ⟨Nat.lt_succ_self _, h.futures _ le_rfl⟩
  | manualReady =>
      simp only [ControllerNetwork.step]
      split
      · exact h
      · split
        · exact h
        · exact h.answer _ _ _
  | manualTimeout =>
      simp only [ControllerNetwork.step]
      split
      · exact h
      · split
        · exact h
        · exact h.answer _ _ _
  | cmdVelocity data =>
      simp only [ControllerNetwork.step]
      split <;> exact ⟨h.requests, h.responses, h.futures, h.handler⟩
  | setEnable data =>
      simp only [ControllerNetwork.step]
      split <;> exact ⟨h.requests, h.responses, h.futures, h.handler⟩
  | serve id => exact h.serve id
  | process id => exact h.process id
  | operation op => exact ⟨h.requests, h.responses, h.futures, h.handler⟩

/-- Executing the request of the waiting handler leaves a reply that the handler
keeps from being processed. -/
theorem ServesHandler.blocked {event : NetworkEvent R} (h : s.ServesHandler event) :
    (s.step A event).Blocked A := by
  obtain ⟨req, id, hHandler, rfl, hRequest⟩ := h
  obtain ⟨sent, hSent⟩ := Option.isSome_iff_exists.mp hRequest
  refine blocked_iff.mpr ⟨req, id, ?_, ?_⟩
  · simp only [ControllerNetwork.step, hSent]
    exact hHandler
  · simp only [ControllerNetwork.step, hSent, Function.update_self, Option.isSome_some]

/-- What a step can do to the manual handler, the replies and the answers. -/
theorem step_cases (event : NetworkEvent R) :
    Quiet s (s.step A event) ∨
    (∃ req, event = .manual req ∧
      s.step A event = { s.send req with handler := some (req, s.nextId) }) ∨
    (∃ req id, s.handler = some (req, id) ∧ s.step A event = s.answer req id (s.futures id)) ∨
    (∃ id req, event = .serve id ∧ s.requests id = some req ∧
      s.step A event =
        { s with
          sim := (s.sim.serve req).1
          requests := Function.update s.requests id none
          responses := Function.update s.responses id (some (s.sim.serve req).2) }) ∨
    ∃ id, s.step A event =
      { s with
        responses := Function.update s.responses id none
        futures := Function.update s.futures id (s.responses id <|> s.futures id) } := by
  cases event with
  | manual req =>
      simp only [ControllerNetwork.step]
      split
      · exact Or.inl ⟨rfl, rfl, rfl⟩
      · exact Or.inr (Or.inl ⟨req, rfl, rfl⟩)
  | manualReady =>
      simp only [ControllerNetwork.step]
      split
      · exact Or.inl ⟨rfl, rfl, rfl⟩
      · rename_i req id hHandler
        split
        · exact Or.inl ⟨rfl, rfl, rfl⟩
        · rename_i res hReady
          exact Or.inr (Or.inr (Or.inl ⟨req, id, hHandler, by rw [hReady]⟩))
  | manualTimeout =>
      simp only [ControllerNetwork.step]
      split
      · exact Or.inl ⟨rfl, rfl, rfl⟩
      · rename_i req id hHandler
        split
        · exact Or.inl ⟨rfl, rfl, rfl⟩
        · rename_i hPending
          rw [Option.not_isSome_iff_eq_none] at hPending
          exact Or.inr (Or.inr (Or.inl ⟨req, id, hHandler, by rw [hPending]⟩))
  | serve id =>
      simp only [ControllerNetwork.step]
      split
      · exact Or.inl ⟨rfl, rfl, rfl⟩
      · rename_i req hRequest
        exact Or.inr (Or.inr (Or.inr (Or.inl ⟨id, req, rfl, hRequest, rfl⟩)))
  | process id =>
      simp only [ControllerNetwork.step]
      split
      · exact Or.inl ⟨rfl, rfl, rfl⟩
      · exact Or.inr (Or.inr (Or.inr (Or.inr ⟨id, rfl⟩)))
  | threadTimeout =>
      simp only [ControllerNetwork.step]
      split
      · exact Or.inl ⟨rfl, rfl, rfl⟩
      · split <;> exact Or.inl ⟨rfl, rfl, rfl⟩
  | operation op => exact Or.inl ⟨rfl, rfl, rfl⟩
  | _ =>
      simp only [ControllerNetwork.step]
      split <;> exact Or.inl ⟨rfl, rfl, rfl⟩

/-- A handler takes the group only when it is free, and starts a fresh call. -/
theorem handler_step {event : NetworkEvent R} {req : OdRequest} {id : ℕ}
    (h : (s.step A event).handler = some (req, id)) :
    s.handler = some (req, id) ∨ event = .manual req ∧ id = s.nextId := by
  obtain hQuiet | ⟨sent, rfl, hEq⟩ | ⟨held, call, _, hEq⟩ | ⟨served, sent, _, _, hEq⟩ |
    ⟨processed, hEq⟩ := s.step_cases (A := A) event
  · exact Or.inl (hQuiet.handler ▸ h)
  · rw [hEq] at h
    obtain ⟨rfl, rfl⟩ := Prod.mk.inj (Option.some.inj h)
    exact Or.inr ⟨rfl, rfl⟩
  · rw [hEq] at h
    cases h
  · rw [hEq] at h
    exact Or.inl h
  · rw [hEq] at h
    exact Or.inl h

/-- A reply is new only where the simulator executes the request. -/
theorem responses_step {event : NetworkEvent R} {id : ℕ}
    (h : ((s.step A event).responses id).isSome = true) :
    (s.responses id).isSome = true ∨ event = .serve id ∧ (s.requests id).isSome = true := by
  obtain hQuiet | ⟨sent, rfl, hEq⟩ | ⟨held, call, _, hEq⟩ | ⟨served, sent, rfl, hSent, hEq⟩ |
    ⟨processed, hEq⟩ := s.step_cases (A := A) event
  · exact Or.inl (hQuiet.responses ▸ h)
  · rw [hEq] at h
    exact Or.inl h
  · rw [hEq] at h
    exact Or.inl h
  · by_cases hServed : id = served
    · subst hServed
      exact Or.inr ⟨rfl, Option.isSome_of_eq_some hSent⟩
    · simp only [hEq, Function.update_of_ne hServed] at h
      exact Or.inl h
  · by_cases hProcessed : id = processed
    · simp only [hEq, hProcessed, Function.update_self, Option.isSome_none,
        Bool.false_eq_true] at h
    · simp only [hEq, Function.update_of_ne hProcessed] at h
      exact Or.inl h

/-- A handler only ever gives up. -/
theorem WellFormed.answers_step (h : s.WellFormed) {event : NetworkEvent R}
    {answered : ManualAnswer} (hMem : answered ∈ (s.step A event).answers) :
    answered ∈ s.answers ∨
      ∃ id, s.handler = some (answered.request, id) ∧ answered.reply = s.responses id ∧
        answered.response = answered.request.refused := by
  obtain hQuiet | ⟨sent, rfl, hEq⟩ | ⟨req, id, hHandler, hEq⟩ | ⟨served, sent, _, _, hEq⟩ |
    ⟨processed, hEq⟩ := s.step_cases (A := A) event
  · exact Or.inl (hQuiet.answers ▸ hMem)
  · rw [hEq] at hMem
    exact Or.inl hMem
  · rw [hEq, (h.handler req id hHandler).2] at hMem
    obtain hOld | hNew := List.mem_append.mp hMem
    · exact Or.inl hOld
    · obtain rfl := List.mem_singleton.mp hNew
      exact Or.inr ⟨id, hHandler, rfl, DriveControllerNode.manualResponse_none req⟩
  · rw [hEq] at hMem
    exact Or.inl hMem
  · rw [hEq] at hMem
    exact Or.inl hMem

/-- A handler is blocked only when the simulator executes its request. -/
theorem WellFormed.not_blocked_step (h : s.WellFormed) (hFree : ¬ s.Blocked A)
    {event : NetworkEvent R} (hEvent : ¬ s.ServesHandler event) :
    ¬ (s.step A event).Blocked A := by
  intro hBlocked
  obtain ⟨req, id, hHandler, hReply⟩ := blocked_iff.mp hBlocked
  obtain hOld | ⟨rfl, rfl⟩ := handler_step hHandler
  · obtain hSent | ⟨rfl, hRequest⟩ := responses_step hReply
    · exact hFree (blocked_iff.mpr ⟨req, id, hOld, hSent⟩)
    · exact hEvent ⟨req, id, hOld, rfl, hRequest⟩
  · obtain hSent | ⟨hServe, _⟩ := responses_step hReply
    · rw [h.responses _ le_rfl] at hSent
      cases hSent
    · cases hServe

/-- Without a blocked handler no reply is in time. -/
theorem WellFormed.faithful_step (h : s.WellFormed) (hFree : ¬ s.Blocked A) (hFaithful : s.Faithful)
    (event : NetworkEvent R) : (s.step A event).Faithful := by
  intro answered hMem reply hReply
  obtain hOld | ⟨id, hHandler, hSent, _⟩ := h.answers_step hMem
  · exact hFaithful answered hOld reply hReply
  · refine absurd (blocked_iff.mpr ⟨answered.request, id, hHandler, ?_⟩) hFree
    rw [← hSent, hReply]
    rfl

/-- A manual request that is executed at once is nevertheless refused. -/
theorem run_manual_call (h : s.WellFormed) (hHandler : s.handler = none)
    (req : OdRequest) :
    let next := run (step A) s [.manual req, .serve s.nextId, .manualTimeout]
    next.sim = (s.sim.serve req).1 ∧
      next.answers = s.answers ++
        [{ request := req, reply := some (s.sim.serve req).2, response := req.refused }] := by
  intro next
  simp only [next, run_cons, run_nil, step, hHandler, send, answer, Function.update_self,
    h.futures s.nextId le_rfl, Option.isSome_none, Bool.false_eq_true, if_false,
    ← DriveControllerNode.manualResponse_none req, true_and]

end Messages

section Runs

theorem wellFormed_initial (sim : DriveSimulator R) :
    ({ sim := sim } : ControllerNetwork R).WellFormed :=
  ⟨fun _ _ => rfl, fun _ _ => rfl, fun _ _ => rfl, fun _ _ hHandler => nomatch hHandler⟩

/-- No handler is blocked, and every reply in time is passed on, exactly if the
simulator leaves the requests of waiting handlers alone. -/
theorem forall_not_blocked_iff (sim : DriveSimulator R) (events : List (NetworkEvent R)) :
    (∀ before, before <+: events →
      ¬ (run (step A) { sim := sim } before).Blocked A ∧
        (run (step A) { sim := sim } before).Faithful) ↔
      EveryStep (step A) (fun s event => ¬ s.ServesHandler event) { sim := sim } events := by
  refine forall_prefix_iff_everyStep WellFormed (fun s => ¬ s.Blocked A ∧ s.Faithful)
    (fun _ event h => h.step event) ?_ (wellFormed_initial sim) ?_ events
  · intro s event h ⟨hFree, hFaithful⟩
    constructor
    · intro ⟨hNext, _⟩ hServes
      exact hNext hServes.blocked
    · intro hEvent
      exact ⟨h.not_blocked_step hFree hEvent, h.faithful_step hFree hFaithful event⟩
  · refine ⟨?_, fun _ hMem => nomatch hMem⟩
    rw [blocked_iff]
    intro ⟨_, _, hHandler, _⟩
    cases hHandler

/-- Without manual requests no handler waits. -/
theorem everyStep_of_no_manual (sim : DriveSimulator R) {events : List (NetworkEvent R)}
    (hManual : ∀ event ∈ events, ∀ req, event ≠ .manual req) :
    EveryStep (step A) (fun s event => ¬ s.ServesHandler event) { sim := sim } events := by
  have hGuard : EveryStep (step A) (fun _ event => ∀ req, event ≠ .manual req) { sim := sim }
      events := everyStep_of_forall_mem hManual _
  refine hGuard.of_guard (fun s => s.handler = none) ?_ rfl
  intro s event hHandler hEvent
  constructor
  · intro ⟨req, id, hHeld, _⟩
    rw [hHandler] at hHeld
    cases hHeld
  · rw [Option.eq_none_iff_forall_ne_some]
    intro ⟨req, id⟩ hNext
    obtain hOld | ⟨hNew, _⟩ := handler_step hNext
    · rw [hHandler] at hOld
      cases hOld
    · exact hEvent req hNew

/-- No manual request is ever answered with success. -/
theorem run_refused (sim : DriveSimulator R) (events : List (NetworkEvent R)) :
    ∀ answered ∈ (run (step A) { sim := sim } events).answers,
      answered.response = answered.request.refused := by
  refine (run_invariant (fun s : ControllerNetwork R => s.WellFormed ∧
    ∀ answered ∈ s.answers, answered.response = answered.request.refused) ?_
    ⟨wellFormed_initial sim, fun _ hMem => nomatch hMem⟩ events).2
  intro s event ⟨h, hRefused⟩
  refine ⟨h.step event, fun answered hMem => ?_⟩
  obtain hOld | ⟨_, _, _, hNew⟩ := h.answers_step hMem
  · exact hRefused answered hOld
  · exact hNew

end Runs

end ControllerNetwork

open ControllerNetwork

/-- Manual access blocks on itself exactly where the simulator executes a
request whose handler still waits. Runs without manual requests are free of
that, and a manual request is answered with a failure in every run. -/
theorem manual_access_iff {R : Type} (A : DoubleArith R) (sim : DriveSimulator R)
    (events : List (NetworkEvent R)) :
    ((∀ before, before <+: events →
        ¬ (run (step A) { sim := sim } before).Blocked A ∧
          (run (step A) { sim := sim } before).Faithful) ↔
      EveryStep (step A) (fun s event => ¬ s.ServesHandler event) { sim := sim } events) ∧
    ((∀ event ∈ events, ∀ req, event ≠ .manual req) →
      EveryStep (step A) (fun s event => ¬ s.ServesHandler event) { sim := sim } events) ∧
    ∀ answered ∈ (run (step A) { sim := sim } events).answers,
      answered.response = answered.request.refused :=
  ⟨forall_not_blocked_iff A sim events, everyStep_of_no_manual A sim, run_refused A sim events⟩

/-- The operator writes the Shutdown command: the drive obeys, and the handler
that could not see the reply reports a failure. -/
theorem manual_shutdown_blocks :
    let start : ControllerNetwork ℚ := { sim := .initial (.exact fun _ => 0) }
    let shutdown : OdRequest := .write Cia402Index.controlword 0 0x06
    (run (step (.exact fun _ => 0)) start [.manual shutdown, .serve 0]).Blocked
      (.exact fun _ => 0) ∧
    ¬ (run (step (.exact fun _ => 0)) start [.manual shutdown, .serve 0, .manualTimeout]).Faithful ∧
    (run (step (.exact fun _ => 0)) start
      [.manual shutdown, .serve 0, .manualTimeout]).sim.state = .readyToSwitchOn := by
  intro start shutdown
  obtain ⟨hSim, hAnswers⟩ : _ ∧ (run (step (.exact fun _ => 0)) start
      [.manual shutdown, .serve 0, .manualTimeout]).answers = _ :=
    run_manual_call (A := .exact fun _ => 0) (wellFormed_initial start.sim) rfl shutdown
  have hServes : (start.step (.exact fun _ => 0) (.manual shutdown)).ServesHandler (.serve 0) :=
    ⟨shutdown, 0, rfl, rfl, rfl⟩
  refine ⟨hServes.blocked, fun hFaithful => ?_, ?_⟩
  · have hReply : (start.sim.serve shutdown).2 = .write { success := true } := by decide +kernel
    rw [Faithful, hAnswers] at hFaithful
    have hAgrees := hFaithful _ (List.mem_singleton_self _) _ rfl
    rw [hReply] at hAgrees
    cases hAgrees
  · refine (congrArg DriveSimulator.state hSim).trans ?_
    decide +kernel

end Ca1MotorCtrl
