import Ca1MotorCtrl.Loop.ClosedLoop
import Ca1MotorCtrl.Transition.Observation
import Ca1MotorCtrl.Transition.Numbered

/-! The enable flag of the web UI. Each POST to `/api/enable` has a thread of its
own, which sends a request and then stores the flag. The requests reach the
controller in the order in which they were sent, but the flag may be stored in
another order. -/
namespace Ca1MotorCtrl

open Transition

/-- The next step of a handler in `set_enable`. -/
inductive EnableProgress where
  | send
  | store
  deriving DecidableEq, Repr

/-- A POST to `/api/enable` that is being handled. -/
structure EnableHandler where
  enable : Bool
  progress : EnableProgress := .send
  deriving DecidableEq, Repr

/-- The web UI, its requests on the way to `/ca1/set_enable`, and the loop that
they act on. A handler that has finished is gone. -/
structure WebUi (Server : Type) where
  loop : Server × DriveControllerNode
  opEnabled : Bool := true
  handlers : ℕ → Option EnableHandler := fun _ => none
  /-- How many POSTs have arrived, which is also the number of the next one. -/
  posts : ℕ := 0
  queue : List Bool := []

inductive WebUiEvent (R : Type) where
  /-- The body may leave `enable` out. -/
  | post (enable : Option Bool)
  | send (id : ℕ)
  | store (id : ℕ)
  | deliver
  | loop (event : LoopEvent R)

/-- The value that was sent last, and the value that was stored last. -/
structure EnableOrder where
  sent : Option Bool := none
  stored : Option Bool := none
  deriving DecidableEq, Repr

namespace WebUi
variable {Server R : Type} (services : Services Server) (act : Server → Operation R → Server)

/-- One step of a handler, of the transport or of the loop. A step that is not
possible in a state changes nothing. -/
def step (s : WebUi Server) : WebUiEvent R → WebUi Server
  | .post enable =>
      { s with
        handlers := Function.update s.handlers s.posts (some { enable := enable.getD true })
        posts := s.posts + 1 }
  | .send id =>
      match s.handlers id with
      | some ⟨enable, .send⟩ =>
          { s with
            handlers := Function.update s.handlers id (some ⟨enable, .store⟩)
            queue := s.queue ++ [enable] }
      | _ => s
  | .store id =>
      match s.handlers id with
      | some ⟨enable, .store⟩ =>
          { s with handlers := Function.update s.handlers id none, opEnabled := enable }
      | _ => s
  | .deliver =>
      match s.queue with
      | [] => s
      | enable :: rest =>
          { s with loop := loopStep services act s.loop (.setEnable enable), queue := rest }
  | .loop event => { s with loop := loopStep services act s.loop event }

/-- Keeps track of the two orders. -/
def recordOrder (order : EnableOrder) (s : WebUi Server) : WebUiEvent R → EnableOrder
  | .send id =>
      match s.handlers id with
      | some ⟨enable, .send⟩ => { order with sent := some enable }
      | _ => order
  | .store id =>
      match s.handlers id with
      | some ⟨enable, .store⟩ => { order with stored := some enable }
      | _ => order
  | _ => order

/-- All handlers have finished and all requests have been processed. -/
structure Quiescent (s : WebUi Server) : Prop where
  handlers : ∀ id, s.handlers id = none
  queue : s.queue = []

end WebUi

section Enabled
variable {Server R : Type} (services : Services Server) (act : Server → Operation R → Server)

theorem DriveControllerNode.fsmThread_enabled (server : Server) (node : DriveControllerNode) :
    (fsmThread services server node).2.1.controller.enabled = node.controller.enabled := by
  obtain ⟨controller, phase⟩ := node
  cases phase with
  | readStatusword =>
      simp only [fsmThread]
      split <;> rfl
  | step raw =>
      simp only [fsmThread, stepController]
      split <;> rfl
  | write cmd rest =>
      simp only [fsmThread]
      split <;> rfl
  | _ => rfl

/-- Only the service `/ca1/set_enable` changes the controller's flag. -/
theorem loopStep_enabled (config : Server × DriveControllerNode) {event : LoopEvent R}
    (hEvent : ∀ enable, event ≠ .setEnable enable) :
    (loopStep services act config event).2.controller.enabled = config.2.controller.enabled := by
  cases event with
  | fsmThread => exact DriveControllerNode.fsmThread_enabled services config.1 config.2
  | setEnable enable => exact absurd rfl (hEvent enable)
  | _ => rfl

end Enabled

namespace WebUi
variable {Server R : Type}

/-- The requests on the way end with the value sent last, and the flag is the
value stored last. No flag is stored before its request is sent, and until one
is stored no handler has finished. -/
structure Tracks (flag enabled : Bool) (config : WebUi Server × EnableOrder) : Prop where
  controller : config.1.queue.getLast?.getD config.1.loop.2.controller.enabled =
    config.2.sent.getD enabled
  flag : config.1.opEnabled = config.2.stored.getD flag
  sent : config.2.sent = none → config.2.stored = none ∧
    ∀ id handler, config.1.handlers id = some handler → handler.progress = .send
  stored : config.2.stored = none → ∀ id, id < config.1.posts → config.1.handlers id ≠ none

theorem tracks_initial (flag : Bool) (loop : Server × DriveControllerNode) :
    Tracks flag loop.2.controller.enabled ({ loop := loop, opEnabled := flag }, {}) where
  controller := rfl
  flag := rfl
  sent _ := ⟨rfl, fun _ _ hHandler => absurd hHandler.symm (Option.some_ne_none _)⟩
  stored _ id hId := absurd hId (Nat.not_lt_zero id)

variable {services : Services Server} {act : Server → Operation R → Server} {flag enabled : Bool}
  {s : WebUi Server} {order : EnableOrder}

theorem Tracks.post (h : Tracks flag enabled (s, order)) (enable : Option Bool) :
    Tracks flag enabled (recordStep (step services act) recordOrder (s, order) (.post enable)) where
  controller := h.controller
  flag := h.flag
  sent hSent := by
    refine ⟨(h.sent hSent).1, fun id handler hHandler => ?_⟩
    by_cases hId : id = s.posts
    · subst hId
      simp only [recordStep, step, Function.update_self, Option.some.injEq] at hHandler
      rw [← hHandler]
    · simp only [recordStep, step, Function.update_of_ne hId] at hHandler
      exact (h.sent hSent).2 id handler hHandler
  stored hStored id hId := by
    by_cases hNew : id = s.posts
    · subst hNew
      simp only [recordStep, step, Function.update_self, ne_eq, reduceCtorEq, not_false_eq_true]
    · simp only [recordStep, step, Function.update_of_ne hNew]
      exact h.stored hStored id ((Nat.lt_succ_iff_lt_or_eq.mp hId).resolve_right hNew)

theorem Tracks.send (h : Tracks flag enabled (s, order)) (id : ℕ) :
    Tracks flag enabled (recordStep (step services act) recordOrder (s, order) (.send id)) := by
  simp only [recordStep, step, recordOrder]
  split
  · rename_i enable hHandler
    refine ⟨?_, h.flag, fun hSent => absurd hSent (Option.some_ne_none _),
      fun hStored other hOther => ?_⟩
    · simp only [List.getLast?_append, List.getLast?_singleton, Option.some_or, Option.getD_some]
    · by_cases hEq : other = id
      · simp only [hEq, Function.update_self, ne_eq, reduceCtorEq, not_false_eq_true]
      · simp only [Function.update_of_ne hEq]
        exact h.stored hStored other hOther
  · exact h

theorem Tracks.store (h : Tracks flag enabled (s, order)) (id : ℕ) :
    Tracks flag enabled (recordStep (step services act) recordOrder (s, order) (.store id)) := by
  simp only [recordStep, step, recordOrder]
  split
  · rename_i enable hHandler
    refine ⟨h.controller, rfl, fun hSent => ?_,
      fun hStored => absurd hStored (Option.some_ne_none _)⟩
    cases (h.sent hSent).2 id _ hHandler
  · exact h

theorem Tracks.deliver (h : Tracks flag enabled (s, order)) :
    Tracks flag enabled (recordStep (step services act) recordOrder (s, order) .deliver) := by
  simp only [recordStep, step, recordOrder]
  split
  · exact h
  · rename_i enable rest hQueue
    refine ⟨?_, h.flag, h.sent, h.stored⟩
    have hController := h.controller
    simp only [hQueue, List.getLast?_cons, Option.getD_some] at hController
    exact hController

theorem Tracks.step (h : Tracks flag enabled (s, order)) {event : WebUiEvent R}
    (hEvent : ∀ enable, event ≠ .loop (.setEnable enable)) :
    Tracks flag enabled
      (recordStep (WebUi.step services act) recordOrder (s, order) event) := by
  cases event with
  | post enable => exact h.post enable
  | send id => exact h.send id
  | store id => exact h.store id
  | deliver => exact h.deliver
  | loop event =>
      refine ⟨?_, h.flag, h.sent, h.stored⟩
      have hEnabled : (loopStep services act s.loop event).2.controller.enabled =
          s.loop.2.controller.enabled :=
        loopStep_enabled services act s.loop fun enable hEq => hEvent enable (congrArg _ hEq)
      simp only [recordStep, WebUi.step, recordOrder, hEnabled]
      exact h.controller

variable (services act) in
theorem tracks_run (flag : Bool) (loop : Server × DriveControllerNode)
    {events : List (WebUiEvent R)} (hOther : ∀ enable, .loop (.setEnable enable) ∉ events) :
    Tracks flag loop.2.controller.enabled
      (run (recordStep (step services act) recordOrder) ({ loop := loop, opEnabled := flag }, {})
        events) := by
  have hGuard : ∀ event ∈ events, ∀ enable, event ≠ .loop (.setEnable enable) :=
    fun event hMem enable hEq => hOther enable (hEq ▸ hMem)
  exact (everyStep_of_forall_mem hGuard _).invariant (fun _ _ h hEvent => h.step hEvent)
    (tracks_initial flag loop)

/-- After the last step of a run, both flags are the last of their order. -/
theorem Tracks.agrees_iff (h : Tracks flag enabled (s, order)) (hQuiescent : s.Quiescent)
    (hPosts : s.posts ≠ 0) :
    s.opEnabled = s.loop.2.controller.enabled ↔ order.sent = order.stored := by
  cases hStored : order.stored with
  | none => exact absurd (hQuiescent.handlers 0) (h.stored hStored 0 (Nat.pos_of_ne_zero hPosts))
  | some stored =>
      cases hSent : order.sent with
      | none =>
          rw [(h.sent hSent).1] at hStored
          cases hStored
      | some sent =>
          have hController : s.loop.2.controller.enabled = sent := by
            have hLast := h.controller
            rwa [hQuiescent.queue, hSent] at hLast
          have hFlag : s.opEnabled = stored := by
            have hLast := h.flag
            rwa [hStored] at hLast
          rw [hController, hFlag, Option.some_inj]
          exact eq_comm

/-- No handler is between its two steps. -/
def Idle (s : WebUi Server) : Prop :=
  ∀ id handler, s.handlers id = some handler → handler.progress = .send

theorem Quiescent.idle (h : s.Quiescent) : s.Idle := by
  intro id handler hHandler
  rw [h.handlers id] at hHandler
  cases hHandler

/-- A handler sends only while no other is between its two steps, as if the lock
were held over both. -/
def Exclusive (s : WebUi Server) (event : WebUiEvent R) : Prop :=
  ∀ id, event = .send id → s.Idle

/-- A handler between its steps has sent the latest value. Without one, the
latest value sent has been stored. -/
structure InOrder (config : WebUi Server × EnableOrder) : Prop where
  unused : UnusedFrom config.1.posts config.1.handlers
  pending : ∀ id enable, config.1.handlers id = some ⟨enable, .store⟩ →
    config.2.sent = some enable
  idle : config.1.Idle → config.2.sent = config.2.stored

theorem InOrder.post (h : InOrder (s, order)) (enable : Option Bool) :
    InOrder (recordStep (WebUi.step services act) recordOrder (s, order) (.post enable)) where
  unused := h.unused.update_next _
  pending id sent hHandler := by
    by_cases hNew : id = s.posts
    · subst hNew
      simp only [recordStep, WebUi.step, Function.update_self, Option.some.injEq,
        EnableHandler.mk.injEq, reduceCtorEq, and_false] at hHandler
    · simp only [recordStep, WebUi.step, Function.update_of_ne hNew] at hHandler
      exact h.pending id sent hHandler
  idle hIdle := h.idle fun id handler hHandler => by
    have hOld : id ≠ s.posts := (h.unused.lt_of_eq_some hHandler).ne
    refine hIdle id handler ?_
    simp only [recordStep, WebUi.step, Function.update_of_ne hOld]
    exact hHandler

theorem InOrder.send (h : InOrder (s, order)) {id : ℕ} (hIdle : s.Idle) :
    InOrder (recordStep (WebUi.step services act) recordOrder (s, order) (.send id)) := by
  simp only [recordStep, WebUi.step, recordOrder]
  split
  · rename_i enable hHandler
    refine ⟨h.unused.update_of_lt (h.unused.lt_of_eq_some hHandler) _,
      fun other sent hOther => ?_, fun hNext => ?_⟩
    · by_cases hEq : other = id
      · simp only [hEq, Function.update_self, Option.some.injEq, EnableHandler.mk.injEq,
          and_true] at hOther
        rw [hOther]
      · simp only [Function.update_of_ne hEq] at hOther
        cases hIdle other _ hOther
    · cases hNext id _ (Function.update_self id _ _)
  · exact h

theorem InOrder.store (h : InOrder (s, order)) (id : ℕ) :
    InOrder (recordStep (WebUi.step services act) recordOrder (s, order) (.store id)) := by
  simp only [recordStep, WebUi.step, recordOrder]
  split
  · rename_i enable hHandler
    refine ⟨h.unused.update_none id, fun other sent hOther => ?_,
      fun _ => h.pending id enable hHandler⟩
    by_cases hEq : other = id
    · simp only [hEq, Function.update_self, reduceCtorEq] at hOther
    · simp only [Function.update_of_ne hEq] at hOther
      exact h.pending other sent hOther
  · exact h

theorem InOrder.step (h : InOrder (s, order)) {event : WebUiEvent R}
    (hEvent : s.Exclusive event) :
    InOrder (recordStep (WebUi.step services act) recordOrder (s, order) event) := by
  cases event with
  | post enable => exact h.post enable
  | send id => exact h.send (hEvent id rfl)
  | store id => exact h.store id
  | deliver =>
      simp only [recordStep, WebUi.step, recordOrder]
      split
      · exact h
      · exact ⟨h.unused, h.pending, h.idle⟩
  | loop event => exact ⟨h.unused, h.pending, h.idle⟩

variable (services act) in
/-- With the lock over both steps the flag would agree with the controller. -/
theorem agrees_of_exclusive (flag : Bool) (loop : Server × DriveControllerNode)
    {events : List (WebUiEvent R)} (hOther : ∀ enable, .loop (.setEnable enable) ∉ events)
    (hExclusive : EveryStep (WebUi.step services act) Exclusive
      { loop := loop, opEnabled := flag } events) :
    let config := run (recordStep (WebUi.step services act) recordOrder)
      ({ loop := loop, opEnabled := flag }, {}) events
    config.1.Quiescent → config.1.posts ≠ 0 →
      config.1.opEnabled = config.1.loop.2.controller.enabled := by
  intro config hQuiescent hPosts
  have hInOrder : InOrder config :=
    ((everyStep_recordStep recordOrder Exclusive _ events).mpr hExclusive).invariant
      (fun _ _ h hEvent => h.step hEvent)
      ⟨UnusedFrom.empty 0, fun _ _ hHandler => absurd hHandler.symm (Option.some_ne_none _),
        fun _ => rfl⟩
  exact ((tracks_run services act flag loop hOther).agrees_iff hQuiescent hPosts).mpr
    (hInOrder.idle hQuiescent.idle)

end WebUi

open WebUi

/-- When everything is processed, the flag of the web UI agrees with the
controller exactly if the request sent last and the flag stored last carry the
same value. -/
theorem enable_flag_agrees_iff {Server R : Type} (services : Services Server)
    (act : Server → Operation R → Server) (flag : Bool) (loop : Server × DriveControllerNode)
    (events : List (WebUiEvent R)) (hOther : ∀ enable, .loop (.setEnable enable) ∉ events) :
    let config := run (recordStep (step services act) recordOrder)
      ({ loop := loop, opEnabled := flag }, {}) events
    config.1.Quiescent → config.1.posts ≠ 0 →
      (config.1.opEnabled = config.1.loop.2.controller.enabled ↔
        config.2.sent = config.2.stored) :=
  (tracks_run services act flag loop hOther).agrees_iff

/-- The web UI with one drive and its controller, both started. -/
def startedWebUi : WebUi (DriveSimulator ℚ) :=
  { loop := (.initial (.exact fun _ => 0), {}) }

/-- Two operators, one after the other: the flag follows the second. -/
theorem enable_then_disable_agrees_iff :
    let config := run (recordStep
      (step DriveSimulator.services (DriveSimulator.step (.exact fun _ => 0))) recordOrder)
      (startedWebUi, {})
      [.post (some true), .send 0, .store 0, .post (some false), .send 1, .store 1, .deliver,
        .deliver]
    config.1.opEnabled = config.1.loop.2.controller.enabled ↔
      config.2.sent = config.2.stored := by
  intro config
  have hHandlers (id : ℕ) : config.1.handlers id = none := by
    match id with
    | 0 => rfl
    | 1 => rfl
    | _ + 2 => rfl
  exact enable_flag_agrees_iff DriveSimulator.services (DriveSimulator.step (.exact fun _ => 0))
    true _ _ (fun enable hMem => by simp at hMem) ⟨hHandlers, rfl⟩ (by decide)

/-- The request to disable is sent last and the request to enable is stored
last: the web UI shows an enabled operation that the controller has left. -/
theorem overtaken_store_disagrees :
    let config := run (recordStep
      (step DriveSimulator.services (DriveSimulator.step (.exact fun _ => 0))) recordOrder)
      (startedWebUi, {})
      [.post (some true), .post (some false), .send 0, .send 1, .store 1, .store 0, .deliver,
        .deliver]
    config.1.Quiescent ∧ config.1.posts = 2 ∧ config.1.opEnabled = true ∧
      config.1.loop.2.controller.enabled = false := by
  intro config
  refine ⟨⟨fun id => ?_, rfl⟩, rfl, rfl, rfl⟩
  match id with
  | 0 => rfl
  | 1 => rfl
  | _ + 2 => rfl

end Ca1MotorCtrl
