import Ca1MotorCtrl.InTransit
import Ca1MotorCtrl.Loop.Velocity
import Ca1MotorCtrl.WebUi.Telemetry

/-! The way of the commands from the controls of the page to the loop: requests that are
handled in any order or fail, a topic for the velocities, which is a parameter, and services
that are called without waiting for them. -/
namespace Ca1MotorCtrl

open Transition InTransit

/-- A position of the slider, which is on a multiple of ten. -/
structure SliderPosition where
  value : ℤ
  min : -200 ≤ value := by decide
  max : value ≤ 200 := by decide
  step : value % 10 = 0 := by decide

inductive FaultKind where
  | generic
  | overspeed
  | sensorTimeout
  deriving DecidableEq, Repr

/-- What the button passes to `injectFault`. -/
def FaultKind.argument : FaultKind → String
  | .generic => "generic"
  | .overspeed => "overspeed"
  | .sensorTimeout => "sensor_timeout"

/-- What the service does to the simulator. -/
def FaultKind.event {R : Type} : FaultKind → LoopEvent R
  | .generic => .injectFault
  | .overspeed => .injectOverspeedFault
  | .sensorTimeout => .injectSensorTimeoutFault

inductive PageControl where
  /-- A click of Set Velocity with the slider at this position. -/
  | setVel (position : SliderPosition)
  /-- A click that gives the flag of the page this value. -/
  | toggleEnable (enable : Bool)
  | injectFault (kind : FaultKind)

/-- A POST, with the fields of its body that a handler may look up. -/
structure PostRequest where
  path : String
  rpm : Option ℤ := none
  enable : Option Bool := none
  deriving DecidableEq, Repr

/-- `FAULT_EP`. -/
def faultEp : String → Option String
  | "generic" => some "/api/fault"
  | "overspeed" => some "/api/fault/overspeed"
  | "sensor_timeout" => some "/api/fault/sensor_timeout"
  | _ => none

def PageControl.request : PageControl → PostRequest
  | .setVel position => { path := "/api/velocity", rpm := some position.value }
  | .toggleEnable enable => { path := "/api/enable", enable := some enable }
  | .injectFault kind => { path := (faultEp kind.argument).getD "/api/fault" }

/-- The requests on the way to the web UI node, its messages on the way to the other
two, and the loop. -/
structure CommandPath (Server : Type) (numbers : Topic OdValue) where
  loop : Server × DriveControllerNode
  requests : List PostRequest := []
  cmdVelocity : numbers.Flow := numbers.subscribed
  enables : List Bool := []
  injections : List FaultKind := []

inductive CommandEvent (R : Type) where
  | control (control : PageControl)
  | handle (i : ℕ)
  | fail (i : ℕ)
  | transport (choice : ℕ)
  | onVelocity
  | onEnable
  | onInject (i : ℕ)
  | loop (event : LoopEvent R)
  /-- Somebody else acts on the server. -/
  | operation (op : Operation R)

namespace CommandPath
variable {Server R : Type} {numbers : Topic OdValue}

/-- `set_velocity`. A number that does not fit the message raises an exception. -/
def setVelocity (s : CommandPath Server numbers) (rpm : ℤ) : CommandPath Server numbers :=
  if FitsInt32 rpm then
    { s with cmdVelocity := numbers.publish s.cmdVelocity (.ofInt rpm) }
  else s

/-- `set_enable`, up to the flag that it stores. -/
def setEnable (s : CommandPath Server numbers) (enable : Bool) : CommandPath Server numbers :=
  { s with enables := s.enables ++ [enable] }

/-- The three functions that inject a fault. -/
def inject (s : CommandPath Server numbers) (kind : FaultKind) : CommandPath Server numbers :=
  { s with injections := s.injections ++ [kind] }

/-- `do_POST` without the console. -/
def doPost (s : CommandPath Server numbers) (req : PostRequest) : CommandPath Server numbers :=
  match req.path with
  | "/api/velocity" => s.setVelocity (req.rpm.getD 0)
  | "/api/enable" => s.setEnable (req.enable.getD true)
  | "/api/fault" => s.inject .generic
  | "/api/fault/overspeed" => s.inject .overspeed
  | "/api/fault/sensor_timeout" => s.inject .sensorTimeout
  | _ => s

variable (services : Services Server) (act : Server → Operation R → Server)

/-- One event. Each request has a thread of its own, and the services of the simulator
are independent of each other. -/
def step (s : CommandPath Server numbers) : CommandEvent R → CommandPath Server numbers
  | .control control => { s with requests := s.requests ++ [control.request] }
  | .handle i =>
      match s.requests[i]? with
      | some req => { s with requests := s.requests.eraseIdx i }.doPost req
      | none => s
  | .fail i => { s with requests := s.requests.eraseIdx i }
  | .transport choice => { s with cmdVelocity := numbers.transport s.cmdVelocity choice }
  | .onVelocity =>
      match numbers.take s.cmdVelocity with
      | none => s
      | some (data, rest) =>
          { s with loop := loopStep services act s.loop (.cmdVelocity data), cmdVelocity := rest }
  | .onEnable =>
      match s.enables with
      | [] => s
      | data :: rest =>
          { s with loop := loopStep services act s.loop (.setEnable data), enables := rest }
  | .onInject i =>
      match s.injections[i]? with
      | some kind =>
          { s with
            loop := loopStep services act s.loop kind.event
            injections := s.injections.eraseIdx i }
      | none => s
  | .loop event => { s with loop := loopStep services act s.loop event }
  | .operation op => { s with loop := (act s.loop.1 op, s.loop.2) }

/-- The same around the simulator. -/
def simStep (A : DoubleArith ℚ) (s : CommandPath (DriveSimulator ℚ) numbers)
    (event : CommandEvent ℚ) : CommandPath (DriveSimulator ℚ) numbers :=
  s.step DriveSimulator.services (DriveSimulator.step A) event

end CommandPath

namespace PostRequest

/-- The velocity that the handler publishes. -/
def velocity (req : PostRequest) : Option OdValue :=
  if req.path = "/api/velocity" ∧ FitsInt32 (req.rpm.getD 0) then some (.ofInt (req.rpm.getD 0))
  else none

/-- The fault that the handler asks for. -/
def fault (req : PostRequest) : Option FaultKind :=
  if req.path = "/api/fault" then some .generic
  else if req.path = "/api/fault/overspeed" then some .overspeed
  else if req.path = "/api/fault/sensor_timeout" then some .sensorTimeout
  else none

end PostRequest

/-- The handler changes the messages on the way only. -/
theorem CommandPath.doPost_messages {Server : Type} {numbers : Topic OdValue}
    (s : CommandPath Server numbers) (req : PostRequest) :
    (s.doPost req).loop = s.loop ∧ (s.doPost req).requests = s.requests ∧
      (s.doPost req).injections = s.injections ++ req.fault.toList ∧
      (s.doPost req).cmdVelocity = req.velocity.toList.foldl numbers.publish s.cmdVelocity := by
  unfold doPost
  split
  next hPath =>
    unfold setVelocity
    split
    next hFits => simp [PostRequest.fault, PostRequest.velocity, hPath, hFits]
    next hFits => simp [PostRequest.fault, PostRequest.velocity, hPath, hFits]
  all_goals simp_all [PostRequest.fault, PostRequest.velocity, setEnable, inject]

/-- A velocity on the slider fits the message. -/
theorem PageControl.velocity_setVel (position : SliderPosition) :
    (PageControl.setVel position).request.velocity = some (.ofInt position.value) := by
  have hMin := position.min
  have hMax := position.max
  have hFits : FitsInt32 position.value := ⟨by omega, by omega⟩
  simp [request, PostRequest.velocity, hFits]

namespace CommandEvent
variable {R : Type}

/-- The velocity that is posted by a click of Set Velocity. -/
def requested : CommandEvent R → Option OdValue
  | .control (.setVel position) => some (.ofInt position.value)
  | _ => none

theorem abs_requested_le {event : CommandEvent R} {data : OdValue}
    (h : event.requested = some data) : |data.toInt| ≤ 200 := by
  cases event with
  | control used =>
      cases used with
      | setVel position =>
          obtain rfl := Option.some.inj h
          have hMin := position.min
          have hMax := position.max
          rw [Int32.toInt_ofInt_of_le (by omega) (by omega)]
          exact abs_le.mpr ⟨hMin, hMax⟩
      | _ => cases h
  | _ => cases h

/-- The fault whose button is clicked. -/
def clicked : CommandEvent R → Option FaultKind
  | .control (.injectFault kind) => some kind
  | _ => none

/-- The request that is posted. -/
def posted : CommandEvent R → Option PostRequest
  | .control used => some used.request
  | _ => none

theorem posted_bind_velocity (event : CommandEvent R) :
    event.posted.bind PostRequest.velocity = event.requested := by
  cases event with
  | control used =>
      cases used with
      | setVel position => exact PageControl.velocity_setVel position
      | toggleEnable enable => rfl
      | injectFault kind => cases kind <;> rfl
  | _ => rfl

theorem posted_bind_fault (event : CommandEvent R) :
    event.posted.bind PostRequest.fault = event.clicked := by
  cases event with
  | control used =>
      cases used with
      | injectFault kind => cases kind <;> rfl
      | _ => rfl
  | _ => rfl

end CommandEvent

/-- The velocities that clicks of Set Velocity have posted, those that were published, and
those that were taken from the topic. -/
structure VelocityHistory where
  requested : List OdValue := []
  published : List OdValue := []
  delivered : List OdValue := []
  deriving DecidableEq, Repr

namespace CommandPath
variable {Server R : Type} {numbers : Topic OdValue} (services : Services Server)
  (act : Server → Operation R → Server)

/-- The request that an event handles. -/
def handled (s : CommandPath Server numbers) : CommandEvent R → Option PostRequest
  | .handle i => s.requests[i]?
  | _ => none

/-- The velocity that the controller receives. -/
def received (s : CommandPath Server numbers) : CommandEvent R → Option OdValue
  | .onVelocity => (numbers.take s.cmdVelocity).map Prod.fst
  | _ => none

/-- The request that an event takes out of those on the way. -/
def removed (s : CommandPath Server numbers) : CommandEvent R → Option PostRequest
  | .handle i | .fail i => s.requests[i]?
  | _ => none

def recordVelocities (history : VelocityHistory) (s : CommandPath Server numbers)
    (event : CommandEvent R) : VelocityHistory where
  requested := history.requested ++ event.requested.toList
  published := history.published ++ ((s.handled event).bind PostRequest.velocity).toList
  delivered := history.delivered ++ (s.received event).toList

/-- The velocities in requests that are on the way. -/
def posted (s : CommandPath Server numbers) : List OdValue :=
  s.requests.filterMap PostRequest.velocity

/-- Set Velocity is not clicked before its last request has been handled, and no such request
fails. -/
def Unhurried (s : CommandPath Server numbers) : CommandEvent R → Prop
  | .control (.setVel _) => s.posted = []
  | .fail i => ∀ req, s.requests[i]? = some req → req.velocity = none
  | _ => True

/-- No other node publishes velocities. -/
def OnlyPublisher : CommandEvent R → Prop
  | .loop (.cmdVelocity _) => False
  | _ => True

/-- The event that the loop takes part in, apart from what others do to its server. -/
def loopEvent? (s : CommandPath Server numbers) : CommandEvent R → Option (LoopEvent R)
  | .onVelocity => (numbers.take s.cmdVelocity).map fun taken => .cmdVelocity taken.1
  | .onEnable => s.enables.head?.map .setEnable
  | .onInject i => s.injections[i]?.map FaultKind.event
  | .loop event => some event
  | _ => none

theorem loop_step (s : CommandPath Server numbers) {event : CommandEvent R}
    (hEvent : ∀ op, event ≠ .operation op) :
    (step services act s event).loop =
      (s.loopEvent? event).elim s.loop (loopStep services act s.loop) := by
  cases event with
  | operation op => exact absurd rfl (hEvent op)
  | handle i =>
      simp only [step, loopEvent?, Option.elim_none]
      split
      next req _ => rw [(doPost_messages _ req).1]
      next => rfl
  | onVelocity | onEnable | onInject i =>
      simp only [step, loopEvent?]
      split <;> simp_all
  | _ => rfl

/-- A request that is handled or fails is no longer on the way. -/
theorem requests_step (s : CommandPath Server numbers) (event : CommandEvent R) :
    ((s.removed event).toList ++ (step services act s event).requests).Perm
      (s.requests ++ event.posted.toList) := by
  cases event with
  | control control => exact List.Perm.refl _
  | handle i =>
      have hTaken := toList_append_eraseIdx_perm s.requests i
      simp only [removed, CommandEvent.posted, step, Option.toList_none, List.append_nil]
      cases hRequest : s.requests[i]? with
      | none => exact List.Perm.refl _
      | some req =>
          rw [(doPost_messages _ req).2.1]
          rwa [hRequest] at hTaken
  | fail i =>
      simp only [removed, CommandEvent.posted, step, Option.toList_none, List.append_nil]
      exact toList_append_eraseIdx_perm s.requests i
  | onVelocity | onEnable | onInject i =>
      simp only [removed, CommandEvent.posted, step, Option.toList_none, List.append_nil]
      split <;> exact List.Perm.refl _
  | transport choice | loop event | operation op =>
      simp only [removed, CommandEvent.posted, step, Option.toList_none, List.append_nil]
      exact List.Perm.refl _

/-- The same for the parts that some requests have. -/
theorem parts_step {Part : Type} (part : PostRequest → Option Part) (s : CommandPath Server numbers)
    (event : CommandEvent R) :
    (((s.removed event).bind part).toList ++
      (step services act s event).requests.filterMap part).Perm
        (s.requests.filterMap part ++ (event.posted.bind part).toList) := by
  have hParts := (requests_step services act s event).filterMap part
  simpa only [List.filterMap_append, filterMap_toList] using hParts

/-- What is handled was on the way before, and what fails is lost. -/
theorem handled_subperm {Part : Type} (part : PostRequest → Option Part)
    (s : CommandPath Server numbers) (event : CommandEvent R) :
    (((s.handled event).bind part).toList ++
      (step services act s event).requests.filterMap part).Subperm
        (s.requests.filterMap part ++ (event.posted.bind part).toList) := by
  have hHandled : ((s.handled event).bind part).toList.Sublist
      ((s.removed event).bind part).toList := by
    cases event with
    | handle i => exact List.Sublist.refl _
    | _ => exact List.nil_sublist _
  exact (hHandled.append_right _).subperm.trans (parts_step services act part s event).subperm

/-- Without hurry the velocities keep their order and none is lost. -/
theorem posted_step {s : CommandPath Server numbers} {event : CommandEvent R}
    (hUnhurried : Unhurried s event) (hPosted : s.posted.length ≤ 1) :
    ((s.handled event).bind PostRequest.velocity).toList ++ (step services act s event).posted =
        s.posted ++ event.requested.toList ∧
      (step services act s event).posted.length ≤ 1 := by
  have hRemoved : (s.handled event).bind PostRequest.velocity =
      (s.removed event).bind PostRequest.velocity := by
    cases event with
    | fail i => exact (Option.bind_eq_none_iff.mpr hUnhurried).symm
    | _ => rfl
  have hLength : (s.posted ++ event.requested.toList).length ≤ 1 := by
    cases event with
    | control control =>
        cases control with
        | setVel position =>
            have hNone : s.posted = [] := hUnhurried
            rw [hNone]
            exact le_rfl
        | _ => simpa [CommandEvent.requested] using hPosted
    | _ => simpa [CommandEvent.requested] using hPosted
  have hParts := parts_step services act PostRequest.velocity s event
  rw [event.posted_bind_velocity, ← hRemoved] at hParts
  have hSame := eq_of_perm_of_length_le_one hParts hLength
  refine ⟨hSame, ?_⟩
  have hTotal := congrArg List.length hSame
  rw [List.length_append] at hTotal
  unfold posted at *
  omega

/-- The topic takes up what a handler publishes and gives it to the controller. -/
theorem carries_step {published delivered : List OdValue} {s : CommandPath Server numbers}
    (h : numbers.Carries published delivered s.cmdVelocity) (event : CommandEvent R) :
    numbers.Carries (published ++ ((s.handled event).bind PostRequest.velocity).toList)
      (delivered ++ (s.received event).toList) (step services act s event).cmdVelocity := by
  cases event with
  | handle i =>
      simp only [handled, received, Option.toList_none, List.append_nil, step]
      cases s.requests[i]? with
      | none => exact h.publishAll []
      | some req =>
          rw [(doPost_messages _ req).2.2.2]
          exact h.publishAll _
  | transport choice =>
      simpa [handled, received, step] using h.transport choice
  | onVelocity =>
      simp only [handled, received, Option.bind_none, Option.toList_none, List.append_nil, step]
      split
      next hNone => simpa [hNone] using h
      next data rest hTake =>
        rw [hTake]
        exact h.take hTake
  | onEnable =>
      simp only [handled, received, Option.bind_none, Option.toList_none, List.append_nil, step]
      split <;> exact h
  | onInject i =>
      simp only [handled, received, Option.bind_none, Option.toList_none, List.append_nil, step]
      split <;> exact h
  | _ => simpa [handled, received, step] using h

theorem targetVelocity_loopStep (config : Server × DriveControllerNode) {event : LoopEvent R}
    (hEvent : ∀ data, event ≠ .cmdVelocity data) :
    (loopStep services act config event).2.controller.targetVelocity =
      config.2.controller.targetVelocity := by
  cases event with
  | fsmThread => exact (DriveControllerNode.settings_fsmThread services config.1 config.2).1
  | cmdVelocity data => exact absurd rfl (hEvent data)
  | _ => rfl

/-- The controller keeps its setpoint until it receives another. -/
theorem targetVelocity_step (s : CommandPath Server numbers) {event : CommandEvent R}
    (hOnly : OnlyPublisher event) :
    (step services act s event).loop.2.controller.targetVelocity =
      (s.received event).getD s.loop.2.controller.targetVelocity := by
  cases event with
  | operation op => rfl
  | onVelocity =>
      simp only [step, received]
      split
      next hNone => rw [hNone]; rfl
      next data rest hTake => rw [hTake]; rfl
  | handle i =>
      simp only [step, received]
      split
      next req _ => rw [(doPost_messages _ req).1]; rfl
      next => rfl
  | onEnable =>
      simp only [step, received]
      split <;> rfl
  | onInject i =>
      simp only [step, received]
      split
      next kind _ => cases kind <;> rfl
      next => rfl
  | loop event =>
      refine targetVelocity_loopStep services act s.loop fun data hData => ?_
      subst hData
      exact hOnly
  | _ => rfl

/-- The controller has the velocity that it received last. -/
structure Steers (start : OdValue) (config : CommandPath Server numbers × VelocityHistory) :
    Prop where
  carried : numbers.Carries config.2.published config.2.delivered config.1.cmdVelocity
  target : config.1.loop.2.controller.targetVelocity = config.2.delivered.getLast?.getD start

theorem Steers.step {start : OdValue} {config : CommandPath Server numbers × VelocityHistory}
    (h : Steers start config) {event : CommandEvent R} (hOnly : OnlyPublisher event) :
    Steers start (recordStep (CommandPath.step services act) recordVelocities config event) := by
  refine ⟨carries_step services act h.carried event, ?_⟩
  have hTarget := targetVelocity_step services act config.1 hOnly
  rw [h.target] at hTarget
  refine hTarget.trans ?_
  simp only [recordStep, recordVelocities, List.getLast?_append]
  cases config.1.received event <;> simp

/-- Each velocity that was published or is on the way comes from a click of its own. -/
def FromClicks (config : CommandPath Server numbers × VelocityHistory) : Prop :=
  Accounts config.2.requested config.2.published config.1.posted

theorem fromClicks_step {config : CommandPath Server numbers × VelocityHistory}
    (h : FromClicks config) (event : CommandEvent R) :
    FromClicks (recordStep (CommandPath.step services act) recordVelocities config event) := by
  have hStep := handled_subperm services act PostRequest.velocity config.1 event
  rw [event.posted_bind_velocity] at hStep
  exact Accounts.step h hStep

/-- Without hurry the clicks are published in their order. -/
structure InOrder (config : CommandPath Server numbers × VelocityHistory) : Prop where
  posted : config.1.posted.length ≤ 1
  requested : config.2.published ++ config.1.posted = config.2.requested

theorem InOrder.step {config : CommandPath Server numbers × VelocityHistory} (h : InOrder config)
    {event : CommandEvent R} (hUnhurried : Unhurried config.1 event) :
    InOrder (recordStep (CommandPath.step services act) recordVelocities config event) := by
  obtain ⟨hStep, hLength⟩ := posted_step services act hUnhurried h.posted
  refine ⟨hLength, ?_⟩
  simp only [recordStep, recordVelocities]
  rw [List.append_assoc, hStep, ← List.append_assoc, h.requested]

end CommandPath

section Clicks
variable {Server R : Type} {numbers : Topic OdValue} (services : Services Server)
  (act : Server → Operation R → Server)

open CommandPath

/-- From Set Velocity to the controller. The controller receives velocities that were
published, in that order and possibly with gaps, and each of these comes from a click of
its own. When none is on the way it has the one published last. If Set Velocity is never
clicked before its last request has been handled, the velocities are published in the order
of the clicks, and none is lost before the topic. -/
theorem clicks_reach_controller (hTopic : numbers.KeepsLast) (server : Server)
    (node : DriveControllerNode) {events : List (CommandEvent R)}
    (hOnly : ∀ event ∈ events, OnlyPublisher event) :
    let start : CommandPath Server numbers := { loop := (server, node) }
    let config := run (recordStep (CommandPath.step services act) recordVelocities)
      (start, {}) events
    config.2.delivered.Sublist config.2.published ∧
      (config.2.published ++ config.1.posted).Subperm config.2.requested ∧
      (numbers.onWay config.1.cmdVelocity = [] →
        config.1.loop.2.controller.targetVelocity =
          config.2.published.getLast?.getD node.controller.targetVelocity) ∧
      (EveryStep (CommandPath.step services act) Unhurried start events →
        config.2.published ++ config.1.posted = config.2.requested) := by
  intro start config
  have hStart : Steers node.controller.targetVelocity (start, {}) := ⟨.subscribed, rfl⟩
  have hSteers : Steers node.controller.targetVelocity config :=
    EveryStep.invariant (fun _ _ h hEvent => h.step services act hEvent) hStart
      (everyStep_of_forall_mem hOnly _)
  have hCarried := hSteers.carried.sublist hTopic
  refine ⟨(List.sublist_append_left _ _).trans hCarried, ?_, fun hOnWay => ?_, fun hUnhurried => ?_⟩
  · have hNone : FromClicks (start, {}) := .start
    exact run_invariant FromClicks (fun _ event h => fromClicks_step services act h event) hNone
      events
  · have hLast := hSteers.carried.getLast?_eq hTopic
    rw [hOnWay, List.append_nil] at hLast
    rw [hSteers.target, hLast]
  · have hInOrder : InOrder (start, {}) := ⟨Nat.zero_le 1, rfl⟩
    have hRecorded :=
      (everyStep_recordStep recordVelocities Unhurried (start, {}) events).mpr hUnhurried
    have hStep (config : CommandPath Server numbers × VelocityHistory) (event : CommandEvent R)
        (h : InOrder config) (hGuard : Unhurried config.1 event) :
        InOrder (recordStep (CommandPath.step services act) recordVelocities config event) :=
      h.step services act hGuard
    have hLast : InOrder config := EveryStep.invariant hStep hInOrder hRecorded
    exact hLast.requested

/-- Two requests that overtake each other, over a topic with a queue on either side: the
controller ends up with the velocity that was posted first. -/
theorem clicks_reach_controller_overtaken :
    let A : DoubleArith ℚ := .exact fun _ => 0
    let start : CommandPath (DriveSimulator ℚ) (.keepLast OdValue Telemetry.depth) :=
      { loop := (DriveSimulator.initial A, {}) }
    let events : List (CommandEvent ℚ) :=
      [.control (.setVel { value := 50 }), .control (.setVel { value := -30 }), .handle 1,
        .handle 0, .transport 0, .onVelocity, .transport 0, .onVelocity]
    let config := run (recordStep (simStep A) recordVelocities) (start, {}) events
    config.1.loop.2.controller.targetVelocity = config.2.published.getLast?.getD 0 ∧
      config.2.published.getLast? = some 50 ∧ config.2.requested.getLast? = some (-30) := by
  intro A start events config
  have hTopic : (Topic.keepLast OdValue Telemetry.depth).KeepsLast :=
    Topic.keepsLast_keepLast (by decide)
  have hOnly : ∀ event ∈ events, OnlyPublisher event := by simp [events, OnlyPublisher]
  have hClicks := clicks_reach_controller DriveSimulator.services (DriveSimulator.step A) hTopic
    (DriveSimulator.initial A) {} hOnly
  exact ⟨hClicks.2.2.1 (by decide +kernel), by decide +kernel, by decide +kernel⟩

end Clicks

end Ca1MotorCtrl
