import Ca1MotorCtrl.Loop.Announcements
import Ca1MotorCtrl.Loop.ManualAccess
import Ca1MotorCtrl.Topic
import Ca1MotorCtrl.WebUi.EventLog

/-! The way of the telemetry from the controller node to the page: what the node has yet
to publish, its topics, the fields of the web UI node, the stream of its status, and the
page that shows it. The topics are parameters, and nothing is known of what they do. -/
namespace Ca1MotorCtrl

open Transition BoundedLog

/-- What `status` returns about the controller. -/
structure Status where
  state : String := "Unknown"
  velocityActual : OdValue := 0
  positionActual : OdValue := 0
  ctrlEvents : List String := []
  deriving DecidableEq, Repr

/-- The left panel of the page and the data of the charts. -/
structure Page where
  badge : String := "—"
  badgeClass : String := "badge idle"
  velRd : String := "—"
  posRd : String := "—"
  vd : List OdValue := []
  pd : List OdValue := []
  ctrlLog : EventLog := {}
  deriving DecidableEq, Repr

namespace Page

def setBadge (page : Page) (txt : String) : Page :=
  { page with
    badge := txt
    badgeClass := "badge " ++
      (if EventLog.hasTag "Enabled" txt then "ok"
      else if EventLog.hasTag "Fault" txt then "fault"
      else "idle") }

/-- `MAX`, the number of samples in a chart. -/
def max : ℕ := 300

def addSample (data : List OdValue) (sample : OdValue) : List OdValue :=
  let data := data ++ [sample]
  if data.length > max then data.tail else data

def onmessage (page : Page) (d : Status) : Page :=
  let page := page.setBadge d.state
  { page with
    velRd := toString d.velocityActual.toInt
    posRd := toString d.positionActual.toInt
    vd := addSample page.vd d.velocityActual
    pd := addSample page.pd d.positionActual
    ctrlLog := page.ctrlLog.appendLog d.ctrlEvents }

end Page

/-- The message of a publication on the topic of the state, and on that of the events. -/
def Publication.onDriveState : Publication → Option String
  | .driveState name => some name
  | _ => none

def Publication.onCtrlEvents : Publication → Option String
  | .event text => some text
  | _ => none

/-- The topics of the telemetry. -/
inductive TelemetryTopic where
  | driveState
  | velocityActual
  | positionActual
  | ctrlEvents
  deriving DecidableEq, Repr

/-- The loop around the controller, the messages on the way to the web UI node, its
fields, the messages on the way to the page, and the page. -/
structure Telemetry (Server : Type) (strings : Topic String) (numbers : Topic OdValue) where
  loop : Server × DriveControllerNode
  /-- What the FSM thread publishes before its next turn. -/
  unpublished : List Publication := []
  driveState : strings.Flow := strings.subscribed
  velocityActual : numbers.Flow := numbers.subscribed
  positionActual : numbers.Flow := numbers.subscribed
  ctrlEvents : strings.Flow := strings.subscribed
  ui : Status := {}
  /-- The status that the stream is about to send. -/
  snapshot : Option Status := none
  stream : List Status := []
  page : Page := {}

inductive TelemetryEvent (R : Type) where
  | loop (event : LoopEvent R)
  /-- Somebody else acts on the server. -/
  | operation (op : Operation R)
  /-- A manual handler of the controller node returns. -/
  | manual (req : OdRequest) (outcome : Option OdResponse)
  /-- The FSM thread publishes its next message. -/
  | publish
  | transport (topic : TelemetryTopic) (choice : ℕ)
  | onState
  | onVel
  | onPos
  /-- The callback reads the clock. -/
  | onCtrlEvent (ts : String)
  /-- The stream takes the status. -/
  | status
  /-- It sends the status that it has taken. -/
  | send
  | onmessage
  /-- The stream breaks; the page opens another. -/
  | onerror

/-- The states that the controller has entered, the events that the node has published,
and what has arrived of the two, since the web UI node subscribed. -/
structure TelemetryHistory where
  states : List String := []
  arrivedStates : List String := []
  events : List String := []
  arrivedEvents : List (String × String) := []
  deriving DecidableEq, Repr

namespace Telemetry
variable {Server R : Type} {strings : Topic String} {numbers : Topic OdValue}
  (services : Services Server) (act : Server → Operation R → Server)

/-- The depth of all topics. -/
def depth : ℕ := 10

def stamp (entry : String × String) : String := "[" ++ entry.1 ++ "] " ++ entry.2

/-- A message goes to its topic. -/
def put (s : Telemetry Server strings numbers) : Publication → Telemetry Server strings numbers
  | .driveState name => { s with driveState := strings.publish s.driveState name }
  | .velocityActual velocity =>
      { s with velocityActual := numbers.publish s.velocityActual velocity }
  | .positionActual position =>
      { s with positionActual := numbers.publish s.positionActual position }
  | .event text => { s with ctrlEvents := strings.publish s.ctrlEvents text }

/-- The events that are published in a step. Those of a turn of the FSM thread come later. -/
def publishedEvents (s : Telemetry Server strings numbers) : TelemetryEvent R → List String
  | .loop .fsmThread => []
  | .loop event => (loopPublished services s.loop event).filterMap Publication.onCtrlEvents
  | .manual req outcome =>
      (DriveControllerNode.manualResponse outcome req).2.filterMap Publication.onCtrlEvents
  | .publish => (s.unpublished.take 1).filterMap Publication.onCtrlEvents
  | _ => []

def step (s : Telemetry Server strings numbers) :
    TelemetryEvent R → Telemetry Server strings numbers
  | .loop .fsmThread =>
      match s.unpublished with
      | [] =>
          { s with
            loop := loopStep services act s.loop .fsmThread
            unpublished := loopPublished services s.loop (.fsmThread : LoopEvent R) }
      | _ => s
  | .loop event =>
      let events := s.publishedEvents services (.loop event)
      { s with
        loop := loopStep services act s.loop event
        ctrlEvents := events.foldl strings.publish s.ctrlEvents }
  | .operation op => { s with loop := (act s.loop.1 op, s.loop.2) }
  | .manual req outcome =>
      let events := s.publishedEvents services (.manual req outcome : TelemetryEvent R)
      { s with ctrlEvents := events.foldl strings.publish s.ctrlEvents }
  | .publish =>
      match s.unpublished with
      | [] => s
      | p :: rest => { s.put p with unpublished := rest }
  | .transport .driveState choice =>
      { s with driveState := strings.transport s.driveState choice }
  | .transport .velocityActual choice =>
      { s with velocityActual := numbers.transport s.velocityActual choice }
  | .transport .positionActual choice =>
      { s with positionActual := numbers.transport s.positionActual choice }
  | .transport .ctrlEvents choice =>
      { s with ctrlEvents := strings.transport s.ctrlEvents choice }
  | .onState =>
      match strings.take s.driveState with
      | none => s
      | some (data, rest) => { s with driveState := rest, ui := { s.ui with state := data } }
  | .onVel =>
      match numbers.take s.velocityActual with
      | none => s
      | some (data, rest) =>
          { s with velocityActual := rest, ui := { s.ui with velocityActual := data } }
  | .onPos =>
      match numbers.take s.positionActual with
      | none => s
      | some (data, rest) =>
          { s with positionActual := rest, ui := { s.ui with positionActual := data } }
  | .onCtrlEvent ts =>
      match strings.take s.ctrlEvents with
      | none => s
      | some (data, rest) =>
          { s with
            ctrlEvents := rest
            ui := { s.ui with ctrlEvents := newest 100 (s.ui.ctrlEvents ++ [stamp (ts, data)]) } }
  | .status =>
      match s.snapshot with
      | none => { s with snapshot := some s.ui }
      | some _ => s
  | .send =>
      match s.snapshot with
      | none => s
      | some d => { s with snapshot := none, stream := s.stream ++ [d] }
  | .onmessage =>
      match s.stream with
      | [] => s
      | d :: rest => { s with stream := rest, page := s.page.onmessage d }
  | .onerror => { s with snapshot := none, stream := [], page := s.page.setBadge "(no data)" }

/-- The state of the controller. -/
def state (s : Telemetry Server strings numbers) : DriveState := s.loop.2.controller.state

/-- The state that an event takes the controller to, if it is another. -/
def entered (s : Telemetry Server strings numbers) (event : TelemetryEvent R) : List String :=
  let next := step services act s event
  if next.state = s.state then [] else [next.state.toString]

def recordTelemetry (history : TelemetryHistory) (s : Telemetry Server strings numbers) :
    TelemetryEvent R → TelemetryHistory
  | .loop event =>
      { history with
        states := history.states ++ s.entered services act (.loop event)
        events := history.events ++ s.publishedEvents services (.loop event) }
  | .manual req outcome =>
      { history with
        events := history.events ++
          s.publishedEvents services (.manual req outcome : TelemetryEvent R) }
  | .publish =>
      { history with
        events := history.events ++ s.publishedEvents services (.publish : TelemetryEvent R) }
  | .onState =>
      { history with
        arrivedStates := history.arrivedStates ++
          ((strings.take s.driveState).map Prod.fst).toList }
  | .onCtrlEvent ts =>
      { history with
        arrivedEvents := history.arrivedEvents ++
          ((strings.take s.ctrlEvents).map fun taken => (ts, taken.1)).toList }
  | _ => history

/-- The state topic has one message for each change of the controller's state. -/
theorem onDriveState_loopPublished (config : Server × DriveControllerNode) :
    (loopPublished services config (.fsmThread : LoopEvent R)).filterMap Publication.onDriveState =
      let next := (loopStep services act config .fsmThread).2.controller.state
      if next = config.2.controller.state then [] else [next.toString] := by
  have hAnnounced (published : List Publication) :
      (published.filter Publication.announces).filterMap Publication.onDriveState =
        published.filterMap Publication.onDriveState := by
    rw [List.filterMap_filter]
    refine List.filterMap_congr fun p _ => ?_
    cases p <;> simp [Publication.announces, Publication.onDriveState]
  obtain ⟨server, node⟩ := config
  have hState : (loopStep services act (server, node) .fsmThread).2.controller.state =
      node.decoded.getD node.controller.state :=
    DriveControllerNode.state_fsmThread services server node
  have hReports (code : Option OdValue) :
      (code.toList.map Publication.ofErrorCode).filterMap Publication.onDriveState = [] := by
    cases code <;> rfl
  rw [hState, ← hAnnounced, loopPublished, DriveControllerNode.filter_announces_fsmThread,
    List.filterMap_append, hReports, List.append_nil]
  cases node.decoded with
  | none => simp
  | some state =>
      by_cases hSame : node.controller.state = state
      · simp [hSame]
      · simp [hSame, Ne.symm hSame, Publication.ofState, Publication.onDriveState]

/-- What a run keeps. -/
structure Follows (start : DriveState) (s : Telemetry Server strings numbers)
    (history : TelemetryHistory) : Prop where
  /-- The state messages are those that have been published and those that are next. -/
  states : ∃ published, strings.Carries published history.arrivedStates s.driveState ∧
    published ++ s.unpublished.filterMap Publication.onDriveState = history.states
  uiState : s.ui.state = history.arrivedStates.getLastD "Unknown"
  controller : history.states.getLastD start.toString = s.state.toString
  events : strings.Carries history.events (history.arrivedEvents.map Prod.snd) s.ctrlEvents
  uiEvents : s.ui.ctrlEvents = newest 100 (history.arrivedEvents.map stamp)

section Step
variable {start : DriveState} {s : Telemetry Server strings numbers} {history : TelemetryHistory}

theorem states_of_state_eq {event : LoopEvent R}
    (h : (step services act s (.loop event)).state = s.state) :
    (recordTelemetry services act history s (.loop event)).states = history.states := by
  simp only [recordTelemetry, entered, h, if_true, List.append_nil]

theorem Follows.controller_step (h : Follows start s history) (event : TelemetryEvent R) :
    (history.states ++ s.entered services act event).getLastD start.toString =
      (step services act s event).state.toString := by
  simp only [entered]
  split
  next hSame =>
    rw [List.append_nil, hSame]
    exact h.controller
  next => exact List.getLastD_concat

/-- A turn of the FSM thread, which waits while it has something to publish. -/
theorem Follows.fsmThread (h : Follows start s history) :
    Follows start (step services act s (.loop .fsmThread : TelemetryEvent R))
      (recordTelemetry services act history s (.loop .fsmThread : TelemetryEvent R)) := by
  cases hUnpublished : s.unpublished with
  | cons p rest =>
      have hStep : step services act s (.loop .fsmThread : TelemetryEvent R) = s := by
        simp only [step, hUnpublished]
      have hHistory : recordTelemetry services act history s
          (.loop .fsmThread : TelemetryEvent R) = history := by
        simp [recordTelemetry, entered, hStep, publishedEvents]
      rw [hStep, hHistory]
      exact h
  | nil =>
      have hStep : step services act s (.loop .fsmThread : TelemetryEvent R) =
          { s with
            loop := loopStep services act s.loop .fsmThread
            unpublished := loopPublished services s.loop (.fsmThread : LoopEvent R) } := by
        simp only [step, hUnpublished]
      have hEntered : s.entered services act (.loop .fsmThread : TelemetryEvent R) =
          (loopPublished services s.loop (.fsmThread : LoopEvent R)).filterMap
            Publication.onDriveState := by
        rw [onDriveState_loopPublished services act, entered, hStep]
        rfl
      obtain ⟨published, hCarried, hStates⟩ := h.states
      rw [hUnpublished, List.filterMap_nil, List.append_nil] at hStates
      refine ⟨⟨published, ?_, ?_⟩, ?_, h.controller_step services act _, ?_, ?_⟩
      · rw [hStep]
        exact hCarried
      · rw [hStep, hStates]
        exact congrArg (history.states ++ ·) hEntered.symm
      · rw [hStep]
        exact h.uiState
      · rw [hStep]
        simpa [recordTelemetry, publishedEvents] using h.events
      · rw [hStep]
        exact h.uiEvents

/-- The FSM thread publishes. -/
theorem Follows.publish (h : Follows start s history) :
    Follows start (step services act s (.publish : TelemetryEvent R))
      (recordTelemetry services act history s (.publish : TelemetryEvent R)) := by
  obtain ⟨published, hCarried, hStates⟩ := h.states
  have hEvents : history.events ++ s.publishedEvents services (.publish : TelemetryEvent R) =
      history.events ++ (s.unpublished.take 1).filterMap Publication.onCtrlEvents := rfl
  simp only [step, recordTelemetry, hEvents]
  cases hUnpublished : s.unpublished with
  | nil =>
      simp only [List.take_nil, List.filterMap_nil, List.append_nil]
      exact h
  | cons p rest =>
      rw [hUnpublished] at hStates
      cases p with
      | driveState name =>
          refine ⟨⟨published ++ [name], hCarried.publish name, ?_⟩, h.uiState, h.controller, ?_,
            h.uiEvents⟩
          · rw [← hStates, List.append_assoc]
            rfl
          · exact (List.append_nil history.events).symm ▸ h.events
      | event text =>
          exact ⟨⟨published, hCarried, hStates⟩, h.uiState, h.controller, h.events.publish text,
            h.uiEvents⟩
      | velocityActual velocity | positionActual position =>
          refine ⟨⟨published, hCarried, hStates⟩, h.uiState, h.controller, ?_, h.uiEvents⟩
          exact (List.append_nil history.events).symm ▸ h.events

theorem follows_step (h : Follows start s history) (event : TelemetryEvent R) :
    Follows start (step services act s event) (recordTelemetry services act history s event) := by
  obtain ⟨published, hCarried, hStates⟩ := h.states
  cases event with
  | loop event =>
      cases event with
      | fsmThread => exact h.fsmThread services act
      | _ =>
          refine ⟨⟨published, hCarried, ?_⟩, h.uiState, h.controller_step services act _,
            h.events.publishAll _, h.uiEvents⟩
          exact hStates.trans (states_of_state_eq services act rfl).symm
  | operation op => exact ⟨h.states, h.uiState, h.controller, h.events, h.uiEvents⟩
  | manual req outcome =>
      exact ⟨h.states, h.uiState, h.controller, h.events.publishAll _, h.uiEvents⟩
  | publish => exact h.publish services act
  | transport topic choice =>
      cases topic with
      | driveState =>
          exact ⟨⟨published, hCarried.transport choice, hStates⟩, h.uiState, h.controller, h.events,
            h.uiEvents⟩
      | ctrlEvents =>
          exact ⟨h.states, h.uiState, h.controller, h.events.transport choice, h.uiEvents⟩
      | _ => exact ⟨h.states, h.uiState, h.controller, h.events, h.uiEvents⟩
  | onState =>
      simp only [step, recordTelemetry]
      split
      next hNone =>
        rw [hNone, Option.map_none, Option.toList_none, List.append_nil]
        exact h
      next data rest hTake =>
        rw [hTake]
        exact ⟨⟨published, hCarried.take hTake, hStates⟩, List.getLastD_concat.symm, h.controller,
          h.events, h.uiEvents⟩
  | onCtrlEvent ts =>
      simp only [step, recordTelemetry]
      split
      next hNone =>
        rw [hNone, Option.map_none, Option.toList_none, List.append_nil]
        exact h
      next data rest hTake =>
        rw [hTake]
        refine ⟨h.states, h.uiState, h.controller, ?_, ?_⟩
        · rw [List.map_append]
          exact h.events.take hTake
        · simp only [h.uiEvents, List.map_append]
          exact newest_newest_append 100 _ _
  | onVel | onPos | status | send | onmessage =>
      simp only [step, recordTelemetry]
      split <;> exact ⟨h.states, h.uiState, h.controller, h.events, h.uiEvents⟩
  | onerror => exact ⟨h.states, h.uiState, h.controller, h.events, h.uiEvents⟩

/-- There is room on the topic for what an event publishes. -/
def HasRoom (s : Telemetry Server strings numbers) (event : TelemetryEvent R) : Prop :=
  (strings.onWay s.ctrlEvents).length + (s.publishedEvents services event).length ≤ depth

instance HasRoom.decidable (s : Telemetry Server strings numbers) (event : TelemetryEvent R) :
    Decidable (s.HasRoom services event) := inferInstanceAs (Decidable (_ ≤ _))

/-- No event has been lost, and no more are on the way than the topic keeps. -/
structure Complete (s : Telemetry Server strings numbers) (history : TelemetryHistory) : Prop where
  all : history.arrivedEvents.map Prod.snd ++ strings.onWay s.ctrlEvents = history.events
  length_le : (strings.onWay s.ctrlEvents).length ≤ depth

theorem Complete.publishAll (h : Complete s history) (hHolds : strings.Holds depth)
    {messages : List String}
    (hRoom : (strings.onWay s.ctrlEvents).length + messages.length ≤ depth) :
    let next := messages.foldl strings.publish s.ctrlEvents
    history.arrivedEvents.map Prod.snd ++ strings.onWay next = history.events ++ messages ∧
      (strings.onWay next).length ≤ depth := by
  intro next
  have hNext : strings.onWay next = strings.onWay s.ctrlEvents ++ messages :=
    hHolds.onWay_publishAll hRoom
  rw [hNext, List.length_append, ← List.append_assoc, h.all]
  exact ⟨rfl, hRoom⟩

theorem Complete.step (h : Complete s history) (hHolds : strings.Holds depth)
    {event : TelemetryEvent R} (hRoom : s.HasRoom services event) :
    Complete (s.step services act event) (recordTelemetry services act history s event) := by
  cases event with
  | loop event =>
      cases event with
      | fsmThread =>
          simp only [Telemetry.step, recordTelemetry, publishedEvents, List.append_nil]
          split <;> exact ⟨h.all, h.length_le⟩
      | _ =>
          obtain ⟨hAll, hLength⟩ := h.publishAll hHolds hRoom
          exact ⟨hAll, hLength⟩
  | manual req outcome =>
      obtain ⟨hAll, hLength⟩ := h.publishAll hHolds hRoom
      exact ⟨hAll, hLength⟩
  | publish =>
      obtain ⟨hAll, hLength⟩ := h.publishAll hHolds hRoom
      simp only [Telemetry.step, recordTelemetry, publishedEvents] at hAll hLength ⊢
      cases hUnpublished : s.unpublished with
      | nil =>
          rw [hUnpublished] at hAll hLength
          exact ⟨hAll, hLength⟩
      | cons p rest =>
          rw [hUnpublished] at hAll hLength
          cases p <;> exact ⟨hAll, hLength⟩
  | transport topic choice =>
      cases topic with
      | ctrlEvents =>
          have hSame := hHolds.transport choice h.length_le
          exact ⟨(congrArg _ hSame).trans h.all, (congrArg List.length hSame).trans_le h.length_le⟩
      | _ => exact ⟨h.all, h.length_le⟩
  | onCtrlEvent ts =>
      simp only [Telemetry.step, recordTelemetry]
      split
      next hNone =>
        rw [hNone, Option.map_none, Option.toList_none, List.append_nil]
        exact h
      next data rest hTake =>
        have hFirst := hHolds.take h.length_le hTake
        have hAll := h.all
        have hLength := h.length_le
        rw [hFirst] at hAll hLength
        rw [hTake]
        refine ⟨?_, Nat.le_of_succ_le hLength⟩
        rw [List.map_append, List.append_assoc]
        exact hAll
  | onState | onVel | onPos | status | send | onmessage =>
      simp only [Telemetry.step, recordTelemetry]
      split <;> exact ⟨h.all, h.length_le⟩
  | operation op | onerror => exact ⟨h.all, h.length_le⟩

end Step

variable {start : DriveState} {s : Telemetry Server strings numbers} {history : TelemetryHistory}

/-- The state that the web UI node has once nothing is on the way. -/
theorem Follows.state_eq (h : Follows start s history) (hStrings : strings.KeepsLast)
    (hOnWay : strings.onWay s.driveState = [])
    (hUnpublished : s.unpublished.filterMap Publication.onDriveState = [])
    (hKnown : history.states ≠ [] ∨ start = .unknown) : s.ui.state = s.state.toString := by
  obtain ⟨published, hCarried, hStates⟩ := h.states
  rw [hUnpublished, List.append_nil] at hStates
  subst hStates
  have hLast := hCarried.getLast?_eq hStrings
  rw [hOnWay, List.append_nil] at hLast
  rw [h.uiState, ← h.controller, List.getLastD_eq_getLast?, List.getLastD_eq_getLast?, hLast]
  rcases hKnown with hSome | rfl
  · rw [List.getLast?_eq_some_getLast hSome]
    rfl
  · rfl

/-- The page shows what is left in the stream. -/
theorem run_onmessage (s : Telemetry Server strings numbers) {n : ℕ} (h : s.stream.length ≤ n) :
    run (step services act) s (List.replicate n .onmessage) =
      { s with stream := [], page := s.stream.foldl Page.onmessage s.page } := by
  obtain ⟨loop, unpublished, state, velocity, position, events, ui, snapshot, stream, page⟩ := s
  induction n generalizing stream page with
  | zero =>
      obtain rfl := List.length_eq_zero_iff.mp (Nat.le_zero.mp h)
      rfl
  | succ n ih =>
      cases stream with
      | nil => exact ih [] page (Nat.zero_le n)
      | cons d rest => exact ih rest (page.onmessage d) (Nat.le_of_succ_le_succ h)

/-- The page after the next status, which is behind one that has been taken before. -/
theorem page_refreshed (s : Telemetry Server strings numbers) :
    (run (step services act) s
      ([.send, .status, .send] ++ List.replicate (s.stream.length + 2) .onmessage)).page =
        ((s.stream ++ s.snapshot.toList).foldl Page.onmessage s.page).onmessage s.ui := by
  let sent : Telemetry Server strings numbers := run (step services act) s [.send, .status, .send]
  have hSent : sent.stream = (s.stream ++ s.snapshot.toList) ++ [s.ui] ∧ sent.page = s.page := by
    cases hSnapshot : s.snapshot <;> simp [sent, step, hSnapshot]
  obtain ⟨hStream, hPage⟩ := hSent
  have hLength : sent.stream.length ≤ s.stream.length + 2 := by
    have hTaken := Option.length_toList_le (o := s.snapshot)
    simp only [hStream, List.length_append, List.length_singleton]
    omega
  rw [run_append, run_onmessage services act sent hLength, hStream, hPage, List.foldl_concat]

end Telemetry

theorem Page.badge_setBadge_toString (page : Page) (state : DriveState) :
    (page.setBadge state.toString).badgeClass = "badge ok" ↔ state = .operationEnabled := by
  cases state <;> simp [setBadge, DriveState.toString, EventLog.hasTag, EventLog.containsChars]

open Telemetry

section System
variable {Server R : Type} {strings : Topic String} (numbers : Topic OdValue)
  (services : Services Server) (act : Server → Operation R → Server)

theorem follows_run (server : Server) (node : DriveControllerNode)
    (events : List (TelemetryEvent R)) :
    let start : Telemetry Server strings numbers := { loop := (server, node) }
    let config := run (recordStep (Telemetry.step services act) (recordTelemetry services act))
      (start, {}) events
    Follows node.controller.state config.1 config.2 := by
  intro start
  have hStart : Follows node.controller.state start {} :=
    ⟨⟨[], .subscribed, rfl⟩, rfl, rfl, .subscribed, rfl⟩
  exact run_invariant
    (fun config : Telemetry Server strings numbers × TelemetryHistory =>
      Follows node.controller.state config.1 config.2)
    (fun config event h => follows_step services act h event) hStart events

/-- The page comes to show the state of the controller. The states that reach the web UI
node are states that the controller has entered since the node subscribed, in that order.
Once it has entered one, or if it was in Unknown then, the node has the present state
whenever none is yet to be published or on the way, and the next status that is taken
brings it to the badge, whatever else is in the stream. -/
theorem page_shows_controller_state (hStrings : strings.KeepsLast) (server : Server)
    (node : DriveControllerNode) (events : List (TelemetryEvent R)) :
    let start : Telemetry Server strings numbers := { loop := (server, node) }
    let config := run (recordStep (Telemetry.step services act) (recordTelemetry services act))
      (start, {}) events
    let s := config.1
    let onWay := strings.onWay s.driveState ++ s.unpublished.filterMap Publication.onDriveState
    (config.2.arrivedStates ++ onWay).Sublist config.2.states ∧
      (onWay = [] → config.2.states ≠ [] ∨ node.controller.state = .unknown →
        s.ui.state = s.state.toString ∧
        let page := (run (Telemetry.step services act) s
          ([.send, .status, .send] ++ List.replicate (s.stream.length + 2) .onmessage)).page
        page.badge = s.state.toString ∧
          (page.badgeClass = "badge ok" ↔ s.state = .operationEnabled)) := by
  intro start config s onWay
  have hFollows : Follows node.controller.state s config.2 :=
    follows_run numbers services act server node events
  constructor
  · obtain ⟨published, hCarried, hStates⟩ := hFollows.states
    rw [← hStates, ← List.append_assoc]
    exact (hCarried.sublist hStrings).append (List.Sublist.refl _)
  · intro hNone hKnown
    obtain ⟨hOnWay, hUnpublished⟩ := List.append_eq_nil_iff.mp hNone
    have hState := hFollows.state_eq hStrings hOnWay hUnpublished hKnown
    refine ⟨hState, ?_⟩
    simp only [page_refreshed, ← hState]
    refine ⟨rfl, ?_⟩
    have hBadge := ((s.stream ++ s.snapshot.toList).foldl Page.onmessage s.page
      ).badge_setBadge_toString s.state
    rwa [← hState] at hBadge

/-- A web UI node that subscribes while the drive switches on, over topics with a queue on
either side. -/
theorem page_shows_controller_state_late :
    let services : Services Unit :=
      ⟨fun server _ _ => (server, some { value := 0x33, success := true }),
        fun server _ _ _ => (server, some { success := true })⟩
    let act (server : Unit) (_ : Operation ℚ) : Unit := server
    let node : DriveControllerNode := { controller := { state := .readyToSwitchOn } }
    let start : Telemetry Unit (.keepLast String depth) (.keepLast OdValue depth) :=
      { loop := ((), node) }
    let events : List (TelemetryEvent ℚ) :=
      [.loop .fsmThread, .loop .fsmThread, .publish, .publish, .transport .driveState 0, .onState]
    (run (Telemetry.step services act) start events).ui.state = "Switched On" := by
  intro services act node start events
  have hStrings : (Topic.keepLast String depth).KeepsLast := Topic.keepsLast_keepLast (by decide)
  have hShown := (page_shows_controller_state (.keepLast OdValue depth) services act hStrings ()
    node events).2 (by decide +kernel) (Or.inl (by decide +kernel))
  exact hShown.1.trans (by decide +kernel)

/-- The log of the web UI node has the newest hundred of the controller's events that
have arrived, each with the time of its arrival. None is repeated or overtaken on the way,
and none is lost as long as the topic has room whenever some are published. -/
theorem event_log_complete_of_room (hStrings : strings.KeepsLast) (hHolds : strings.Holds depth)
    (server : Server) (node : DriveControllerNode) (events : List (TelemetryEvent R)) :
    let start : Telemetry Server strings numbers := { loop := (server, node) }
    let config := run (recordStep (Telemetry.step services act) (recordTelemetry services act))
      (start, {}) events
    let onWay := strings.onWay config.1.ctrlEvents
    config.1.ui.ctrlEvents = newest 100 (config.2.arrivedEvents.map stamp) ∧
      (config.2.arrivedEvents.map Prod.snd ++ onWay).Sublist config.2.events ∧
      (EveryStep (Telemetry.step services act) (HasRoom services) start events →
        config.2.arrivedEvents.map Prod.snd ++ onWay = config.2.events) := by
  intro start config onWay
  have hFollows : Follows node.controller.state config.1 config.2 :=
    follows_run numbers services act server node events
  refine ⟨hFollows.uiEvents, hFollows.events.sublist hStrings, fun hRoom => ?_⟩
  have hNone : strings.onWay start.ctrlEvents = [] := hStrings.subscribed
  have hStart : Complete start {} := ⟨hNone, (congrArg List.length hNone).trans_le (Nat.zero_le _)⟩
  let Inv (config : Telemetry Server strings numbers × TelemetryHistory) : Prop :=
    Complete config.1 config.2
  have hStep (config : Telemetry Server strings numbers × TelemetryHistory)
      (event : TelemetryEvent R) (h : Inv config) (hRoom : config.1.HasRoom services event) :
      Inv (recordStep (Telemetry.step services act) (recordTelemetry services act) config event) :=
    h.step services act hHolds hRoom
  have hRecorded := (everyStep_recordStep (recordTelemetry services act) (HasRoom services)
    (start, {}) events).mpr hRoom
  have hLast : Inv config := EveryStep.invariant hStep hStart hRecorded
  exact hLast.all

/-- A revocation and a manual access that times out, of which the first arrives. -/
theorem event_log_complete_of_room_revoked :
    let services : Services Unit :=
      ⟨fun server _ _ => (server, none), fun server _ _ _ => (server, none)⟩
    let act (server : Unit) (_ : Operation ℚ) : Unit := server
    let start : Telemetry Unit (.keepLast String depth) (.keepLast OdValue depth) :=
      { loop := ((), {}) }
    let events : List (TelemetryEvent ℚ) :=
      [.loop (.setEnable false), .manual (.read Cia402Index.statusword 0) none,
        .transport .ctrlEvents 0, .transport .ctrlEvents 0, .onCtrlEvent "12:00:00"]
    let s := run (Telemetry.step services act) start events
    s.ui.ctrlEvents = ["[12:00:00] [CMD] Operation disabled"] ∧
      (Topic.keepLast String depth).onWay s.ctrlEvents =
        ["[ERROR] od_read timeout (index 0x6041)"] := by
  intro services act start events s
  have hStrings : (Topic.keepLast String depth).KeepsLast := Topic.keepsLast_keepLast (by decide)
  obtain ⟨hLog, -, hComplete⟩ := event_log_complete_of_room (.keepLast OdValue depth) services act
    hStrings Topic.holds_keepLast () {} events
  have hRoom : EveryStep (Telemetry.step services act) (HasRoom services) start events := by
    decide +kernel
  have hArrived : ["[CMD] Operation disabled"] ++ (Topic.keepLast String depth).onWay s.ctrlEvents =
      _ := hComplete hRoom
  exact ⟨hLog.trans (by decide +kernel),
    List.append_cancel_left (hArrived.trans (by decide +kernel))⟩

end System

end Ca1MotorCtrl
