import Ca1MotorCtrl.WebUi.Controls

/-! The fault buttons of the page. Every fault in a run goes back to a click of its own,
because the positions of the slider keep the drive within its speed limit. -/
namespace Ca1MotorCtrl

open Transition InTransit

namespace CommandPath
variable {Server R : Type} {numbers : Topic OdValue} (services : Services Server)
  (act : Server → Operation R → Server)

/-- The fault that a service of the simulator injects. -/
def injected (s : CommandPath Server numbers) : CommandEvent R → Option FaultKind
  | .onInject i => s.injections[i]?
  | _ => none

/-- A call of a service is processed once. -/
theorem injections_step (s : CommandPath Server numbers) (event : CommandEvent R) :
    ((s.injected event).toList ++ (step services act s event).injections).Perm
      (s.injections ++ ((s.handled event).bind PostRequest.fault).toList) := by
  cases event with
  | handle i =>
      simp only [injected, handled, step, Option.toList_none, List.nil_append]
      cases s.requests[i]? with
      | none => simp
      | some req =>
          rw [(doPost_messages _ req).2.2.1]
          exact List.Perm.refl _
  | onInject i =>
      have hTaken := toList_append_eraseIdx_perm s.injections i
      simp only [injected, handled, step, Option.bind_none, Option.toList_none, List.append_nil]
      cases hKind : s.injections[i]? with
      | none => exact List.Perm.refl _
      | some kind => rwa [hKind] at hTaken
  | onVelocity | onEnable =>
      simp only [injected, handled, step, Option.bind_none, Option.toList_none, List.append_nil,
        List.nil_append]
      split <;> exact List.Perm.refl _
  | _ => simp [injected, handled, step]

/-- Each fault that is injected or on the way is one that was before, or a new click. -/
theorem faults_step (s : CommandPath Server numbers) (event : CommandEvent R) :
    ((s.injected event).toList ++ ((step services act s event).injections ++
      (step services act s event).requests.filterMap PostRequest.fault)).Subperm
        (s.injections ++ s.requests.filterMap PostRequest.fault ++ event.clicked.toList) := by
  have hRequests := handled_subperm services act PostRequest.fault s event
  rw [event.posted_bind_fault] at hRequests
  have hServices := (injections_step services act s event).append_right
    ((step services act s event).requests.filterMap PostRequest.fault)
  rw [← List.append_assoc]
  refine hServices.subperm.trans ?_
  rw [List.append_assoc, List.append_assoc]
  exact (List.subperm_append_left s.injections).mpr hRequests

/-- Nothing but the velocity that is published is new on the topic. -/
theorem onWay_step_subset (hTopic : numbers.KeepsLast) (s : CommandPath Server numbers)
    (event : CommandEvent R) :
    numbers.onWay (step services act s event).cmdVelocity ⊆
      numbers.onWay s.cmdVelocity ++ ((s.handled event).bind PostRequest.velocity).toList := by
  cases event with
  | handle i =>
      simp only [handled, step]
      cases s.requests[i]? with
      | none => exact List.subset_append_left _ _
      | some req =>
          rw [(doPost_messages _ req).2.2.2]
          cases hVelocity : req.velocity with
          | none => simp [hVelocity]
          | some data =>
              simp only [Option.bind_some, hVelocity]
              exact (hTopic.publish s.cmdVelocity data).subset
  | transport choice =>
      simpa [handled, step] using (hTopic.transport s.cmdVelocity choice).subset
  | onVelocity =>
      simp only [handled, step, Option.bind_none, Option.toList_none, List.append_nil]
      split
      next => exact List.Subset.refl _
      next data rest hTake =>
        exact fun _ hMem => (hTopic.take hTake).subset (List.mem_cons_of_mem data hMem)
  | onEnable | onInject i =>
      simp only [handled, step, Option.bind_none, Option.toList_none, List.append_nil]
      split <;> exact List.Subset.refl _
  | _ => simp [handled, step]

/-- The velocities on the topic and in requests come from clicks of Set Velocity. -/
theorem velocities_step_subset (hTopic : numbers.KeepsLast) (s : CommandPath Server numbers)
    (event : CommandEvent R) :
    numbers.onWay (step services act s event).cmdVelocity ++ (step services act s event).posted ⊆
      numbers.onWay s.cmdVelocity ++ (s.posted ++ event.requested.toList) := by
  have hRequests := (handled_subperm services act PostRequest.velocity s event).subset
  rw [event.posted_bind_velocity] at hRequests
  obtain ⟨hHandled, hPosted⟩ := List.append_subset.mp hRequests
  have hOnWay := onWay_step_subset services act hTopic s event
  refine List.append_subset.mpr ⟨fun data hMem => ?_, fun data hMem => ?_⟩
  · rcases List.mem_append.mp (hOnWay hMem) with hOld | hNew
    · exact List.mem_append_left _ hOld
    · exact List.mem_append_right _ (hHandled hNew)
  · exact List.mem_append_right _ (hPosted hMem)

end CommandPath

/-- The fault buttons clicked, the faults injected, and the entries into Fault. -/
structure FaultHistory where
  clicked : List FaultKind := []
  injected : List FaultKind := []
  entries : ℕ := 0
  deriving DecidableEq, Repr

namespace CommandPath
variable {numbers : Topic OdValue} (A : DoubleArith ℚ)

def recordFaults (history : FaultHistory) (s : CommandPath (DriveSimulator ℚ) numbers)
    (event : CommandEvent ℚ) : FaultHistory where
  clicked := history.clicked ++ event.clicked.toList
  injected := history.injected ++ (s.injected event).toList
  entries := history.entries +
    if s.loop.1.state ≠ .fault ∧ (s.simStep A event).loop.1.state = .fault then 1 else 0

/-- No other node sends commands, and no update runs backwards. -/
def Forward : CommandEvent ℚ → Prop
  | .loop (.updateTimer dt) => 0 ≤ dt
  | .loop .fsmThread | .loop .fsmTimer => True
  | .loop _ | .operation _ => False
  | _ => True

theorem Forward.ne_operation {event : CommandEvent ℚ} (h : Forward event) (op : Operation ℚ) :
    event ≠ .operation op := by
  rintro rfl
  exact h

variable (undefinedCast : ℚ → OdValue) {limit : ℤ}

/-- Speeds within the limit all the way, and an account of the faults. -/
structure Accounted (limit : ℤ) (config : CommandPath (DriveSimulator ℚ) numbers × FaultHistory) :
    Prop where
  tame : ∃ d : Drive ℚ, config.1.loop.1 = d.toSimulator (.exact undefinedCast) ∧
    Drive.Tame undefinedCast limit 0 (d, config.1.loop.2)
  velocities : ∀ data ∈ numbers.onWay config.1.cmdVelocity ++ config.1.posted,
    |data.toInt| ≤ limit
  faults : Accounts config.2.clicked config.2.injected
    (config.1.injections ++ config.1.requests.filterMap PostRequest.fault)
  entries : config.2.entries ≤ config.2.injected.length

/-- The loop gets commands within the limit only. -/
theorem withinLimit_of_mem_loopEvent? (hTopic : numbers.KeepsLast)
    {s : CommandPath (DriveSimulator ℚ) numbers}
    (hVelocities : ∀ data ∈ numbers.onWay s.cmdVelocity ++ s.posted, |data.toInt| ≤ limit)
    {event : CommandEvent ℚ} (hForward : Forward event) {loopEvent : LoopEvent ℚ}
    (hMem : loopEvent ∈ s.loopEvent? event) : loopEvent.WithinLimit limit := by
  cases event with
  | onVelocity =>
      obtain ⟨taken, hTake, rfl⟩ := Option.map_eq_some_iff.mp hMem
      have hOnWay := (hTopic.take hTake).subset List.mem_cons_self
      exact hVelocities taken.1 (List.mem_append_left _ hOnWay)
  | onEnable =>
      obtain ⟨data, -, rfl⟩ := Option.map_eq_some_iff.mp hMem
      trivial
  | onInject i =>
      obtain ⟨kind, -, rfl⟩ := Option.map_eq_some_iff.mp hMem
      cases kind <;> trivial
  | loop event =>
      obtain rfl : event = loopEvent := Option.some.inj hMem
      cases event with
      | updateTimer dt => exact hForward
      | fsmThread | fsmTimer => trivial
      | _ => exact hForward.elim
  | _ => cases hMem

/-- Only the services inject faults. -/
theorem injected_of_injects {s : CommandPath (DriveSimulator ℚ) numbers} {event : CommandEvent ℚ}
    (hForward : Forward event) {loopEvent : LoopEvent ℚ} (hMem : loopEvent ∈ s.loopEvent? event)
    (hInjects : loopEvent.Injects) : (s.injected event).toList.length = 1 := by
  cases event with
  | onInject i =>
      obtain ⟨kind, hKind, -⟩ := Option.map_eq_some_iff.mp hMem
      simp [injected, hKind]
  | onVelocity | onEnable =>
      obtain ⟨data, -, rfl⟩ := Option.map_eq_some_iff.mp hMem
      exact hInjects.elim
  | loop event =>
      obtain rfl : event = loopEvent := Option.some.inj hMem
      cases event with
      | fsmThread | fsmTimer | updateTimer dt => exact hInjects.elim
      | _ => exact hForward.elim
  | _ => cases hMem

/-- The loop stays within its limits, and enters Fault only by an injection. -/
theorem Accounted.loop_step (hTopic : numbers.KeepsLast) {undefinedCast : ℚ → OdValue}
    {config : CommandPath (DriveSimulator ℚ) numbers × FaultHistory}
    (h : Accounted undefinedCast limit config) {event : CommandEvent ℚ} (hForward : Forward event) :
    let next := (config.1.simStep (.exact undefinedCast) event).loop
    (∃ d : Drive ℚ, next.1 = d.toSimulator (.exact undefinedCast) ∧
      Drive.Tame undefinedCast limit 0 (d, next.2)) ∧
      (config.1.loop.1.state ≠ .fault → next.1.state = .fault →
        (config.1.injected event).toList.length = 1) := by
  obtain ⟨s, history⟩ := config
  obtain ⟨d, hDrive, hTame⟩ := h.tame
  intro next
  have hNext : next = _ := CommandPath.loop_step _ _ s hForward.ne_operation
  cases hEvent : s.loopEvent? event with
  | none =>
      rw [hEvent, Option.elim_none] at hNext
      rw [hNext]
      exact ⟨h.tame, fun hBefore hAfter => absurd hAfter hBefore⟩
  | some loopEvent =>
      have hWithin := withinLimit_of_mem_loopEvent? hTopic h.velocities hForward hEvent
      have hState (d : Drive ℚ) :
          (d.toSimulator (.exact undefinedCast)).state = .fault ↔ d.power = .fault :=
        d.state_toSimulator_eq_iff _ .fault
      have hStart : s.loop = (d.toSimulator (.exact undefinedCast), s.loop.2) := Prod.ext hDrive rfl
      rw [hEvent, Option.elim_some, hStart] at hNext
      have hLoop := hNext.trans (d.loopStep_toSimulator (.exact undefinedCast) s.loop.2 loopEvent)
      rw [hLoop]
      refine ⟨⟨_, rfl, Drive.tame_loopStep undefinedCast hTame hWithin⟩, fun hBefore hAfter => ?_⟩
      refine injected_of_injects hForward hEvent (by_contra fun hInjects => ?_)
      rw [hDrive, Ne, hState] at hBefore
      exact hTame.power_ne_fault undefinedCast le_rfl hWithin hInjects hBefore
        ((hState _).mp hAfter)

theorem Accounted.step (hTopic : numbers.KeepsLast) {undefinedCast : ℚ → OdValue}
    (hLimit : 200 ≤ limit) {config : CommandPath (DriveSimulator ℚ) numbers × FaultHistory}
    (h : Accounted undefinedCast limit config) {event : CommandEvent ℚ} (hForward : Forward event) :
    Accounted undefinedCast limit
      (recordStep (simStep (.exact undefinedCast)) (recordFaults (.exact undefinedCast))
        config event) := by
  obtain ⟨hTame, hEnters⟩ := h.loop_step hTopic hForward
  have hSubset := velocities_step_subset DriveSimulator.services
    (DriveSimulator.step (.exact undefinedCast)) hTopic config.1 event
  refine ⟨hTame, fun data hMem => ?_, ?_, ?_⟩
  · rcases List.mem_append.mp (hSubset hMem) with hOld | hNew
    · exact h.velocities data (List.mem_append_left _ hOld)
    · rcases List.mem_append.mp hNew with hOld | hRequested
      · exact h.velocities data (List.mem_append_right _ hOld)
      · exact (event.abs_requested_le (Option.mem_toList.mp hRequested)).trans hLimit
  · exact h.faults.step (faults_step DriveSimulator.services
      (DriveSimulator.step (.exact undefinedCast)) config.1 event)
  · simp only [recordStep, recordFaults, List.length_append]
    have hEntries := h.entries
    split
    next hEntry =>
      have hInjected := hEnters hEntry.1 hEntry.2
      omega
    next => omega

end CommandPath

section Faults
variable {numbers : Topic OdValue} (undefinedCast : ℚ → OdValue)

open CommandPath

/-- The controls of the page from a drive within its limit: the faults that are injected
are those of buttons that were clicked, each click counting once, the drive enters Fault
at most as often, and no update trips over the speed limit, wherever the slider is and
however requests, messages and the loop take turns. -/
theorem faults_within_clicks (hTopic : numbers.KeepsLast) {s : DriveSimulator ℚ}
    (hReach : s.Reachable (.exact undefinedCast)) {limit : ℤ} (hLimit : 200 ≤ limit)
    (hMotion : s.motion.WithinLimit limit 0) {c : DriveController}
    (hController : c.WithinLimit limit 0) {events : List (CommandEvent ℚ)}
    (hEvents : ∀ event ∈ events, Forward event) :
    let A := DoubleArith.exact undefinedCast
    let start : CommandPath (DriveSimulator ℚ) numbers := { loop := (s, { controller := c }) }
    let history := (run (recordStep (simStep A) (recordFaults A)) (start, {}) events).2
    history.injected.Subperm history.clicked ∧ history.entries ≤ history.injected.length ∧
      EveryStep (simStep A)
        (fun s event => ∀ dt, event = .loop (.updateTimer dt) → s.loop.1.overspeed A dt = false)
        start events := by
  obtain ⟨d, rfl⟩ := Drive.exists_of_reachable _ hReach
  intro A start history
  have hTame : Drive.Tame undefinedCast limit 0 (d, { controller := c }) :=
    ⟨hMotion, hController, fun cmd hMem => by cases hMem⟩
  have hNone : numbers.onWay start.cmdVelocity ++ start.posted = [] :=
    (List.append_nil _).trans hTopic.subscribed
  have hStart : Accounted undefinedCast limit (start, {}) :=
    ⟨⟨d, rfl, hTame⟩, fun _ hMem => (List.not_mem_nil (hNone ▸ hMem)).elim, .start, le_rfl⟩
  let recorded (config : CommandPath (DriveSimulator ℚ) numbers × FaultHistory) :=
    recordStep (simStep A) (recordFaults A) config
  have hForward : EveryStep recorded (fun _ event => Forward event) (start, {}) events :=
    everyStep_of_forall_mem hEvents _
  have hStep (config : CommandPath (DriveSimulator ℚ) numbers × FaultHistory)
      (event : CommandEvent ℚ) (h : Accounted undefinedCast limit config)
      (hForward : Forward event) : Accounted undefinedCast limit (recorded config event) :=
    h.step hTopic hLimit hForward
  have hLast := EveryStep.invariant hStep hStart hForward
  refine ⟨hLast.faults.taken_subperm, hLast.entries, ?_⟩
  rw [← everyStep_recordStep (recordFaults A) _ (start, {})]
  refine hForward.of_guard (Accounted undefinedCast limit) ?_ hStart
  intro config event h hForward
  refine ⟨fun dt hUpdate => ?_, hStep config event h hForward⟩
  obtain ⟨d, hDrive, hTame⟩ := h.tame
  subst hUpdate
  rw [hDrive]
  exact hTame.overspeed_eq_false undefinedCast le_rfl hForward

/-- Two clicks of fault buttons, of which one gets lost, with the slider at its end. -/
theorem faults_within_clicks_from_powerOn :
    let A : DoubleArith ℚ := .exact fun _ => 0
    let start : CommandPath (DriveSimulator ℚ) (.keepLast OdValue Telemetry.depth) :=
      { loop := (DriveSimulator.initial A, {}) }
    let events : List (CommandEvent ℚ) :=
      [.control (.setVel { value := 200 }), .control (.injectFault .overspeed), .handle 1,
        .control (.injectFault .generic), .fail 1, .handle 0, .transport 0, .onVelocity,
        .onInject 0, .loop .fsmThread, .loop (.updateTimer (1 / 100))]
    let history := (run (recordStep (simStep A) (recordFaults A)) (start, {}) events).2
    history.injected.Subperm history.clicked ∧ history.entries ≤ history.injected.length := by
  intro A start events history
  have hTopic : (Topic.keepLast OdValue Telemetry.depth).KeepsLast :=
    Topic.keepsLast_keepLast (by decide)
  have hEvents : ∀ event ∈ events, Forward event := by
    simp [events, Forward]
  obtain ⟨hInjected, hEntries, -⟩ :=
    faults_within_clicks (fun _ => 0) hTopic (.refl _) (by decide)
      ((withinLimit_initial _).mono (by decide)) (withinLimit_default.mono (by decide)) hEvents
  exact ⟨hInjected, hEntries⟩

end Faults

end Ca1MotorCtrl
