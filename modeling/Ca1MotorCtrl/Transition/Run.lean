import Mathlib.Data.List.Basic
import Mathlib.Logic.Function.Iterate
import Mathlib.Tactic.Common

/-! Deterministic transition systems driven by finite event sequences.
A run is a left fold of the step function, so every prefix of an event list
is a run of its own. Properties of single transitions are lifted to whole
runs by `EveryStep`, and every rule below needs one step lemma only. -/
namespace Transition

variable {State Event : Type*} (step : State → Event → State)

/-- The state after processing the events from left to right. -/
def run (start : State) (events : List Event) : State := events.foldl step start

@[simp] theorem run_nil (start : State) : run step start [] = start := rfl

@[simp] theorem run_cons (start : State) (event : Event) (events : List Event) :
    run step start (event :: events) = run step (step start event) events := rfl

@[simp] theorem run_append (start : State) (first second : List Event) :
    run step start (first ++ second) = run step (run step start first) second :=
  List.foldl_append

/-- An event that changes nothing may be repeated. -/
theorem run_replicate_of_step_eq {state : State} {event : Event} (h : step state event = state)
    (n : ℕ) : run step state (List.replicate n event) = state := by
  induction n with
  | zero => rfl
  | succ n ih => rw [List.replicate_succ, run_cons, h, ih]

/-- Some finite event sequence leads from `start` to `state`. -/
def Reachable (start state : State) : Prop := ∃ events, run step start events = state

variable {step}

theorem Reachable.refl (start : State) : Reachable step start start := ⟨[], rfl⟩

theorem Reachable.run_events {start state : State} (h : Reachable step start state)
    (events : List Event) : Reachable step start (run step state events) := by
  obtain ⟨before, rfl⟩ := h
  exact ⟨before ++ events, run_append step start before events⟩

theorem Reachable.step_event {start state : State} (h : Reachable step start state)
    (event : Event) : Reachable step start (step state event) :=
  h.run_events [event]

/-- Induction over a run: what every step preserves, every run preserves. -/
theorem run_invariant (Inv : State → Prop)
    (hStep : ∀ state event, Inv state → Inv (step state event))
    {start : State} (hStart : Inv start) (events : List Event) :
    Inv (run step start events) := by
  induction events generalizing start with
  | nil => exact hStart
  | cons event events ih => exact ih (hStep start event hStart)

/-- Repeating an event iterates its effect on an observation, as long as an
invariant of that event makes the effect a function of the observation. -/
theorem observe_run_replicate {Observed : Type*} (observe : State → Observed)
    (effect : Observed → Observed) {event : Event} (Inv : State → Prop)
    (hStep : ∀ state, Inv state →
      observe (step state event) = effect (observe state) ∧ Inv (step state event))
    {start : State} (hStart : Inv start) (n : ℕ) :
    observe (run step start (List.replicate n event)) = effect^[n] (observe start) := by
  induction n generalizing start with
  | zero => rfl
  | succ n ih =>
      obtain ⟨hObserve, hInv⟩ := hStep start hStart
      rw [List.replicate_succ, run_cons, ih hInv, hObserve, Function.iterate_succ_apply]

theorem Reachable.invariant {Inv : State → Prop}
    (hStep : ∀ state event, Inv state → Inv (step state event))
    {start state : State} (hStart : Inv start) (h : Reachable step start state) :
    Inv state := by
  obtain ⟨events, rfl⟩ := h
  exact run_invariant Inv hStep hStart events

variable (step)

/-- Every transition of the run satisfies `P`, a predicate on the state the
event meets and on the event itself. -/
def EveryStep (P : State → Event → Prop) : State → List Event → Prop
  | _, [] => True
  | state, event :: events => P state event ∧ EveryStep P (step state event) events

variable {step}

@[simp] theorem everyStep_nil (P : State → Event → Prop) (state : State) :
    EveryStep step P state [] := trivial

@[simp] theorem everyStep_cons (P : State → Event → Prop) (state : State) (event : Event)
    (events : List Event) :
    EveryStep step P state (event :: events) ↔
      P state event ∧ EveryStep step P (step state event) events := Iff.rfl

/-- A decidable property can be checked along a run. -/
instance EveryStep.decidable (P : State → Event → Prop)
    [hP : ∀ state event, Decidable (P state event)] (state : State) :
    (events : List Event) → Decidable (EveryStep step P state events)
  | [] => isTrue trivial
  | event :: events =>
      have := EveryStep.decidable P (step state event) events
      inferInstanceAs (Decidable (P state event ∧ EveryStep step P (step state event) events))

theorem everyStep_append (P : State → Event → Prop) (state : State) (first second : List Event) :
    EveryStep step P state (first ++ second) ↔
      EveryStep step P state first ∧ EveryStep step P (run step state first) second := by
  induction first generalizing state with
  | nil => simp
  | cons event events ih => simp [ih, and_assoc]

/-- What holds of every event holds of every transition. -/
theorem everyStep_of_forall_mem {P : Event → Prop} {events : List Event}
    (h : ∀ event ∈ events, P event) (start : State) :
    EveryStep step (fun _ event => P event) start events := by
  induction events generalizing start with
  | nil => trivial
  | cons event events ih =>
      obtain ⟨hEvent, hEvents⟩ := List.forall_mem_cons.mp h
      exact ⟨hEvent, ih hEvents _⟩

theorem EveryStep.and {P Q : State → Event → Prop} {state : State} {events : List Event}
    (hP : EveryStep step P state events) (hQ : EveryStep step Q state events) :
    EveryStep step (fun state event => P state event ∧ Q state event) state events := by
  induction events generalizing state with
  | nil => trivial
  | cons event events ih => exact ⟨⟨hP.1, hQ.1⟩, ih hP.2 hQ.2⟩

/-- An invariant that is preserved only under a guard holds along every run
whose transitions all meet the guard. -/
theorem EveryStep.invariant {Guard : State → Event → Prop} {Inv : State → Prop}
    (hStep : ∀ state event, Inv state → Guard state event → Inv (step state event))
    {start : State} (hStart : Inv start) {events : List Event}
    (h : EveryStep step Guard start events) : Inv (run step start events) := by
  induction events generalizing start with
  | nil => exact hStart
  | cons event events ih => exact ih (hStep start event hStart h.1) h.2

/-- Guarded transitions that keep an invariant satisfy whatever the invariant
and the guard imply. -/
theorem EveryStep.of_guard {Guard P : State → Event → Prop} (Inv : State → Prop)
    (hStep : ∀ state event, Inv state → Guard state event → P state event ∧ Inv (step state event))
    {start : State} (hStart : Inv start) {events : List Event}
    (h : EveryStep step Guard start events) : EveryStep step P start events := by
  induction events generalizing start with
  | nil => trivial
  | cons event events ih =>
      obtain ⟨hP, hInv⟩ := hStep start event hStart h.1
      exact ⟨hP, ih hInv h.2⟩

/-- Whatever an invariant implies of single transitions holds along every run. -/
theorem everyStep_of_invariant {P : State → Event → Prop} (Inv : State → Prop)
    (hStep : ∀ state event, Inv state → P state event ∧ Inv (step state event))
    {start : State} (hStart : Inv start) (events : List Event) :
    EveryStep step P start events := by
  induction events generalizing start with
  | nil => trivial
  | cons event events ih =>
      obtain ⟨hP, hInv⟩ := hStep start event hStart
      exact ⟨hP, ih hInv⟩

/-- Two transition properties that agree wherever an invariant holds agree on
whole runs of the events that keep the invariant. -/
theorem everyStep_congr {P Q : State → Event → Prop} {Allowed : Event → Prop} (Inv : State → Prop)
    (hStep : ∀ state event, Allowed event → Inv state → Inv (step state event))
    (hIff : ∀ state event, Allowed event → Inv state → (P state event ↔ Q state event))
    {start : State} (hStart : Inv start) {events : List Event}
    (hAllowed : ∀ event ∈ events, Allowed event) :
    EveryStep step P start events ↔ EveryStep step Q start events := by
  induction events generalizing start with
  | nil => exact Iff.rfl
  | cons event events ih =>
      obtain ⟨hEvent, hEvents⟩ := List.forall_mem_cons.mp hAllowed
      exact and_congr (hIff start event hEvent hStart)
        (ih (hStep start event hEvent hStart) hEvents)

/-- A property that an allowed step keeps exactly under a guard holds after
every prefix of an allowed run exactly if all its transitions meet the guard. -/
theorem forall_prefix_iff_of_allowed {Allowed Guard : State → Event → Prop} (P : State → Prop)
    (hIff : ∀ state event, Allowed state event → P state →
      (P (step state event) ↔ Guard state event))
    {start : State} (hP : P start) {events : List Event}
    (hAllowed : EveryStep step Allowed start events) :
    (∀ before, before <+: events → P (run step start before)) ↔
      EveryStep step Guard start events := by
  induction events generalizing start with
  | nil =>
      refine ⟨fun _ => trivial, fun _ before hBefore => ?_⟩
      rw [List.prefix_nil.mp hBefore]
      exact hP
  | cons event events ih =>
      obtain ⟨hEvent, hEvents⟩ := hAllowed
      constructor
      · intro h
        have hNext : P (step start event) := h [event] ⟨events, rfl⟩
        refine ⟨(hIff start event hEvent hP).mp hNext,
          (ih hNext hEvents).mp fun before hBefore => ?_⟩
        exact h (event :: before) (List.cons_prefix_cons.mpr ⟨rfl, hBefore⟩)
      · intro hSteps before hBefore
        obtain ⟨hFirst, hRest⟩ := hSteps
        have hNext : P (step start event) := (hIff start event hEvent hP).mpr hFirst
        cases before with
        | nil => exact hP
        | cons head before =>
            obtain ⟨rfl, hTail⟩ := List.cons_prefix_cons.mp hBefore
            exact (ih hNext hEvents).mpr hRest before hTail

/-- The same where an invariant is all that a step needs. -/
theorem forall_prefix_iff_everyStep {Guard : State → Event → Prop} (Inv P : State → Prop)
    (hStep : ∀ state event, Inv state → Inv (step state event))
    (hIff : ∀ state event, Inv state → P state → (P (step state event) ↔ Guard state event))
    {start : State} (hStart : Inv start) (hP : P start) (events : List Event) :
    (∀ before, before <+: events → P (run step start before)) ↔
      EveryStep step Guard start events :=
  forall_prefix_iff_of_allowed P hIff hP
    (everyStep_of_invariant Inv (fun state event h => ⟨h, hStep state event h⟩) hStart events)

end Transition
