import Ca1MotorCtrl.Transition.Run
import Mathlib.Data.List.Destutter

/-! Comparing runs of transition systems: functional refinement, simulation up
to a translation of the events, with or without foresight, the observations a
run produces, and history variables that record something about a run without
influencing it. -/
namespace Transition

variable {State Event Output : Type*} (step : State → Event → State)

/-- The outputs of a run, one for each event. -/
def trace (output : State → Event → Output) : State → List Event → List Output
  | _, [] => []
  | state, event :: events => output state event :: trace output (step state event) events

section Changes
variable {Value : Type*} [DecidableEq Value]

/-- The samples that differ from the sample before; the first is compared with a
value that was kept. -/
def changes (kept : Value) (samples : List Value) : List Value :=
  (samples.destutter' (· ≠ ·) kept).tail

@[simp] theorem changes_nil (kept : Value) : changes kept [] = [] := rfl

theorem cons_changes (kept : Value) (samples : List Value) :
    kept :: changes kept samples = samples.destutter' (· ≠ ·) kept := by
  induction samples with
  | nil => rfl
  | cons value samples ih =>
      by_cases hSame : kept = value
      · subst hSame
        rwa [changes, List.destutter'_cons_neg _ (not_not.mpr rfl)]
      · rw [changes, List.destutter'_cons_pos _ hSame, List.tail_cons]

@[simp] theorem changes_cons_self (kept : Value) (samples : List Value) :
    changes kept (kept :: samples) = changes kept samples := by
  rw [changes, List.destutter'_cons_neg _ (not_not.mpr rfl), changes]

theorem changes_cons_of_ne {kept value : Value} (h : kept ≠ value) (samples : List Value) :
    changes kept (value :: samples) = value :: changes value samples := by
  rw [changes, List.destutter'_cons_pos _ h, List.tail_cons, cons_changes]

/-- No two changes in a row are equal, and the first is one. -/
theorem isChain_cons_changes (kept : Value) (samples : List Value) :
    (kept :: changes kept samples).IsChain (· ≠ ·) := by
  rw [cons_changes]
  exact List.isChain_destutter' _ samples kept

/-- The last change is the last sample. -/
theorem getLastD_changes (kept : Value) (samples : List Value) :
    (changes kept samples).getLastD kept = samples.getLastD kept := by
  induction samples generalizing kept with
  | nil => rfl
  | cons value samples ih =>
      rw [List.getLastD_cons]
      by_cases hSame : kept = value
      · rw [hSame, changes_cons_self, ih]
      · rw [changes_cons_of_ne hSame, List.getLastD_cons, ih]

end Changes

variable {step}

/-- Functional refinement: if every step commutes with `embed`, every run does. -/
theorem run_map {Abstract : Type*} {absStep : Abstract → Event → Abstract}
    {embed : Abstract → State}
    (hStep : ∀ model event, step (embed model) event = embed (absStep model event))
    (model : Abstract) (events : List Event) :
    run step (embed model) events = embed (run absStep model events) := by
  induction events generalizing model with
  | nil => rfl
  | cons event events ih => rw [run_cons, hStep, ih, run_cons]

section Lockstep
variable {State' Event' : Type*} {step' : State' → Event' → State'} {Rel : State → State' → Prop}
  {RelEvent : Event → Event' → Prop}

/-- Two runs in lockstep: related events keep related states related. -/
theorem run_forall₂
    (hStep : ∀ state state' event event', Rel state state' → RelEvent event event' →
      Rel (step state event) (step' state' event'))
    {start : State} {start' : State'} (hStart : Rel start start') {events : List Event}
    {events' : List Event'} (hEvents : List.Forall₂ RelEvent events events') :
    Rel (run step start events) (run step' start' events') := by
  induction hEvents generalizing start start' with
  | nil => exact hStart
  | cons hEvent _ ih => exact ih (hStep _ _ _ _ hStart hEvent)

/-- What related states answer to related events is the same all along. -/
theorem trace_forall₂ {output : State → Event → Output} {output' : State' → Event' → Output}
    (hStep : ∀ state state' event event', Rel state state' → RelEvent event event' →
      Rel (step state event) (step' state' event'))
    (hOutput : ∀ state state' event event', Rel state state' → RelEvent event event' →
      output state event = output' state' event')
    {start : State} {start' : State'} (hStart : Rel start start') {events : List Event}
    {events' : List Event'} (hEvents : List.Forall₂ RelEvent events events') :
    trace step output start events = trace step' output' start' events' := by
  induction hEvents generalizing start start' with
  | nil => rfl
  | cons hEvent _ ih =>
      rw [trace, trace, hOutput _ _ _ _ hStart hEvent, ih (hStep _ _ _ _ hStart hEvent)]

end Lockstep

section Transducer
variable {Memory Other Event' : Type*} (translate : Memory → Event → Memory × List Event')

/-- The memory of a transducer after reading some events. -/
def transducerMemory (memory : Memory) (events : List Event) : Memory :=
  run (fun memory event => (translate memory event).1) memory events

/-- The events that a transducer writes, any number for each event it reads. -/
def transduce : Memory → List Event → List Event'
  | _, [] => []
  | memory, event :: events =>
      (translate memory event).2 ++ transduce (translate memory event).1 events

theorem transduce_append (memory : Memory) (first second : List Event) :
    transduce translate memory (first ++ second) =
      transduce translate memory first ++
        transduce translate (transducerMemory translate memory first) second := by
  induction first generalizing memory with
  | nil => rfl
  | cons event events ih =>
      rw [List.cons_append, transduce, transduce, ih, List.append_assoc]
      rfl

variable {translate} {otherStep : Other → Event' → Other}
  {Rel : Memory → State → Other → Prop} {Allowed : Event → Prop}

/-- Simulation up to translation: related states stay related while one
system reads events and the other runs what the transducer makes of them. -/
theorem run_transduce
    (hStep : ∀ memory state other event, Allowed event → Rel memory state other →
      Rel (translate memory event).1 (step state event)
        (run otherStep other (translate memory event).2))
    {memory : Memory} {state : State} {other : Other} (hStart : Rel memory state other)
    {events : List Event} (hAllowed : ∀ event ∈ events, Allowed event) :
    Rel (transducerMemory translate memory events) (run step state events)
      (run otherStep other (transduce translate memory events)) := by
  induction events generalizing memory state other with
  | nil => exact hStart
  | cons event events ih =>
      obtain ⟨hEvent, hEvents⟩ := List.forall_mem_cons.mp hAllowed
      rw [transduce, run_append]
      exact ih (hStep memory state other event hEvent hStart) hEvents

end Transducer

section Foresight
variable {Other Event' : Type*} (translate : State → Event → List Event → List Event')

variable (step) in
/-- The events that a translation with foresight writes: what an event counts
for may depend on the rest of the run. -/
def foresee : State → List Event → List Event'
  | _, [] => []
  | state, event :: events =>
      translate state event events ++ foresee (step state event) events

variable {translate} {otherStep : Other → Event' → Other}

/-- Simulation with foresight: the relation sees what is still to come. -/
theorem run_foresee (Rel : List Event → State → Other → Prop)
    (hStep : ∀ state other event events, Rel (event :: events) state other →
      Rel events (step state event) (run otherStep other (translate state event events)))
    {state : State} {other : Other} {events : List Event} (hStart : Rel events state other) :
    Rel [] (run step state events) (run otherStep other (foresee step translate state events)) := by
  induction events generalizing state other with
  | nil => exact hStart
  | cons event events ih =>
      rw [foresee, run_append]
      exact ih (hStep state other event events hStart)

end Foresight

section History
variable {History : Type*} (record : History → State → Event → History)

variable (step) in
/-- The system with a history variable: `record` sees the history, the state
the event meets and the event. -/
def recordStep (config : State × History) (event : Event) : State × History :=
  (step config.1 event, record config.2 config.1 event)

/-- A history that reads the events only runs on its own. -/
theorem run_recordStep_of_independent (other : History → Event → History)
    (config : State × History) (events : List Event) :
    run (recordStep step fun history _ event => other history event) config events =
      (run step config.1 events, run other config.2 events) := by
  induction events generalizing config with
  | nil => rfl
  | cons event events ih => rw [run_cons, ih]; rfl

/-- A property of the recorded system's own transitions ignores the history. -/
theorem everyStep_recordStep (P : State → Event → Prop) (config : State × History)
    (events : List Event) :
    EveryStep (recordStep step record) (fun config event => P config.1 event) config events ↔
      EveryStep step P config.1 events := by
  induction events generalizing config with
  | nil => rfl
  | cons event events ih => rw [everyStep_cons, everyStep_cons, ih]; rfl

end History

end Transition
