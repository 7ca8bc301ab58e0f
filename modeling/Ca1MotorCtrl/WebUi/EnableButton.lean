import Ca1MotorCtrl.WebUi.EnableFlag

/-! The enable button of the page, with the web UI that serves it. The page keeps a flag
of its own, which a click inverts and a status message overwrites. -/
namespace Ca1MotorCtrl

open Transition

/-- The page, the flags on the way to it in status messages, and the web UI. -/
structure EnablePage (Server : Type) where
  ui : WebUi Server
  /-- The flag in the status that the stream is about to send. -/
  snapshot : Option Bool := none
  stream : List Bool := []
  opEnabled : Bool := true
  label : String := "Enable Operation"

inductive EnablePageEvent (R : Type) where
  | toggleEnable
  /-- The stream takes the status. -/
  | status
  /-- It sends the status that it has taken. -/
  | send
  | onmessage
  /-- The stream breaks; the page opens another. -/
  | onerror
  | ui (event : WebUiEvent R)

namespace EnablePage
variable {Server R : Type} (services : Services Server) (act : Server → Operation R → Server)

/-- `_updateEnableBtn`. -/
def buttonText (en : Bool) : String := if en then "Disable Operation" else "Enable Operation"

/-- One event. The POST of a click has arrived when it is handled. -/
def step (s : EnablePage Server) : EnablePageEvent R → EnablePage Server
  | .toggleEnable =>
      let enable := !s.opEnabled
      { s with
        ui := s.ui.step services act (.post (some enable) : WebUiEvent R)
        opEnabled := enable
        label := buttonText enable }
  | .status =>
      match s.snapshot with
      | none => { s with snapshot := some s.ui.opEnabled }
      | some _ => s
  | .send =>
      match s.snapshot with
      | none => s
      | some flag => { s with snapshot := none, stream := s.stream ++ [flag] }
  | .onmessage =>
      match s.stream with
      | [] => s
      | flag :: rest =>
          if flag ≠ s.opEnabled then
            { s with stream := rest, opEnabled := flag, label := buttonText flag }
          else { s with stream := rest }
  | .onerror => { s with snapshot := none, stream := [] }
  | .ui event => { s with ui := s.ui.step services act event }

/-- Whether the flag of the page has ever changed. -/
def recordChanged (changed : Bool) (s : EnablePage Server) : EnablePageEvent R → Bool
  | .toggleEnable => true
  | .onmessage =>
      match s.stream with
      | [] => changed
      | flag :: _ => changed || flag != s.opEnabled
  | _ => changed

/-- Whether a status has been taken since the last click, the last store of a flag and the
last break of the stream. -/
def recordTaken (taken : Bool) (s : EnablePage Server) : EnablePageEvent R → Bool
  | .toggleEnable | .onerror | .ui (.store _) => false
  | .status => taken || s.snapshot.isNone
  | _ => taken

section Button
variable {services act}

/-- The button is right from the first change on, and wrong before. -/
structure Labelled (config : EnablePage Server × Bool) : Prop where
  changed : config.2 = true → config.1.label = buttonText config.1.opEnabled
  unchanged : config.2 = false → config.1.opEnabled = true ∧ config.1.label = "Enable Operation"

theorem Labelled.step {config : EnablePage Server × Bool} (h : Labelled config)
    (event : EnablePageEvent R) :
    Labelled (recordStep (step services act) recordChanged config event) := by
  obtain ⟨s, changed⟩ := config
  cases event with
  | toggleEnable => exact ⟨fun _ => rfl, fun h => by cases h⟩
  | onmessage =>
      simp only [recordStep, EnablePage.step, recordChanged]
      split
      next => exact h
      next flag rest hStream =>
        by_cases hFlag : flag = s.opEnabled
        · rw [if_neg (not_not.mpr hFlag), hFlag, bne_self_eq_false, Bool.or_false]
          exact ⟨h.changed, h.unchanged⟩
        · rw [if_pos hFlag, bne_iff_ne.mpr hFlag, Bool.or_true]
          exact ⟨fun _ => rfl, fun h => by cases h⟩
  | status | send =>
      simp only [recordStep, EnablePage.step, recordChanged]
      split <;> exact ⟨h.changed, h.unchanged⟩
  | onerror | ui event => exact ⟨h.changed, h.unchanged⟩

theorem Labelled.label_eq_iff {config : EnablePage Server × Bool} (h : Labelled config) :
    config.1.label = buttonText config.1.opEnabled ↔ config.2 = true := by
  refine ⟨fun hLabel => ?_, h.changed⟩
  by_contra hChanged
  obtain ⟨hFlag, hStart⟩ := h.unchanged (Bool.not_eq_true _ ▸ hChanged)
  rw [hFlag, hStart] at hLabel
  exact absurd hLabel (by decide)

/-- Once a status is taken, those on the way end with the flag of the web UI. -/
def Current (config : EnablePage Server × Bool) : Prop :=
  config.2 = true →
    (config.1.stream ++ config.1.snapshot.toList).getLast?.getD config.1.opEnabled =
      config.1.ui.opEnabled

/-- Nothing but a store changes the flag of the web UI. -/
theorem opEnabled_step (ui : WebUi Server) {event : WebUiEvent R}
    (hEvent : ∀ id, event ≠ .store id) : (ui.step services act event).opEnabled = ui.opEnabled := by
  cases event with
  | store id => exact absurd rfl (hEvent id)
  | send id =>
      simp only [WebUi.step]
      split <;> rfl
  | deliver =>
      simp only [WebUi.step]
      split <;> rfl
  | _ => rfl

theorem Current.step {config : EnablePage Server × Bool} (h : Current config)
    (event : EnablePageEvent R) :
    Current (recordStep (step services act) recordTaken config event) := by
  obtain ⟨s, taken⟩ := config
  cases event with
  | toggleEnable | onerror => exact fun hTaken => absurd hTaken Bool.false_ne_true
  | status =>
      simp only [recordStep, EnablePage.step, recordTaken]
      split
      next => exact fun _ => by simp
      next flag hSnapshot =>
        rw [hSnapshot, Option.isNone_some, Bool.or_false]
        exact h
  | send =>
      simp only [recordStep, EnablePage.step, recordTaken]
      split
      next => exact h
      next flag hSnapshot =>
        intro hTaken
        have hLast := h hTaken
        simp only [hSnapshot, Option.toList_some] at hLast
        simpa using hLast
  | onmessage =>
      simp only [recordStep, EnablePage.step, recordTaken]
      split
      next => exact h
      next flag rest hStream =>
        -- The flag of the message stands in for the flag of the page where no other follows.
        have hNext : taken = true →
            (rest ++ s.snapshot.toList).getLast?.getD flag = s.ui.opEnabled := by
          intro hTaken
          have hLast := h hTaken
          simp only [hStream, List.cons_append, List.getLast?_cons, Option.getD_some] at hLast
          exact hLast
        split
        next => exact hNext
        next hFlag =>
          rw [not_not.mp hFlag] at hNext
          exact hNext
  | ui event =>
      cases event with
      | store id => exact fun hTaken => absurd hTaken Bool.false_ne_true
      | _ => exact fun hTaken =>
          (h hTaken).trans (opEnabled_step s.ui fun id hStore => by cases hStore).symm

end Button

end EnablePage

open EnablePage

section System
variable {Server R : Type} (services : Services Server) (act : Server → Operation R → Server)

/-- The button names what a click does exactly if the flag of the page has ever changed:
on a new page the button to enable the operation disables it. -/
theorem enable_button_label_iff (ui : WebUi Server) (events : List (EnablePageEvent R)) :
    let config := run (recordStep (step services act) recordChanged) ({ ui := ui }, false) events
    config.1.label = buttonText config.1.opEnabled ↔ config.2 = true := by
  have hStart : Labelled (({ ui := ui } : EnablePage Server), false) :=
    ⟨fun h => (by cases h), fun _ => ⟨rfl, rfl⟩⟩
  exact (run_invariant Labelled (fun config event h => h.step event) hStart events).label_eq_iff

/-- In every run the page has the flag of the web UI whenever a status has been taken since
the last click, the last store and the last break of the stream and none is left to send or
to handle. -/
theorem enable_button_follows (start : EnablePage Server) (events : List (EnablePageEvent R)) :
    let config := run (recordStep (step services act) recordTaken) (start, false) events
    config.2 = true → config.1.snapshot = none → config.1.stream = [] →
      config.1.opEnabled = config.1.ui.opEnabled := by
  intro config hTaken hSnapshot hStream
  have hStart : Current (start, false) := fun h => absurd h Bool.false_ne_true
  have hCurrent : Current config := run_invariant Current (fun _ event h => h.step event) hStart
    events
  have hLast := hCurrent hTaken
  rw [hSnapshot, hStream] at hLast
  exact hLast

end System

/-- A page whose stream breaks once is opened while the operation is disabled. -/
theorem enable_button_follows_disabled :
    let services : Services Unit :=
      ⟨fun server _ _ => (server, none), fun server _ _ _ => (server, none)⟩
    let act (server : Unit) (_ : Operation ℚ) : Unit := server
    let start : EnablePage Unit := { ui := { loop := ((), {}), opEnabled := false } }
    let events : List (EnablePageEvent ℚ) :=
      [.status, .send, .onerror, .status, .send, .status, .onmessage, .send, .onmessage]
    let config := run (recordStep (step services act) recordTaken) (start, false) events
    config.1.opEnabled = false ∧ config.1.label = "Enable Operation" := by
  intro services act start events config
  exact ⟨enable_button_follows services act start events rfl rfl rfl, rfl⟩

end Ca1MotorCtrl
