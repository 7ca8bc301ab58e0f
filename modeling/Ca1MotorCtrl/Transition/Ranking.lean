import Ca1MotorCtrl.Transition.Run

/-! Progress by ranking: some events lower a rank of the state, all others leave
it where it is, so that enough of the former bring it to zero. More generally, an
invariant may speak of how many of these events there have been. -/
namespace Transition

variable {State Event : Type*} {step : State → Event → State}

/-- An invariant of the state and the number of `turn` events. -/
theorem run_countP (Inv : ℕ → State → Prop) (turn : Event → Bool) {Guard : State → Event → Prop}
    (hStep : ∀ n state event, Inv n state → Guard state event →
      Inv (n + if turn event then 1 else 0) (step state event))
    {n : ℕ} {state : State} (hStart : Inv n state) {events : List Event}
    (h : EveryStep step Guard state events) :
    Inv (n + events.countP turn) (run step state events) := by
  induction events generalizing n state with
  | nil => exact hStart
  | cons event events ih =>
      rw [everyStep_cons] at h
      have hRest := ih (hStep n state event hStart h.1) h.2
      have hCount : (n + if turn event then 1 else 0) + events.countP turn =
          n + (event :: events).countP turn := by
        rw [List.countP_cons]
        omega
      exact hCount ▸ hRest

/-- A rank that `turn` events lower and that no event raises while an invariant holds. -/
theorem rank_run_le (rank : State → ℕ) (turn : Event → Bool) (Inv : State → Prop)
    (hInv : ∀ state event, Inv state → Inv (step state event))
    (hTurn : ∀ state event, Inv state → turn event = true →
      rank (step state event) ≤ rank state - 1)
    (hOther : ∀ state event, Inv state → turn event = false →
      rank (step state event) ≤ rank state)
    {state : State} (hStart : Inv state) (events : List Event) :
    rank (run step state events) ≤ rank state - events.countP turn := by
  have hAll : EveryStep step (fun _ _ => True) state events :=
    everyStep_of_forall_mem (fun _ _ => trivial) state
  have hStep (n : ℕ) (next : State) (event : Event) (h : Inv next ∧ rank next ≤ rank state - n)
      (_ : True) : Inv (step next event) ∧
        rank (step next event) ≤ rank state - (n + if turn event then 1 else 0) := by
    refine ⟨hInv next event h.1, ?_⟩
    cases hKind : turn event with
    | true =>
        have hLower := hTurn next event h.1 hKind
        simp only [if_true]
        omega
    | false =>
        have hKeep := hOther next event h.1 hKind
        simp only [Bool.false_eq_true, if_false]
        omega
  have hZero : Inv state ∧ rank state ≤ rank state - 0 := ⟨hStart, Nat.le_refl _⟩
  have hRun := (run_countP _ turn hStep hZero hAll).2
  rwa [Nat.zero_add] at hRun

end Transition
