import Mathlib.Logic.Function.Basic
import Mathlib.Tactic.Common

/-! Partial maps from numbers that are handed out in order: calls, messages or
threads that are created during a run. -/
namespace Transition

variable {Item : Type*}

/-- No number from `n` on is in use. -/
def UnusedFrom (n : ℕ) (items : ℕ → Option Item) : Prop := ∀ id, n ≤ id → items id = none

namespace UnusedFrom
variable {n id : ℕ} {items : ℕ → Option Item}

theorem empty (n : ℕ) : UnusedFrom n (fun _ => (none : Option Item)) := fun _ _ => rfl

theorem succ (h : UnusedFrom n items) : UnusedFrom (n + 1) items :=
  fun id hId => h id (Nat.le_of_succ_le hId)

theorem lt_of_eq_some (h : UnusedFrom n items) {item : Item} (hSome : items id = some item) :
    id < n := by
  by_contra hFresh
  rw [h id (Nat.le_of_not_lt hFresh)] at hSome
  cases hSome

theorem update_of_lt (h : UnusedFrom n items) (hId : id < n) (item : Option Item) :
    UnusedFrom n (Function.update items id item) := by
  intro other hOther
  rw [Function.update_of_ne (by omega)]
  exact h other hOther

/-- The next number is taken. -/
theorem update_next (h : UnusedFrom n items) (item : Option Item) :
    UnusedFrom (n + 1) (Function.update items n item) :=
  h.succ.update_of_lt (Nat.lt_succ_self n) item

/-- A number may be given up at any time. -/
theorem update_none (h : UnusedFrom n items) (id : ℕ) :
    UnusedFrom n (Function.update items id none) := by
  intro other hOther
  rw [Function.update_apply, h other hOther, ite_self]

end UnusedFrom

end Transition
