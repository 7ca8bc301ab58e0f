import Ca1MotorCtrl.Arithmetic.Rounding
import Mathlib.Algebra.Order.Group.MinMax
import Mathlib.Order.Iterate

/-! An integer that climbs to a target by a rational increment and is rounded
after every step. Feeding the rounded value back makes the increment that takes
effect an integer too: the nearest one, and for a halfway increment the lower
one as long as the value is negative. -/
namespace Ca1MotorCtrl.RoundedRamp

/-- One rounded step, clamped at the target. -/
def step (k : ℚ) (target v : ℤ) : ℤ := roundHalfAway (min (v + k) target)

/-- How many of the first `n` steps round a halfway increment down. -/
def stepsBelowZero (k : ℚ) (v : ℤ) (n : ℕ) : ℕ :=
  (List.range n).countP fun i : ℕ => (v : ℚ) + i * ⌈k - 1 / 2⌉ + k < 0

/-- What `n` unclamped steps add up to. -/
def gain (k : ℚ) (v : ℤ) (n : ℕ) : ℤ :=
  n * ⌊k + 1 / 2⌋ - (⌊k + 1 / 2⌋ - ⌈k - 1 / 2⌉) * stepsBelowZero k v n

section Gain
variable {k : ℚ} (v : ℤ)

theorem ceil_le_floor (k : ℚ) : ⌈k - 1 / 2⌉ ≤ ⌊k + 1 / 2⌋ := by
  have h := Int.ceil_lt_add_one (k - 1 / 2)
  rw [Int.le_floor]
  linarith

theorem ceil_nonneg (hk : 0 < k) : 0 ≤ ⌈k - 1 / 2⌉ :=
  Int.ceil_nonneg_of_neg_one_lt (by linarith)

theorem stepsBelowZero_le (n : ℕ) : stepsBelowZero k v n ≤ n := by
  have h := List.countP_le_length (p := fun i : ℕ => decide ((v : ℚ) + i * ⌈k - 1 / 2⌉ + k < 0))
    (l := List.range n)
  rw [List.length_range] at h
  exact h

/-- While the value stays negative every step has been rounded down. -/
theorem stepsBelowZero_of_neg (hk : 0 < k) {n : ℕ} (h : (v : ℚ) + n * ⌈k - 1 / 2⌉ + k < 0) :
    stepsBelowZero k v n = n := by
  have hAll : ∀ i ∈ List.range n, decide ((v : ℚ) + i * ⌈k - 1 / 2⌉ + k < 0) = true := by
    intro i hi
    have hi' : (i : ℚ) ≤ n := by exact_mod_cast (List.mem_range.mp hi).le
    have hLow : (0 : ℚ) ≤ ⌈k - 1 / 2⌉ := by exact_mod_cast ceil_nonneg hk
    have hMul := mul_le_mul_of_nonneg_right hi' hLow
    exact decide_eq_true (by linarith)
  rw [stepsBelowZero, List.countP_eq_length.mpr hAll, List.length_range]

/-- The sign that decides the rounding does not depend on the steps so far. -/
theorem gain_neg_iff (hk : 0 < k) (n : ℕ) :
    ((v + gain k v n : ℤ) : ℚ) + k < 0 ↔ (v : ℚ) + n * ⌈k - 1 / 2⌉ + k < 0 := by
  constructor
  · intro h
    have hSteps : (stepsBelowZero k v n : ℤ) ≤ n := by exact_mod_cast stepsBelowZero_le v n
    have hRound := sub_nonneg.mpr (ceil_le_floor k)
    have hGain : (n : ℤ) * ⌈k - 1 / 2⌉ ≤ gain k v n := by
      rw [gain]
      nlinarith [mul_le_mul_of_nonneg_left hSteps hRound]
    have hGain' : (n : ℚ) * ⌈k - 1 / 2⌉ ≤ gain k v n := by exact_mod_cast hGain
    push_cast at h
    linarith
  · intro h
    have hGain : gain k v n = n * ⌈k - 1 / 2⌉ := by
      rw [gain, stepsBelowZero_of_neg v hk h]
      ring
    rw [hGain]
    push_cast
    exact h

/-- One more step rounds once more. -/
theorem roundHalfAway_add_gain (hk : 0 < k) (n : ℕ) :
    roundHalfAway ((v + gain k v n : ℤ) + k) = v + gain k v (n + 1) := by
  have hSteps : stepsBelowZero k v (n + 1) =
      stepsBelowZero k v n + if (v : ℚ) + n * ⌈k - 1 / 2⌉ + k < 0 then 1 else 0 := by
    simp [stepsBelowZero, List.range_succ, List.countP_append, List.countP_cons]
  by_cases hNeg : (v : ℚ) + n * ⌈k - 1 / 2⌉ + k < 0
  · rw [roundHalfAway_intCast_add_of_neg ((gain_neg_iff v hk n).mpr hNeg), gain, gain, hSteps,
      if_pos hNeg]
    push_cast
    ring
  · have hPos := not_lt.mp (mt (gain_neg_iff v hk n).mp hNeg)
    rw [roundHalfAway_intCast_add_of_nonneg hPos, gain, gain, hSteps, if_neg hNeg]
    push_cast
    ring

theorem gain_zero : gain k v 0 = 0 := by
  simp [gain, stepsBelowZero]

theorem le_roundHalfAway_add (hk : 0 < k) (w : ℤ) : w ≤ roundHalfAway (w + k) :=
  (le_roundHalfAway_iff w _).mpr (Or.inl (by linarith))

end Gain

section Iteration
variable {k : ℚ} {target v : ℤ}

theorem step_eq_min (k : ℚ) (target v : ℤ) :
    step k target v = min (roundHalfAway (v + k)) target := by
  rw [step, roundHalfAway_min, roundHalfAway_intCast]

/-- Falling to a target is climbing to its mirror image. -/
theorem neg_min_neg (k : ℚ) (target v : ℤ) :
    -min ((-v : ℤ) + k) ((-target : ℤ) : ℚ) = max (v - k) (target : ℚ) := by
  rw [← max_neg_neg]
  push_cast
  rw [neg_add, neg_neg, neg_neg, ← sub_eq_add_neg]

theorem round_max_eq (k : ℚ) (target v : ℤ) :
    roundHalfAway (max (v - k) (target : ℚ)) = -step k (-target) (-v) := by
  rw [← neg_min_neg, roundHalfAway_neg, step]

theorem step_le (k : ℚ) (target v : ℤ) : step k target v ≤ target := by
  rw [step_eq_min]
  exact min_le_right _ _

/-- The clamp at every step is one clamp at the end. -/
theorem iterate_step (hk : 0 < k) (hv : v ≤ target) (n : ℕ) :
    (step k target)^[n] v = min (v + gain k v n) target := by
  induction n with
  | zero =>
      rw [gain_zero, add_zero, min_eq_left hv]
      rfl
  | succ n ih =>
      have hGrow : v + gain k v n ≤ v + gain k v (n + 1) := by
        rw [← roundHalfAway_add_gain v hk n]
        exact le_roundHalfAway_add hk _
      rw [Function.iterate_succ_apply', ih]
      rcases le_total (v + gain k v n) target with hLe | hLe
      · rw [min_eq_left hLe, step_eq_min, roundHalfAway_add_gain v hk n]
      · have hStay := le_roundHalfAway_add hk target
        rw [min_eq_right hLe, step_eq_min, min_eq_right hStay, min_eq_right (hLe.trans hGrow)]

/-- Two clamped climbs are at most one apart exactly if the climbs are, or if
the slower one has at most one left to the target. -/
theorem abs_min_sub_min_le_one_iff (v target x y : ℚ) :
    |min (v + x) target - min (v + y) target| ≤ 1 ↔
      |x - y| ≤ 1 ∨ target - v ≤ min x y + 1 := by
  rw [abs_le, abs_le, ← min_add_add_right, le_min_iff]
  rcases le_total (v + x) target with hx | hx <;> rcases le_total (v + y) target with hy | hy
  · rw [min_eq_left hx, min_eq_left hy]
    constructor
    · intro h
      exact Or.inl ⟨by linarith, by linarith⟩
    · rintro (h | h) <;> constructor <;> linarith
  · rw [min_eq_left hx, min_eq_right hy]
    constructor
    · intro h
      exact Or.inr ⟨by linarith, by linarith⟩
    · rintro (h | h) <;> constructor <;> linarith
  · rw [min_eq_right hx, min_eq_left hy]
    constructor
    · intro h
      exact Or.inr ⟨by linarith, by linarith⟩
    · rintro (h | h) <;> constructor <;> linarith
  · rw [min_eq_right hx, min_eq_right hy]
    constructor
    · intro h
      exact Or.inr ⟨by linarith, by linarith⟩
    · intro h
      constructor <;> linarith

/-- When the rounded ramp stays within one of the exact one. -/
theorem abs_iterate_sub_le_one_iff (hk : 0 < k) (hv : v ≤ target) (n : ℕ) :
    |((step k target)^[n] v : ℚ) - min (v + n * k) target| ≤ 1 ↔
      |gain k v n - n * k| ≤ 1 ∨ (target : ℚ) - v ≤ min (gain k v n : ℚ) (n * k) + 1 := by
  rw [iterate_step hk hv n]
  push_cast
  exact abs_min_sub_min_le_one_iff v target (gain k v n) (n * k)

/-- An increment that rounds to nothing leaves the value where it is. -/
theorem step_eq_self (hv : v ≤ target) (hk : 0 < k) (hSmall : k < 1 / 2 ∨ k = 1 / 2 ∧ v < 0) :
    step k target v = v := by
  have hNext : ¬v + 1 ≤ roundHalfAway (v + k) := by
    rw [le_roundHalfAway_iff]
    push_cast
    rintro (h | ⟨hPos, h⟩)
    · rcases hSmall with hLt | ⟨hEq, -⟩ <;> linarith
    · rcases hSmall with hLt | ⟨-, hNeg⟩
      · linarith
      · omega
  have hStay := le_roundHalfAway_add hk v
  rw [step_eq_min, min_eq_left (by omega)]
  omega

theorem add_one_le_roundHalfAway (hLarge : 1 / 2 < k ∨ k = 1 / 2 ∧ 0 ≤ v) :
    v + 1 ≤ roundHalfAway (v + k) := by
  rw [le_roundHalfAway_iff]
  push_cast
  rcases hLarge with hLt | ⟨rfl, hNonneg⟩
  · exact Or.inl (by linarith)
  · exact Or.inr ⟨by omega, by ring⟩

/-- An increment that does not round to nothing gains at least one each step. -/
theorem min_le_iterate_step (hLarge : 1 / 2 < k ∨ k = 1 / 2 ∧ 0 ≤ v) (hv : v ≤ target) (n : ℕ) :
    min (v + n) target ≤ (step k target)^[n] v := by
  induction n generalizing v with
  | zero => simp
  | succ n ih =>
      have hNext := add_one_le_roundHalfAway hLarge
      rw [Function.iterate_succ_apply]
      rcases hv.lt_or_eq with hLt | rfl
      · have hGrow : v + 1 ≤ step k target v := by
          rw [step_eq_min]
          exact le_min hNext hLt
        have hRest := ih (hLarge.imp_right fun h => ⟨h.1, by omega⟩) (step_le k target v)
        push_cast
        omega
      · have hStay : step k v v = v := by
          rw [step_eq_min]
          exact min_eq_right (by omega)
        have hRest := ih hLarge le_rfl
        rw [hStay]
        push_cast
        omega

/-- When the rounded ramp arrives. -/
theorem exists_iterate_eq_iff (hk : 0 < k) (hv : v < target) :
    (∃ n, (step k target)^[n] v = target) ↔ 1 / 2 < k ∨ k = 1 / 2 ∧ 0 ≤ v := by
  constructor
  · rintro ⟨n, hn⟩
    by_contra hSmall
    have hCases : k < 1 / 2 ∨ k = 1 / 2 ∧ v < 0 := by
      rcases lt_trichotomy k (1 / 2) with h | h | h
      · exact Or.inl h
      · exact Or.inr ⟨h, not_le.mp fun hNonneg => hSmall (Or.inr ⟨h, hNonneg⟩)⟩
      · exact absurd (Or.inl h) hSmall
    rw [Function.iterate_fixed (step_eq_self hv.le hk hCases) n] at hn
    omega
  · intro hLarge
    have hReach := min_le_iterate_step hLarge hv.le (target - v).toNat
    have hClamp := iterate_step hk hv.le (target - v).toNat
    exact ⟨(target - v).toNat, by omega⟩

end Iteration

end Ca1MotorCtrl.RoundedRamp
