import Mathlib.Data.Rat.Floor
import Mathlib.Order.Lattice
import Mathlib.Tactic.Linarith

/-! Rounding to the nearest integer with halfway cases away from zero, over the
exact rationals. The order lemma `le_roundHalfAway_iff` determines the function;
monotonicity and the error bound follow from it. -/
namespace Ca1MotorCtrl

/-- Rounding to the nearest integer, halfway cases away from zero. -/
def roundHalfAway (q : ℚ) : ℤ := if 0 ≤ q then ⌊q + 1 / 2⌋ else -⌊-q + 1 / 2⌋

/-- An integer is reached from half a unit below it, where the half itself
counts for positive integers only. -/
theorem le_roundHalfAway_iff (z : ℤ) (q : ℚ) :
    z ≤ roundHalfAway q ↔ (z : ℚ) - 1 / 2 < q ∨ 0 < z ∧ (z : ℚ) - 1 / 2 = q := by
  unfold roundHalfAway
  split
  next hq =>
    rw [Int.le_floor]
    constructor
    · intro h
      by_cases hz : 0 < z
      · have hle : (z : ℚ) - 1 / 2 ≤ q := by linarith
        exact hle.lt_or_eq.imp_right fun hEq => ⟨hz, hEq⟩
      · have hz' : (z : ℚ) ≤ 0 := by exact_mod_cast not_lt.mp hz
        exact Or.inl (by linarith)
    · rintro (h | ⟨-, h⟩) <;> linarith
  next hq =>
    rw [le_neg, ← Int.lt_add_one_iff, Int.floor_lt]
    push_cast
    constructor
    · intro h
      exact Or.inl (by linarith)
    · rintro (h | ⟨hz, h⟩)
      · linarith
      · have hz' : (1 : ℚ) ≤ z := by exact_mod_cast hz
        linarith

@[simp] theorem roundHalfAway_intCast (z : ℤ) : roundHalfAway z = z := by
  apply le_antisymm _ ((le_roundHalfAway_iff z z).mpr (Or.inl (by linarith)))
  by_contra h
  have hNext : z + 1 ≤ roundHalfAway z := not_le.mp h
  rcases (le_roundHalfAway_iff (z + 1) z).mp hNext with h | ⟨-, h⟩ <;> push_cast at h <;> linarith

theorem roundHalfAway_mono {p q : ℚ} (hpq : p ≤ q) : roundHalfAway p ≤ roundHalfAway q := by
  rcases (le_roundHalfAway_iff _ p).mp le_rfl with h | ⟨hz, h⟩
  · exact (le_roundHalfAway_iff _ q).mpr (Or.inl (h.trans_le hpq))
  · rcases hpq.lt_or_eq with hlt | rfl
    · exact (le_roundHalfAway_iff _ q).mpr (Or.inl (h.trans_lt hlt))
    · exact le_rfl

/-- Rounding treats both directions alike. -/
theorem roundHalfAway_neg (q : ℚ) : roundHalfAway (-q) = -roundHalfAway q := by
  unfold roundHalfAway
  rcases lt_trichotomy q 0 with hq | rfl | hq
  · rw [if_pos (by linarith), if_neg (not_le.mpr hq), neg_neg]
  · norm_num
  · rw [if_neg (by linarith), if_pos hq.le, neg_neg]

theorem roundHalfAway_min (p q : ℚ) :
    roundHalfAway (min p q) = min (roundHalfAway p) (roundHalfAway q) :=
  Monotone.map_min fun _ _ h => roundHalfAway_mono h

theorem sub_half_le_roundHalfAway (q : ℚ) : q - 1 / 2 ≤ roundHalfAway q := by
  by_contra h
  have hNext : roundHalfAway q + 1 ≤ roundHalfAway q := by
    refine (le_roundHalfAway_iff _ q).mpr (Or.inl ?_)
    push_cast
    linarith
  omega

/-- The rounding error is at most half a unit. -/
theorem abs_roundHalfAway_sub_le (q : ℚ) : |(roundHalfAway q : ℚ) - q| ≤ 1 / 2 := by
  have hLower := sub_half_le_roundHalfAway q
  have hUpper := sub_half_le_roundHalfAway (-q)
  rw [roundHalfAway_neg] at hUpper
  push_cast at hUpper
  rw [abs_le]
  constructor <;> linarith

/-- A bound by an integer survives rounding. -/
theorem abs_roundHalfAway_le {q : ℚ} {bound : ℤ} (h : |q| ≤ bound) : |roundHalfAway q| ≤ bound := by
  obtain ⟨hLower, hUpper⟩ := abs_le.mp h
  have hMax := roundHalfAway_mono hUpper
  have hMin := roundHalfAway_mono hLower
  rw [← Int.cast_neg] at hMin
  rw [roundHalfAway_intCast] at hMax hMin
  exact abs_le.mpr ⟨hMin, hMax⟩

/-- Above zero an increment rounds halves up. -/
theorem roundHalfAway_intCast_add_of_nonneg {v : ℤ} {k : ℚ} (h : 0 ≤ v + k) :
    roundHalfAway (v + k) = v + ⌊k + 1 / 2⌋ := by
  rw [roundHalfAway, if_pos h, add_assoc, Int.floor_intCast_add]

/-- Below zero an increment rounds halves down. -/
theorem roundHalfAway_intCast_add_of_neg {v : ℤ} {k : ℚ} (h : v + k < 0) :
    roundHalfAway (v + k) = v + ⌈k - 1 / 2⌉ := by
  have hArg : -(v + k) + 1 / 2 = ((-v : ℤ) : ℚ) + -(k - 1 / 2) := by
    push_cast
    ring
  rw [roundHalfAway, if_neg (not_le.mpr h), hArg, Int.floor_intCast_add, Int.floor_neg]
  ring

end Ca1MotorCtrl
