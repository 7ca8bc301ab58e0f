import Ca1MotorCtrl.Arithmetic.Rounding
import Ca1MotorCtrl.Cia402

/-! The floating-point operations of the physics update. The state machine,
the dictionary and the fault logic do not depend on how `double` rounds, so
their theorems hold for every `DoubleArith`. Statements about velocities and
positions read `double` as exact rational arithmetic, `DoubleArith.exact`. -/
namespace Ca1MotorCtrl

/-- The operations on `double` that the simulator uses, together with the one
law that its power-on state relies on. -/
structure DoubleArith (R : Type) where
  /-- The value of a decimal literal. -/
  literal : ℚ → R
  /-- `static_cast<double>` of an object value. -/
  ofOdValue : OdValue → R
  add : R → R → R
  sub : R → R → R
  mul : R → R → R
  lt : R → R → Bool
  abs : R → R
  /-- `std::round`. -/
  round : R → R
  /-- `static_cast<OdValue>` of a double. -/
  toOdValue : R → OdValue
  toOdValue_round_zero : toOdValue (round (literal 0)) = 0

namespace DoubleArith
variable {R : Type} (A : DoubleArith R)

/-- `std::min`, which returns its first argument unless the second is smaller. -/
def min (a b : R) : R := if A.lt b a then b else a

/-- `std::max`, which returns its first argument unless it is smaller. -/
def max (a b : R) : R := if A.lt a b then b else a

end DoubleArith

/-- Conversion to an integer type discards the fractional part. -/
def truncate (q : ℚ) : ℤ := if 0 ≤ q then ⌊q⌋ else ⌈q⌉

/-- The integers that an object value can hold. -/
def FitsInt32 (z : ℤ) : Prop := -2 ^ 31 ≤ z ∧ z < 2 ^ 31

instance (z : ℤ) : Decidable (FitsInt32 z) := inferInstanceAs (Decidable (_ ∧ _))

@[simp] theorem truncate_intCast (z : ℤ) : truncate (z : ℚ) = z := by
  unfold truncate
  split <;> simp

/-- Exact rational arithmetic. Converting a number outside the range of the
object type is undefined in C++: `undefinedCast` stands for whatever the
platform returns there, and no theorem constrains it. -/
def DoubleArith.exact (undefinedCast : ℚ → OdValue) : DoubleArith ℚ where
  literal q := q
  ofOdValue v := v.toInt
  add := (· + ·)
  sub := (· - ·)
  mul := (· * ·)
  lt a b := decide (a < b)
  abs q := |q|
  round q := roundHalfAway q
  toOdValue q := if FitsInt32 (truncate q) then Int32.ofInt (truncate q) else undefinedCast q
  toOdValue_round_zero := by
    have hZero : truncate ((roundHalfAway 0 : ℤ) : ℚ) = 0 := by decide +kernel
    simp only [hZero]
    rw [if_pos (by decide : FitsInt32 0)]
    rfl

/-- A rounded number is converted without a further error. -/
theorem DoubleArith.truncate_round (undefinedCast : ℚ → OdValue) (q : ℚ) :
    truncate ((exact undefinedCast).round q) = roundHalfAway q := truncate_intCast _

/-- A rounded number in range is stored without change. -/
theorem DoubleArith.exact_toOdValue_round (undefinedCast : ℚ → OdValue) (q : ℚ)
    (hFits : FitsInt32 (roundHalfAway q)) :
    ((exact undefinedCast).toOdValue ((exact undefinedCast).round q)).toInt = roundHalfAway q := by
  obtain ⟨hLower, hUpper⟩ := hFits
  simp only [exact, truncate_intCast]
  rw [if_pos ⟨hLower, hUpper⟩, Int32.toInt_ofInt_of_le hLower hUpper]

end Ca1MotorCtrl
