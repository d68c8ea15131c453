import Wdb2ts.PointData

/-!
# Floating point operations

The value computations are written over any type with the operations of a floating point
type, so they can be read both with rounding and over the exact rationals.
-/

namespace Wdb2ts

/-- The arithmetic of a floating point type. -/
class Floats (F : Type) extends FloatLimits F, Add F, Sub F, Mul F, Div F, LT F, LE F where
  /-- The value nearest to a number. -/
  lit : ℚ → F
  /-- `static_cast<int>`, rounding towards zero. -/
  toInt : F → ℤ
  /-- `floorf`. -/
  floor : F → F

export Floats (lit)

instance : Floats ℚ where
  lit value := value
  toInt value := if value < 0 then ⌈value⌉ else ⌊value⌋
  floor value := ⌊value⌋

/-- Functions of `<cmath>` and of `metfunctions` whose values decide no lookup. -/
structure MathFunctions (F : Type) where
  exp : F → F
  log : F → F
  pow : F → F → F
  dewPointTemperature : F → F → F
  dewPointTemperatureToRelativeHumidity : F → F → F

/-- The largest `int`. -/
def INT_MAX : ℤ := 2147483647

/-- The smallest `int`. -/
def INT_MIN : ℤ := -2147483648

namespace Floats

variable {F : Type} [Floats F] [DecidableEq F] [DecidableLT F] [DecidableLE F]

/-- `std::max`. -/
def max (left right : F) : F := if left < right then right else left

/-- `sumVector`: a missing value makes the sum missing. -/
def sumVector (values : List F) : F :=
  if values.any (· = FLT_MAX) then FLT_MAX else values.foldl (· + ·) (lit 0)

/-- `sortVector`: the values in descending order, unless one is missing. -/
def sortVector (values : List F) : Option (List F) :=
  if values.any (· = FLT_MAX) then none
  else some (values.mergeSort fun left right => decide (right ≤ left))

/-- `maxInVector`, which starts at the smallest positive value. -/
def maxInVector (values : List F) : F :=
  values.foldl (fun largest value => if largest < value then value else largest) FLT_MIN

/-- Over the rationals, `std::max` is the maximum. -/
theorem max_eq_max (left right : ℚ) : Floats.max left right = Max.max left right := by
  rw [Floats.max]
  split
  next less => exact (max_eq_right less.le).symm
  next notLess => exact (max_eq_left (not_lt.mp notLess)).symm

theorem sumVector_eq_sum {values : List ℚ} (valid : FLT_MAX ∉ values) :
    Floats.sumVector values = values.sum := by
  have noneMissing : values.any (fun value => decide (value = FLT_MAX)) = false := by
    rw [List.any_eq_false]
    intro value member missing
    rw [decide_eq_true_eq] at missing
    exact valid (missing ▸ member)
  rw [Floats.sumVector, noneMissing, List.sum_eq_foldl]
  rfl

end Floats

end Wdb2ts
