import QueryExpr.Decimal

/-!
# The binary number nearest to a decimal

A decimal is rounded to the nearest binary64 number, or to the nearest binary32 number and
then widened. What is too large becomes infinite, and what is too small becomes zero.
-/

namespace QueryExpr

namespace Decimal

/-- No binary64 or binary32 number other than infinity has more digits before its point. -/
def mostPlaces : Int := 310

/-- A number with more zeros than this after its point is below half of every positive
binary64 or binary32 number. -/
def mostZeros : Int := 400

/-- The position of the first digit: the value is below `10 ^ places`. -/
def places (a : Decimal) : Int := digitCount a.coefficient.natAbs - a.scale

/-- The magnitude of a decimal, with its scale kept out of ranges that cannot matter. -/
def clamped (a : Decimal) : Decimal :=
  if a.coefficient = 0 then ⟨0, 0⟩
  else if mostPlaces < a.places then ⟨1, -mostPlaces⟩
  else if a.places < -mostZeros then ⟨0, 0⟩
  else ⟨a.coefficient.natAbs, a.scale⟩

/-- The binary64 number nearest to a decimal; of two equally near ones the even one. -/
def nearest (a : Decimal) : Float :=
  let m := a.clamped
  let x := Float.ofScientific m.coefficient.natAbs (decide (0 < m.scale)) m.scale.natAbs
  if a.coefficient < 0 then -x else x

/-- The binary32 number nearest to a decimal, widened to binary64. -/
def nearest32 (a : Decimal) : Float :=
  let m := a.clamped
  let x := Float32.ofScientific m.coefficient.natAbs (decide (0 < m.scale)) m.scale.natAbs
  (if a.coefficient < 0 then -x else x).toFloat

/-- A decimal in floating arithmetic. With a negative scale the coefficient and the power
of ten are rounded each for itself before they are multiplied. -/
def toFloat (a : Decimal) : Float :=
  if a.isZero then 0
  else if a.scale < 0 then nearest ⟨a.coefficient, 0⟩ * nearest ⟨1, a.scale⟩
  else a.nearest

end Decimal

end QueryExpr
