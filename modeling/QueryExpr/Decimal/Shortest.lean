import QueryExpr.Decimal.Nearest

/-!
# The shortest decimal of a binary number

The decimal with the fewest digits to which a given positive binary64 number is nearest;
of several with as few digits the one closest to the number. For a number of digits the
decimals just below and just above the number are the only candidates, so each is read
back and compared.
-/

namespace QueryExpr

-- Powers are taken by the definition of the core library, whatever else is imported.
attribute [local instance (2000)] instPowNat

namespace Decimal

/-- A positive binary64 number as `mantissa * 2 ^ exponent`. -/
def binaryParts (x : Float) : Nat × Int :=
  let bits := x.toBits.toNat
  let fraction : Nat := bits % 2 ^ (52 : Nat)
  let exponent : Nat := bits / 2 ^ (52 : Nat) % 2 ^ (11 : Nat)
  if exponent = 0 then (fraction, -1074) else (2 ^ (52 : Nat) + fraction, (exponent : Int) - 1075)

/-- A positive binary64 number as a fraction of natural numbers. -/
def ratio (x : Float) : Nat × Nat :=
  let (mantissa, exponent) := binaryParts x
  (mantissa * 2 ^ exponent.toNat, 2 ^ (-exponent).toNat)

/-- The number of places before the point of `num / den`, or less the number of zeros that
follow the point. -/
def ratioPlaces (num den : Nat) : Int :=
  if den ≤ num then digitCount (num / den) else 1 - zerosToReach num den

/-- The decimal of the given scale that is next to `num / den` from below. -/
def below (num den : Nat) (scale : Int) : Nat :=
  num * 10 ^ scale.toNat / (den * 10 ^ (-scale).toNat)

/-- Whether the upper neighbour of the given scale is at least as close to `num / den` as
the lower one is. -/
def isUpperCloser (num den : Nat) (scale : Int) : Bool :=
  let num := num * 10 ^ scale.toNat
  let den := den * 10 ^ (-scale).toNat
  decide (den ≤ 2 * (num % den))

/-- Of the two neighbours of `x` on the grid of the given scale the one that reads back,
and the closer one when both do. -/
def candidate? (x : Float) (num den : Nat) (scale : Int) : Option Decimal :=
  let lower : Decimal := ⟨below num den scale, scale⟩
  let upper : Decimal := ⟨below num den scale + 1, scale⟩
  match lower.nearest == x, upper.nearest == x with
  | true, true => some (if isUpperCloser num den scale then upper else lower)
  | true, false => some lower
  | false, true => some upper
  | false, false => none

/-- No binary64 number needs more digits. -/
def mostDigits : Nat := 17

/-- The shortest decimal that reads back as the positive finite number `x`. -/
def shortest (x : Float) : Decimal :=
  let (num, den) := ratio x
  let places := ratioPlaces num den
  let grids := (List.range mostDigits).map fun n : Nat => (n : Int) + 1 - places
  let longest : Decimal := ⟨below num den (mostDigits - places), mostDigits - places⟩
  ((grids.findSome? (candidate? x num den)).getD longest).normalized

end Decimal

end QueryExpr
