/-!
# Decimal numbers

A decimal number is a coefficient and a scale, the number of its digits that stand after
the point; a negative scale stands for zeros before the point. Several pairs have one
value (`1.50` and `1.5`); `normalized` picks the one without trailing zeros.

Sums, differences, products and powers are exact. A quotient has a hundred significant
digits, or all digits of its whole part where these are more, and the digit that follows
rounds the last one (`quotient`).
-/

namespace QueryExpr

-- Powers are taken by the definition of the core library, whatever else is imported.
attribute [local instance (2000)] instPowNat

/-- The number `coefficient / 10 ^ scale`. -/
structure Decimal where
  coefficient : Int
  scale : Int
  deriving DecidableEq, Repr

namespace Decimal

/-- How many decimal digits a number is written with. -/
def digitCount (n : Nat) : Nat := (Nat.toDigits 10 n).length

def ofInt (n : Int) : Decimal := ⟨n, 0⟩

def isZero (a : Decimal) : Bool := a.coefficient == 0

/-- The coefficients of two decimals at the greater of their scales. -/
def align (a b : Decimal) : Int × Int :=
  let scale := max a.scale b.scale
  (a.coefficient * 10 ^ (scale - a.scale).toNat, b.coefficient * 10 ^ (scale - b.scale).toNat)

/-! ## Arithmetic -/

def neg (a : Decimal) : Decimal := ⟨-a.coefficient, a.scale⟩

def add (a b : Decimal) : Decimal := ⟨(a.align b).1 + (a.align b).2, max a.scale b.scale⟩

def sub (a b : Decimal) : Decimal := ⟨(a.align b).1 - (a.align b).2, max a.scale b.scale⟩

def mul (a b : Decimal) : Decimal := ⟨a.coefficient * b.coefficient, a.scale + b.scale⟩

/-- A power with a natural exponent. -/
def pow (a : Decimal) (n : Nat) : Decimal := ⟨a.coefficient ^ n, a.scale * n⟩

instance : Neg Decimal := ⟨neg⟩
instance : Add Decimal := ⟨add⟩
instance : Sub Decimal := ⟨sub⟩
instance : Mul Decimal := ⟨mul⟩

/-- Decimals are ordered by value. -/
def compare (a b : Decimal) : Ordering := Ord.compare (a.align b).1 (a.align b).2

/-- Whether two decimals have one value, whatever their scales. -/
def same (a b : Decimal) : Bool := (a.align b).1 == (a.align b).2

/-- The greatest whole number that is not above `a`. -/
def floor (a : Decimal) : Int :=
  if 0 < a.scale then a.coefficient.fdiv (10 ^ a.scale.toNat)
  else a.coefficient * 10 ^ (-a.scale).toNat

/-- The whole part of `a`, which drops the digits after the point. -/
def truncate (a : Decimal) : Int :=
  if 0 < a.scale then a.coefficient.tdiv (10 ^ a.scale.toNat)
  else a.coefficient * 10 ^ (-a.scale).toNat

/-- Whether nothing but zeros stands after the point. -/
def isWhole (a : Decimal) : Bool :=
  decide (a.scale ≤ 0) || a.coefficient % 10 ^ a.scale.toNat == 0

/-- Drops the zeros at the end of a coefficient. -/
def stripZeros (coefficient scale : Int) : Decimal :=
  if h : coefficient ≠ 0 ∧ coefficient % 10 = 0 then stripZeros (coefficient / 10) (scale - 1)
  else ⟨coefficient, scale⟩
termination_by coefficient.natAbs
decreasing_by omega

/-- The pair of the same value whose coefficient does not end in a zero; zero has scale 0. -/
def normalized (a : Decimal) : Decimal :=
  if a.coefficient = 0 then ⟨0, 0⟩ else stripZeros a.coefficient a.scale

/-- The least number of zeros to add to `num` so that it is not below `den`. -/
def zerosToReach (num den : Nat) : Nat :=
  let zeros := digitCount den - digitCount num
  if num * 10 ^ zeros < den then zeros + 1 else zeros

/-- The number of significant digits of a quotient. -/
def precision : Nat := 100

/-- The quotient of two positive numbers: as many zeros are added to `num` as give the
wanted digits, and the next digit, if a remainder is left, rounds the last one. -/
def quotientNat (num den : Nat) : Decimal :=
  let zeros := zerosToReach num den
  let whole := num * 10 ^ zeros / den
  -- a quotient that comes out even needs no further digits
  let extra := if num * 10 ^ zeros % den = 0 then 0 else precision - digitCount whole
  let num := num * 10 ^ (zeros + extra)
  let rounding := if 5 ≤ num % den * 10 / den then 1 else 0
  ⟨num / den + rounding, zeros + extra⟩

/-- The quotient of two decimals of which the second is not zero. A zero and whatever is
divided by one stay as they are. -/
def quotient (a b : Decimal) : Decimal :=
  if a.isZero || b.same (ofInt 1) then a
  else
    let q := quotientNat a.coefficient.natAbs b.coefficient.natAbs
    ⟨a.coefficient.sign * b.coefficient.sign * q.coefficient, q.scale + (a.scale - b.scale)⟩

/-- The whole part of the quotient, rounded down. -/
def floorQuotient (a b : Decimal) : Decimal := ofInt (a.quotient b).floor

/-- What is left of `a` when `floorQuotient` times `b` is taken from it. -/
def modulus (a b : Decimal) : Decimal := a - b * a.floorQuotient b

/-! ## Text -/

/-- `n` zeros. -/
def zeros (n : Nat) : String := String.ofList (List.replicate n '0')

/-- The digits with a point before the last `scale` of them, or with zeros after them. -/
def plainDigits (digits : List Char) (scale : Int) : String :=
  if scale ≤ 0 then String.ofList digits ++ zeros (-scale).toNat
  else
    let places := scale.toNat
    if places < digits.length then
      String.ofList (digits.take (digits.length - places)) ++ "."
        ++ String.ofList (digits.drop (digits.length - places))
    else "0." ++ zeros (places - digits.length) ++ String.ofList digits

/-- The first digit, the others after a point, and the power of ten after a mark. -/
def scientificDigits (mark : String) (digits : List Char) (scale : Int) : String :=
  let fraction := if digits.length ≤ 1 then "" else "." ++ String.ofList (digits.drop 1)
  String.ofList (digits.take 1) ++ fraction ++ mark ++ toString (digits.length - 1 - scale)

/-- How many zeros may stand between the point and the first digit of a text. -/
def leadingZeroLimit : Int := 5

/-- How many zeros may be added to the digits of a text. -/
def trailingZeroLimit : Int := 15

/-- The text of an unsigned decimal: with a point where few zeros are needed for it, and
with a power of ten otherwise. -/
def unsignedText (coefficient : Nat) (scale : Int) : String :=
  let digits := Nat.toDigits 10 coefficient
  if coefficient = 0 then "0"
  else if 0 < scale ∧ leadingZeroLimit < scale - digits.length then scientificDigits "E" digits scale
  else if trailingZeroLimit < -scale then String.ofList digits ++ "e+" ++ toString (-scale)
  else plainDigits digits scale

/-- The text of a decimal. -/
def text (a : Decimal) : String :=
  (if a.coefficient < 0 then "-" else "") ++ unsignedText a.coefficient.natAbs a.scale

/-! ## Reading -/

/-- The number that a list of digits writes. -/
def digitsValue (cs : List Char) : Nat := cs.foldl (fun n c => 10 * n + (c.toNat - '0'.toNat)) 0

/-- A power of ten, with or without a sign. -/
def readExponent? (cs : List Char) : Option Int :=
  let (negative, digits) := match cs with
    | '-' :: rest => (true, rest)
    | '+' :: rest => (false, rest)
    | _ => (false, cs)
  if digits.isEmpty || !digits.all Char.isDigit then none
  else some (if negative then -(digitsValue digits) else digitsValue digits)

/-- Reads digits, with at most one point among them, and a power of ten after `e` or `E`. -/
def readUnsigned? (cs : List Char) : Option Decimal :=
  let whole := cs.takeWhile Char.isDigit
  let rest := cs.dropWhile Char.isDigit
  let (fraction, rest) := match rest with
    | '.' :: rest => (rest.takeWhile Char.isDigit, rest.dropWhile Char.isDigit)
    | _ => ([], rest)
  let exponent? := match rest with
    | [] => some 0
    | mark :: rest => if mark = 'e' ∨ mark = 'E' then readExponent? rest else none
  if whole.isEmpty && fraction.isEmpty then none
  else exponent?.map fun e => ⟨digitsValue (whole ++ fraction), fraction.length - e⟩

/-- Reads a decimal with or without a minus sign. -/
def read? (s : String) : Option Decimal :=
  match s.toList with
  | '-' :: rest => (readUnsigned? rest).map neg
  | cs => readUnsigned? cs

end Decimal

end QueryExpr
