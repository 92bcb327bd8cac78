import QueryExpr.Decimal.Shortest

/-!
# Floating numbers as text

A finite number is written with the fewest digits that read back: from `10 ^ 16` on with
one digit before the point and a power of ten, below that without one, and a whole number
ends in `.0`. Zero keeps its sign.
-/

namespace QueryExpr.FloatText

-- Powers are taken by the definition of the core library, whatever else is imported.
attribute [local instance (2000)] instPowNat

/-- From here on a number is written with a power of ten. -/
def scientificFrom : Float := 1e16

/-- The text of a number that is neither negative nor infinite. -/
def unsignedText (x : Float) : String :=
  if x == 0 then "0.0"
  else
    let d := Decimal.shortest x
    let digits := Nat.toDigits 10 d.coefficient.natAbs
    if scientificFrom ≤ x then Decimal.scientificDigits "e" digits d.scale
    else if d.scale ≤ 0 then Decimal.plainDigits digits d.scale ++ ".0"
    else Decimal.plainDigits digits d.scale

/-- Whether the sign bit is set. -/
def isNegative (x : Float) : Bool := x.toBits.toNat / 2 ^ (63 : Nat) == 1

def text (x : Float) : String :=
  if x.isNaN then "NaN"
  else
    let magnitude := if x.isInf then "inf" else unsignedText x.abs
    if isNegative x then "-" ++ magnitude else magnitude

/-- The words for what is not finite; case does not count. -/
def ofWord? (cs : List Char) : Option Float :=
  let word := String.ofList (cs.map Char.toLower)
  if word = "inf" ∨ word = "infinity" then some (1 / 0)
  else if word = "nan" then some (0 / 0)
  else none

/-- Reads a number or word, with the given rounding of decimals. -/
def readWith (round : Decimal → Float) (s : String) : Option Float :=
  let (negative, cs) := match s.toList with
    | '-' :: rest => (true, rest)
    | '+' :: rest => (false, rest)
    | cs => (false, cs)
  let magnitude? := match ofWord? cs with
    | some x => some x
    | none => (Decimal.readUnsigned? cs).map round
  magnitude?.map fun x => if negative then -x else x

/-- The binary64 number nearest to what a text writes. -/
def read? (s : String) : Option Float := readWith Decimal.nearest s

/-- The binary32 number nearest to what a text writes. -/
def read32? (s : String) : Option Float := readWith Decimal.nearest32 s

end QueryExpr.FloatText
