import QueryExpr.Operator
import QueryExpr.Value

/-!
# Arithmetic on numbers

Two numbers are brought to one kind before they are combined: with a floating number among
them both become floating, with a decimal among them both become decimal, and two integers
stay what they are. True division always works on floating numbers.

Integer results are exact or missing. Division and remainder go with the floor of the
quotient, so that a remainder has the sign of the divisor. A floating result that is not
finite is missing, too.

* `ofInt?_eq_some_iff`: an integer result is given exactly when it has 64 bits;
* `ofInt?_pow_reducedExponent`: the shortened exponent of a power does not change what fits.
-/

namespace QueryExpr

-- Powers are taken by the definition of the core library, whatever else is imported.
attribute [local instance (2000)] instPowNat

/-- A number of some kind. -/
inductive Number where
  | int (n : Int64)
  | decimal (d : Decimal)
  | float (x : Float)

/-- Two numbers of one kind. -/
inductive NumberPair where
  | ints (a b : Int64)
  | decimals (a b : Decimal)
  | floats (a b : Float)

namespace Number

/-- The number that a value is. -/
def ofValue? : Value → Option Number
  | .int n => some (int n)
  | .decimal d => some (decimal d)
  | .float x => some (float x)
  | _ => none

/-- The floating number for an integer of 64 bits. -/
def floatOfInt (n : Int64) : Float := Float.ofInt n.toInt

def toFloat : Number → Float
  | int n => floatOfInt n
  | decimal d => d.toFloat
  | float x => x

/-- Brings two numbers to one kind. -/
def promote : Number → Number → NumberPair
  | int a, int b => .ints a b
  | int a, decimal b => .decimals (.ofInt a.toInt) b
  | decimal a, int b => .decimals a (.ofInt b.toInt)
  | decimal a, decimal b => .decimals a b
  | a, b => .floats a.toFloat b.toFloat

end Number

/-! ## Integers -/

namespace Integer

/-- The 64-bit number of an integer, if there is one. -/
def ofInt? (n : Int) : Option Int64 :=
  if -2 ^ (63 : Nat) ≤ n ∧ n < 2 ^ (63 : Nat) then some (Int64.ofInt n) else none

theorem toInt_ofInt {n : Int} (h : -2 ^ (63 : Nat) ≤ n ∧ n < 2 ^ (63 : Nat)) :
    (Int64.ofInt n).toInt = n :=
  Int64.toInt_ofInt_of_le h.1 h.2

theorem ofInt?_eq_some_iff {n : Int} {m : Int64} : ofInt? n = some m ↔ m.toInt = n := by
  unfold ofInt?
  constructor
  · split
    · next h =>
      rintro ⟨⟩
      exact toInt_ofInt h
    · simp
  · rintro rfl
    have h : -2 ^ (63 : Nat) ≤ m.toInt ∧ m.toInt < 2 ^ (63 : Nat) := ⟨m.le_toInt, m.toInt_lt⟩
    rw [if_pos h, Int64.ofInt_toInt]

/-- The floor of the quotient. -/
def floorQuotient? (a b : Int64) : Option Int64 :=
  if b = 0 then none else ofInt? (a.toInt.fdiv b.toInt)

/-- What the floor of the quotient leaves; missing together with it. -/
def modulus? (a b : Int64) : Option Int64 :=
  (floorQuotient? a b).bind fun q => ofInt? (a.toInt - q.toInt * b.toInt)

/-- Exponents are numbers of 32 bits. -/
def exponentBound : Nat := 2 ^ (32 : Nat)

/-- From here on the powers of every number but -1, 0 and 1 are too large. -/
def largeExponent : Nat := 64

/-- A large exponent in whose place a smaller one does: the powers of -1, 0 and 1 repeat, and
those of other numbers are too large in either case. -/
def reducedExponent (n : Nat) : Nat := if n < largeExponent then n else largeExponent + n % 2

theorem ofInt?_eq_none {n : Int} (h : 2 ^ (64 : Nat) ≤ n.natAbs) : ofInt? n = none := by
  unfold ofInt?
  rw [if_neg]
  omega

theorem two_pow_le_natAbs_pow {a : Int} {n : Nat} (ha : 2 ≤ a.natAbs) (hn : largeExponent ≤ n) :
    2 ^ (64 : Nat) ≤ (a ^ n).natAbs := by
  rw [Int.natAbs_pow]
  exact Nat.le_trans (Nat.pow_le_pow_right (by decide) hn) (Nat.pow_le_pow_left ha n)

/-- The powers of -1, 0 and 1 repeat. -/
theorem pow_add_two_mul {a : Int} (ha : a.natAbs ≤ 1) (m k : Nat) (hm : m ≠ 0) :
    a ^ (m + 2 * k) = a ^ m := by
  have h3 : a = 0 ∨ a = 1 ∨ a = -1 := by omega
  rcases h3 with rfl | rfl | rfl
  · rw [Int.zero_pow hm, Int.zero_pow (by omega)]
  · rw [Int.one_pow, Int.one_pow]
  · have square : (-1 : Int) ^ 2 = 1 := rfl
    rw [Int.pow_add, Int.pow_mul, square, Int.one_pow, Int.mul_one]

/-- The shortened exponent gives a number of 64 bits exactly when the exponent itself does,
and the same number. -/
theorem ofInt?_pow_reducedExponent (a : Int) (n : Nat) :
    ofInt? (a ^ reducedExponent n) = ofInt? (a ^ n) := by
  unfold reducedExponent
  split
  · rfl
  · next hn =>
    have hn : largeExponent ≤ n := Nat.le_of_not_lt hn
    by_cases ha : 2 ≤ a.natAbs
    · rw [ofInt?_eq_none (two_pow_le_natAbs_pow ha (Nat.le_add_right _ _)),
        ofInt?_eq_none (two_pow_le_natAbs_pow ha hn)]
    · have hl : largeExponent = 64 := rfl
      have h : n = largeExponent + n % 2 + 2 * ((n - largeExponent) / 2) := by omega
      conv => rhs; rw [h]
      rw [pow_add_two_mul (by omega) _ _ (by omega)]

/-- A power with a natural exponent. -/
def power? (a : Int64) (n : Nat) : Option Int64 :=
  if n < exponentBound then ofInt? (a.toInt ^ reducedExponent n) else none

end Integer

/-! ## All kinds -/

namespace Number

/-- A floating result, if it is finite. -/
def finite? (x : Float) : Option Value := if x.isFinite then some (.float x) else none

/-- A power of integers; a negative exponent makes it a floating number. -/
def intPower? (a b : Int64) : Option Value :=
  if b < 0 then finite? (Float.pow (floatOfInt a) (floatOfInt b))
  else (Integer.power? a b.toInt.toNat).map .int

def combineInts (op : BinaryOp) (a b : Int64) : Option Value :=
  match op with
  | .add => (Integer.ofInt? (a.toInt + b.toInt)).map .int
  | .subtract => (Integer.ofInt? (a.toInt - b.toInt)).map .int
  | .multiply => (Integer.ofInt? (a.toInt * b.toInt)).map .int
  | .floorDivide => (Integer.floorQuotient? a b).map .int
  | .modulus => (Integer.modulus? a b).map .int
  | .power => intPower? a b
  | _ => none

def combineFloats (op : BinaryOp) (a b : Float) : Option Value :=
  match op with
  | .add => finite? (a + b)
  | .subtract => finite? (a - b)
  | .multiply => finite? (a * b)
  | .floorDivide => if b == 0 then none else finite? (a / b).floor
  | .modulus => if b == 0 then none else finite? (a - b * (a / b).floor)
  | .power => finite? (Float.pow a b)
  | _ => none

/-- The greatest exponent of a power of a decimal. -/
def mostDecimalFactors : Int := 64

/-- A power of a decimal whose exponent is a small natural number. -/
def decimalPower? (a b : Decimal) : Option Decimal :=
  if b.isWhole && decide (0 ≤ b.truncate) && decide (b.truncate ≤ mostDecimalFactors) then
    some (a.pow b.truncate.toNat)
  else none

def combineDecimals? (op : BinaryOp) (a b : Decimal) : Option Decimal :=
  match op with
  | .add => some (a + b)
  | .subtract => some (a - b)
  | .multiply => some (a * b)
  | .floorDivide => if b.isZero then none else some (a.floorQuotient b)
  | .modulus => if b.isZero then none else some (a.modulus b)
  | .power => decimalPower? a b
  | _ => none

/-- The result of an arithmetic operator. -/
def combine (op : BinaryOp) (a b : Number) : Option Value :=
  if op = .divide then
    if b.toFloat == 0 then none else finite? (a.toFloat / b.toFloat)
  else
    match promote a b with
    | .ints a b => combineInts op a b
    | .floats a b => combineFloats op a b
    | .decimals a b => (combineDecimals? op a b).map fun d => .decimal d.normalized

/-- Floating numbers are not ordered when one is a NaN. -/
def compareFloats (a b : Float) : Option Ordering :=
  if a < b then some .lt else if a == b then some .eq else if b < a then some .gt else none

/-- The order of two numbers. -/
def compare? (a b : Number) : Option Ordering :=
  match promote a b with
  | .ints a b => some (Ord.compare a.toInt b.toInt)
  | .decimals a b => some (a.compare b)
  | .floats a b => compareFloats a b

end Number

end QueryExpr
