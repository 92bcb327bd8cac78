import QueryExpr.Folding.Number

/-!
# Integers as words

The arithmetic of integers operation by operation, as words of 64 bits carry it out. A checked
operation gives nothing where its result is no word, and then the computation has no result. A
plain operation has no such way out: where it has no result, it traps, and the program stops.

Words divide with the quotient rounded towards zero, and the remainder has the sign of the
dividend. Both are corrected where the signs differ and something remains. Powers are taken by
repeated squaring, from the lowest digit of the exponent on.

* `run_checked_bind`, `run_plain_bind`: what becomes of a computation after an operation.
-/

namespace QueryExpr

-- Powers are taken by the definition of the core library, whatever else is imported.
attribute [local instance (2000)] instPowNat

/-- Why a plain operation stops the program. -/
inductive Trap where
  | divisionByZero
  | overflow
  deriving DecidableEq, Repr

/-- A computation with words: it ends in a trap, or with a result, or without one. -/
abbrev Computation (α : Type) := OptionT (Except Trap) α

namespace Word

variable {α β : Type}

/-- A checked operation. -/
def checked (a? : Option α) : Computation α := OptionT.mk (.ok a?)

/-- A plain operation. -/
def plain (x : Except Trap α) : Computation α := OptionT.lift x

theorem run_checked (a? : Option α) : (checked a?).run = .ok a? := rfl

theorem run_pure (a : α) : (pure a : Computation α).run = .ok (some a) := rfl

theorem run_checked_bind (a? : Option α) (f : α → Computation β) :
    (checked a? >>= f).run = a?.elim (.ok none) fun a => (f a).run := by
  cases a? <;> rfl

theorem run_plain_bind {x : Except Trap α} {a : α} (h : x = .ok a) (f : α → Computation β) :
    (plain x >>= f).run = (f a).run := by
  rw [h]
  rfl

/-! ## Operations -/

def add? (a b : Int64) : Option Int64 := Integer.ofInt? (a.toInt + b.toInt)

def subtract? (a b : Int64) : Option Int64 := Integer.ofInt? (a.toInt - b.toInt)

def multiply? (a b : Int64) : Option Int64 := Integer.ofInt? (a.toInt * b.toInt)

/-- What is wrong with a division: the divisor is zero, or the quotient of the smallest word by -1
is too large. The remainder of the latter counts as too large with it. -/
def divisionTrap? (a b : Int64) : Option Trap :=
  if b = 0 then some .divisionByZero
  else if a = Int64.minValue ∧ b = -1 then some .overflow
  else none

/-- The checked quotient, rounded towards zero. -/
def divide? (a b : Int64) : Option Int64 :=
  match divisionTrap? a b with
  | some _ => none
  | none => some (a / b)

/-- The checked remainder, which has the sign of the dividend. -/
def remainder? (a b : Int64) : Option Int64 :=
  match divisionTrap? a b with
  | some _ => none
  | none => some (a % b)

/-- The plain remainder. -/
def remainder (a b : Int64) : Except Trap Int64 :=
  match divisionTrap? a b with
  | some trap => .error trap
  | none => .ok (a % b)

/-- Whether one of two words is negative and the other one is not. -/
def signsDiffer (a b : Int64) : Bool := decide (a < 0) != decide (b < 0)

/-! ## Floors -/

/-- The floor of a quotient: what is rounded up towards zero is taken down by one. -/
def floorQuotient (a b : Int64) : Computation Int64 := do
  let quotient ← checked (divide? a b)
  let rest ← plain (remainder a b)
  if rest != 0 && signsDiffer a b then checked (subtract? quotient 1) else return quotient

/-- What the floor of a quotient leaves: it has the sign of the divisor. -/
def modulus (a b : Int64) : Computation Int64 := do
  let rest ← checked (remainder? a b)
  if rest != 0 && signsDiffer rest b then checked (add? rest b) else return rest

/-! ## Powers -/

/-- The exponent as a number of 32 bits. -/
def exponent? (b : Int64) : Option Nat :=
  if 0 ≤ b.toInt ∧ b.toInt < Integer.exponentBound then some b.toInt.toNat else none

/-- `acc` times a power of `base`. After the highest digit of the exponent nothing is squared. -/
def powerFrom (acc base : Int64) (n : Nat) : Option Int64 :=
  if n = 0 then some acc
  else
    (if n % 2 = 1 then multiply? acc base else some acc).bind fun acc =>
      if n = 1 then some acc
      else (multiply? base base).bind fun square => powerFrom acc square (n / 2)
termination_by n
decreasing_by omega

/-- A power with an exponent that is a number of 32 bits. -/
def power (a b : Int64) : Computation Int64 := do
  let n ← checked (exponent? b)
  checked (powerFrom 1 a n)

/-! ## Operators -/

/-- The value of a word. -/
def valued (c : Computation Int64) : Computation Value := return .int (← c)

/-- The result of an arithmetic operator on two words. -/
def combine (op : BinaryOp) (a b : Int64) : Computation Value :=
  match op with
  | .add => valued (checked (add? a b))
  | .subtract => valued (checked (subtract? a b))
  | .multiply => valued (checked (multiply? a b))
  | .floorDivide => valued (floorQuotient a b)
  | .modulus => valued (modulus a b)
  | .power =>
    if b < 0 then checked (Number.finite? (Float.pow (Number.floatOfInt a) (Number.floatOfInt b)))
    else valued (power a b)
  | _ => checked none

end Word

end QueryExpr
