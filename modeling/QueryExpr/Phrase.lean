import QueryExpr.Operator
import QueryExpr.Token

/-!
# Phrases

What a list of tokens says, before any meaning is given to names and operators. Reading
never fails: where the tokens stop making sense the phrase holds the fault in the place
that was reached, so that whatever uses the phrase from left to right meets it in its turn.

* `isSound_binary`: a phrase is sound when its parts are.
-/

namespace QueryExpr

/-- A phrase of the expression language. -/
inductive Phrase where
  /-- A number as it is written, after a minus sign or not. -/
  | number (negative : Bool) (digits : String)
  | text (s : String)
  | truth (b : Bool)
  | null
  | column (name : String)
  | not (operand : Phrase)
  /-- A minus sign before what is not just a number. -/
  | negate (operand : Phrase)
  | binary (op : BinaryOp) (left right : Phrase)
  /-- Here the tokens stop making sense. -/
  | fault (error : SyntaxError)
  /-- After this phrase the tokens stop making sense. -/
  | faultAfter (phrase : Phrase) (error : SyntaxError)
  deriving DecidableEq, Repr

namespace Phrase

/-- Whether the phrase holds no fault. -/
def isSound : Phrase → Bool
  | not operand => operand.isSound
  | negate operand => operand.isSound
  | binary _ left right => left.isSound && right.isSound
  | fault _ => false
  | faultAfter _ _ => false
  | _ => true

theorem isSound_binary (op : BinaryOp) (left right : Phrase) :
    (binary op left right).isSound = true ↔ left.isSound = true ∧ right.isSound = true := by
  simp [isSound]

end Phrase

/-- The levels of the grammar, from the loosest to the tightest. -/
inductive Level where
  | disjunction
  | exclusive
  | conjunction
  | negation
  | comparison
  | sum
  | product
  | signed
  | power
  | primary
  deriving DecidableEq, Repr

namespace Level

/-- How far a level is from the tightest one. -/
def looseness : Level → Nat
  | disjunction => 10
  | exclusive => 9
  | conjunction => 8
  | negation => 7
  | comparison => 6
  | sum => 5
  | product => 4
  | signed => 3
  | power => 2
  | primary => 1

/-- The level of the operands of the operators that a level chains from left to right. -/
def operandLevel? : Level → Option Level
  | disjunction => some exclusive
  | exclusive => some conjunction
  | conjunction => some negation
  | sum => some product
  | product => some signed
  | _ => none

theorem looseness_operandLevel {level tighter : Level} (h : level.operandLevel? = some tighter) :
    tighter.looseness < level.looseness := by
  cases level <;> simp [operandLevel?] at h <;> subst h <;> decide

/-- The operator that a token writes on a level which chains operators. -/
def chained? : Level → Token → Option BinaryOp
  | disjunction, .keyword .or => some .or
  | exclusive, .keyword .xor => some .xor
  | conjunction, .keyword .and => some .and
  | sum, .sign .plus => some .add
  | sum, .sign .minus => some .subtract
  | product, .sign .star => some .multiply
  | product, .sign .slash => some .divide
  | product, .sign .doubleSlash => some .floorDivide
  | product, .sign .percent => some .modulus
  | _, _ => none

end Level

/-- The comparison that a sign writes. -/
def Token.comparison? : Token → Option BinaryOp
  | .sign .equal => some .equals
  | .sign .notEqual => some .notEquals
  | .sign .less => some .less
  | .sign .lessEqual => some .lessEqual
  | .sign .greater => some .greater
  | .sign .greaterEqual => some .greaterEqual
  | _ => none

end QueryExpr
