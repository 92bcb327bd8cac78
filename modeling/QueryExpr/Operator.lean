/-!
# Operators

The operators of the language: seventeen with two operands, in three families, and `not`.
An operator is known by its word (`add`), by which it is asked for, and by its label
(`Add`), which names the node it builds. A comparison has a mirror image, the comparison
that holds with its operands exchanged.

* `mirrored_mirrored`: the mirror image of a mirror image is the comparison itself;
* `family_mirrored`: only comparisons have one, and it is a comparison.
-/

namespace QueryExpr

/-- What an operator takes and gives: numbers, any values for a truth value, or truth values. -/
inductive Family where
  | arithmetic
  | comparison
  | logical
  deriving DecidableEq, Repr

namespace Family

def name : Family → String
  | arithmetic => "Arithmetic"
  | comparison => "Comparison"
  | logical => "Logical"

end Family

/-- An operator with two operands. -/
inductive BinaryOp where
  | add
  | subtract
  | multiply
  | divide
  | floorDivide
  | power
  | modulus
  | equals
  | notEquals
  | greaterEqual
  | greater
  | lessEqual
  | less
  | identical
  | and
  | or
  | xor
  deriving DecidableEq, Repr

namespace BinaryOp

/-- Every operator with two operands: arithmetic, comparisons, logic. -/
def all : List BinaryOp :=
  [add, subtract, multiply, divide, floorDivide, power, modulus, equals, notEquals, greaterEqual,
    greater, lessEqual, less, identical, and, or, xor]

theorem mem_all (op : BinaryOp) : op ∈ all := by cases op <;> decide

/-- The name of the nodes of an operator. -/
def label : BinaryOp → String
  | add => "Add"
  | subtract => "Subtract"
  | multiply => "Multiply"
  | divide => "Divide"
  | floorDivide => "FloorDivide"
  | power => "Power"
  | modulus => "Modulus"
  | equals => "Equals"
  | notEquals => "NotEquals"
  | greaterEqual => "GreaterEqual"
  | greater => "GreaterThan"
  | lessEqual => "LessEqual"
  | less => "LessThan"
  | identical => "IdenticalTo"
  | and => "And"
  | or => "Or"
  | xor => "Xor"

/-- The name by which an operator is asked for. -/
def word : BinaryOp → String
  | add => "add"
  | subtract => "sub"
  | multiply => "mul"
  | divide => "truediv"
  | floorDivide => "floordiv"
  | power => "pow"
  | modulus => "mod"
  | equals => "eq"
  | notEquals => "ne"
  | greaterEqual => "ge"
  | greater => "gt"
  | lessEqual => "le"
  | less => "lt"
  | identical => "identical"
  | and => "and"
  | or => "or"
  | xor => "xor"

/-- The operator of a given label. -/
def ofLabel? (s : String) : Option BinaryOp := all.find? (·.label == s)

def family : BinaryOp → Family
  | add | subtract | multiply | divide | floorDivide | power | modulus => .arithmetic
  | equals | notEquals | greaterEqual | greater | lessEqual | less | identical => .comparison
  | and | or | xor => .logical

/-- The comparison that holds of `b` and `a` exactly when this one holds of `a` and `b`. -/
def mirrored? : BinaryOp → Option BinaryOp
  | equals => some equals
  | notEquals => some notEquals
  | greaterEqual => some lessEqual
  | greater => some less
  | lessEqual => some greaterEqual
  | less => some greater
  | identical => some identical
  | _ => none

theorem mirrored_mirrored {op mirror : BinaryOp} (h : op.mirrored? = some mirror) :
    mirror.mirrored? = some op := by
  cases op <;> simp [mirrored?] at h <;> subst h <;> rfl

theorem family_mirrored {op : BinaryOp} : op.mirrored?.isSome ↔ op.family = .comparison := by
  cases op <;> decide

end BinaryOp

/-- An operator. -/
inductive Operator where
  | binary (op : BinaryOp)
  | not
  deriving DecidableEq, Repr

namespace Operator

/-- Every operator; `not` comes last. -/
def all : List Operator := BinaryOp.all.map binary ++ [not]

theorem mem_all (o : Operator) : o ∈ all := by
  cases o with
  | not => decide
  | binary op => exact List.mem_append_left _ (List.mem_map_of_mem (BinaryOp.mem_all op))

def word : Operator → String
  | binary op => op.word
  | not => "not"

/-- The operator of a given word. -/
def ofWord? (s : String) : Option Operator := all.find? (·.word == s)

def family : Operator → Family
  | binary op => op.family
  | not => .logical

/-- The number of operands. -/
def arity : Operator → Nat
  | binary _ => 2
  | not => 1

/-- Whether the operator can also be chosen by its right operand. Comparisons cannot: they
have mirror images in place of that. -/
def isReversible : Operator → Bool
  | binary op => op.family != .comparison
  | not => false

/-- The mirror image of a comparison. -/
def mirrored? : Operator → Option Operator
  | binary op => op.mirrored?.map binary
  | not => none

/-- The word for the operator chosen by its right operand. -/
def reflectedWord (o : Operator) : String := "r" ++ o.word

end Operator

end QueryExpr
