import QueryExpr.Compiler
import QueryExpr.Folding.Number

/-!
# Folding constants

Operators over raw values are computed. What has no result (an overflow, a division by
zero, a comparison of unlike kinds) is left as it is.

A null makes arithmetic and comparisons null; logic has three truth values, of which null
is the unknown one: `false and null` is false, `true or null` is true.
-/

namespace QueryExpr

namespace Value

/-- The order of two values of kinds that can be compared. -/
def compare? : Value → Value → Option Ordering
  | bool a, bool b => some (Ord.compare a b)
  | text a, text b => some (Ord.compare a b)
  | date a, date b => some (a.compare b)
  | time a, time b => some (a.compare b)
  | timestamp a, timestamp b => some (a.compare b)
  | a, b =>
    match Number.ofValue? a, Number.ofValue? b with
    | some a, some b => Number.compare? a b
    | _, _ => none

/-- Whether two values are both null, or neither is and they are equal. -/
def areIdentical (a b : Value) : Bool :=
  if a.isNull || b.isNull then a.isNull && b.isNull else a.compare? b == some .eq

/-- The outcome of a comparison. Values that cannot be compared are unequal and in no order. -/
def decideComparison? (op : BinaryOp) (order : Option Ordering) : Option Bool :=
  match op, order with
  | .equals, order => some (order == some .eq)
  | .notEquals, order => some (order != some .eq)
  | .greaterEqual, some order => some (order != .lt)
  | .greater, some order => some (order == .gt)
  | .lessEqual, some order => some (order != .gt)
  | .less, some order => some (order == .lt)
  | _, _ => none

def foldComparison (op : BinaryOp) (a b : Value) : Option Value :=
  if op = .identical then some (.bool (areIdentical a b))
  else if a.isNull || b.isNull then some .null
  else (decideComparison? op (a.compare? b)).map .bool

/-- The truth value of a value, none for the unknown one. Other values have none at all. -/
def truth? : Value → Option (Option Bool)
  | bool b => some (some b)
  | null => some none
  | _ => none

def ofTruth : Option Bool → Value
  | some b => bool b
  | none => null

/-- The three-valued connectives. -/
def connect? (op : BinaryOp) (a b : Option Bool) : Option (Option Bool) :=
  match op with
  | .and =>
    if a = some false ∨ b = some false then some (some false)
    else if a = some true ∧ b = some true then some (some true)
    else some none
  | .or =>
    if a = some true ∨ b = some true then some (some true)
    else if a = some false ∧ b = some false then some (some false)
    else some none
  | .xor =>
    match a, b with
    | some a, some b => some (some (a != b))
    | _, _ => some none
  | _ => none

def foldLogical (op : BinaryOp) (a b : Value) : Option Value :=
  match a.truth?, b.truth? with
  | some a, some b => (connect? op a b).map ofTruth
  | _, _ => none

def foldArithmetic (op : BinaryOp) (a b : Value) : Option Value :=
  if a.isNull || b.isNull then some .null
  else
    match Number.ofValue? a, Number.ofValue? b with
    | some a, some b => Number.combine op a b
    | _, _ => none

/-- The result of an operator on raw values, if it has one. -/
def foldBinary (op : BinaryOp) (a b : Value) : Option Value :=
  match op.family with
  | .arithmetic => foldArithmetic op a b
  | .comparison => foldComparison op a b
  | .logical => foldLogical op a b

/-- Whether operators take the value at all. -/
def isFoldable : Value → Bool
  | list _ | schema _ | fragment _ => false
  | _ => true

end Value

namespace Folding

/-- A typed scalar becomes its value. -/
def scalarValue : Rule where
  name := "scalar_value"
  produce? e := e.scalar?.map fun (_, v) => .replace (.value v)

/-- An operator over raw values becomes its result, and stays if it has none. -/
def foldBinary : Rule where
  name := "fold_binary"
  produce? e :=
    match e.binary? with
    | some (op, .value a, .value b) =>
      if a.isFoldable && b.isFoldable then
        some ((Value.foldBinary op a b).elim .keep fun v => .replace (.value v))
      else none
    | _ => none

/-- The negation of a truth value; that of the unknown one is unknown. -/
def foldNot : Rule where
  name := "fold_not"
  produce? e :=
    match e.negated? with
    | some (.value v) => v.truth?.map fun t => .replace (.value (.ofTruth (t.map (!·))))
    | _ => none

def rules : List Rule := [scalarValue, foldBinary, foldNot]

/-- The compiler that computes constant expressions. -/
def compiler (limit : Nat) : Compiler := ⟨rules, limit⟩

end Folding

end QueryExpr
