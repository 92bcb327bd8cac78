import QueryExpr.Registry

/-!
# Applying operators

An operator is applied by choosing a constructor and building its node. The left operand
chooses first. Where it has no entry, the right operand chooses: on the right side for a
reversible operator, and for a comparison by its mirror image. Raw values never choose. Every
operand has to suit the family of the operator; a raw null always does.

* `standard`: arithmetic on numbers, comparisons of any values, and logic on truth values.
-/

namespace QueryExpr

namespace Registry

/-- The category that the operands of a family carry. -/
def requiredOperand : Family → Category
  | .arithmetic => .numeric
  | .comparison => .value
  | .logical => .boolean

/-- Whether an expression may be an operand of the family. -/
def isLegalOperand (family : Family) : Expr → Bool
  | .value .null => true
  | e => e.categories.has (requiredOperand family)

/-- The error for operands that an operator does not take. -/
def unsupported (o : Operator) (operands : List Expr) : Error :=
  .unsupportedOperator o (operands.map Expr.categories)

/-- Builds the node if all operands, listed as they were written, are legal. The constructor
takes its arguments with the choosing operand first. -/
def construct (o : Operator) (operands : List Expr) (c : Constructor) (args : List Expr) :
    Except Error Expr :=
  if operands.all (isLegalOperand o.family) then .ok (c.build args)
  else .error (unsupported o operands)

/-- The constructor that the right operand chooses. -/
def resolveRight? (r : Registry) (o : Operator) (right : Expr) : Option Constructor :=
  if o.isReversible then r.resolve? o .right right.dispatchCategories
  else o.mirrored?.bind fun mirror => r.resolve? mirror .left right.dispatchCategories

/-- Applies an operator to two operands. -/
def applyBinary (r : Registry) (o : Operator) (left right : Expr) : Except Error Expr :=
  if o.arity ≠ 2 then .error (unsupported o [left, right])
  else
    match r.resolve? o .left left.dispatchCategories with
    | some c => construct o [left, right] c [left, right]
    | none =>
      match r.resolveRight? o right with
      | some c => construct o [left, right] c [right, left]
      | none => .error (unsupported o [left, right])

/-- Applies an operator to one operand. -/
def applyUnary (r : Registry) (o : Operator) (operand : Expr) : Except Error Expr :=
  if o.arity ≠ 1 then .error (unsupported o [operand])
  else
    match r.resolve? o .left operand.dispatchCategories with
    | some c => construct o [operand] c [operand]
    | none => .error (unsupported o [operand])

/-- Applies an operator to operands of any number. -/
def apply (r : Registry) (o : Operator) (operands : List Expr) : Except Error Expr :=
  match operands with
  | [operand] => r.applyUnary o operand
  | [left, right] => r.applyBinary o left right
  | _ => .error (unsupported o operands)

/-! ## The standard operators -/

/-- The result of the operators of a family. -/
def standardResult : Family → ResultRule
  | .arithmetic => .numeric
  | .comparison => .boolean
  | .logical => .boolean

/-- The constructor of an operator's own node. -/
def standardConstructor : Operator → Constructor
  | .binary op => ⟨.binary op, standardResult op.family, false⟩
  | .not => ⟨.not, .boolean, false⟩

/-- Binds each operator to the category that its operands carry anyway. -/
def registerStandard (r : Registry) : Except Error Registry :=
  Operator.all.foldlM (fun r o => r.register o {requiredOperand o.family} (standardConstructor o)) r

/-- The registry with the standard operators. -/
def standard : Registry :=
  match registerStandard empty with
  | .ok r => r
  | .error _ => empty

end Registry

end QueryExpr
