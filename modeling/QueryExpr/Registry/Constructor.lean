import QueryExpr.Expr

/-!
# Constructors

What a registry binds to an operator: the operation of the node to build, how the node's
categories follow from its arguments, and whether two arguments change places.

A numeric result is a column when an argument is one, and is of the widest kind among the
numeric arguments: integers, then decimals, then floating numbers. A true division always
gives a floating number.

* `swapped_swapped`: changing places twice changes nothing.
-/

namespace QueryExpr

/-- How the categories of a node follow from its arguments. -/
inductive ResultRule where
  | numeric
  | boolean
  /-- These categories, whatever the arguments. -/
  | fixed (categories : Categories)
  deriving DecidableEq, Repr

namespace ResultRule

/-- The categories that every node built by this rule carries. -/
def declared : ResultRule → Categories
  | numeric => {.numeric}
  | boolean => {.boolean}
  | fixed c => c.closure

/-- The category that the results of a family carry. -/
def required : Family → Category
  | .arithmetic => .numeric
  | .comparison => .boolean
  | .logical => .boolean

/-- Whether an operator of the family can have such results. -/
def fits (r : ResultRule) (family : Family) : Bool := r.declared.has (required family)

def text : ResultRule → String
  | numeric => "Numeric"
  | boolean => "Boolean"
  | fixed c => c.text

end ResultRule

/-- A way to build a node. -/
structure Constructor where
  operation : Operation
  result : ResultRule
  swaps : Bool
  deriving DecidableEq, Repr

namespace Constructor

/-- The same constructor with its two arguments in the other order. -/
def swapped (c : Constructor) : Constructor := { c with swaps := !c.swaps }

@[simp] theorem swapped_swapped (c : Constructor) : c.swapped.swapped = c := by
  simp [swapped]

/-- A column among the arguments makes the result a column. -/
def shapeOf (args : List Expr) : Shape :=
  if args.any (·.categories.has .column) then .column else .scalar

/-- The widest numeric category among the arguments. -/
def numericKind (operation : Operation) (args : List Expr) : Category :=
  let kinds := (args.map Expr.categories).filter (·.has .numeric)
  if operation = .binary .divide then .floating
  else if kinds.any (·.has .floating) then .floating
  else if kinds.any (·.has .decimal) then .decimal
  else if !kinds.isEmpty && kinds.all (·.has .integer) then .integer
  else .numeric

/-- The categories of the node for the given arguments. -/
def resultCategories (c : Constructor) (args : List Expr) : Categories :=
  match c.result with
  | .numeric => {(shapeOf args).category} ∪ {numericKind c.operation args}
  | .boolean => {(shapeOf args).category} ∪ {.boolean}
  | .fixed categories => categories

/-- The arguments in the order in which the node holds them. -/
def arrange (c : Constructor) (args : List Expr) : List Expr :=
  match args with
  | [a, b] => if c.swaps then [b, a] else [a, b]
  | _ => args

/-- The node for the given arguments. -/
def build (c : Constructor) (args : List Expr) : Expr :=
  .make c.operation (c.arrange args) (c.resultCategories (c.arrange args))

end Constructor

end QueryExpr
