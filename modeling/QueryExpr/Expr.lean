import QueryExpr.Operator
import QueryExpr.Value

/-!
# Expressions

An expression is a raw value or a node: an operation, its arguments in order, and the
categories of what it denotes. The categories of a node are closed when it is made.

Nodes may stand in several trees at once. A shared node equals itself, whatever it holds,
while a NaN outside of one equals nothing: `Expr.same` compares expressions that share no
node, and `Expr.sameShared` expressions that share what they can.

* `Expr.induct`: what holds of values, and of a node whenever it holds of its arguments,
  holds of every expression.
-/

namespace QueryExpr

/-- What a node does with its arguments. -/
inductive Operation where
  /-- A typed scalar, of which the only argument is the value. -/
  | scalar (type : ValueType)
  /-- A table. -/
  | table
  /-- Some of the columns of a table. -/
  | projection
  /-- A column of a table. -/
  | column
  | binary (op : BinaryOp)
  | not
  /-- A function that the language gives no meaning of its own. -/
  | function (name : String)
  deriving DecidableEq, Repr

namespace Operation

/-- The name of an operation in the text of an expression. -/
def label : Operation → String
  | scalar type => type.name
  | table => "Table"
  | projection => "Projection"
  | column => "Column"
  | binary op => op.label
  | not => "Not"
  | function name => name

/-- The operation with its kind, as registration errors write it. -/
def describe : Operation → String
  | scalar type => "Scalar(" ++ type.capitalName ++ ")"
  | binary op => "Binary(" ++ op.label ++ ")"
  | not => "Unary(Not)"
  | function name => "Function(" ++ Text.quoted name ++ ")"
  | o => o.label

end Operation

/-- An expression. -/
inductive Expr where
  | value (v : Value)
  | node (operation : Operation) (args : List Expr) (categories : Categories)

namespace Expr

/-- **Induction on expressions.** -/
theorem induct {P : Expr → Prop} (value : ∀ v, P (.value v))
    (node : ∀ o args c, (∀ e ∈ args, P e) → P (.node o args c)) (e : Expr) : P e :=
  e.rec (motive_2 := fun es => ∀ e ∈ es, P e) value (fun o args c ih => node o args c ih)
    (fun _ h => nomatch h)
    (fun _ _ hd tl x hx => (List.mem_cons.1 hx).elim (fun h => h ▸ hd) (tl x))

/-- A node with the closure of the given categories. -/
def make (operation : Operation) (args : List Expr) (categories : Categories) : Expr :=
  node operation args categories.closure

/-- A node of a named function. -/
def function (name : String) (args : List Expr) (categories : Categories) : Expr :=
  make (.function name) args categories

/-! ## Parts -/

def isValue : Expr → Bool
  | value _ => true
  | node .. => false

def asValue? : Expr → Option Value
  | value v => some v
  | node .. => none

def operation? : Expr → Option Operation
  | value _ => none
  | node o _ _ => some o

def args : Expr → List Expr
  | value _ => []
  | node _ args _ => args

/-- The categories of what the expression denotes. -/
def categories : Expr → Categories
  | value v => v.categories
  | node _ _ c => c

/-- The categories by which the expression chooses operators: a raw value chooses none. -/
def dispatchCategories : Expr → Categories
  | value _ => ∅
  | node _ _ c => c

/-- The same node with other arguments. -/
def withArgs (e : Expr) (args : List Expr) : Expr :=
  match e with
  | value v => value v
  | node o _ c => node o args c

/-- The operator and operands of a node with two operands. -/
def binary? : Expr → Option (BinaryOp × Expr × Expr)
  | node (.binary op) [left, right] _ => some (op, left, right)
  | _ => none

/-- The operands of a node of a given operator. -/
def operandsOf? (op : BinaryOp) (e : Expr) : Option (Expr × Expr) :=
  match e.binary? with
  | some (found, operands) => if found = op then some operands else none
  | none => none

/-- The operand of a negation. -/
def negated? : Expr → Option Expr
  | node .not [operand] _ => some operand
  | _ => none

/-- The type and value of a typed scalar. -/
def scalar? : Expr → Option (ValueType × Value)
  | node (.scalar type) [value v] _ => some (type, v)
  | _ => none

/-! ## Text -/

mutual

/-- The expression as nested calls. -/
def text : Expr → String
  | value v => v.repr
  | node o args _ => o.label ++ "(" ++ ", ".intercalate (texts args) ++ ")"

def texts : List Expr → List String
  | [] => []
  | e :: rest => e.text :: texts rest

end

/-! ## Sameness -/

mutual

/-- Whether two expressions are equal, where `sameValue` compares values. -/
def sameBy (sameValue : Value → Value → Bool) : Expr → Expr → Bool
  | value a, value b => sameValue a b
  | node f as c, node g bs d => f == g && c == d && allSameBy sameValue as bs
  | _, _ => false

def allSameBy (sameValue : Value → Value → Bool) : List Expr → List Expr → Bool
  | [], [] => true
  | a :: as, b :: bs => sameBy sameValue a b && allSameBy sameValue as bs
  | _, _ => false

end

/-- Whether two expressions that share nothing are equal; a NaN equals nothing. -/
def same (a b : Expr) : Bool := sameBy Value.same a b

/-- Whether two expressions are equal, where a NaN equals a NaN. -/
def alike (a b : Expr) : Bool := sameBy Value.alike a b

/-- Whether two expressions are equal that share a node wherever they have equal ones: a
shared node equals itself whatever it holds, and a NaN that stands alone equals nothing. -/
def sameShared : Expr → Expr → Bool
  | value a, value b => a.same b
  | a, b => a.alike b

end Expr

end QueryExpr
