import QueryExpr.Expr

/-!
# Views of an expression

The nodes and values of an expression in the order in which a reader meets them, each with
its depth; the same as indented lines; and the same as a drawing of the tree, in which they
are numbered in that order.

The order is that of a recursion on the expression (`visits`). What is read from an expression is
met by a walk that keeps what is still to be visited on a stack (`walk`).

* `allVisitsFrom_eq`: the visits of a list of expressions are those of each in turn.
-/

namespace QueryExpr

namespace Expr

mutual

/-- Every value and node at or below `e`, itself first, where `e` stands at `depth`. -/
def visitsFrom (depth : Nat) (e : Expr) : List (Nat × Expr) :=
  match e with
  | value v => [(depth, value v)]
  | node o args c => (depth, node o args c) :: allVisitsFrom (depth + 1) args

def allVisitsFrom (depth : Nat) : List Expr → List (Nat × Expr)
  | [] => []
  | e :: rest => visitsFrom depth e ++ allVisitsFrom depth rest

end

/-- Every value and node of an expression with its depth, parents before their arguments. -/
def visits (e : Expr) : List (Nat × Expr) := visitsFrom 0 e

theorem allVisitsFrom_eq (depth : Nat) (es : List Expr) :
    allVisitsFrom depth es = es.flatMap (visitsFrom depth) := by
  induction es with
  | nil => rfl
  | cons e es ih => rw [allVisitsFrom, ih, List.flatMap_cons]

/-! ## The walk -/

/-- All that is visited at or below what is pending. -/
def visitsOf (pending : List (Nat × Expr)) : List (Nat × Expr) :=
  pending.flatMap fun visit => visitsFrom visit.1 visit.2

/-- What is on top is visited, and then its arguments before the rest. -/
theorem visitsOf_cons (depth : Nat) (e : Expr) (pending : List (Nat × Expr)) :
    visitsOf ((depth, e) :: pending) =
      (depth, e) :: visitsOf (e.args.map (fun arg => (depth + 1, arg)) ++ pending) := by
  have hargs : visitsFrom depth e = (depth, e) :: allVisitsFrom (depth + 1) e.args := by
    cases e with
    | value v => rfl
    | node o args c => rfl
  rw [visitsOf, visitsOf, List.flatMap_cons, hargs, List.flatMap_append, List.flatMap_map,
    ← allVisitsFrom_eq, List.cons_append]

/-- Visits what is pending, beginning with the top of the stack. The arguments of what was visited
go onto the stack with the last one first, so that the first one is on top. -/
def walkFrom : List (Nat × Expr) → List (Nat × Expr)
  | [] => []
  | (depth, e) :: pending =>
    (depth, e) :: walkFrom (e.args.map (fun arg => (depth + 1, arg)) ++ pending)
termination_by pending => (visitsOf pending).length
decreasing_by
  rw [visitsOf_cons, List.length_cons]
  exact Nat.lt_succ_self _

/-- Every value and node of an expression with its depth, as a walk with a stack meets them. -/
def walk (e : Expr) : List (Nat × Expr) := walkFrom [(0, e)]

/-- The number of nodes; values do not count. -/
def nodeCount (e : Expr) : Nat := e.walk.countP fun visit => !visit.2.isValue

/-- The text of a value, or the label of the operation of a node. -/
def label : Expr → String
  | value v => v.repr
  | node o _ _ => o.label

/-! ## Indented lines -/

/-- The line of one value or node. -/
def explainLine (depth : Nat) (e : Expr) : String :=
  let indent := String.join (List.replicate depth "  ")
  match e with
  | value v => indent ++ v.repr ++ "\n"
  | node o _ c => indent ++ o.label ++ " [" ++ c.text ++ "]\n"

/-- A line for each value and node, indented by its depth. -/
def explain (e : Expr) : String := String.join (e.walk.map fun v => explainLine v.1 v.2)

/-! ## Drawing -/

/-- One line of a drawing. -/
inductive DotLine where
  | vertex (id : Nat) (e : Expr)
  | edge (parent child : Nat)

namespace DotLine

def text : DotLine → String
  | vertex id e =>
    let shape := if e.isValue then "box" else "ellipse"
    "  n" ++ toString id ++ " [label=" ++ Text.quoted e.label ++ ", shape=" ++ shape ++ "];\n"
  | edge parent child => "  n" ++ toString parent ++ " -> n" ++ toString child ++ ";\n"

end DotLine

/-- The lines for the visits that begin with number `id`. `ancestors` are the numbers on
the way from the visit before up to the root; those at the depth of a visit or below are
not above it. -/
def dotLinesFrom (id : Nat) (ancestors : List Nat) : List (Nat × Expr) → List DotLine
  | [] => []
  | (depth, e) :: rest =>
    let above := ancestors.drop (ancestors.length - depth)
    .vertex id e :: above.head?.toList.map (.edge · id) ++ dotLinesFrom (id + 1) (id :: above) rest

/-- The lines of the drawing of an expression. -/
def dotLines (e : Expr) : List DotLine := dotLinesFrom 0 [] e.walk

/-- The drawing of an expression, as a graph in the DOT language. -/
def dot (e : Expr) : String :=
  "digraph expression \x7b\n" ++ String.join (e.dotLines.map DotLine.text) ++ "\x7d\n"

end Expr

end QueryExpr
