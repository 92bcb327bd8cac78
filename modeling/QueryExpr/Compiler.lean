import QueryExpr.Rewrite.Strategy

/-!
# Compilers

A compiler rewrites an expression with a list of rules, bottom up and again and again, until
nothing changes. If a value is left, that is the result. Otherwise some node is stuck: all
its arguments are values and yet no rule applies to it; the error names the first such node.

* `stuckNode?_value`, `unresolved_of_values`: a value is never stuck, and a node over values is.
-/

namespace QueryExpr

/-- How long a compiler may go on, and whether it reports its passes. -/
structure Settings where
  limit : Nat
  trace : Bool
  deriving DecidableEq, Repr

namespace Settings

/-- The passes that a compiler may take unless told otherwise. -/
def defaultLimit : Nat := 100

def default : Settings := ⟨defaultLimit, false⟩

/-- The settings with another limit; there is always one pass. -/
def withLimit (s : Settings) (limit : Nat) : Settings := { s with limit := max limit 1 }

def withTrace (s : Settings) (trace : Bool) : Settings := { s with trace }

end Settings

namespace Expr

/-- Searches what is pending for a node whose arguments are all values, beginning with the top of
the stack. In place of any other node come its arguments, the first one on top. -/
def stuckFrom : List Expr → Option Expr
  | [] => none
  | .value _ :: pending => stuckFrom pending
  | .node o args c :: pending =>
    if args.all isValue then some (.node o args c) else stuckFrom (args ++ pending)
termination_by pending => Strategy.works pending
decreasing_by
  all_goals
    simp only [Strategy.works, Strategy.works_append, Strategy.work]
    omega

/-- The node that the search comes to first. -/
def stuckNode? (e : Expr) : Option Expr := stuckFrom [e]

theorem stuckNode?_value (v : Value) : (value v).stuckNode? = none := by
  rw [stuckNode?, stuckFrom, stuckFrom]

/-- The error for an expression that did not become a value. -/
def unresolved (e : Expr) : Error :=
  let found := e.stuckNode?.getD e
  .unresolved ((found.operation?.map Operation.label).getD "") (found.args.map categories)

/-- A node whose arguments are all values is stuck itself. -/
theorem unresolved_of_values {o : Operation} {args : List Expr} {c : Categories}
    (h : args.all isValue = true) :
    (node o args c).unresolved = .unresolved o.label (args.map categories) := by
  rw [unresolved, stuckNode?, stuckFrom, if_pos h]
  rfl

end Expr

/-- Rules, and how often they may be applied. -/
structure Compiler where
  rules : List Rule
  limit : Nat

namespace Compiler

/-- One pass over an expression. -/
def pass (c : Compiler) : Strategy := .bottomUp (.first c.rules)

/-- The expression after passes until nothing changes. -/
def rewrite (c : Compiler) (e : Expr) : Except Error Fixpoint := c.pass.run c.limit e

/-- The value that an expression becomes. -/
def compile (c : Compiler) (e : Expr) : Except Error Value :=
  match c.rewrite e with
  | .error err => .error err
  | .ok r =>
    match r.expr with
    | .value v => .ok v
    | stuck => .error stuck.unresolved

end Compiler

end QueryExpr
