import QueryExpr.Expr.Build
import QueryExpr.Rewrite.Rule

/-!
# Simple rules

Rules for functions and scalars from which rewrites can be put together.
-/

namespace QueryExpr

namespace Rule

/-- Applies to everything and changes nothing. -/
def identity : Rule where
  name := "identity"
  produce? _ := some .keep

/-- Applies to nothing. -/
def never : Rule where
  name := "never"
  produce? _ := none

/-- The integer that a typed scalar holds. -/
def scalarInt? (e : Expr) : Option Int64 := e.scalar?.bind fun (_, v) => v.asInt?

/-- Adds one to an integer scalar; the largest is followed by the smallest. -/
def grow : Rule where
  name := "grow"
  produce? e := (scalarInt? e).map fun n => .replace (.int64 (n + 1))

/-- Takes one from a positive integer scalar. -/
def shrink : Rule where
  name := "shrink"
  produce? e :=
    match scalarInt? e with
    | some n => if 0 < n then some (.replace (.int64 (n - 1))) else none
    | none => none

/-- Puts one value in place of every scalar. -/
def constant (v : Value) : Rule where
  name := "constant"
  produce? e := e.scalar?.map fun _ => .replace (.value v)

/-- Gives a function another name. -/
def rename (before after : String) : Rule where
  name := "rename_" ++ before ++ "_" ++ after
  produce? e :=
    match e with
    | .node (.function name) args c =>
      if name = before then some (.replace (.function after args c)) else none
    | _ => none

/-- Puts a function into another one. -/
def wrap (inner outer : String) : Rule where
  name := "wrap_" ++ inner ++ "_" ++ outer
  produce? e :=
    match e with
    | .node (.function name) args c =>
      if name = inner then some (.replace (.function outer [.node (.function name) args c] c))
      else none
    | _ => none

/-- Puts the only argument of a function in its place. -/
def peel (outer : String) : Rule where
  name := "peel_" ++ outer
  produce? e :=
    match e with
    | .node (.function name) [arg] _ => if name = outer then some (.replace arg) else none
    | _ => none

end Rule

end QueryExpr
