import QueryExpr.Error

/-!
# Rewrite rules

A rule looks at one expression and at what stands directly below it. Where it applies, it
either leaves the expression in place or puts another one there. A list of rules is tried
in order, and the first one that applies decides.

A step counts as a change when the new expression differs from the old one. Nodes below
the top are shared by both, so a NaN inside one makes no difference; a NaN that is itself
looked at always does.
-/

namespace QueryExpr

/-- What a rule makes of an expression to which it applies. -/
inductive Production where
  /-- The expression itself. -/
  | keep
  | replace (e : Expr)

/-- A rewrite rule; `produce?` gives nothing where the rule does not apply. -/
structure Rule where
  name : String
  produce? : Expr → Option Production

/-- An expression after a rewrite, and whether the rewrite changed it. -/
structure Rewritten where
  expr : Expr
  changed : Bool

namespace Production

/-- Whether an expression left in place counts as the same one. -/
def keepsSame : Expr → Bool
  | .value v => v.same v
  | .node .. => true

/-- Whether two lists of arguments are equal that share their nodes. -/
def argsSame : List Expr → List Expr → Bool
  | [], [] => true
  | a :: as, b :: bs => a.sameShared b && argsSame as bs
  | _, _ => false

/-- Whether an expression equals the one it replaces, with which it shares what stands below. -/
def replacesSame : Expr → Expr → Bool
  | .value a, .value b => a.same b
  | .node f as c, .node g bs d => f == g && c == d && argsSame as bs
  | _, _ => false

/-- The outcome of a production for the expression it was made from. -/
def outcome (e : Expr) : Production → Rewritten
  | keep => ⟨e, !keepsSame e⟩
  | replace new => ⟨new, !replacesSame new e⟩

end Production

namespace Rule

/-- The outcome of the first rule that applies. -/
def applyFirst : List Rule → Expr → Rewritten
  | [], e => ⟨e, false⟩
  | rule :: rules, e =>
    match rule.produce? e with
    | some p => p.outcome e
    | none => applyFirst rules e

end Rule

end QueryExpr
