import QueryExpr.Rewrite.Rule

/-!
# Rewrite strategies

A strategy rewrites a whole expression or fails. `first` tries a list of rules on the top,
`bottomUp` applies a strategy to every node once, arguments before the node that holds
them, and `fixpoint` applies one until a pass changes nothing.

`bottomUp` keeps the nodes it has entered on a stack of its own. A node whose arguments did
not change is not made anew.

* `runPasses_zero`, `runPasses_succ`: one pass, and then the others if it changed something.
-/

namespace QueryExpr

/-- A way to rewrite an expression. -/
abbrev Strategy := Expr → Except Error Rewritten

namespace Strategy

/-- The first of some rules that applies to the top of an expression. -/
def first (rules : List Rule) : Strategy := fun e => .ok (Rule.applyFirst rules e)

/-! ## Bottom up -/

/-- A node that is being rewritten: the arguments that are done, the last one first, and
those to do. -/
structure Frame where
  node : Expr
  done : List Expr
  todo : List Expr
  changed : Bool

namespace Frame

/-- A node of which nothing is done. -/
def enter (e : Expr) : Frame := ⟨e, [], e.args, false⟩

/-- The frame after one more argument became `e`. -/
def push (f : Frame) (e : Expr) (changed : Bool) : Frame :=
  { f with done := e :: f.done, changed := f.changed || changed }

/-- The node with its rewritten arguments, or the node itself if none changed. -/
def rebuilt (f : Frame) : Expr := if f.changed then f.node.withArgs f.done.reverse else f.node

end Frame

mutual

/-- A bound on the steps that an argument takes. -/
def work : Expr → Nat
  | .value _ => 1
  | .node _ args _ => works args + 2

def works : List Expr → Nat
  | [] => 0
  | e :: rest => work e + works rest

end

theorem works_append (as bs : List Expr) : works (as ++ bs) = works as + works bs := by
  induction as with
  | nil => simp [works]
  | cons a as ih => simp [works, ih, Nat.add_assoc]

/-- A bound on the steps that frames take. -/
def pendingWork : List Frame → Nat
  | [] => 0
  | f :: above => works f.todo + 1 + pendingWork above

/-- Goes on with the innermost node that has been entered; `above` are those that hold it,
from the inside out. -/
def bottomUpFrom (s : Strategy) : Frame → List Frame → Except Error Rewritten
  -- a value is done at once
  | ⟨node, done, .value v :: todo, changed⟩, above =>
    bottomUpFrom s ⟨node, .value v :: done, todo, changed⟩ above
  -- a node is entered, and comes back through `push`
  | ⟨node, done, .node o args c :: todo, changed⟩, above =>
    bottomUpFrom s (.enter (.node o args c)) (⟨node, done, todo, changed⟩ :: above)
  -- all arguments are done: now the node itself
  | ⟨node, done, [], changed⟩, above =>
    match s (Frame.rebuilt ⟨node, done, [], changed⟩) with
    | .error e => .error e
    | .ok r =>
      match above with
      | [] => .ok ⟨r.expr, changed || r.changed⟩
      | parent :: above => bottomUpFrom s (parent.push r.expr (changed || r.changed)) above
termination_by f above => pendingWork (f :: above)
decreasing_by
  all_goals
    simp only [pendingWork, works, work, Frame.push, Frame.enter, Expr.args]
    omega

/-- Applies a strategy to every node of an expression once, arguments first and from left
to right. A raw value stays as it is. -/
def bottomUp (s : Strategy) : Strategy := fun e =>
  if e.isValue then .ok ⟨e, false⟩ else bottomUpFrom s (.enter e) []

/-! ## Fixpoints -/

end Strategy

/-- The end of a rewrite that came to rest. -/
structure Fixpoint where
  expr : Expr
  /-- Whether any pass changed the expression. -/
  changed : Bool
  /-- The number of passes, the last of which changed nothing. -/
  passes : Nat

namespace Strategy

/-- At most `left` more passes after `done` of them. -/
def runPasses (s : Strategy) : (left done : Nat) → Expr → Except Error Fixpoint
  | 0, done, e => .error (.nonTerminating done e)
  | left + 1, done, e =>
    match s e with
    | .error err => .error err
    | .ok r =>
      if r.changed then runPasses s left (done + 1) r.expr
      else .ok ⟨r.expr, done != 0, done + 1⟩

/-- Repeats a strategy until a pass changes nothing, and fails after too many passes. There
is always one pass. -/
def run (s : Strategy) (limit : Nat) (e : Expr) : Except Error Fixpoint :=
  runPasses s (max limit 1) 0 e

/-- The same as a strategy. -/
def fixpoint (s : Strategy) (limit : Nat) : Strategy := fun e =>
  match s.run limit e with
  | .error err => .error err
  | .ok r => .ok ⟨r.expr, r.changed⟩

theorem runPasses_zero (s : Strategy) (done : Nat) (e : Expr) :
    s.runPasses 0 done e = .error (.nonTerminating done e) := rfl

theorem runPasses_succ {s : Strategy} {left done : Nat} {e : Expr} {r : Rewritten}
    (h : s e = .ok r) :
    s.runPasses (left + 1) done e =
      if r.changed then s.runPasses left (done + 1) r.expr
      else .ok ⟨r.expr, done != 0, done + 1⟩ := by
  simp only [runPasses, h]

end Strategy

end QueryExpr
