import QueryExpr.Folding
import QueryExpr.Log
import QueryExpr.Registry.Dispatch
import QueryExpr.Sql

/-!
# What is logged

Registering the standard operators, rewriting and compiling as the program does them: with a record
of each registration, of each step that a rule makes and of each pass. They come to the same as
those that log nothing.

* `registerStandard`: one record for each operator.
* `bottomUp`, `runPasses`: the records of the steps in the order of the steps, and after each pass
  what became of it.
* `compileToQuery`, `compileToValue`: the text that an expression is compiled to.
-/

namespace QueryExpr

open Strategy

namespace Logging

/-! ## Registering -/

/-- Binds a constructor to an operator. -/
def register (r : Registry) (o : Operator) (category : Categories) (c : Constructor) :
    Logging Error Registry := do
  let r ← ofExcept (r.register o category c)
  log .debug .registry fun _ => "Registered " ++ o.word ++ " on [" ++ category.closure.text ++ "]"
  return r

/-- Binds the standard operators. -/
def registerStandard (r : Registry) : Logging Error Registry :=
  Operator.all.foldlM
    (fun r o => register r o {Registry.requiredOperand o.family} (Registry.standardConstructor o)) r

/-! ## Rewriting -/

/-- The name of the first rule that applies. -/
def firstName? (rules : List Rule) (e : Expr) : Option String :=
  (rules.find? fun rule => (rule.produce? e).isSome).map Rule.name

/-- The first of some rules that applies to the top of an expression. Only what it changes is
logged. -/
def first (rules : List Rule) (e : Expr) : Logging Error Rewritten := do
  let r := Rule.applyFirst rules e
  logIf r.changed .debug .rewriting fun _ =>
    "Rule '" ++ (firstName? rules e).getD "" ++ "' rewrote " ++ e.text
  return r

/-- Goes on with the innermost node that has been entered; `above` are those that hold it,
from the inside out. -/
def bottomUpFrom (s : Expr → Logging Error Rewritten) : Frame → List Frame → Logging Error Rewritten
  | ⟨node, done, .value v :: todo, changed⟩, above =>
    bottomUpFrom s ⟨node, .value v :: done, todo, changed⟩ above
  | ⟨node, done, .node o args c :: todo, changed⟩, above =>
    bottomUpFrom s (.enter (.node o args c)) (⟨node, done, todo, changed⟩ :: above)
  | ⟨node, done, [], changed⟩, above => do
    let r ← s (Frame.rebuilt ⟨node, done, [], changed⟩)
    match above with
    | [] => return ⟨r.expr, changed || r.changed⟩
    | parent :: above => bottomUpFrom s (parent.push r.expr (changed || r.changed)) above
termination_by f above => pendingWork (f :: above)
decreasing_by
  all_goals
    simp only [pendingWork, works, work, Frame.push, Frame.enter, Expr.args]
    omega

/-- Applies a strategy to every node of an expression once, arguments first and from left
to right. -/
def bottomUp (s : Expr → Logging Error Rewritten) (e : Expr) : Logging Error Rewritten :=
  if e.isValue then return ⟨e, false⟩ else bottomUpFrom s (.enter e) []

/-- At most `left` more passes after `done` of them. With `trace` the tree is shown after each pass
that changed it. -/
def runPasses (s : Expr → Logging Error Rewritten) (trace : Bool) :
    (left done : Nat) → Expr → Logging Error Fixpoint
  | 0, done, e => throw (.nonTerminating done e)
  | left + 1, done, e => do
    let r ← s e
    if r.changed then
      logIf trace .trace .rewriting fun _ => "Pass " ++ toString (done + 1) ++ ": " ++ r.expr.text
      runPasses s trace left (done + 1) r.expr
    else
      log .debug .rewriting fun _ =>
        "No changes in pass " ++ toString (done + 1) ++ ", reached fixpoint"
      return ⟨r.expr, done != 0, done + 1⟩

/-! ## Compiling -/

/-- Makes a compiler ready. -/
def setUp (c : Compiler) : Logging Error Unit :=
  log .debug .compiling fun _ =>
    "Compiler with " ++ toString c.rules.length ++ " rule(s), max " ++ toString c.limit
      ++ " pass(es)"

/-- The value that an expression becomes. -/
def compile (c : Compiler) (trace : Bool) (e : Expr) : Logging Error Value := do
  let r ← runPasses (bottomUp (first c.rules)) trace (max c.limit 1) 0 e
  log .debug .compiling fun _ => "Compiled in " ++ toString r.passes ++ " pass(es)"
  match r.expr with
  | .value v => return v
  | stuck => throw stuck.unresolved

/-- The text of the query that an expression becomes. -/
def compileToQuery (settings : Settings) (e : Expr) : Logging Error String := do
  let c := Sql.compiler settings.limit
  setUp c
  let v ← compile c settings.trace e
  match Fragment.ofValue? v with
  | some f =>
    log .debug .queries fun _ => "Compiled SQL: " ++ f.text
    return f.text
  | none => throw (.noQueryForm v)

/-- The value that an expression folds to, as text. -/
def compileToValue (settings : Settings) (e : Expr) : Logging Error String := do
  let c := Folding.compiler settings.limit
  setUp c
  let v ← compile c settings.trace e
  log .debug .folding fun _ => "Folded to " ++ v.repr
  return v.repr

end Logging

end QueryExpr
