import QueryExpr.Compiler

/-!
# A bottom-up pass as a recursion

`Strategy.bottomUp` walks a tree with a stack of entered nodes. Here the walk is tied to the
recursion that it stands for, and for a list of rules, which never fails, to a plain
function on expressions.

* `bottomUp_eq_descend`: the walk gives what the recursion gives, its errors included.
* `pass_eq_sweep`: one pass of a compiler is `Rule.sweep`.
* `rewrite_of_resting`: **the passes of a rewrite that is at rest after one sweep.**
* `sweep_of_compile`: such an expression compiles only to what the sweep leaves.
-/

namespace QueryExpr

namespace Strategy

variable {s : Strategy}

mutual

/-- **The rewrite of an expression by recursion on it**: arguments first and from left to
right, then the node, which is made anew only if an argument changed. -/
def descend (s : Strategy) : Expr → Except Error Rewritten
  | .value v => .ok ⟨.value v, false⟩
  | .node o args c =>
    match descendAll s args with
    | .error err => .error err
    | .ok (args', changed) =>
      match s (if changed then .node o args' c else .node o args c) with
      | .error err => .error err
      | .ok r => .ok ⟨r.expr, changed || r.changed⟩

/-- The rewritten arguments, and whether any of them changed. -/
def descendAll (s : Strategy) : List Expr → Except Error (List Expr × Bool)
  | [] => .ok ([], false)
  | e :: rest =>
    match descend s e with
    | .error err => .error err
    | .ok r =>
      match descendAll s rest with
      | .error err => .error err
      | .ok (es, changed) => .ok (r.expr :: es, r.changed || changed)

end

/-- Hands the outcome for a node to the nodes that hold it. -/
def resume (s : Strategy) : List Frame → Rewritten → Except Error Rewritten
  | [], r => .ok r
  | parent :: above, r => bottomUpFrom s (parent.push r.expr r.changed) above

theorem bottomUpFrom_nil (node : Expr) (done : List Expr) (changed : Bool) (above : List Frame) :
    bottomUpFrom s ⟨node, done, [], changed⟩ above =
      match s (Frame.rebuilt ⟨node, done, [], changed⟩) with
      | .error err => .error err
      | .ok r => resume s above ⟨r.expr, changed || r.changed⟩ := by
  rw [bottomUpFrom]
  cases s (Frame.rebuilt ⟨node, done, [], changed⟩) with
  | error err => rfl
  | ok r => cases above <;> rfl

mutual

/-- Entering a node comes back with what the recursion gives for it. -/
theorem bottomUpFrom_enter (o : Operation) (args : List Expr) (c : Categories)
    (above : List Frame) :
    bottomUpFrom s (.enter (.node o args c)) above =
      match descend s (.node o args c) with
      | .error err => .error err
      | .ok r => resume s above r := by
  rw [Frame.enter, Expr.args, bottomUpFrom_todo args, descend]
  cases descendAll s args with
  | error err => rfl
  | ok es =>
    obtain ⟨es, changed⟩ := es
    have hr : Frame.rebuilt ⟨.node o args c, es.reverse ++ [], [], changed⟩ =
        if changed then .node o es c else .node o args c := by
      cases changed <;> simp [Frame.rebuilt, Expr.withArgs]
    simp only [Bool.false_or]
    rw [bottomUpFrom_nil, hr]
    cases s (if changed then Expr.node o es c else .node o args c) <;> rfl

/-- The arguments that are to do are replaced by what the recursion makes of them. -/
theorem bottomUpFrom_todo (todo : List Expr) {node : Expr} {done : List Expr} {changed : Bool}
    {above : List Frame} :
    bottomUpFrom s ⟨node, done, todo, changed⟩ above =
      match descendAll s todo with
      | .error err => .error err
      | .ok (es, changed') =>
        bottomUpFrom s ⟨node, es.reverse ++ done, [], changed || changed'⟩ above := by
  match todo with
  | [] => simp [descendAll]
  | .value v :: rest =>
    rw [bottomUpFrom, bottomUpFrom_todo rest, descendAll, descend]
    cases descendAll s rest with
    | error err => rfl
    | ok es => simp
  | .node o args c :: rest =>
    -- the argument is entered, and its outcome comes back to the node that holds it
    rw [bottomUpFrom, bottomUpFrom_enter o args c, descendAll]
    cases descend s (.node o args c) with
    | error err => rfl
    | ok r =>
      simp only [resume, Frame.push]
      rw [bottomUpFrom_todo rest]
      cases descendAll s rest with
      | error err => rfl
      | ok es => simp [Bool.or_assoc]

end

/-- **A bottom-up pass is the recursion on the expression.** -/
theorem bottomUp_eq_descend (s : Strategy) (e : Expr) : bottomUp s e = descend s e := by
  cases e with
  | value v => simp [bottomUp, Expr.isValue, descend]
  | node o args c =>
    simp only [bottomUp, Expr.isValue, Bool.false_eq_true, if_false]
    rw [bottomUpFrom_enter]
    cases descend s (.node o args c) <;> rfl

end Strategy

namespace Rule

variable {rules : List Rule}

mutual

/-- **One pass of a list of rules** over an expression. -/
def sweep (rules : List Rule) : Expr → Rewritten
  | .value v => ⟨.value v, false⟩
  | .node o args c =>
    let swept := sweepAll rules args
    let r := applyFirst rules (if swept.2 then .node o swept.1 c else .node o args c)
    ⟨r.expr, swept.2 || r.changed⟩

/-- The arguments after one pass, and whether any of them changed. -/
def sweepAll (rules : List Rule) : List Expr → List Expr × Bool
  | [] => ([], false)
  | e :: rest =>
    ((sweep rules e).expr :: (sweepAll rules rest).1,
      (sweep rules e).changed || (sweepAll rules rest).2)

end

/-- Where unchanged arguments are the old ones, the node is swept with its new arguments. -/
theorem sweep_node {o : Operation} {args : List Expr} {c : Categories}
    (h : (sweepAll rules args).2 = false → (sweepAll rules args).1 = args) :
    sweep rules (.node o args c) =
      ⟨(applyFirst rules (.node o (sweepAll rules args).1 c)).expr,
        (sweepAll rules args).2 || (applyFirst rules (.node o (sweepAll rules args).1 c)).changed⟩ := by
  rw [sweep]
  cases hc : (sweepAll rules args).2 with
  | false => rw [h hc]; rfl
  | true => rfl

/-- A sweep that reports no change has made none. -/
def Keeps (rules : List Rule) (e : Expr) : Prop :=
  (sweep rules e).changed = false → (sweep rules e).expr = e

mutual

theorem descend_first (rules : List Rule) (e : Expr) :
    Strategy.descend (.first rules) e = .ok (sweep rules e) := by
  match e with
  | .value v => rw [Strategy.descend, sweep]
  | .node o args c =>
    rw [Strategy.descend, descendAll_first rules args, sweep]
    rfl

theorem descendAll_first (rules : List Rule) (es : List Expr) :
    Strategy.descendAll (.first rules) es = .ok (sweepAll rules es) := by
  match es with
  | [] => rw [Strategy.descendAll, sweepAll]
  | e :: rest => rw [Strategy.descendAll, descend_first rules e, descendAll_first rules rest, sweepAll]

end

end Rule

/-- What a compiler gives if its passes leave the expression. -/
def Expr.outcome : Expr → Except Error Value
  | value v => .ok v
  | node o args c => .error (node o args c).unresolved

namespace Compiler

/-- One pass of a compiler is one sweep of its rules. -/
theorem pass_eq_sweep (c : Compiler) (e : Expr) : c.pass e = .ok (Rule.sweep c.rules e) := by
  rw [pass, Strategy.bottomUp_eq_descend, Rule.descend_first]

/-- A sweep that changes nothing ends the rewrite. -/
theorem rewrite_of_unchanged {c : Compiler} {e : Expr}
    (h : (Rule.sweep c.rules e).changed = false) :
    c.rewrite e = .ok ⟨(Rule.sweep c.rules e).expr, false, 1⟩ := by
  obtain ⟨n, hn⟩ : ∃ n, max c.limit 1 = n + 1 := ⟨max c.limit 1 - 1, by omega⟩
  rw [rewrite, Strategy.run, hn, Strategy.runPasses_succ (pass_eq_sweep c e), h]
  rfl

/-- **The rewrite of an expression that is at rest after one sweep**: it takes one pass if that
sweep changes nothing, and else a second one, which finds nothing more. -/
theorem rewrite_of_resting {c : Compiler} {e : Expr}
    (h : Rule.sweep c.rules (Rule.sweep c.rules e).expr = ⟨(Rule.sweep c.rules e).expr, false⟩) :
    c.rewrite e =
      if (Rule.sweep c.rules e).changed then
        if 2 ≤ c.limit then .ok ⟨(Rule.sweep c.rules e).expr, true, 2⟩
        else .error (.nonTerminating 1 (Rule.sweep c.rules e).expr)
      else .ok ⟨(Rule.sweep c.rules e).expr, false, 1⟩ := by
  cases hc : (Rule.sweep c.rules e).changed with
  | false => exact rewrite_of_unchanged hc
  | true =>
    by_cases hl : 2 ≤ c.limit
    · obtain ⟨n, hn⟩ : ∃ n, max c.limit 1 = n + 2 := ⟨max c.limit 1 - 2, by omega⟩
      rw [if_pos rfl, if_pos hl, rewrite, Strategy.run, hn,
        Strategy.runPasses_succ (pass_eq_sweep c e), hc, if_pos rfl,
        Strategy.runPasses_succ (pass_eq_sweep c _), h]
      rfl
    · -- the pass that finds nothing more counts, so one pass does not do
      have hn : max c.limit 1 = 1 := by omega
      rw [if_pos rfl, if_neg hl, rewrite, Strategy.run, hn,
        Strategy.runPasses_succ (pass_eq_sweep c e), hc]
      rfl

/-- **Two passes are enough** when the second sweep finds nothing to change. -/
theorem rewrite_of_settled {c : Compiler} {e : Expr} (hl : 2 ≤ c.limit)
    (h : Rule.sweep c.rules (Rule.sweep c.rules e).expr = ⟨(Rule.sweep c.rules e).expr, false⟩) :
    ∃ passes, c.rewrite e =
      .ok ⟨(Rule.sweep c.rules e).expr, (Rule.sweep c.rules e).changed, passes⟩ := by
  rw [rewrite_of_resting h]
  cases (Rule.sweep c.rules e).changed with
  | false => exact ⟨1, rfl⟩
  | true => exact ⟨2, if_pos hl⟩

/-- A rewrite that ends in a value compiles to it. -/
theorem compile_of_value {c : Compiler} {e : Expr} {r : Fixpoint} {v : Value}
    (h : c.rewrite e = .ok r) (hv : r.expr = .value v) : c.compile e = .ok v := by
  simp only [compile, h, hv]

/-- A rewrite that ends in a node does not compile. -/
theorem compile_of_node {c : Compiler} {e : Expr} {r : Fixpoint} (h : c.rewrite e = .ok r)
    (hn : r.expr.isValue = false) : c.compile e = .error r.expr.unresolved := by
  simp only [compile, h]
  cases hr : r.expr with
  | value v => rw [hr] at hn; cases hn
  | node o args c => rfl

/-- **With two passes an expression that is at rest after one sweep compiles** to what this sweep
leaves. -/
theorem compile_of_settled {c : Compiler} {e : Expr} (hl : 2 ≤ c.limit)
    (h : Rule.sweep c.rules (Rule.sweep c.rules e).expr = ⟨(Rule.sweep c.rules e).expr, false⟩) :
    c.compile e = (Rule.sweep c.rules e).expr.outcome := by
  obtain ⟨passes, hr⟩ := rewrite_of_settled hl h
  cases hswept : (Rule.sweep c.rules e).expr with
  | value v => exact compile_of_value hr hswept
  | node o args categories =>
    have hnode : (Rule.sweep c.rules e).expr.isValue = false := by rw [hswept]; rfl
    rw [compile_of_node hr hnode, hswept]
    rfl

/-- **Whatever the limit, an expression that is at rest after one sweep compiles** only to the
value that this sweep leaves. -/
theorem sweep_of_compile {c : Compiler} {e : Expr} {v : Value}
    (h : Rule.sweep c.rules (Rule.sweep c.rules e).expr = ⟨(Rule.sweep c.rules e).expr, false⟩)
    (hv : c.compile e = .ok v) : (Rule.sweep c.rules e).expr = .value v := by
  have hr : ∃ r, c.rewrite e = .ok r ∧ r.expr = (Rule.sweep c.rules e).expr := by
    have hrewrite := rewrite_of_resting h
    split at hrewrite
    · split at hrewrite
      · exact ⟨_, hrewrite, rfl⟩
      · rw [compile, hrewrite] at hv
        cases hv
    · exact ⟨_, hrewrite, rfl⟩
  obtain ⟨r, hr, hexpr⟩ := hr
  cases hswept : (Rule.sweep c.rules e).expr with
  | value w =>
    rw [compile_of_value hr (hexpr.trans hswept)] at hv
    cases hv
    rfl
  | node o args categories =>
    have hnode : r.expr.isValue = false := by rw [hexpr, hswept]; rfl
    rw [compile_of_node hr hnode] at hv
    cases hv

end Compiler

end QueryExpr
