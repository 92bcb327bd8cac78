import QueryExpr.Proofs.Expr.Parts
import QueryExpr.Proofs.Folding.Meaning
import QueryExpr.Proofs.Registry.Standard

/-!
# Constant expressions

What the standard operators build of typed scalars and raw values alone. Folding is done with an
expression after one sweep: what is left then decides what it compiles to.

* `Expr.IsLiteral`: the leaves, of values that a condition admits.
* `Registry.Formed.computable`: folding is about what is formed of them.
* `Folding.compile_eq_outcome`: **an expression compiles to what one sweep leaves of it.**
-/

namespace QueryExpr

open Rule Registry QueryExpr.Expr

namespace Expr

/-- A typed scalar, or a raw value, that holds an admitted value. -/
inductive IsLiteral (admits : Value → Bool) : Expr → Prop
  | scalar {t : ValueType} {v : Value} (hv : t.accepts v = true) (h : admits v = true) :
    IsLiteral admits (scalar t v)
  | value {v : Value} (h : admits v = true) : IsLiteral admits (value v)

end Expr

variable {admits : Value → Bool} {e a b x : Expr} {op : BinaryOp}

theorem Expr.IsLiteral.closed (h : IsLiteral admits e) : e.categories.closure = e.categories := by
  cases h with
  | scalar hv h => exact Categories.closure_closure _
  | value h => exact Value.closure_categories _

/-- What is formed of literals that can be folded is computable. -/
theorem Registry.Formed.computable (hadmits : ∀ v, admits v = true → v.isFoldable = true)
    (h : Formed (IsLiteral admits) e) : e.Computable := by
  induction h with
  | leaf h =>
    cases h with
    | scalar hv h => exact .scalar ⟨_, _, hv, rfl⟩
    | value h => exact .value (hadmits _ h)
  | joined _ _ _ iha ihb => exact .binary iha ihb
  | negated _ _ _ ih => exact .not ih

/-- Whatever stands in an expression formed of literals is formed of them as well. -/
theorem Registry.Formed.visit (h : Formed (IsLiteral admits) e) (depth : Nat) :
    ∀ p ∈ e.visitsFrom depth, Formed (IsLiteral admits) p.2 := by
  have hself := h
  induction h generalizing depth with
  | leaf h =>
    cases h with
    | scalar hv h =>
      intro p hp
      rcases List.mem_cons.mp hp with rfl | hp
      · exact hself
      · rw [List.mem_singleton.mp hp]
        exact .leaf (.value h)
    | value h =>
      intro p hp
      rw [List.mem_singleton.mp hp]
      exact hself
  | joined ha hb _ iha ihb =>
    intro p hp
    rcases List.mem_cons.mp hp with rfl | hp
    · exact hself
    · obtain ⟨y, hy, hvisit⟩ := mem_allVisitsFrom.mp hp
      rcases List.mem_cons.mp hy with rfl | hy
      · exact iha (depth + 1) ha p hvisit
      · rw [List.mem_singleton.mp hy] at hvisit
        exact ihb (depth + 1) hb p hvisit
  | negated hx _ _ ih =>
    intro p hp
    rcases List.mem_cons.mp hp with rfl | hp
    · exact hself
    · obtain ⟨y, hy, hvisit⟩ := mem_allVisitsFrom.mp hp
      rw [List.mem_singleton.mp hy] at hvisit
      exact ih (depth + 1) hx p hvisit

namespace Folding

/-- Folding works on the node of an operator once its operands are swept. -/
theorem sweep_joined (op : BinaryOp) (a b : Expr) :
    (sweep rules (joined op a b)).expr =
      (applyFirst rules (.node (.binary op) [(sweep rules a).expr, (sweep rules b).expr]
        (joined op a b).categories)).expr :=
  sweep_expr concludes (.binary op) [a, b] (joined op a b).categories

theorem sweep_negated (x : Expr) :
    (sweep rules (negated x)).expr =
      (applyFirst rules (.node .not [(sweep rules x).expr] (negated x).categories)).expr :=
  sweep_expr concludes .not [x] (negated x).categories

/-- **An expression compiles to what one sweep leaves of it.** -/
theorem compile_eq_outcome (e : Expr) {limit : Nat} (hl : 2 ≤ limit) :
    (compiler limit).compile e = (sweep rules e).expr.outcome :=
  Compiler.compile_of_settled hl (rests concludes e).again

end Folding

end QueryExpr
