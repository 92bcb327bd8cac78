import QueryExpr.Proofs.Folding.Rules
import QueryExpr.Proofs.Sql.Rules

/-!
# One pass is enough

In each of the two standard lists at most one rule has a say on a node, and it leaves nothing to
do below the node. So one pass of either list does all that its rules can do, whatever their
order, and a second one finds nothing more.

* `Compiler.rewrite_converges`: **the standard rules are done after one pass, in any order.**
-/

namespace QueryExpr

open Rule QueryExpr.Expr

namespace Compiler

/-- **The standard rules are done after one pass, in any order.** With a limit of at least two
passes the rewrite of an expression, however it was made, comes to rest: after one pass if that
pass changes nothing, and otherwise after a second one. The tree that is left does not depend
on the order of the rules, and another rewrite leaves it as it is. A pass reports a change
exactly if the tree is another one. -/
theorem rewrite_converges {standard rules : List Rule} {limit : Nat}
    (hstandard : standard = Folding.rules ∨ standard = Sql.rules) (hp : rules.Perm standard)
    (hl : 2 ≤ limit) (e : Expr) :
    ∃ r, (Compiler.mk rules limit).pass e = .ok r ∧ (r.changed = true ↔ r.expr ≠ e) ∧
      (Compiler.mk rules limit).rewrite e = .ok ⟨r.expr, r.changed, if r.changed then 2 else 1⟩ ∧
      (Compiler.mk standard limit).rewrite e = (Compiler.mk rules limit).rewrite e ∧
      (Compiler.mk rules limit).rewrite r.expr = .ok ⟨r.expr, false, 1⟩ := by
  obtain ⟨f, hdecided, hconcludes⟩ : ∃ f, DecidedBy standard f ∧ Concludes standard := by
    rcases hstandard with rfl | rfl
    · exact ⟨_, Folding.decided, Folding.concludes⟩
    · exact ⟨_, Sql.decided, Sql.concludes⟩
  have happly : ∀ e, applyFirst rules e = applyFirst standard e := by
    intro e
    rw [(hdecided.perm hp).applyFirst, hdecided.applyFirst]
  have hrests : Rests rules e := by
    refine rests (fun o args c => ?_) e
    rw [happly]
    exact hconcludes o args c
  have hrewrite : ∀ list : List Rule, sweep list e = sweep rules e →
      sweep list (sweep list e).expr = ⟨(sweep list e).expr, false⟩ →
      (Compiler.mk list limit).rewrite e = .ok ⟨(sweep rules e).expr, (sweep rules e).changed,
        if (sweep rules e).changed then 2 else 1⟩ := by
    intro list hsweep hagain
    rw [rewrite_of_resting hagain, hsweep]
    cases (sweep rules e).changed with
    | false => rfl
    | true => exact if_pos hl
  have hsweep := sweep_congr happly
  have hpass := hrewrite rules rfl hrests.again
  refine ⟨sweep rules e, pass_eq_sweep _ e, hrests.changed, hpass, ?_, ?_⟩
  · rw [hpass]
    refine hrewrite standard (hsweep e).symm ?_
    rw [← hsweep, ← hsweep, hrests.again]
  · have hstill : (sweep rules (sweep rules e).expr).changed = false := by rw [hrests.again]
    rw [rewrite_of_unchanged hstill, hrests.again]

/-- The rules for queries backwards, on a call of which one argument is a sum of one operand:
the other argument is written out, and the call stays. -/
theorem rewrite_converges_reversed :
    ∃ call rest : Expr,
      call = .node (.function "f") [scalar .bool (.bool true), .node (.binary .add) [.value .null] ∅] ∅ ∧
      rest = .node (.function "f")
        [.value (.fragment (.atom "TRUE")), .node (.binary .add) [.value .null] ∅] ∅ ∧
      (Compiler.mk Sql.rules.reverse 2).rewrite call = .ok ⟨rest, true, 2⟩ ∧
      (Compiler.mk Sql.rules.reverse 2).rewrite rest = .ok ⟨rest, false, 1⟩ := by
  refine ⟨_, _, rfl, rfl, ?_⟩
  obtain ⟨r, hpass, -, hrewrite, -, hagain⟩ :=
    rewrite_converges (.inr rfl) (List.reverse_perm Sql.rules) (Nat.le_refl 2)
      (.node (.function "f") [scalar .bool (.bool true), .node (.binary .add) [.value .null] ∅] ∅)
  rw [pass_eq_sweep] at hpass
  cases hpass
  exact ⟨hrewrite, hagain⟩

end Compiler

end QueryExpr
