import QueryExpr.Folding
import QueryExpr.Proofs.Expr.Parts
import QueryExpr.Proofs.Rewrite.Normal

/-!
# What folding does with a node

The rules for folding are one function of the expression, so their order does not matter. It
puts a value in the place of a node, or leaves the node as it is.

* `production?`: what becomes of a node.
* `decided`, `concludes`: **the rules do that, and nothing else.**
-/

namespace QueryExpr

open Rule QueryExpr.Expr

namespace Folding

/-- **What folding does with an expression**, whatever the order of its rules. -/
def production? : Expr → Option Production
  | .node (.scalar _) [.value v] _ => some (.replace (.value v))
  | .node (.binary op) [.value a, .value b] _ =>
    if a.isFoldable && b.isFoldable then
      some ((Value.foldBinary op a b).elim .keep fun v => .replace (.value v))
    else none
  | .node .not [.value v] _ => v.truth?.map fun t => .replace (.value (.ofTruth (t.map (!·))))
  | _ => none

theorem decided : DecidedBy rules production? where
  sound := by
    intro rule e p hrule hp
    simp only [rules, List.mem_cons, List.not_mem_nil, or_false] at hrule
    rcases hrule with rfl | rfl | rfl
    · obtain ⟨⟨t, v⟩, hscalar, rfl⟩ := Option.map_eq_some_iff.1 hp
      obtain ⟨c, rfl⟩ := scalar?_eq_some hscalar
      rfl
    · dsimp only [foldBinary] at hp
      split at hp
      · next op a b hbinary =>
        obtain ⟨c, rfl⟩ := binary?_eq_some hbinary
        exact hp
      · cases hp
    · dsimp only [foldNot] at hp
      split at hp
      · next v hnegated =>
        obtain ⟨c, rfl⟩ := negated?_eq_some hnegated
        exact hp
      · cases hp
  complete := by
    intro e p hp
    unfold production? at hp
    split at hp
    · exact ⟨scalarValue, by simp [rules], hp⟩
    · exact ⟨foldBinary, by simp [rules], hp⟩
    · exact ⟨foldNot, by simp [rules], hp⟩
    · cases hp

theorem concludes : Concludes rules := by
  refine decided.concludes fun {e p} hp => ?_
  unfold production? at hp
  split at hp
  · cases hp
    exact .inr ⟨_, rfl⟩
  · next op a b c =>
    split at hp
    · cases hp
      cases Value.foldBinary op a b with
      | none => exact .inl rfl
      | some v => exact .inr ⟨v, rfl⟩
    · cases hp
  · obtain ⟨t, -, rfl⟩ := Option.map_eq_some_iff.1 hp
    exact .inr ⟨_, rfl⟩
  · cases hp

end Folding

end QueryExpr
