import QueryExpr.Expr.Build
import QueryExpr.Expr.View

/-!
# The parts of an expression

What a node is of which a view finds something, and what stands at or below a node.

* `scalar?_eq_some`, `binary?_eq_some`, `columnName?_eq_some` and so on: the node behind a view.
* `everywhere_node`: **a condition on all that stands in a node** is one on the node and on all
  that stands in its arguments.
-/

namespace QueryExpr

namespace Expr

variable {e l r x : Expr} {op : BinaryOp} {t : ValueType} {v : Value} {o : Operation}
  {args : List Expr} {c : Categories}

/-! ## Views -/

theorem scalar?_eq_some (h : e.scalar? = some (t, v)) : ∃ c, e = .node (.scalar t) [.value v] c := by
  unfold scalar? at h
  split at h
  · cases h
    exact ⟨_, rfl⟩
  · cases h

theorem binary?_eq_some (h : e.binary? = some (op, l, r)) :
    ∃ c, e = .node (.binary op) [l, r] c := by
  unfold binary? at h
  split at h
  · cases h
    exact ⟨_, rfl⟩
  · cases h

theorem negated?_eq_some (h : e.negated? = some x) : ∃ c, e = .node .not [x] c := by
  unfold negated? at h
  split at h
  · cases h
    exact ⟨_, rfl⟩
  · cases h

theorem operandsOf?_eq_some (h : e.operandsOf? op = some (l, r)) :
    ∃ c, e = .node (.binary op) [l, r] c := by
  unfold operandsOf? at h
  split at h
  · next found operands hbinary =>
    split at h
    · next heq =>
      subst heq
      cases h
      exact binary?_eq_some hbinary
    · cases h
  · cases h

theorem columnName?_eq_some {name : String} (h : e.columnName? = some name) :
    ∃ args c, e = .node .column args c := by
  unfold columnName? at h
  cases e with
  | value v => cases h
  | node o args c =>
    cases o with
    | column => exact ⟨args, c, rfl⟩
    | _ => cases h

theorem projectedNames?_eq_some {names : List String} (h : e.projectedNames? = some names) :
    ∃ args c, e = .node .projection args c := by
  unfold projectedNames? at h
  cases e with
  | value v => cases h
  | node o args c =>
    cases o with
    | projection => exact ⟨args, c, rfl⟩
    | _ => cases h

/-! ## Visits -/

theorem mem_allVisitsFrom {depth : Nat} {p : Nat × Expr} {es : List Expr} :
    p ∈ allVisitsFrom depth es ↔ ∃ x ∈ es, p ∈ x.visitsFrom depth := by
  induction es with
  | nil => simp [allVisitsFrom]
  | cons e es ih => simp [allVisitsFrom, ih]

/-- Every expression is the first of its visits. -/
theorem self_mem_visitsFrom (depth : Nat) (e : Expr) : (depth, e) ∈ e.visitsFrom depth := by
  cases e with
  | value v => exact List.mem_singleton.2 rfl
  | node o args c => exact List.mem_cons_self

/-- What stands in an expression is the same at every depth. -/
theorem map_snd_visitsFrom (depth : Nat) (e : Expr) :
    (e.visitsFrom depth).map Prod.snd = e.visits.map Prod.snd := by
  rw [visits]
  generalize 0 = other
  induction e using Expr.induct generalizing depth other with
  | value v => rfl
  | node o args c ih =>
    simp only [visitsFrom, List.map_cons, allVisitsFrom_eq, List.map_flatMap, List.cons.injEq,
      true_and]
    rw [List.flatMap_def, List.flatMap_def,
      List.map_congr_left fun e he => ih e he (depth + 1) (other + 1)]

/-- **All that stands in an expression**, itself included, meets a condition. -/
def Everywhere (P : Expr → Prop) (e : Expr) : Prop := ∀ visit ∈ e.visits, P visit.2

variable {P : Expr → Prop}

theorem everywhere_iff (depth : Nat) :
    Everywhere P e ↔ ∀ visit ∈ e.visitsFrom depth, P visit.2 := by
  rw [Everywhere, ← List.forall_mem_map, ← map_snd_visitsFrom depth e, List.forall_mem_map]

theorem Everywhere.self (h : Everywhere P e) : P e := h _ (self_mem_visitsFrom 0 e)

@[simp] theorem everywhere_value : Everywhere P (.value v) ↔ P (.value v) := by
  rw [everywhere_iff 0]
  simp [visitsFrom]

/-- The node meets the condition, and so does all that stands in its arguments. -/
@[simp] theorem everywhere_node :
    Everywhere P (.node o args c) ↔ P (.node o args c) ∧ ∀ x ∈ args, Everywhere P x := by
  rw [everywhere_iff 0]
  simp only [visitsFrom, List.forall_mem_cons, everywhere_iff (0 + 1), mem_allVisitsFrom]
  refine and_congr_right fun _ => ?_
  exact ⟨fun h x hx visit hv => h visit ⟨x, hx, hv⟩, fun h visit ⟨x, hx, hv⟩ => h x hx visit hv⟩

end Expr

end QueryExpr
