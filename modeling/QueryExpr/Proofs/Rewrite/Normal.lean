import Mathlib.Tactic.ByContra
import QueryExpr.Proofs.Rewrite.BottomUp

/-!
# Normal forms

Rules of which at most one has a say on a node do the same in every order. And where a rule
puts a raw value in the place of the node or leaves it as it is, nothing below a node has
anything left to do once the node itself is done.

* `DecidedBy`: the rules do what a function of the expression says, in whatever order they
  come.
* `Concludes`: what rules do to a node is to put a value in its place.
* `rests`: the induction on the expression. **One sweep of such rules leaves a normal form.**
* `sweep_expr`: what becomes of a node follows from what becomes of its arguments.
-/

namespace QueryExpr

open QueryExpr.Expr

namespace Rule

variable {rules others : List Rule} {f : Expr → Option Production} {e : Expr}

/-! ## Rules as one function -/

/-- The outcome of what rules decide, or the expression as it is. -/
def settle (e : Expr) : Option Production → Rewritten
  | some p => p.outcome e
  | none => ⟨e, false⟩

/-- **The rules have one say together**: whichever of them applies does what `f` says, and
one of them applies where `f` says something. -/
structure DecidedBy (rules : List Rule) (f : Expr → Option Production) : Prop where
  sound : ∀ {rule : Rule} {e : Expr} {p : Production},
    rule ∈ rules → rule.produce? e = some p → f e = some p
  complete : ∀ {e : Expr} {p : Production}, f e = some p → ∃ rule ∈ rules, rule.produce? e = some p

theorem applyFirst_eq (rules : List Rule) (e : Expr) :
    applyFirst rules e = settle e (rules.findSome? fun rule => rule.produce? e) := by
  induction rules with
  | nil => rfl
  | cons rule rules ih =>
    rw [applyFirst, List.findSome?_cons]
    cases rule.produce? e with
    | some p => rfl
    | none => exact ih

/-- The first rule that applies does what the function says. -/
theorem DecidedBy.applyFirst (h : DecidedBy rules f) (e : Expr) :
    Rule.applyFirst rules e = settle e (f e) := by
  rw [applyFirst_eq]
  congr 1
  cases hfound : rules.findSome? (fun rule => rule.produce? e) with
  | some p =>
    obtain ⟨rule, hrule, hp⟩ := List.exists_of_findSome?_eq_some hfound
    exact (h.sound hrule hp).symm
  | none =>
    -- a rule that did what the function says would have been found
    rw [List.findSome?_eq_none_iff] at hfound
    cases hf : f e with
    | none => rfl
    | some p =>
      obtain ⟨rule, hrule, hp⟩ := h.complete hf
      rw [hfound rule hrule] at hp
      cases hp

/-- **The order of the rules does not matter.** -/
theorem DecidedBy.perm (h : DecidedBy rules f) (hp : others.Perm rules) : DecidedBy others f where
  sound hrule := h.sound (hp.mem_iff.1 hrule)
  complete hf := by
    obtain ⟨rule, hrule, hp'⟩ := h.complete hf
    exact ⟨rule, hp.mem_iff.2 hrule, hp'⟩

mutual

/-- A sweep depends on the outcomes of the rules alone. -/
theorem sweep_congr (h : ∀ e, applyFirst rules e = applyFirst others e) (e : Expr) :
    sweep rules e = sweep others e := by
  match e with
  | .value v => rw [sweep, sweep]
  | .node o args c => rw [sweep, sweep, sweepAll_congr h args, h]

theorem sweepAll_congr (h : ∀ e, applyFirst rules e = applyFirst others e) (es : List Expr) :
    sweepAll rules es = sweepAll others es := by
  match es with
  | [] => rw [sweepAll, sweepAll]
  | e :: rest => rw [sweepAll, sweepAll, sweep_congr h e, sweepAll_congr h rest]

end

/-! ## Normal forms -/

/-- No rule has anything left to do, neither on a node nor on what stands below it. -/
inductive Normal (rules : List Rule) : Expr → Prop
  | value (v : Value) : Normal rules (.value v)
  | node {o : Operation} {args : List Expr} {c : Categories}
    (hargs : ∀ e ∈ args, Normal rules e)
    (h : applyFirst rules (.node o args c) = ⟨.node o args c, false⟩) :
    Normal rules (.node o args c)

/-- The arguments are swept one by one. -/
theorem sweepAll_eq (rules : List Rule) (es : List Expr) :
    sweepAll rules es =
      (es.map fun e => (sweep rules e).expr, es.any fun e => (sweep rules e).changed) := by
  induction es with
  | nil => rw [sweepAll]; rfl
  | cons e es ih => rw [sweepAll, ih]; rfl

/-- The arguments stay if each of them does. -/
theorem map_expr_eq_iff {es : List Expr} :
    (es.map fun e => (sweep rules e).expr) = es ↔ ∀ e ∈ es, (sweep rules e).expr = e := by
  have hid := List.map_inj_left (l := es) (f := fun e => (sweep rules e).expr) (g := id)
  rwa [List.map_id] at hid

/-- **A sweep leaves a normal form as it is.** -/
theorem Normal.sweep (h : Normal rules e) : sweep rules e = ⟨e, false⟩ := by
  induction h with
  | value v => rw [Rule.sweep]
  | @node o args c hargs h ih =>
    have hexprs : (args.map fun e => (Rule.sweep rules e).expr) = args :=
      map_expr_eq_iff.2 fun e he => by rw [ih e he]
    have hchanged : (args.any fun e => (Rule.sweep rules e).changed) = false := by
      rw [List.any_eq_false]
      intro e he
      rw [ih e he]
      exact Bool.false_ne_true
    have hall : sweepAll rules args = (args, false) := by rw [sweepAll_eq, hexprs, hchanged]
    rw [Rule.sweep, hall]
    simp only [Bool.false_eq_true, if_false, h, Bool.or_self]

/-- **What applies to a node puts a value in its place**, or leaves it as it is. -/
def Concludes (rules : List Rule) : Prop :=
  ∀ o args c, applyFirst rules (.node o args c) = ⟨.node o args c, false⟩ ∨
    ∃ v, applyFirst rules (.node o args c) = ⟨.value v, true⟩

/-- **What one sweep leaves of an expression**, and when it reports a change. -/
structure Rests (rules : List Rule) (e : Expr) : Prop where
  normal : Normal rules (sweep rules e).expr
  changed : (sweep rules e).changed = true ↔ (sweep rules e).expr ≠ e

/-- A change among the arguments shows in them. -/
theorem changed_sweepAll {es : List Expr} (h : ∀ e ∈ es, Rests rules e) :
    (sweepAll rules es).2 = true ↔ (sweepAll rules es).1 ≠ es := by
  rw [sweepAll_eq, List.any_eq_true, ne_eq, map_expr_eq_iff]
  constructor
  · rintro ⟨e, he, hchanged⟩ hsame
    exact (h e he).changed.1 hchanged (hsame e he)
  · intro hne
    by_contra hnone
    refine hne fun e he => ?_
    by_contra hexpr
    exact hnone ⟨e, he, (h e he).changed.2 hexpr⟩

/-- Arguments among which nothing changes are the old ones. -/
theorem sweepAll_of_rests {es : List Expr} (h : ∀ e ∈ es, Rests rules e)
    (hc : (sweepAll rules es).2 = false) : (sweepAll rules es).1 = es := by
  by_contra hne
  rw [(changed_sweepAll h).2 hne] at hc
  cases hc

/-- **One sweep leaves a normal form** of every expression. -/
theorem rests (h : Concludes rules) (e : Expr) : Rests rules e := by
  induction e using Expr.induct with
  | value v =>
    refine ⟨?_, ?_⟩
    · rw [sweep]
      exact .value v
    · rw [sweep]
      simp
  | node o args c ih =>
    have hargs := changed_sweepAll ih
    have hnode : sweep rules (.node o args c) = _ := sweep_node (sweepAll_of_rests ih)
    have hnormal : ∀ e ∈ (sweepAll rules args).1, Normal rules e := by
      rw [sweepAll_eq]
      simp only [List.mem_map]
      rintro _ ⟨e, he, rfl⟩
      exact (ih e he).normal
    -- a node that stays has normal arguments, and a value has nothing below it
    rcases h o (sweepAll rules args).1 c with hstay | ⟨v, hvalue⟩
    · rw [hstay, Bool.or_false] at hnode
      refine ⟨?_, ?_⟩
      · rw [hnode]
        exact .node hnormal hstay
      · rw [hnode, hargs]
        simp
    · rw [hvalue, Bool.or_true] at hnode
      refine ⟨?_, ?_⟩
      · rw [hnode]
        exact .value v
      · rw [hnode]
        simp

/-- What becomes of a node follows from what becomes of its arguments. -/
theorem sweep_expr (h : Concludes rules) (o : Operation) (args : List Expr) (c : Categories) :
    (sweep rules (.node o args c)).expr =
      (applyFirst rules (.node o (args.map fun e => (sweep rules e).expr) c)).expr := by
  rw [sweep_node (sweepAll_of_rests fun e _ => rests h e), sweepAll_eq]

/-- Nothing is left to do after one sweep. -/
theorem Rests.again (h : Rests rules e) :
    sweep rules (sweep rules e).expr = ⟨(sweep rules e).expr, false⟩ := h.normal.sweep

theorem Rests.kept (h : Rests rules e) : Keeps rules e := by
  intro hc
  by_contra hne
  rw [h.changed.2 hne] at hc
  cases hc

/-- Rules conclude if all that they decide is a value, or to keep the node. -/
theorem DecidedBy.concludes (h : DecidedBy rules f)
    (hf : ∀ {e p}, f e = some p → p = .keep ∨ ∃ v, p = .replace (.value v)) : Concludes rules := by
  intro o args c
  rw [h.applyFirst]
  cases hp : f (.node o args c) with
  | none => exact .inl rfl
  | some p =>
    rcases hf hp with rfl | ⟨v, rfl⟩
    · exact .inl rfl
    · exact .inr ⟨v, rfl⟩

end Rule

end QueryExpr
