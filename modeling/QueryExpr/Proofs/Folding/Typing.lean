import QueryExpr.Proofs.Folding.Constant
import QueryExpr.Proofs.Rewrite.Stuck

/-!
# Folding respects the categories

The standard operators give a node its categories before anything is computed. What folding
makes of the node has the kind that its categories name, so the operators find the operands
that they can work on. Only arithmetic and comparisons that need an order may then be stuck.

* `Value.Suits`: a value has the kinds that categories name.
* `Blocked`: what a sweep leaves of an expression that it does not compute, down to the first
  operator without a result.
* `types`: the induction on the expression. It computes to a value of the right kind, or it is
  blocked.
* `Folding.compile_respects_categories`: **constants fold to values of their kind, and only
  partial operators get stuck.**
-/

namespace QueryExpr

open Rule Registry QueryExpr.Expr

variable {e a b x l r : Expr} {op : BinaryOp} {c : Categories} {u v w : Value} {t : ValueType}

/-! ## Kinds and categories -/

/-- **The value is of the kinds that the categories name.** -/
structure Value.Suits (v : Value) (c : Categories) : Prop where
  truth : c.has .boolean = true → v.isTruth = true
  number : c.has .numeric = true → v.isNumeric = true

theorem Value.suits_categories (v : Value) : v.Suits v.categories := by
  constructor
  · intro hboolean
    cases v with
    | bool _ | null => rfl
    | _ =>
      simp only [Value.categories, Value.kind] at hboolean
      exact absurd hboolean (by decide)
  · intro hnumeric
    cases v with
    | int _ | decimal _ | float _ | null => rfl
    | _ =>
      simp only [Value.categories, Value.kind] at hnumeric
      exact absurd hnumeric (by decide)

/-- A typed scalar holds a value that suits its type. -/
theorem Value.suits_scalar (h : t.accepts v = true) : v.Suits (scalar t v).categories := by
  have hc : (scalar t v).categories = (t.categories .scalar).closure := rfl
  rw [hc]
  constructor
  · intro hboolean
    cases t with
    | bool => cases v <;> first | rfl | cases h
    | _ => exact absurd hboolean (by decide)
  · intro hnumeric
    cases t with
    | bool | date | time | timestamp | string => exact absurd hnumeric (by decide)
    | _ => cases v <;> first | rfl | cases h

/-- An arithmetic node carries its shape and the widest category of its operands. -/
theorem categories_arithmetic (h : op.family = .arithmetic) (a b : Expr) :
    (joined op a b).categories =
      Categories.closure ({(Constructor.shapeOf [a, b]).category} ∪
        {Constructor.numericKind (.binary op) [a, b]}) := by
  have hc : (joined op a b).categories =
      ((standardConstructor (.binary op)).resultCategories [a, b]).closure := rfl
  rw [hc]
  simp only [Constructor.resultCategories, standardConstructor, standardResult, h]

/-- A comparison or a connective carries its shape and is a truth value. -/
theorem categories_truth (h : op.family ≠ .arithmetic) (a b : Expr) :
    (joined op a b).categories =
      Categories.closure ({(Constructor.shapeOf [a, b]).category} ∪ {.boolean}) := by
  have hc : (joined op a b).categories =
      ((standardConstructor (.binary op)).resultCategories [a, b]).closure := rfl
  rw [hc]
  cases hf : op.family with
  | arithmetic => exact absurd hf h
  | comparison | logical =>
    simp only [Constructor.resultCategories, standardConstructor, standardResult, hf]

/-- Arithmetic is not a truth value. -/
theorem has_boolean_joined (h : op.family = .arithmetic) (a b : Expr) :
    (joined op a b).categories.has .boolean = false := by
  rw [categories_arithmetic h]
  cases Constructor.shapeOf [a, b] <;>
    rcases numericKind_cases (.binary op) [a, b] with hk | hk | hk | hk <;> rw [hk] <;> decide

/-- A truth value is not a number. -/
theorem has_numeric_truth (s : Shape) :
    (Categories.closure ({s.category} ∪ {.boolean})).has .numeric = false := by
  cases s <;> decide

theorem has_numeric_joined (h : op.family ≠ .arithmetic) (a b : Expr) :
    (joined op a b).categories.has .numeric = false := by
  rw [categories_truth h]
  exact has_numeric_truth _

/-- **The result of an operator suits its node.** -/
theorem Value.suits_joined (h : Value.foldBinary op v w = some u) (a b : Expr) :
    u.Suits (joined op a b).categories := by
  cases hf : op.family with
  | arithmetic =>
    rw [Value.foldBinary, hf] at h
    refine ⟨fun hboolean => ?_, fun _ => isNumeric_foldArithmetic h⟩
    rw [has_boolean_joined hf] at hboolean
    cases hboolean
  | comparison =>
    rw [Value.foldBinary, hf] at h
    refine ⟨fun _ => isTruth_foldComparison h, fun hnumeric => ?_⟩
    rw [has_numeric_joined (by rw [hf]; decide)] at hnumeric
    cases hnumeric
  | logical =>
    rw [Value.foldBinary, hf] at h
    refine ⟨fun _ => isTruth_foldLogical h, fun hnumeric => ?_⟩
    rw [has_numeric_joined (by rw [hf]; decide)] at hnumeric
    cases hnumeric

/-- A negation is a truth value, and there is one of every truth value. -/
theorem Value.negation?_of_isTruth (h : v.isTruth = true) :
    ∃ u, v.negation? = some u ∧ u.isTruth = true := by
  cases v with
  | bool b => exact ⟨_, rfl, rfl⟩
  | null => exact ⟨_, rfl, rfl⟩
  | _ => cases h

theorem Value.suits_negated (h : u.isTruth = true) (x : Expr) : u.Suits (negated x).categories := by
  refine ⟨fun _ => h, fun hnumeric => ?_⟩
  have hc : (negated x).categories =
      Categories.closure ({(Constructor.shapeOf [x]).category} ∪ {.boolean}) := rfl
  rw [hc, has_numeric_truth] at hnumeric
  cases hnumeric

/-! ## Blocked expressions -/

namespace Folding

/-- **What folding leaves of an expression that has no value**: on the way down from the top,
and to the left of everything else, a partial operator stands over two values. -/
inductive Blocked : Expr → Prop
  | here {op : BinaryOp} {v w : Value} {c : Categories} (h : op.isPartial = true) :
    Blocked (.node (.binary op) [.value v, .value w] c)
  | left {op : BinaryOp} {l r : Expr} {c : Categories} (hl : Blocked l) :
    Blocked (.node (.binary op) [l, r] c)
  | right {op : BinaryOp} {v : Value} {r : Expr} {c : Categories} (hr : Blocked r) :
    Blocked (.node (.binary op) [.value v, r] c)
  | under {x : Expr} {c : Categories} (hx : Blocked x) : Blocked (.node .not [x] c)

theorem Blocked.isValue (h : Blocked e) : e.isValue = false := by
  cases h <;> rfl

/-- **The error names the partial operator** at which an expression is blocked. -/
theorem Blocked.stuck (h : Blocked e) :
    ∃ (op : BinaryOp) (v w : Value) (c : Categories), op.isPartial = true ∧
      e.stuck? = some (.node (.binary op) [.value v, .value w] c) := by
  induction h with
  | @here op v w c h => exact ⟨op, v, w, c, h, rfl⟩
  | @left op l r c hl ih =>
    obtain ⟨op', v, w, c', hpartial, hstuck⟩ := ih
    refine ⟨op', v, w, c', hpartial, ?_⟩
    have hall : [l, r].all Expr.isValue = false := by simp [hl.isValue]
    rw [stuck?, if_neg (by rw [hall]; decide), anyStuck?, hstuck]
  | @right op v r c hr ih =>
    obtain ⟨op', v', w, c', hpartial, hstuck⟩ := ih
    refine ⟨op', v', w, c', hpartial, ?_⟩
    have hall : [Expr.value v, r].all Expr.isValue = false := by simp [hr.isValue]
    rw [stuck?, if_neg (by rw [hall]; decide), anyStuck?, stuck?, anyStuck?, hstuck]
  | @under x c hx ih =>
    obtain ⟨op', v, w, c', hpartial, hstuck⟩ := ih
    refine ⟨op', v, w, c', hpartial, ?_⟩
    have hall : [x].all Expr.isValue = false := by simp [hx.isValue]
    rw [stuck?, if_neg (by rw [hall]; decide), anyStuck?, hstuck]

theorem Blocked.outcome (h : Blocked e) :
    ∃ (op : BinaryOp) (v w : Value), op.isPartial = true ∧
      e.outcome = .error (.unresolved op.label [v.categories, w.categories]) := by
  obtain ⟨op, v, w, c, hpartial, hstuck⟩ := h.stuck
  refine ⟨op, v, w, hpartial, ?_⟩
  have hunresolved : e.unresolved = .unresolved op.label [v.categories, w.categories] := by
    rw [Expr.unresolved, stuckNode?_eq_stuck?, hstuck]
    rfl
  cases e with
  | value u => cases h
  | node o args c => rw [Expr.outcome, hunresolved]

/-! ## The induction -/

/-- **A sweep computes a value that suits the expression, or leaves it blocked.** -/
inductive Types (e : Expr) : Prop
  | value (v : Value) (h : (sweep rules e).expr = .value v) (hv : v.Suits e.categories)
  | blocked (h : Blocked (sweep rules e).expr)

/-- An operand of a logical operator computes to a truth value. -/
theorem isTruth_of_legal (h : isLegalOperand .logical e = true)
    (hv : (sweep rules e).expr = .value v) (hsuits : v.Suits e.categories) : v.isTruth = true := by
  -- a raw null is legal without being a truth value by its categories
  by_cases hnull : e = .value .null
  · subst hnull
    cases hv
    rfl
  · rw [isLegalOperand_of_ne _ hnull] at h
    exact hsuits.truth h

theorem Types.joined (ha : a.Computable) (hb : b.Computable) (hta : Types a) (htb : Types b)
    (h : Operands op a b) : Types (joined op a b) := by
  have hexpr : (sweep rules (Registry.joined op a b)).expr = _ := sweep_joined op a b
  -- one blocked operand blocks the operator, and the left one comes first
  cases hta with
  | blocked hla =>
    rw [applyFirst_binary (by simp [hla.isValue])] at hexpr
    refine .blocked ?_
    rw [hexpr]
    exact .left hla
  | value v hv hsv =>
    cases htb with
    | blocked hrb =>
      rw [applyFirst_binary (by simp [hrb.isValue]), hv] at hexpr
      refine .blocked ?_
      rw [hexpr]
      exact .right hrb
    | value w hw hsw =>
      rw [hv, hw, applyFirst_values ((settles ha).foldable v hv) ((settles hb).foldable w hw)]
        at hexpr
      cases hf : Value.foldBinary op v w with
      | some u =>
        rw [hf] at hexpr
        exact .value u hexpr (Value.suits_joined hf a b)
      | none =>
        rw [hf] at hexpr
        refine .blocked ?_
        rw [hexpr]
        -- an operator that is not partial would have a result
        refine .here ?_
        by_contra hpartial
        have htruth : op.family = .logical → v.isTruth = true ∧ w.isTruth = true := by
          intro hlogical
          have hlegal := h.left
          have hlegal' := h.right
          rw [hlogical] at hlegal hlegal'
          exact ⟨isTruth_of_legal hlegal hv hsv, isTruth_of_legal hlegal' hw hsw⟩
        obtain ⟨u, hu⟩ := Value.exists_foldBinary (by simpa using hpartial) htruth
        rw [hf] at hu
        cases hu

theorem Types.negated (htx : Types x) (hlegal : isLegalOperand .logical x = true) :
    Types (negated x) := by
  have hexpr := sweep_negated x
  cases htx with
  | blocked hxb =>
    rw [applyFirst_not hxb.isValue] at hexpr
    refine .blocked ?_
    rw [hexpr]
    exact .under hxb
  | value v hv hsv =>
    -- every truth value has a negation, so a negation is never stuck itself
    obtain ⟨u, hu, hut⟩ := Value.negation?_of_isTruth (isTruth_of_legal hlegal hv hsv)
    rw [hv, applyFirst_not_value, hu] at hexpr
    exact .value u hexpr (Value.suits_negated hut x)

variable {admits : Value → Bool}

/-- **Every expression formed of literals computes to its kind or is blocked.** -/
theorem types (hadmits : ∀ v, admits v = true → v.isFoldable = true)
    (h : Formed (IsLiteral admits) e) : Types e := by
  induction h with
  | leaf h =>
    cases h with
    | @scalar t v hv h => exact .value v rfl (Value.suits_scalar hv)
    | @value v h => exact .value v rfl v.suits_categories
  | joined ha hb h iha ihb => exact .joined (ha.computable hadmits) (hb.computable hadmits) iha ihb h
  | negated hx hv hlegal ih => exact .negated ih hlegal

/-- **Constants fold to values of their kind, and only partial operators get stuck.** Of an
expression that the standard operators build of typed scalars and raw values, whatever stands
in it and folds becomes a truth value or null if it carries `BOOLEAN`, and a number or null if
it carries `NUMERIC`. Where the whole does not fold, the error names arithmetic or a comparison
that needs an order, over two values. -/
theorem compile_respects_categories (he : Built standard (IsLiteral Value.isFoldable) e)
    {limit : Nat} (hl : 2 ≤ limit) :
    (∀ depth x v, (depth, x) ∈ e.visits → (compiler limit).compile x = .ok v →
      (x.categories.has .boolean = true → v.isTruth = true) ∧
        (x.categories.has .numeric = true → v.isNumeric = true)) ∧
    ∀ err, (compiler limit).compile e = .error err →
      ∃ (op : BinaryOp) (v w : Value), op.isPartial = true ∧
        err = .unresolved op.label [v.categories, w.categories] := by
  have hformed := formed_of_built (fun _ => IsLiteral.closed) he
  have hcompile : ∀ x, (compiler limit).compile x = (sweep rules x).expr.outcome :=
    fun x => compile_eq_outcome x hl
  constructor
  · intro depth x v hx hv
    have hx : Formed (IsLiteral Value.isFoldable) x := hformed.visit 0 (depth, x) hx
    rw [hcompile] at hv
    cases types (fun _ => id) hx with
    | value w hw hsuits =>
      rw [hw] at hv
      cases hv
      exact ⟨hsuits.truth, hsuits.number⟩
    | blocked h =>
      obtain ⟨op, a, b, -, herr⟩ := h.outcome
      rw [herr] at hv
      cases hv
  · intro err herr
    rw [hcompile] at herr
    cases types (fun _ => id) hformed with
    | value w hw hsuits =>
      rw [hw] at herr
      cases herr
    | blocked h =>
      obtain ⟨op, a, b, hpartial, houtcome⟩ := h.outcome
      rw [houtcome] at herr
      cases herr
      exact ⟨op, a, b, hpartial, rfl⟩

/-- The negation of `2 <= 7 // 0`, whose comparison is built as its mirror image, is stuck at
the quotient, and what stands beside the quotient has the kind of its categories. -/
theorem compile_respects_categories_quotient :
    ∃ q m n v, standard.applyBinary (.binary .floorDivide) (.value (.int 7)) (scalar .int8 (.int 0)) =
        .ok q ∧
      standard.applyBinary (.binary .lessEqual) (.value (.int 2)) q = .ok m ∧
      standard.applyUnary .not m = .ok n ∧
      (compiler Settings.defaultLimit).compile (scalar .int8 (.int 0)) = .ok v ∧ v.isNumeric = true ∧
      ∃ (op : BinaryOp) (a b : Value), op.isPartial = true ∧
        (compiler Settings.defaultLimit).compile n =
          .error (.unresolved op.label [a.categories, b.categories]) := by
  have hlimit : 2 ≤ Settings.defaultLimit := by decide
  have hvalue : ∀ n, Built standard (IsLiteral Value.isFoldable) (.value (.int n)) :=
    fun n => .leaf (.value rfl)
  have hzero : Built standard (IsLiteral Value.isFoldable) (scalar .int8 (.int 0)) :=
    .leaf (.scalar rfl rfl)
  obtain ⟨q, hq⟩ : ∃ q, q = joined .floorDivide (.value (.int 7)) (scalar .int8 (.int 0)) := ⟨_, rfl⟩
  have happly : standard.applyBinary (.binary .floorDivide) (.value (.int 7))
      (scalar .int8 (.int 0)) = .ok q := by rw [hq]; rfl
  obtain ⟨m, hm⟩ : ∃ m, m = joined .greaterEqual q (.value (.int 2)) := ⟨_, rfl⟩
  have hcompare : standard.applyBinary (.binary .lessEqual) (.value (.int 2)) q = .ok m := by
    rw [hm, hq]
    rfl
  have hnot : standard.applyUnary .not m = .ok (negated m) := by
    rw [hm, hq]
    rfl
  have hbuilt := Built.unary (.binary (hvalue 2) (.binary (hvalue 7) hzero happly) hcompare) hnot
  obtain ⟨hkinds, hstuck⟩ := compile_respects_categories hbuilt hlimit
  have hvisit : (3, scalar .int8 (.int 0)) ∈ (negated m).visits := by
    rw [hm, hq]
    exact List.mem_of_getElem? (show _ = (negated _).visits[4]? from rfl).symm
  have houtcome : ∀ x, (compiler Settings.defaultLimit).compile x = (sweep rules x).expr.outcome :=
    fun x => compile_eq_outcome x hlimit
  have hzerofolds : (compiler Settings.defaultLimit).compile (scalar .int8 (.int 0)) =
      .ok (.int 0) := houtcome _
  have hfails : ∃ err, (compiler Settings.defaultLimit).compile (negated m) = .error err := by
    rw [houtcome, hm, hq]
    exact ⟨_, rfl⟩
  obtain ⟨err, herr⟩ := hfails
  obtain ⟨op, a, b, hpartial, rfl⟩ := hstuck err herr
  exact ⟨q, m, negated m, .int 0, happly, hcompare, hnot, hzerofolds,
    (hkinds 3 _ _ hvisit hzerofolds).2 rfl, op, a, b, hpartial, herr⟩

end Folding

end QueryExpr
