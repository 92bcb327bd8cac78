import QueryExpr.Proofs.Expr.Leaves
import QueryExpr.Proofs.Folding.Kinds
import QueryExpr.Proofs.Folding.Rules

/-!
# Folding keeps the meaning

The meaning of an expression is the value it has once every column is given one: operators
act on the values of their operands, and without a value of an argument there is none of
the node. Folding rewrites an expression without knowing the values of its columns, and yet
leaves its meaning as it is for each of them (`rewrite_keeps_meaning`).

* `Settles`: what one sweep of the folding rules does to a computable expression. It keeps
  the meaning, a second sweep changes nothing, and without columns a value is left unless
  there is none to compute.
* `Computable.settles`: the induction on the expression.
-/

namespace QueryExpr

open Rule QueryExpr.Expr

/-- The negation of a truth value; null stays null, and nothing else has one. -/
def Value.negation? : Value → Option Value
  | .bool b => some (.bool !b)
  | .null => some .null
  | _ => none

namespace Expr

/-- The expressions that folding is about: raw values, typed scalars and columns under
operators with their number of operands, of whatever categories. -/
inductive Computable : Expr → Prop
  | value {v : Value} (h : v.isFoldable = true) : Computable (.value v)
  | scalar {e : Expr} (h : e.IsScalar) : Computable e
  | column {e : Expr} (h : e.IsColumn) : Computable e
  | binary {op : BinaryOp} {l r : Expr} {c : Categories} (hl : Computable l) (hr : Computable r) :
    Computable (.node (.binary op) [l, r] c)
  | not {e : Expr} {c : Categories} (he : Computable e) : Computable (.node .not [e] c)

/-- **The meaning of an expression** whose columns have the values `ρ` gives them. -/
def meaning? (ρ : Expr → Value) : Expr → Option Value
  | .value v => some v
  | .node (.scalar _) [.value v] _ => some v
  | .node .column args c => some (ρ (.node .column args c))
  | .node (.binary op) [l, r] _ =>
    (l.meaning? ρ).bind fun a => (r.meaning? ρ).bind fun b => Value.foldBinary op a b
  | .node .not [e] _ => (e.meaning? ρ).bind Value.negation?
  | _ => none

/-- No column stands among the operands. -/
def isConstant : Expr → Bool
  | .node .column _ _ => false
  | .node (.binary _) [l, r] _ => l.isConstant && r.isConstant
  | .node .not [e] _ => e.isConstant
  | _ => true

end Expr

theorem Expr.exists_of_isValue {e : Expr} (h : e.isValue = true) : ∃ v, e = .value v := by
  cases e with
  | value v => exact ⟨v, rfl⟩
  | node o args c => cases h

namespace Folding

variable {e l r : Expr} {c : Categories} {op : BinaryOp} {ρ : Expr → Value}

/-! ## The rules on one node -/

/-- An operator over raw values becomes its result, and stays if it has none. -/
theorem applyFirst_values {a b : Value} (ha : a.isFoldable = true) (hb : b.isFoldable = true) :
    applyFirst rules (.node (.binary op) [.value a, .value b] c) =
      match Value.foldBinary op a b with
      | some v => ⟨.value v, true⟩
      | none => ⟨.node (.binary op) [.value a, .value b] c, false⟩ := by
  have hboth : (a.isFoldable && b.isFoldable) = true := by rw [ha, hb]; rfl
  rw [decided.applyFirst, production?, if_pos hboth]
  cases Value.foldBinary op a b <;> rfl

/-- An operator over anything else stays. -/
theorem applyFirst_binary (h : ¬ (l.isValue = true ∧ r.isValue = true)) :
    applyFirst rules (.node (.binary op) [l, r] c) = ⟨.node (.binary op) [l, r] c, false⟩ := by
  cases l <;> cases r <;> first | exact absurd ⟨rfl, rfl⟩ h | rfl

theorem applyFirst_not_value {v : Value} :
    applyFirst rules (.node .not [.value v] c) =
      match v.negation? with
      | some w => ⟨.value w, true⟩
      | none => ⟨.node .not [.value v] c, false⟩ := by
  cases v <;> rfl

theorem applyFirst_not (h : e.isValue = false) :
    applyFirst rules (.node .not [e] c) = ⟨.node .not [e] c, false⟩ := by
  cases e with
  | value v => cases h
  | node o args c' => rfl

theorem isFoldable_negation? {v w : Value} (h : v.negation? = some w) : w.isFoldable = true := by
  cases v <;> cases h <;> rfl

theorem isFoldable_of_accepts {t : ValueType} {v : Value} (h : t.accepts v = true) :
    v.isFoldable = true := by
  cases v <;> first | rfl | (cases t <;> cases h)

/-! ## One sweep -/

/-- **What one sweep of the folding rules does** to an expression. -/
structure Settles (e : Expr) : Prop where
  meaning : ∀ ρ, (sweep rules e).expr.meaning? ρ = e.meaning? ρ
  again : sweep rules (sweep rules e).expr = ⟨(sweep rules e).expr, false⟩
  kept : (sweep rules e).changed = false → (sweep rules e).expr = e
  foldable : ∀ v, (sweep rules e).expr = .value v → v.isFoldable = true
  stuck : e.isConstant = true → (sweep rules e).expr.isValue = false → ∀ ρ, e.meaning? ρ = none

/-- An expression that becomes the value it means. -/
theorem Settles.of_value {v : Value} (h : (sweep rules e).expr = .value v)
    (hv : v.isFoldable = true) (hm : ∀ ρ, e.meaning? ρ = some v) : Settles e where
  meaning ρ := by rw [h, hm]; rfl
  again := (rests concludes e).again
  kept := (rests concludes e).kept
  foldable w hw := by rw [h] at hw; cases hw; exact hv
  stuck _ hw := by rw [h] at hw; cases hw

/-- An expression that stays a node, and of which no value is known. -/
theorem Settles.of_node {e' : Expr} (h : (sweep rules e).expr = e') (hn : e'.isValue = false)
    (hm : ∀ ρ, e'.meaning? ρ = e.meaning? ρ) (hs : e.isConstant = true → ∀ ρ, e.meaning? ρ = none) :
    Settles e where
  meaning ρ := by rw [h, hm]
  again := (rests concludes e).again
  kept := (rests concludes e).kept
  foldable v hv := by rw [h] at hv; subst hv; cases hn
  stuck hc _ := hs hc

theorem Settles.binary (hl : Settles l) (hr : Settles r) :
    Settles (.node (.binary op) [l, r] c) := by
  have hs := sweep_expr concludes (.binary op) [l, r] c
  have hm : ∀ ρ, (Expr.node (.binary op) [(sweep rules l).expr, (sweep rules r).expr] c).meaning? ρ =
      (Expr.node (.binary op) [l, r] c).meaning? ρ := by
    intro ρ
    simp only [meaning?, hl.meaning ρ, hr.meaning ρ]
  simp only [List.map_cons, List.map_nil] at hs
  by_cases hv : (sweep rules l).expr.isValue = true ∧ (sweep rules r).expr.isValue = true
  · -- both operands are computed: so is the operator, or it has no result and stays
    obtain ⟨a, ha⟩ := exists_of_isValue hv.1
    obtain ⟨b, hb⟩ := exists_of_isValue hv.2
    rw [ha, hb] at hs hm
    rw [applyFirst_values (hl.foldable a ha) (hr.foldable b hb)] at hs
    have hab : ∀ ρ, (Expr.node (.binary op) [l, r] c).meaning? ρ = Value.foldBinary op a b :=
      fun ρ => (hm ρ).symm
    cases hf : Value.foldBinary op a b with
    | some v =>
      rw [hf] at hs hab
      exact .of_value hs (Value.isFoldable_foldBinary hf) hab
    | none =>
      rw [hf] at hs hab
      exact .of_node hs rfl hm fun _ => hab
  · rw [applyFirst_binary hv] at hs
    refine .of_node hs rfl hm fun hc ρ => ?_
    -- one of the operands is stuck, and so the operator is
    simp only [isConstant, Bool.and_eq_true] at hc
    rcases Classical.not_and_iff_not_or_not.1 hv with hv | hv
    · simp [meaning?, hl.stuck hc.1 (by simpa using hv)]
    · simp [meaning?, hr.stuck hc.2 (by simpa using hv)]

theorem Settles.not (he : Settles e) : Settles (.node .not [e] c) := by
  have hs := sweep_expr concludes .not [e] c
  have hm : ∀ ρ, (Expr.node .not [(sweep rules e).expr] c).meaning? ρ =
      (Expr.node .not [e] c).meaning? ρ := by
    intro ρ
    simp only [meaning?, he.meaning ρ]
  simp only [List.map_cons, List.map_nil] at hs
  cases hv : (sweep rules e).expr.isValue with
  | true =>
    -- the operand is computed: so is the negation, or there is none of such a value
    obtain ⟨v, hev⟩ := exists_of_isValue hv
    rw [hev] at hs hm
    rw [applyFirst_not_value] at hs
    have hn : ∀ ρ, (Expr.node .not [e] c).meaning? ρ = v.negation? := fun ρ => (hm ρ).symm
    cases hw : v.negation? with
    | some w =>
      rw [hw] at hs hn
      exact .of_value hs (isFoldable_negation? hw) hn
    | none =>
      rw [hw] at hs hn
      exact .of_node hs rfl hm fun _ => hn
  | false =>
    rw [applyFirst_not hv] at hs
    refine .of_node hs rfl hm fun hc ρ => ?_
    simp [meaning?, he.stuck hc hv]

/-! ## Sources and columns are left alone -/

theorem sweep_source (h : e.IsSource) : sweep rules e = ⟨e, false⟩ := by
  induction h with
  | table t =>
    obtain ⟨name, schema, database?, schemaName?⟩ := t
    cases database? <;> cases schemaName? <;> rfl
  | project _ h ih =>
    obtain ⟨narrowed, rfl⟩ := project_ok h
    rw [make, sweep, sweepAll, ih, sweepAll, sweepAll, sweepAll, sweep, sweep]
    rfl

theorem sweep_column (h : e.IsColumn) : sweep rules e = ⟨e, false⟩ := by
  obtain ⟨s, name, shown, c, hs, rfl⟩ := h.shape
  rw [sweep, sweepAll, sweep_source hs, sweepAll, sweepAll, sweepAll, sweep, sweep]
  rfl

theorem Settles.column (h : e.IsColumn) : Settles e := by
  have hs := sweep_column h
  obtain ⟨s, name, shown, c, -, rfl⟩ := h.shape
  exact .of_node (congrArg Rewritten.expr hs) rfl (fun _ => rfl) fun hc => by cases hc

theorem Settles.value {v : Value} (hv : v.isFoldable = true) : Settles (.value v) where
  meaning _ := rfl
  again := rfl
  kept _ := rfl
  foldable w hw := by cases hw; exact hv
  stuck _ hw := by cases hw

theorem Settles.scalar (h : e.IsScalar) : Settles e := by
  obtain ⟨t, v, hv, rfl⟩ := h
  exact .of_value rfl (isFoldable_of_accepts hv) fun _ => rfl

/-- **Every computable expression settles** in one sweep. -/
theorem settles (h : e.Computable) : Settles e := by
  induction h with
  | value hv => exact .value hv
  | scalar h => exact .scalar h
  | column h => exact .column h
  | binary _ _ ihl ihr => exact ihl.binary ihr
  | not _ ih => exact ih.not

/-- **Folding keeps the meaning.** With at least two passes a rewrite comes to rest, and the
tree that is left means what the expression means, whatever the values of its columns. An
expression without columns compiles to what it means, and to an unresolved node exactly
when it means nothing. -/
theorem rewrite_keeps_meaning (he : e.Computable) {limit : Nat} (hl : 2 ≤ limit) :
    ∃ t, (compiler limit).rewrite e = .ok t ∧ (∀ ρ, t.expr.meaning? ρ = e.meaning? ρ) ∧
      (e.isConstant = true → ∀ ρ,
        (∀ v, (compiler limit).compile e = .ok v ↔ e.meaning? ρ = some v) ∧
        (e.meaning? ρ = none → ∃ operation arguments,
          (compiler limit).compile e = .error (.unresolved operation arguments))) := by
  have hs := settles he
  obtain ⟨passes, hr⟩ := Compiler.rewrite_of_settled (c := compiler limit) hl hs.again
  refine ⟨_, hr, hs.meaning, fun hc ρ => ?_⟩
  cases hv : (sweep rules e).expr.isValue with
  | true =>
    obtain ⟨w, hw⟩ := exists_of_isValue hv
    have hm : e.meaning? ρ = some w := by rw [← hs.meaning ρ, hw]; rfl
    rw [Compiler.compile_of_value hr hw, hm]
    exact ⟨fun v => by simp, fun h => by cases h⟩
  | false =>
    rw [Compiler.compile_of_node hr hv, hs.stuck hc hv ρ]
    exact ⟨fun v => by simp, fun _ => ⟨_, _, rfl⟩⟩

/-- The negation of `2 ** 3 < 9`, of which one operand is typed and the others are raw. -/
theorem rewrite_keeps_meaning_power :
    ∃ e : Expr, e = .node .not [.node (.binary .less)
        [.node (.binary .power) [scalar .int8 (.int 2), .value (.int 3)] ∅, .value (.int 9)] ∅] ∅ ∧
      e.Computable ∧ (compiler Settings.defaultLimit).compile e = .ok (.bool false) := by
  have he : Expr.Computable (.node .not [.node (.binary .less)
      [.node (.binary .power) [scalar .int8 (.int 2), .value (.int 3)] ∅, .value (.int 9)] ∅] ∅) :=
    .not (.binary (.binary (.scalar ⟨.int8, .int 2, rfl, rfl⟩) (.value rfl)) (.value rfl))
  obtain ⟨-, -, -, h⟩ := rewrite_keeps_meaning he (show 2 ≤ Settings.defaultLimit by decide)
  exact ⟨_, rfl, he, ((h rfl fun _ => .null).1 _).2 rfl⟩

end Folding

end QueryExpr
