import QueryExpr.Proofs.Folding.Constant
import QueryExpr.Proofs.Sql.RoundTrip

/-!
# Constants mean the same as query text

A constant expression can be folded, and it can be written as a query, read back and folded
then. Reading gives its literals the types of a query, which folding takes off again. So both
ways end in the same value, or at the same stuck operator.

* `elaborate_constant`: without columns a phrase stands for the same expression with a source
  and without one.
* `sweep_retyped`: **folding takes off what reading puts on.**
* `Sql.query_folds_alike`: **a constant folds as its query text does.**
-/

namespace QueryExpr

open Rule Registry QueryExpr.Expr

variable {e : Expr} {v : Value}

/-! ## Spelled literals -/

/-- A spelled literal is a leaf of a query over any source. -/
theorem Expr.IsLiteral.isLeaf (s : Expr) (h : IsLiteral Value.isSpelled e) : IsLeaf s e := by
  cases h with
  | scalar hv h => exact .scalar hv h
  | value h => exact .value h

theorem Expr.IsLiteral.spelled (h : IsLiteral Value.isSpelled e) : e.Spelled := by
  cases h with
  | scalar hv h => exact .scalar h
  | value h => exact .value h

/-! ## Reading without a source -/

/-- **Without columns a phrase stands for the same expression**, with a source and without. -/
theorem elaborate_constant (r : Registry) (source? : Option Expr)
    (h : Formed (IsLiteral Value.isSpelled) e) :
    e.phrase.elaborate r source? = e.phrase.elaborate r none := by
  have hvalue : ∀ v : Value, v.phrase.elaborate r source? = v.phrase.elaborate r none := by
    intro v
    cases v <;> rfl
  induction h with
  | leaf h =>
    cases h with
    | scalar hv h => exact hvalue _
    | value h => exact hvalue _
  | @joined op a b _ _ _ iha ihb =>
    have hphrase : (joined op a b).phrase = .binary op a.phrase b.phrase := rfl
    rw [hphrase, Phrase.elaborate, Phrase.elaborate, iha, ihb]
  | @negated x _ _ _ ih =>
    have hphrase : (negated x).phrase = .not x.phrase := rfl
    rw [hphrase, Phrase.elaborate, Phrase.elaborate, ih]

/-! ## Folding what is read -/

theorem sweep_literal (h : v.isSpelled = true) :
    (sweep Folding.rules v.literal).expr = .value v := by
  cases v with
  | null | bool _ | int _ | float _ | text _ => rfl
  | _ => cases h

/-- **Folding takes off what reading puts on**: one sweep leaves the same of both. -/
theorem sweep_retyped (h : Formed (IsLiteral Value.isSpelled) e) :
    (sweep Folding.rules e.retyped).expr = (sweep Folding.rules e).expr := by
  have hretypes : ∀ {e}, Formed (IsLiteral Value.isSpelled) e → Retypes e :=
    -- there are no columns, so any source will do
    fun h => retypes (h.mono fun _ hl => hl.isLeaf (.value .null))
  induction h with
  | leaf h =>
    cases h with
    | scalar hv h => exact sweep_literal h
    | value h => exact sweep_literal h
  | @joined op a b ha hb h iha ihb =>
    -- both nodes have the same categories, and by induction the same swept operands
    have hnode : joined op a.retyped b.retyped = (joined op a b).retyped :=
      joined_retyped (hretypes ha) (hretypes hb)
    have hcategories : (joined op a.retyped b.retyped).categories = (joined op a b).categories := by
      rw [hnode]
      rfl
    rw [← hnode, Folding.sweep_joined, iha, ihb, hcategories, Folding.sweep_joined]
  | @negated x hx hv hlegal ih =>
    have hnode := negated_retyped (hretypes hx)
    have hcategories : (negated x.retyped).categories = (negated x).categories := by
      rw [hnode]
      rfl
    rw [← hnode, Folding.sweep_negated, ih, hcategories, Folding.sweep_negated]

namespace Sql

/-- **A constant folds as its query text does.** An expression that the standard operators
build of spelled scalars and raw values has a query text. What is read from it without a source
folds to the same value as the expression itself, or is stuck at the same operator over operands
of the same categories. -/
theorem query_folds_alike (he : Built standard (IsLiteral Value.isSpelled) e)
    (hf : ∀ y ∈ e.floats, FloatText.read? (FloatText.text y) = some y) {limit passes : Nat}
    (hl : 2 ≤ limit) (hp : 2 ≤ passes) :
    ∃ sql e', compile (compiler limit) e = .ok sql ∧ Expr.parse standard none sql = .ok e' ∧
      (Folding.compiler passes).compile e' = (Folding.compiler passes).compile e ∧
      ((∃ v, (Folding.compiler passes).compile e = .ok v) ∨
        ∃ operation arguments,
          (Folding.compiler passes).compile e = .error (.unresolved operation arguments)) := by
  have hformed := formed_of_built (fun _ => IsLiteral.closed) he
  have hspelled := spelled_of_leaves (fun _ => IsLiteral.spelled) hformed
  have hread : e.phrase.elaborate standard none = .ok e.retyped := by
    rw [← elaborate_constant standard (some (.value .null)) hformed]
    exact elaborate_phrase (hformed.mono fun _ h => h.isLeaf _) hf
  have hfold : (Folding.compiler passes).compile e = (sweep Folding.rules e).expr.outcome :=
    Folding.compile_eq_outcome e hp
  refine ⟨e.phrase.fragment.text, e.retyped, compile_phrase hspelled hl, ?_, ?_, ?_⟩
  · rw [Expr.parse, Phrase.tokenize_fragment hspelled.plain]
    show (readPhrase e.phrase.tokens).elaborate standard none = _
    rw [readPhrase_tokens hspelled.plain, hread]
  · rw [hfold, Folding.compile_eq_outcome _ hp, sweep_retyped hformed]
  · rw [hfold]
    cases (sweep Folding.rules e).expr with
    | value v => exact .inl ⟨v, rfl⟩
    | node o args c => exact .inr ⟨_, _, rfl⟩

/-- The negation of `1.5 < (-2) ** 3`, whose comparison is built as its mirror image and of
whose operands one is typed, is true, and so is its text. -/
theorem query_folds_alike_power :
    ∃ p m n sql e', standard.applyBinary (.binary .power) (Expr.scalar .int8 (.int (-2)))
        (.value (.int 3)) = .ok p ∧
      standard.applyBinary (.binary .less) (.value (.float 1.5)) p = .ok m ∧
      standard.applyUnary .not m = .ok n ∧
      compile (compiler Settings.defaultLimit) n = .ok sql ∧
      Expr.parse standard none sql = .ok e' ∧
      (Folding.compiler Settings.defaultLimit).compile e' = .ok (.bool true) := by
  have hlimit : 2 ≤ Settings.defaultLimit := by decide
  obtain ⟨p, hp⟩ : ∃ p, p = joined .power (Expr.scalar .int8 (.int (-2))) (.value (.int 3)) := ⟨_, rfl⟩
  have hpower : standard.applyBinary (.binary .power) (Expr.scalar .int8 (.int (-2)))
      (.value (.int 3)) = .ok p := by
    rw [hp]
    rfl
  obtain ⟨m, hm⟩ : ∃ m, m = joined .greater p (.value (.float 1.5)) := ⟨_, rfl⟩
  have hless : standard.applyBinary (.binary .less) (.value (.float 1.5)) p = .ok m := by
    rw [hm, hp]
    rfl
  have hnot : standard.applyUnary .not m = .ok (negated m) := by
    rw [hm, hp]
    exact applyUnary_of_operand (Categories.closure_closure _) rfl rfl
  have hbuilt : Built standard (IsLiteral Value.isSpelled) (negated m) :=
    .unary (.binary (.leaf (.value rfl))
      (.binary (.leaf (.scalar rfl rfl)) (.leaf (.value rfl)) hpower) hless) hnot
  have hfloat : FloatText.read? (FloatText.text 1.5) = some 1.5 := by decide +kernel
  have hfloats : ∀ y ∈ (negated m).floats, FloatText.read? (FloatText.text y) = some y := by
    rw [hm, hp]
    intro y hy
    rw [List.mem_singleton.mp hy]
    exact hfloat
  obtain ⟨sql, e', hsql, hread, hsame, -⟩ := query_folds_alike hbuilt hfloats hlimit hlimit
  refine ⟨p, m, negated m, sql, e', hpower, hless, hnot, hsql, hread, ?_⟩
  rw [hsame, Folding.compile_eq_outcome _ hlimit, hm, hp]
  rfl

end Sql

end QueryExpr
