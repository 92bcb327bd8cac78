import QueryExpr.Proofs.Folding.Comparison
import QueryExpr.Proofs.Folding.Decimals

/-!
# Comparisons among one another

The comparisons of two values fit together. A null makes them null, but for the test of being
identical, which tells two nulls from a null and another value. Two other values are equal or they
are not, and are identical accordingly; if they have an order, one of the three relations holds
between them, and otherwise no comparison of size is given. Integers and decimals have the order of
their exact values, whether or not they are of one kind.

* `foldBinary_null`: comparisons with a null.
* `foldBinary_of_order`: comparisons of other values are read off their order.
* `compare?_exact`: **integers and decimals are ordered by value.**
* `comparisons_coherent`: all this together.
-/

namespace QueryExpr

namespace Value

variable {op : BinaryOp} {a b c : Value} {d e : Decimal}

/-! ## Nulls -/

/-- **A null makes comparisons null**, but for the test of being identical. -/
theorem foldBinary_null (h : a.isNull ∨ b.isNull) (hop : op.family = .comparison)
    (hne : op ≠ .identical) : foldBinary op a b = some .null := by
  have hnull : (a.isNull || b.isNull) = true := by rwa [Bool.or_eq_true]
  unfold foldBinary foldComparison
  rw [hop]
  simp only [if_neg hne, hnull, if_true]

theorem foldBinary_identical_null (h : a.isNull ∨ b.isNull) :
    foldBinary .identical a b = some (.bool (a.isNull && b.isNull)) := by
  have hnull : (a.isNull || b.isNull) = true := by rwa [Bool.or_eq_true]
  have hidentical : foldBinary .identical a b = some (.bool (areIdentical a b)) := rfl
  rw [hidentical, areIdentical, if_pos hnull]

/-! ## Other values -/

/-- **Comparisons of values that are not null** are read off the order of the values. -/
theorem foldBinary_of_order (ha : ¬ a.isNull) (hb : ¬ b.isNull) (hop : op.family = .comparison)
    (hne : op ≠ .identical) :
    foldBinary op a b = (decideComparison? op (a.compare? b)).map .bool := by
  have hnull : ¬ (a.isNull || b.isNull) = true := by
    rw [Bool.or_eq_true]
    exact not_or.mpr ⟨ha, hb⟩
  unfold foldBinary foldComparison
  rw [hop]
  simp only [if_neg hne, if_neg hnull]

theorem foldBinary_identical (ha : ¬ a.isNull) (hb : ¬ b.isNull) :
    foldBinary .identical a b = some (.bool (a.compare? b == some .eq)) := by
  have hnull : ¬ (a.isNull || b.isNull) = true := by
    rw [Bool.or_eq_true]
    exact not_or.mpr ⟨ha, hb⟩
  have hidentical : foldBinary .identical a b = some (.bool (areIdentical a b)) := rfl
  rw [hidentical, areIdentical, if_neg hnull]

/-- The comparisons of two values that are not null belong together: `equal` decides equality in all
its forms, and the values have no order, or one in which exactly one of the relations `less`,
`equal` and `greater` holds. -/
structure BelongTogether (a b : Value) (equal : Bool) : Prop where
  equals : foldBinary .equals a b = some (.bool equal)
  notEquals : foldBinary .notEquals a b = some (.bool !equal)
  identical : foldBinary .identical a b = some (.bool equal)
  order : (∀ op ∈ [BinaryOp.less, .lessEqual, .greater, .greaterEqual], foldBinary op a b = none) ∨
    ∃ less greater : Bool, [less, equal, greater].count true = 1 ∧
      foldBinary .less a b = some (.bool less) ∧ foldBinary .greater a b = some (.bool greater) ∧
      foldBinary .lessEqual a b = some (.bool !greater) ∧
      foldBinary .greaterEqual a b = some (.bool !less)

theorem belongTogether (ha : ¬ a.isNull) (hb : ¬ b.isNull) :
    BelongTogether a b (a.compare? b == some .eq) := by
  have hfold : ∀ op : BinaryOp, op.family = .comparison → op ≠ .identical →
      foldBinary op a b = (decideComparison? op (a.compare? b)).map .bool :=
    fun op hop hne => foldBinary_of_order ha hb hop hne
  refine ⟨?_, ?_, foldBinary_identical ha hb, ?_⟩
  · rw [hfold .equals rfl (by decide)]
    rfl
  · rw [hfold .notEquals rfl (by decide)]
    rfl
  · rw [hfold .less rfl (by decide), hfold .greater rfl (by decide),
      hfold .lessEqual rfl (by decide), hfold .greaterEqual rfl (by decide)]
    cases horder : a.compare? b with
    | none =>
      left
      intro op hop
      simp only [List.mem_cons, List.not_mem_nil, or_false] at hop
      rcases hop with rfl | rfl | rfl | rfl
      all_goals rw [hfold _ rfl (by decide), horder]; rfl
    | some order =>
      right
      refine ⟨order == .lt, order == .gt, ?_, rfl, rfl, rfl, rfl⟩
      cases order <;> rfl

/-! ## Exact numbers -/

theorem not_isNull_of_exact (ha : a.exactNumber? = some d) : ¬ a.isNull := by
  obtain ⟨n, rfl, -⟩ | rfl := exactNumber?_cases ha
  · simp [isNull]
  · simp [isNull]

/-- **Integers and decimals are ordered by value.** -/
theorem compare?_exact (ha : a.exactNumber? = some d) (hb : b.exactNumber? = some e) :
    a.compare? b = some (cmp d.value e.value) := by
  obtain ⟨m, rfl, rfl⟩ | rfl := exactNumber?_cases ha
  · obtain ⟨n, rfl, rfl⟩ | rfl := exactNumber?_cases hb
    · have hcast : StrictMono (Int.cast : ℤ → ℚ) := Int.cast_strictMono
      rw [Decimal.value_ofInt, Decimal.value_ofInt, hcast.cmp_map_eq, cmp_eq_compare]
      rfl
    · exact congrArg some (Decimal.compare_eq_cmp _ _)
  · obtain ⟨n, rfl, rfl⟩ | rfl := exactNumber?_cases hb
    · exact congrArg some (Decimal.compare_eq_cmp _ _)
    · exact congrArg some (Decimal.compare_eq_cmp _ _)

theorem foldBinary_equals_exact (ha : a.exactNumber? = some d) (hb : b.exactNumber? = some e) :
    foldBinary .equals a b = some (.bool (decide (d.value = e.value))) := by
  have hequal : (some (cmp d.value e.value) == some Ordering.eq) = decide (d.value = e.value) := by
    rw [Bool.eq_iff_iff, beq_iff_eq, Option.some.injEq, cmp_eq_eq_iff, decide_eq_true_iff]
  rw [foldBinary_of_order (not_isNull_of_exact ha) (not_isNull_of_exact hb) rfl (by decide),
    compare?_exact ha hb, ← hequal]
  rfl

theorem foldBinary_less_exact (ha : a.exactNumber? = some d) (hb : b.exactNumber? = some e) :
    foldBinary .less a b = some (.bool (decide (d.value < e.value))) := by
  have hless : (cmp d.value e.value == Ordering.lt) = decide (d.value < e.value) := by
    rw [Bool.eq_iff_iff, beq_iff_eq, cmp_eq_lt_iff, decide_eq_true_iff]
  rw [foldBinary_of_order (not_isNull_of_exact ha) (not_isNull_of_exact hb) rfl (by decide),
    compare?_exact ha hb, ← hless]
  rfl

/-- A test that a transitive relation of the exact values decides is transitive. -/
theorem foldBinary_trans (r : ℚ → ℚ → Prop) [DecidableRel r] (hr : ∀ x y z, r x y → r y z → r x z)
    (hfold : ∀ {a b : Value} {d e : Decimal}, a.exactNumber? = some d →
      b.exactNumber? = some e → foldBinary op a b = some (.bool (decide (r d.value e.value))))
    (ha : a.exactNumber?.isSome) (hb : b.exactNumber?.isSome) (hc : c.exactNumber?.isSome)
    (hab : foldBinary op a b = some (.bool true)) (hbc : foldBinary op b c = some (.bool true)) :
    foldBinary op a c = some (.bool true) := by
  obtain ⟨x, hx⟩ := Option.isSome_iff_exists.mp ha
  obtain ⟨y, hy⟩ := Option.isSome_iff_exists.mp hb
  obtain ⟨z, hz⟩ := Option.isSome_iff_exists.mp hc
  simp only [hfold hx hy, hfold hy hz, Option.some.injEq, bool.injEq, decide_eq_true_eq] at hab hbc
  rw [hfold hx hz, decide_eq_true (hr _ _ _ hab hbc)]

/-- **The comparisons of values are coherent.** Each has the outcome of its mirror image with the
operands exchanged. A null makes a comparison null, or two values identical only if both are null.
Comparisons of other values belong together. Integers and decimals are equal or less as their exact
values are, whatever their kinds, so both tests are transitive on them. -/
theorem comparisons_coherent (a b c : Value) :
    (∀ op : BinaryOp, op.family = .comparison →
      ∃ mirror, op.mirrored? = some mirror ∧ foldBinary op a b = foldBinary mirror b a) ∧
    (a.isNull ∨ b.isNull →
      foldBinary .identical a b = some (.bool (a.isNull && b.isNull)) ∧
      ∀ op : BinaryOp, op.family = .comparison → op ≠ .identical →
        foldBinary op a b = some .null) ∧
    (¬ a.isNull → ¬ b.isNull → ∃ equal, BelongTogether a b equal) ∧
    (∀ d e, a.exactNumber? = some d → b.exactNumber? = some e →
      foldBinary .equals a b = some (.bool (decide (d.value = e.value))) ∧
      foldBinary .less a b = some (.bool (decide (d.value < e.value)))) ∧
    ∀ op ∈ [BinaryOp.equals, .less],
      a.exactNumber?.isSome → b.exactNumber?.isSome → c.exactNumber?.isSome →
      foldBinary op a b = some (.bool true) → foldBinary op b c = some (.bool true) →
      foldBinary op a c = some (.bool true) := by
  refine ⟨fun op hop => ?_, fun hnull => ⟨foldBinary_identical_null hnull, fun op hop hne =>
    foldBinary_null hnull hop hne⟩, fun ha hb => ⟨_, belongTogether ha hb⟩, fun d e ha hb =>
    ⟨foldBinary_equals_exact ha hb, foldBinary_less_exact ha hb⟩, fun op hop ha hb hc => ?_⟩
  · obtain ⟨mirror, hmirror⟩ := Option.isSome_iff_exists.mp (BinaryOp.family_mirrored.mpr hop)
    exact ⟨mirror, hmirror, (foldBinary_mirrored hmirror a b).symm⟩
  · simp only [List.mem_cons, List.not_mem_nil, or_false] at hop
    rcases hop with rfl | rfl
    · exact foldBinary_trans (· = ·) (fun _ _ _ => Eq.trans) foldBinary_equals_exact ha hb hc
    · exact foldBinary_trans (· < ·) (fun _ _ _ => lt_trans) foldBinary_less_exact ha hb hc

/-- The integer 1 is the decimal 1.0 and less than 1.50, hence 1.0 is less than 1.50, and 1.50 is
greater than 1. A null is not identical to 1. -/
theorem comparisons_coherent_unit :
    foldBinary .equals (.decimal ⟨10, 1⟩) (.int 1) = some (.bool true) ∧
      foldBinary .less (.decimal ⟨10, 1⟩) (.decimal ⟨150, 2⟩) = some (.bool true) ∧
      foldBinary .greater (.decimal ⟨150, 2⟩) (.decimal ⟨10, 1⟩) = some (.bool true) ∧
      foldBinary .identical (.decimal ⟨10, 1⟩) .null = some (.bool false) ∧
      foldBinary .equals (.decimal ⟨10, 1⟩) .null = some .null := by
  have hone : (1 : Int64).toInt = 1 := rfl
  obtain ⟨hmirror, -, -, hexact, -⟩ :=
    comparisons_coherent (.decimal ⟨10, 1⟩) (.decimal ⟨150, 2⟩) .null
  obtain ⟨-, hnull, -⟩ := comparisons_coherent (.decimal ⟨10, 1⟩) .null .null
  obtain ⟨-, -, -, hmixed, -⟩ := comparisons_coherent (.decimal ⟨10, 1⟩) (.int 1) .null
  have hless : foldBinary .less (.decimal ⟨10, 1⟩) (.decimal ⟨150, 2⟩) = some (.bool true) := by
    rw [(hexact _ _ rfl rfl).2, decide_eq_true (by norm_num [Decimal.value])]
  refine ⟨?_, hless, ?_, (hnull (.inr rfl)).1, (hnull (.inr rfl)).2 .equals rfl (by decide)⟩
  · rw [(hmixed _ _ rfl rfl).1, decide_eq_true (by norm_num [Decimal.value, Decimal.ofInt, hone])]
  · obtain ⟨mirror, hturned, hsame⟩ := hmirror .less rfl
    cases hturned
    rw [← hsame, hless]

end Value

end QueryExpr
