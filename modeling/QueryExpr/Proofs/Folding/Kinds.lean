import QueryExpr.Folding

/-!
# The kinds of results

Whatever its operands are, an operator that has a result has one of the kind of its family:
arithmetic gives numbers, comparisons and logic give truth values, and both may give null.
The operators that can lack a result over operands of the right kind are those of arithmetic
and the comparisons that need an order (`isPartial`).

* `isNumeric_foldArithmetic`, `isTruth_foldComparison`, `isTruth_foldLogical`: the kind of a
  result.
* `exists_foldBinary`: **every other operator has a result** over operands of its kind.
-/

namespace QueryExpr

/-- The operators that may have no result: arithmetic, and comparisons that ask for an order. -/
def BinaryOp.isPartial : BinaryOp → Bool
  | add | subtract | multiply | divide | floorDivide | power | modulus => true
  | greaterEqual | greater | lessEqual | less => true
  | _ => false

theorem BinaryOp.isPartial_of_arithmetic {op : BinaryOp} (h : op.family = .arithmetic) :
    op.isPartial = true := by
  revert h
  cases op <;> decide

namespace Value

variable {op : BinaryOp} {a b v : Value}

/-- A truth value, or null for the unknown one. -/
def isTruth : Value → Bool
  | bool _ | null => true
  | _ => false

/-- A number, or null. -/
def isNumeric : Value → Bool
  | int _ | decimal _ | float _ | null => true
  | _ => false

theorem isFoldable_of_isTruth (h : v.isTruth = true) : v.isFoldable = true := by
  cases v <;> first | rfl | cases h

theorem isFoldable_of_isNumeric (h : v.isNumeric = true) : v.isFoldable = true := by
  cases v <;> first | rfl | cases h

theorem exists_truth? (h : v.isTruth = true) : ∃ t, v.truth? = some t := by
  cases v with
  | bool b => exact ⟨some b, rfl⟩
  | null => exact ⟨none, rfl⟩
  | _ => cases h

theorem isTruth_ofTruth (t : Option Bool) : (ofTruth t).isTruth = true := by
  cases t <;> rfl

/-! ## Arithmetic -/

theorem isNumeric_of_map {α : Type} {f : α → Value} (hf : ∀ a, (f a).isNumeric = true)
    {o : Option α} (h : o.map f = some v) : v.isNumeric = true := by
  obtain ⟨a, -, rfl⟩ := Option.map_eq_some_iff.1 h
  exact hf a

theorem isNumeric_finite? {x : Float} (h : Number.finite? x = some v) : v.isNumeric = true := by
  unfold Number.finite? at h
  split at h <;> cases h
  rfl

theorem isNumeric_intPower? {a b : Int64} (h : Number.intPower? a b = some v) :
    v.isNumeric = true := by
  unfold Number.intPower? at h
  split at h
  · exact isNumeric_finite? h
  · exact isNumeric_of_map (fun _ => rfl) h

theorem isNumeric_combineInts {a b : Int64} (h : Number.combineInts op a b = some v) :
    v.isNumeric = true := by
  unfold Number.combineInts at h
  split at h
  all_goals first
    | exact isNumeric_intPower? h
    | exact isNumeric_of_map (fun _ => rfl) h
    | cases h

theorem isNumeric_combineFloats {a b : Float} (h : Number.combineFloats op a b = some v) :
    v.isNumeric = true := by
  unfold Number.combineFloats at h
  split at h
  all_goals first
    | exact isNumeric_finite? h
    | split at h <;> first | exact isNumeric_finite? h | cases h
    | cases h

theorem isNumeric_combine {a b : Number} (h : Number.combine op a b = some v) :
    v.isNumeric = true := by
  unfold Number.combine at h
  split at h
  · split at h
    · cases h
    · exact isNumeric_finite? h
  · split at h
    · exact isNumeric_combineInts h
    · exact isNumeric_combineFloats h
    · exact isNumeric_of_map (fun _ => rfl) h

/-- **Arithmetic gives numbers.** -/
theorem isNumeric_foldArithmetic (h : foldArithmetic op a b = some v) : v.isNumeric = true := by
  unfold foldArithmetic at h
  split at h
  · cases h
    rfl
  · split at h
    · exact isNumeric_combine h
    · cases h

/-! ## Comparisons and logic -/

/-- **Comparisons give truth values.** -/
theorem isTruth_foldComparison (h : foldComparison op a b = some v) : v.isTruth = true := by
  unfold foldComparison at h
  split at h
  · cases h
    rfl
  · split at h
    · cases h
      rfl
    · obtain ⟨holds, -, rfl⟩ := Option.map_eq_some_iff.1 h
      rfl

/-- **Logic gives truth values.** -/
theorem isTruth_foldLogical (h : foldLogical op a b = some v) : v.isTruth = true := by
  unfold foldLogical at h
  split at h
  · obtain ⟨t, -, rfl⟩ := Option.map_eq_some_iff.1 h
    exact isTruth_ofTruth t
  · cases h

/-- The result of an operator is never a list, a schema or a fragment. -/
theorem isFoldable_foldBinary (h : foldBinary op a b = some v) : v.isFoldable = true := by
  cases hf : op.family <;> simp only [foldBinary, hf] at h
  · exact isFoldable_of_isNumeric (isNumeric_foldArithmetic h)
  · exact isFoldable_of_isTruth (isTruth_foldComparison h)
  · exact isFoldable_of_isTruth (isTruth_foldLogical h)

/-! ## Results that there are -/

/-- Two values are equal or unequal, also when they are in no order. -/
theorem exists_foldComparison (hop : op.family = .comparison) (hpartial : op.isPartial = false) :
    ∃ v, foldComparison op a b = some v := by
  unfold foldComparison
  by_cases hidentical : op = .identical
  · rw [if_pos hidentical]
    exact ⟨_, rfl⟩
  · rw [if_neg hidentical]
    by_cases hnull : (a.isNull || b.isNull) = true
    · rw [if_pos hnull]
      exact ⟨_, rfl⟩
    · rw [if_neg hnull]
      cases op with
      | equals | notEquals => exact ⟨_, rfl⟩
      | identical => exact absurd rfl hidentical
      | greaterEqual | greater | lessEqual | less => cases hpartial
      | _ => cases hop

theorem exists_connect? (hop : op.family = .logical) (s t : Option Bool) :
    ∃ u, connect? op s t = some u := by
  cases op with
  | and =>
    unfold connect?
    dsimp only
    split
    · exact ⟨_, rfl⟩
    · split <;> exact ⟨_, rfl⟩
  | or =>
    unfold connect?
    dsimp only
    split
    · exact ⟨_, rfl⟩
    · split <;> exact ⟨_, rfl⟩
  | xor =>
    unfold connect?
    dsimp only
    split <;> exact ⟨_, rfl⟩
  | _ => cases hop

theorem exists_foldLogical (hop : op.family = .logical) (ha : a.isTruth = true)
    (hb : b.isTruth = true) : ∃ v, foldLogical op a b = some v := by
  obtain ⟨s, hs⟩ := exists_truth? ha
  obtain ⟨t, ht⟩ := exists_truth? hb
  obtain ⟨u, hu⟩ := exists_connect? hop s t
  refine ⟨ofTruth u, ?_⟩
  unfold foldLogical
  rw [hs, ht]
  simp only [hu, Option.map_some]

/-- **Only a partial operator may lack a result** over operands of the kind of its family. -/
theorem exists_foldBinary (hpartial : op.isPartial = false)
    (htruth : op.family = .logical → a.isTruth = true ∧ b.isTruth = true) :
    ∃ v, foldBinary op a b = some v := by
  cases hf : op.family with
  | arithmetic =>
    rw [BinaryOp.isPartial_of_arithmetic hf] at hpartial
    cases hpartial
  | comparison =>
    obtain ⟨v, hv⟩ := exists_foldComparison (a := a) (b := b) hf hpartial
    exact ⟨v, by rw [foldBinary, hf]; exact hv⟩
  | logical =>
    obtain ⟨ha, hb⟩ := htruth hf
    obtain ⟨v, hv⟩ := exists_foldLogical hf ha hb
    exact ⟨v, by rw [foldBinary, hf]; exact hv⟩

end Value

end QueryExpr
