import QueryExpr.Proofs.Decimal.Quotient

/-!
# Floors of rounded numbers

A number that is rounded before its floor is taken may have another floor than the number itself.
If the step of the rounding is at most one, that happens when the number is carried to the next
integer; if the step is greater, when the floor is no multiple of it.

* `Crosses`: the numbers whose floor is missed.
* `RoundsTo.floor_eq_iff`: **rounding keeps the floor of all other numbers.**
* `floor_quotient_iff`: the quotients of decimals whose floor is missed.
* `not_floorSlips`: a dividend below `2 * 10 ^ 99` of the last places of both decimals is safe.
-/

namespace QueryExpr

namespace Decimal

variable {a b : Decimal} {p : ℤ} {u x q : ℚ}

/-! ## Multiples of a step -/

theorem add_step_le {j k : ℤ} (hu : 0 < u) (h : (j : ℚ) * u < k * u) : j * u + u ≤ k * u := by
  have hlt : j < k := by exact_mod_cast lt_of_mul_lt_mul_right h hu.le
  have hle : (j : ℚ) + 1 ≤ k := by exact_mod_cast hlt
  have := mul_le_mul_of_nonneg_right hle hu.le
  linarith

theorem eq_of_close {j k : ℤ} (hu : 0 < u) (h : |(j : ℚ) * u - k * u| < u) : (j : ℚ) * u = k * u := by
  rw [abs_lt] at h
  rcases lt_trichotomy ((j : ℚ) * u) (k * u) with hlt | heq | hgt
  · have := add_step_le hu hlt
    linarith
  · exact heq
  · have := add_step_le hu hgt
    linarith

/-- Integers are multiples of a power of ten that is at most one. -/
theorem exists_multiple (hp : p ≤ 0) (n : ℤ) : ∃ k : ℤ, (n : ℚ) = k * 10 ^ p := by
  refine ⟨n * 10 ^ (-p).toNat, ?_⟩
  rw [Int.cast_mul, cast_ten_pow (by omega), mul_assoc, ← ten_zpow_add, neg_add_cancel, zpow_zero,
    mul_one]

/-! ## Fine steps -/

/-- Rounding does not go below the floor. -/
theorem RoundsTo.floor_le (h : RoundsTo (10 ^ p) x q) (hp : p ≤ 0) : (⌊x⌋ : ℚ) ≤ q := by
  obtain ⟨⟨k, rfl⟩, hnear, -⟩ := h
  obtain ⟨j, hj⟩ := exists_multiple hp ⌊x⌋
  by_contra hlt
  rw [hj, not_le] at hlt
  have hstep := add_step_le (ten_zpow_pos p) hlt
  have hpos := ten_zpow_pos p
  have hfloor := Int.floor_le x
  rw [abs_le] at hnear
  linarith

/-- Rounding does not go beyond the next integer. -/
theorem RoundsTo.le_floor_add_one (h : RoundsTo (10 ^ p) x q) (hp : p ≤ 0) : q ≤ ⌊x⌋ + 1 := by
  obtain ⟨⟨k, rfl⟩, hnear, -⟩ := h
  obtain ⟨j, hj⟩ := exists_multiple hp (⌊x⌋ + 1)
  push_cast at hj
  by_contra hlt
  rw [hj, not_le] at hlt
  have hstep := add_step_le (ten_zpow_pos p) hlt
  have hpos := ten_zpow_pos p
  have hfloor := Int.lt_floor_add_one x
  rw [abs_le] at hnear
  linarith

theorem RoundsTo.floor_eq_iff_ne (h : RoundsTo (10 ^ p) x q) (hp : p ≤ 0) :
    ⌊q⌋ = ⌊x⌋ ↔ q ≠ ⌊x⌋ + 1 := by
  have hle := h.le_floor_add_one hp
  rw [Int.floor_eq_iff]
  constructor
  · rintro ⟨-, hlt⟩ rfl
    exact lt_irrefl _ hlt
  · intro hne
    exact ⟨h.floor_le hp, lt_of_le_of_ne hle hne⟩

theorem ten_zpow_le_one (hp : p ≤ 0) : (10 : ℚ) ^ p ≤ 1 := zpow_le_one_of_nonpos₀ (by norm_num) hp

/-- Only a next integer that is near is reached. -/
theorem RoundsTo.near_of_eq (h : RoundsTo (10 ^ p) x q) (hp : p ≤ 0) (hq : q = ⌊x⌋ + 1) :
    ⌊x⌋ + 1 - x < 10 ^ p / 2 ∨ ⌊x⌋ + 1 - x = 10 ^ p / 2 ∧ 0 < x := by
  have hone := ten_zpow_le_one hp
  have hfloor := Int.floor_le x
  have hnext := Int.lt_floor_add_one x
  obtain ⟨-, hnear, haway⟩ := h
  have hdistance : |(⌊x⌋ : ℚ) + 1 - x| = ⌊x⌋ + 1 - x := abs_of_pos (by linarith)
  rw [hq, hdistance] at hnear haway
  rcases hnear.lt_or_eq with hlt | heq
  · exact .inl hlt
  · refine .inr ⟨heq, ?_⟩
    -- below zero the next integer would be nearer to zero
    by_contra hnonpos
    have hneg : (⌊x⌋ : ℚ) < 0 := by linarith
    have hint : (⌊x⌋ : ℚ) + 1 ≤ 0 := by exact_mod_cast hneg
    have := haway heq
    rw [abs_of_nonpos (by linarith), abs_of_nonpos hint] at this
    linarith

/-- A next integer that is near is reached. -/
theorem RoundsTo.eq_of_near (h : RoundsTo (10 ^ p) x q) (hp : p ≤ 0)
    (hcrosses : ⌊x⌋ + 1 - x < 10 ^ p / 2 ∨ ⌊x⌋ + 1 - x = 10 ^ p / 2 ∧ 0 < x) : q = ⌊x⌋ + 1 := by
  have hpos := ten_zpow_pos p
  have hone := ten_zpow_le_one hp
  have hbelow := h.floor_le hp
  have hle := h.le_floor_add_one hp
  obtain ⟨⟨k, hk⟩, hnear, haway⟩ := h
  by_contra hne
  obtain ⟨j, hj⟩ := exists_multiple hp (⌊x⌋ + 1)
  push_cast at hj
  have hlt : (k : ℚ) * 10 ^ p < j * 10 ^ p := by
    rw [← hk, ← hj]
    exact lt_of_le_of_ne hle hne
  have hstep := add_step_le hpos hlt
  rw [← hk, ← hj] at hstep
  have hdistance : |q - x| = x - q := by
    rw [abs_of_nonpos (by rcases hcrosses with h | ⟨h, -⟩ <;> linarith)]
    ring
  rw [hdistance] at hnear haway
  rcases hcrosses with hless | ⟨hhalf, hx⟩
  · linarith
  · -- the two multiples are as near, and the lower one is nearer to zero
    have hfloor : (0 : ℚ) ≤ ⌊x⌋ := by exact_mod_cast Int.floor_nonneg.mpr hx.le
    have := haway (by linarith)
    rw [abs_of_pos hx, abs_of_nonneg (by linarith)] at this
    linarith

/-- A number is rounded up to the next integer if that is nearer than half a step, and if it is half
a step away and further from zero. -/
theorem RoundsTo.eq_floor_add_one_iff (h : RoundsTo (10 ^ p) x q) (hp : p ≤ 0) :
    q = ⌊x⌋ + 1 ↔ ⌊x⌋ + 1 - x < 10 ^ p / 2 ∨ ⌊x⌋ + 1 - x = 10 ^ p / 2 ∧ 0 < x :=
  ⟨h.near_of_eq hp, h.eq_of_near hp⟩

/-! ## Coarse steps -/

/-- Rounding to integers that are no neighbours keeps the floor if it is one of them. -/
theorem RoundsTo.floor_eq_iff_multiple (h : RoundsTo (10 ^ p) x q) (hp : 0 < p) :
    ⌊q⌋ = ⌊x⌋ ↔ ∃ k : ℤ, (⌊x⌋ : ℚ) = k * 10 ^ p := by
  obtain ⟨⟨k, rfl⟩, hnear, -⟩ := h
  have hpos := ten_zpow_pos p
  have hint : (⌊(k : ℚ) * 10 ^ p⌋ : ℚ) = k * 10 ^ p := by
    have hcast : ((k * 10 ^ p.toNat : ℤ) : ℚ) = k * 10 ^ p := by
      rw [Int.cast_mul, cast_ten_pow hp.le]
    rw [← hcast, Int.floor_intCast]
  constructor
  · intro heq
    exact ⟨k, by rw [← heq, hint]⟩
  · rintro ⟨j, hj⟩
    have hten : (10 : ℚ) ≤ 10 ^ p := by
      calc (10 : ℚ) = 10 ^ (1 : ℤ) := (zpow_one _).symm
        _ ≤ 10 ^ p := zpow_le_zpow_right₀ (by norm_num) (by omega)
    have hfloor := Int.floor_le x
    have hnext := Int.lt_floor_add_one x
    have hclose : |(k : ℚ) * 10 ^ p - j * 10 ^ p| < 10 ^ p := by
      rw [← hj, abs_lt]
      rw [abs_le] at hnear
      constructor <;> linarith
    have hsame := eq_of_close hpos hclose
    rw [← hj, ← hint] at hsame
    exact_mod_cast hsame

/-! ## Both -/

/-- Rounding to the multiples of `10 ^ p` misses the floor of `x`. -/
def Crosses (p : ℤ) (x : ℚ) : Prop :=
  if p ≤ 0 then ⌊x⌋ + 1 - x < 10 ^ p / 2 ∨ ⌊x⌋ + 1 - x = 10 ^ p / 2 ∧ 0 < x
  else ¬ ∃ k : ℤ, (⌊x⌋ : ℚ) = k * 10 ^ p

/-- **Rounding keeps the floor** of the numbers that do not cross an integer. -/
theorem RoundsTo.floor_eq_iff (h : RoundsTo (10 ^ p) x q) : ⌊q⌋ = ⌊x⌋ ↔ ¬ Crosses p x := by
  unfold Crosses
  split
  · next hp => rw [h.floor_eq_iff_ne hp, ne_eq, h.eq_floor_add_one_iff hp]
  · next hp => rw [h.floor_eq_iff_multiple (by omega), not_not]

/-! ## Quotients -/

/-- The rounded quotient of `a` and `b` has another floor than the exact one. -/
def FloorSlips (a b : Decimal) : Prop := b.value ≠ 1 ∧ Crosses (lastPlace a b) (a.value / b.value)

theorem floor_quotient_iff (hb : b.value ≠ 0) :
    (a.quotient b).floor = ⌊a.value / b.value⌋ ↔ ¬ FloorSlips a b := by
  rw [floor_eq, FloorSlips]
  by_cases hone : b.value = 1
  · rw [quotient_of_one hone, hone, div_one]
    simp
  · rw [(roundsTo_quotient hb hone).floor_eq_iff]
    simp [hone]

/-! ## Safe dividends -/

/-- The exact quotient as a fraction of integers. -/
theorem div_eq_align (a b : Decimal) : a.value / b.value = ((a.align b).1 : ℚ) / (a.align b).2 := by
  rw [← value_align_fst a b, ← value_align_snd a b, mul_div_mul_right _ _ (ten_zpow_pos _).ne']

/-- A fraction is at least one part of its denominator away from the next integer. -/
theorem floor_gap {m n : ℤ} (hn : n ≠ 0) : 1 / |(n : ℚ)| ≤ ⌊(m : ℚ) / n⌋ + 1 - (m : ℚ) / n := by
  have hnQ : (n : ℚ) ≠ 0 := by exact_mod_cast hn
  have hgap : 0 < (⌊(m : ℚ) / n⌋ : ℚ) + 1 - (m : ℚ) / n := by
    have := Int.lt_floor_add_one ((m : ℚ) / n)
    linarith
  have hparts : ((⌊(m : ℚ) / n⌋ : ℚ) + 1 - (m : ℚ) / n) * n = (((⌊(m : ℚ) / n⌋ + 1) * n - m : ℤ) : ℚ) := by
    push_cast
    rw [sub_mul, div_mul_cancel₀ _ hnQ]
  have hone : (1 : ℚ) ≤ |(((⌊(m : ℚ) / n⌋ + 1) * n - m : ℤ) : ℚ)| := by
    have hne : (((⌊(m : ℚ) / n⌋ + 1) * n - m : ℤ) : ℚ) ≠ 0 := by
      rw [← hparts]
      exact mul_ne_zero hgap.ne' hnQ
    rw [← Int.cast_abs]
    exact_mod_cast Int.one_le_abs (by exact_mod_cast hne)
  rw [← hparts, abs_mul, abs_of_pos hgap] at hone
  rwa [div_le_iff₀ (abs_pos.mpr hnQ)]

/-- A quotient of a hundred digits is finer than the parts of the divisor, if the dividend is small. -/
theorem half_step_lt {m n : ℤ} (hm : m ≠ 0) (hn : n ≠ 0) (hsmall : m.natAbs < 2 * 10 ^ 99)
    (hp : p ≤ Int.log 10 |(m : ℚ) / n| - 99) : 10 ^ p / 2 < 1 / |(n : ℚ)| := by
  have hnpos : 0 < |(n : ℚ)| := abs_pos.mpr (by exact_mod_cast hn)
  have hmpos : 0 < |(m : ℚ)| := abs_pos.mpr (by exact_mod_cast hm)
  have hlt : |(m : ℚ)| < 2 * 10 ^ (99 : ℤ) := by
    rw [← Int.cast_abs, Int.abs_eq_natAbs]
    exact_mod_cast hsmall
  have hstep : (10 : ℚ) ^ p ≤ |(m : ℚ)| / |(n : ℚ)| * 10 ^ (-99 : ℤ) := by
    calc (10 : ℚ) ^ p ≤ 10 ^ (Int.log 10 |(m : ℚ) / n| + -99) := zpow_le_zpow_right₀ (by norm_num) hp
      _ = 10 ^ Int.log 10 |(m : ℚ) / n| * 10 ^ (-99 : ℤ) := ten_zpow_add _ _
      _ ≤ |(m : ℚ) / n| * 10 ^ (-99 : ℤ) := by
        refine mul_le_mul_of_nonneg_right (ten_zpow_log_le ?_) (ten_zpow_pos _).le
        rw [abs_div]
        exact div_pos hmpos hnpos
      _ = |(m : ℚ)| / |(n : ℚ)| * 10 ^ (-99 : ℤ) := by rw [abs_div]
  have hscaled : |(m : ℚ)| * 10 ^ (-99 : ℤ) < 2 := by
    rw [zpow_neg, ← div_eq_mul_inv, div_lt_iff₀ (ten_zpow_pos _)]
    exact hlt
  rw [div_mul_eq_mul_div, le_div_iff₀ hnpos] at hstep
  rw [lt_div_iff₀ hnpos]
  linarith

/-- A step below two is at most one. -/
theorem nonpos_of_step_lt (h : (10 : ℚ) ^ p < 2) : p ≤ 0 := by
  by_contra hp
  have : (10 : ℚ) ^ (1 : ℤ) ≤ 10 ^ p := zpow_le_zpow_right₀ (by norm_num) (by omega)
  rw [zpow_one] at this
  linarith

/-- **A dividend of few digits is safe**: it is below `2 * 10 ^ 99`, counted in the last places of
both decimals. -/
theorem not_floorSlips (hb : b.value ≠ 0) (h : (a.align b).1.natAbs < 2 * 10 ^ 99) :
    ¬ FloorSlips a b := by
  rintro ⟨-, hcrosses⟩
  have hlog : lastPlace a b ≤ Int.log 10 |a.value / b.value| - 99 := min_le_left _ _
  rw [div_eq_align] at hcrosses hlog
  have hden : (a.align b).2 ≠ 0 := by
    intro hzero
    have hvalue := value_align_snd a b
    rw [hzero, Int.cast_zero, zero_mul] at hvalue
    exact hb hvalue.symm
  by_cases hnum : (a.align b).1 = 0
  · rw [hnum, Int.cast_zero, zero_div, abs_zero, Int.log_zero_right] at hlog
    have hp : lastPlace a b ≤ 0 := by omega
    have hfine := ten_zpow_le_one hp
    rw [hnum, Int.cast_zero, zero_div, Crosses, if_pos hp] at hcrosses
    simp only [Int.floor_zero, Int.cast_zero, lt_irrefl, and_false, or_false] at hcrosses
    linarith
  · have hstep := half_step_lt hnum hden h hlog
    have hgap := floor_gap (m := (a.align b).1) hden
    have hpart : 1 / |((a.align b).2 : ℚ)| ≤ 1 := by
      have hone : (1 : ℚ) ≤ |((a.align b).2 : ℚ)| := by
        rw [← Int.cast_abs]
        exact_mod_cast Int.one_le_abs hden
      exact div_le_one_of_le₀ hone (by linarith)
    have hp : lastPlace a b ≤ 0 := nonpos_of_step_lt (by linarith)
    rw [Crosses, if_pos hp] at hcrosses
    rcases hcrosses with hless | ⟨hhalf, -⟩ <;> linarith

end Decimal

end QueryExpr
