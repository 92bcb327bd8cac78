import Mathlib.Data.Int.Log
import Mathlib.Data.Nat.Cast.Field
import QueryExpr.Proofs.Decimal.Value

/-!
# Quotients of decimals

The quotient of two decimals is rounded. It has a hundred digits, or all digits of the whole part of
the quotient of the coefficients if these are more, and of two numbers with so many digits that are
as near as one another the one further from zero is taken. So the quotient is the multiple of a
power of ten, of the place of its last digit, that is nearest to the exact one.

* `RoundsTo`: rounding to the multiples of a step.
* `roundsTo_quotientNat`: the quotient of two positive integers.
* `roundsTo_quotient`: **the quotient of two decimals is the exact one, rounded.**
-/

namespace QueryExpr

namespace Decimal

variable {a b : Decimal} {num den : ℕ} {u x q : ℚ}

/-! ## Rounding -/

/-- `q` is the multiple of `u` that is nearest to `x`; of two the one further from zero. -/
structure RoundsTo (u x q : ℚ) : Prop where
  multiple : ∃ k : ℤ, q = k * u
  near : |q - x| ≤ u / 2
  away : |q - x| = u / 2 → |x| < |q|

/-- What is a multiple of the step is rounded to itself. -/
theorem roundsTo_self (hu : 0 < u) (h : ∃ k : ℤ, x = k * u) : RoundsTo u x x := by
  have hzero : |x - x| = 0 := by rw [sub_self, abs_zero]
  refine ⟨h, by rw [hzero]; positivity, fun hhalf => ?_⟩
  rw [hzero] at hhalf
  linarith

theorem RoundsTo.scaled (h : RoundsTo u x q) {c : ℚ} (hc : 0 < c) :
    RoundsTo (u * c) (x * c) (q * c) := by
  obtain ⟨⟨k, hk⟩, hnear, haway⟩ := h
  have hdistance : |q * c - x * c| = |q - x| * c := by
    rw [← sub_mul, abs_mul, abs_of_pos hc]
  have hhalf : u * c / 2 = u / 2 * c := by ring
  refine ⟨⟨k, by rw [hk, mul_assoc]⟩, ?_, fun heq => ?_⟩
  · rw [hdistance, hhalf]
    exact mul_le_mul_of_nonneg_right hnear hc.le
  · rw [hdistance, hhalf, mul_left_inj' hc.ne'] at heq
    rw [abs_mul, abs_mul, abs_of_pos hc]
    exact mul_lt_mul_of_pos_right (haway heq) hc

theorem RoundsTo.neg (h : RoundsTo u x q) : RoundsTo u (-x) (-q) := by
  obtain ⟨⟨k, hk⟩, hnear, haway⟩ := h
  have hdistance : |-q - -x| = |q - x| := by
    rw [← neg_sub, abs_neg]
    congr 1
    ring
  refine ⟨⟨-k, by rw [hk]; push_cast; ring⟩, by rwa [hdistance], fun heq => ?_⟩
  rw [hdistance] at heq
  rw [abs_neg, abs_neg]
  exact haway heq

/-- Division with the next digit of the quotient, which rounds. -/
theorem roundsTo_div (num : ℕ) (hden : 0 < den) :
    RoundsTo 1 ((num : ℚ) / den)
      ((num / den + if 5 ≤ num % den * 10 / den then 1 else 0 : ℕ) : ℚ) := by
  have hdenQ : (0 : ℚ) < den := by exact_mod_cast hden
  have hrest : num % den < den := Nat.mod_lt num hden
  have hexact : (num : ℚ) / den = (num / den : ℕ) + (num % den : ℕ) / (den : ℚ) := by
    rw [div_eq_iff hdenQ.ne', add_mul, div_mul_cancel₀ _ hdenQ.ne']
    exact_mod_cast (Nat.div_add_mod' num den).symm
  have hwhole : (0 : ℚ) ≤ (num / den : ℕ) := by positivity
  have hnonneg : (0 : ℚ) ≤ (num % den : ℕ) / (den : ℚ) := by positivity
  have hbelow : ((num % den : ℕ) : ℚ) / den < 1 := by
    rw [div_lt_one hdenQ]
    exact_mod_cast hrest
  by_cases hup : 5 ≤ num % den * 10 / den
  · rw [if_pos hup]
    rw [Nat.le_div_iff_mul_le hden] at hup
    have hhalf : 1 / 2 ≤ ((num % den : ℕ) : ℚ) / den := by
      rw [div_le_div_iff₀ two_pos hdenQ]
      have : 1 * den ≤ num % den * 2 := by omega
      exact_mod_cast this
    rw [hexact, Nat.cast_add, Nat.cast_one]
    refine ⟨⟨((num / den + 1 : ℕ) : ℤ), ?_⟩, ?_, fun _ => ?_⟩
    · rw [mul_one, Int.cast_natCast, Nat.cast_add, Nat.cast_one]
    · rw [abs_of_nonneg (by linarith)]
      linarith
    · rw [abs_of_nonneg (by linarith), abs_of_nonneg (by linarith)]
      linarith
  · rw [if_neg hup, Nat.add_zero]
    rw [Nat.le_div_iff_mul_le hden] at hup
    have hhalf : ((num % den : ℕ) : ℚ) / den < 1 / 2 := by
      rw [div_lt_div_iff₀ hdenQ two_pos]
      have : num % den * 2 < 1 * den := by omega
      exact_mod_cast this
    rw [hexact]
    refine ⟨⟨((num / den : ℕ) : ℤ), by rw [mul_one, Int.cast_natCast]⟩, ?_, fun heq => ?_⟩
    · rw [abs_of_nonpos (by linarith)]
      linarith
    · rw [abs_of_nonpos (by linarith)] at heq
      linarith

/-! ## Positive integers -/

theorem digitCount_le_iff {n k : ℕ} (hk : 0 < k) : digitCount n ≤ k ↔ n < 10 ^ k :=
  Nat.length_toDigits_le_iff (by omega) hk

theorem digitCount_pos (n : ℕ) : 0 < digitCount n := Nat.length_toDigits_pos

theorem lt_ten_pow_digitCount (n : ℕ) : n < 10 ^ digitCount n :=
  (digitCount_le_iff (digitCount_pos n)).mp le_rfl

/-- A number with a given count of digits is not below the smallest such number. -/
theorem ten_pow_le_of_digitCount {n k : ℕ} (hn : 0 < n) (hk : digitCount n = k + 1) :
    10 ^ k ≤ n := by
  by_contra hlt
  by_cases hzero : k = 0
  · subst hzero
    omega
  · have := (digitCount_le_iff (by omega)).mpr (Nat.not_le.mp hlt)
    omega

/-- The zeros that are added bring the number to the divisor, and no further than needed. -/
theorem zerosToReach_spec (hnum : 0 < num) (hden : 0 < den) :
    den ≤ num * 10 ^ zerosToReach num den ∧
      (0 < zerosToReach num den → num * 10 ^ zerosToReach num den < 10 * den) := by
  obtain ⟨m, hm⟩ : ∃ m, digitCount num = m + 1 := ⟨_, (Nat.succ_pred_eq_of_pos (digitCount_pos num)).symm⟩
  obtain ⟨n, hn⟩ : ∃ n, digitCount den = n + 1 := ⟨_, (Nat.succ_pred_eq_of_pos (digitCount_pos den)).symm⟩
  have hnumLow := ten_pow_le_of_digitCount hnum hm
  have hdenLow := ten_pow_le_of_digitCount hden hn
  have hnumHigh := lt_ten_pow_digitCount num
  have hdenHigh := lt_ten_pow_digitCount den
  rw [hm] at hnumHigh
  rw [hn] at hdenHigh
  have hlow : 10 ^ n ≤ num * 10 ^ (n + 1 - (m + 1)) := by
    calc 10 ^ n ≤ 10 ^ (m + (n + 1 - (m + 1))) := Nat.pow_le_pow_right (by omega) (by omega)
      _ = 10 ^ m * 10 ^ (n + 1 - (m + 1)) := pow_add 10 _ _
      _ ≤ num * 10 ^ (n + 1 - (m + 1)) := Nat.mul_le_mul_right _ hnumLow
  have hhigh : 0 < n + 1 - (m + 1) → num * 10 ^ (n + 1 - (m + 1)) < 10 ^ (n + 1) := by
    intro hadded
    calc num * 10 ^ (n + 1 - (m + 1)) < 10 ^ (m + 1) * 10 ^ (n + 1 - (m + 1)) :=
          Nat.mul_lt_mul_of_pos_right hnumHigh (by positivity)
      _ = 10 ^ (n + 1) := by rw [← pow_add]; congr 1; omega
  rw [pow_succ] at hdenHigh hhigh
  unfold zerosToReach
  rw [hm, hn]
  simp only
  split
  · next hless =>
    rw [pow_succ, ← mul_assoc]
    exact ⟨by omega, fun _ => by omega⟩
  · next hreached =>
    exact ⟨by omega, fun hadded => by have := hhigh hadded; omega⟩

/-! ## The place of the first digit -/

/-- A number between two neighbouring powers of ten has its first digit at the place of the lower. -/
theorem log_eq {k : ℤ} (hlow : 10 ^ k ≤ x) (hhigh : x < 10 ^ (k + 1)) : Int.log 10 x = k := by
  have hpos : 0 < x := lt_of_lt_of_le (ten_zpow_pos k) hlow
  have h1 : k ≤ Int.log 10 x := (Int.zpow_le_iff_le_log (by norm_num) hpos).mp (by exact_mod_cast hlow)
  have h2 : Int.log 10 x < k + 1 :=
    (Int.lt_zpow_iff_log_lt (by norm_num) hpos).mp (by exact_mod_cast hhigh)
  omega

theorem ten_zpow_log_le (hx : 0 < x) : 10 ^ Int.log 10 x ≤ x := by
  exact_mod_cast Int.zpow_log_le_self (by norm_num : 1 < 10) hx

theorem lt_ten_zpow_log (x : ℚ) : x < 10 ^ (Int.log 10 x + 1) := by
  exact_mod_cast Int.lt_zpow_succ_log_self (by norm_num : 1 < 10) x

/-- A power of ten moves the digits. -/
theorem log_mul_zpow (hx : 0 < x) (k : ℤ) : Int.log 10 (x * 10 ^ k) = Int.log 10 x + k := by
  apply log_eq
  · rw [ten_zpow_add]
    exact mul_le_mul_of_nonneg_right (ten_zpow_log_le hx) (ten_zpow_pos k).le
  · have hexp : Int.log 10 x + k + 1 = Int.log 10 x + 1 + k := by ring
    rw [hexp, ten_zpow_add]
    exact mul_lt_mul_of_pos_right (lt_ten_zpow_log x) (ten_zpow_pos k)

/-- The whole part of a number from 1 on has its first digit where the number has it. -/
theorem log_div (hwhole : 0 < num / den) (hden : 0 < den) :
    Int.log 10 ((num : ℚ) / den) = digitCount (num / den) - 1 := by
  have hdenQ : (0 : ℚ) < den := by exact_mod_cast hden
  obtain ⟨m, hm⟩ : ∃ m, digitCount (num / den) = m + 1 :=
    ⟨_, (Nat.succ_pred_eq_of_pos (digitCount_pos _)).symm⟩
  have hlow : 10 ^ m * den ≤ num := (Nat.le_div_iff_mul_le hden).mp (ten_pow_le_of_digitCount hwhole hm)
  have hhigh : num < 10 ^ (m + 1) * den := by
    rw [← Nat.div_lt_iff_lt_mul hden, ← hm]
    exact lt_ten_pow_digitCount _
  have hm' : ((digitCount (num / den) : ℕ) : ℤ) - 1 = m := by omega
  rw [hm']
  apply log_eq
  · rw [zpow_natCast, le_div_iff₀ hdenQ]
    exact_mod_cast hlow
  · have hexp : ((m : ℤ) + 1) = ((m + 1 : ℕ) : ℤ) := by push_cast; rfl
    rw [hexp, zpow_natCast, div_lt_iff₀ hdenQ]
    exact_mod_cast hhigh

/-- The first digit of a quotient follows from the whole part with enough zeros added. -/
theorem log_div_zeros (hnum : 0 < num) (hden : 0 < den) {z : ℕ} (hreach : den ≤ num * 10 ^ z) :
    Int.log 10 ((num : ℚ) / den) = digitCount (num * 10 ^ z / den) - 1 - z := by
  have hpos : 0 < (num : ℚ) / den := by positivity
  have hmoved := log_mul_zpow hpos z
  have hexact : (num : ℚ) / den * 10 ^ (z : ℤ) = ((num * 10 ^ z : ℕ) : ℚ) / den := by
    push_cast
    rw [zpow_natCast]
    ring
  rw [hexact, log_div (Nat.div_pos hreach hden) hden] at hmoved
  omega

/-- If zeros are needed at all, the whole part has a single digit. -/
theorem digitCount_of_added {z : ℕ} (hden : 0 < den) (hless : num * 10 ^ z < 10 * den) :
    digitCount (num * 10 ^ z / den) = 1 := by
  have hten : num * 10 ^ z / den < 10 ^ 1 := by
    rwa [Nat.div_lt_iff_lt_mul hden, pow_one]
  have hle := (digitCount_le_iff (by omega)).mpr hten
  have hpos := digitCount_pos (num * 10 ^ z / den)
  omega

/-! ## Quotients -/

/-- The quotient with `t` digits after the point. -/
theorem roundsTo_places (hden : 0 < den) {t : ℕ} {d : Decimal} (hs : d.scale = t)
    (hc : d.coefficient =
      (num * 10 ^ t / den + if 5 ≤ num * 10 ^ t % den * 10 / den then 1 else 0 : ℕ)) :
    RoundsTo (10 ^ (-t : ℤ)) ((num : ℚ) / den) d.value := by
  have hround := (roundsTo_div (num * 10 ^ t) hden).scaled (ten_zpow_pos (-t))
  have hexact : ((num * 10 ^ t : ℕ) : ℚ) / den * 10 ^ (-t : ℤ) = (num : ℚ) / den := by
    push_cast
    rw [zpow_neg, zpow_natCast]
    field_simp
  rw [one_mul, hexact] at hround
  rwa [value, hc, hs, Int.cast_natCast]

/-- A quotient that comes out even is exact with fewer digits. -/
theorem value_of_even (hden : 0 < den) {t : ℕ} {d : Decimal} (hs : d.scale = t)
    (hc : d.coefficient = (num * 10 ^ t / den : ℕ)) (heven : num * 10 ^ t % den = 0) :
    d.value = (num : ℚ) / den := by
  have hdenQ : (den : ℚ) ≠ 0 := by exact_mod_cast hden.ne'
  have hcast : ((num * 10 ^ t / den : ℕ) : ℚ) = ((num * 10 ^ t : ℕ) : ℚ) / den :=
    Nat.cast_div (Nat.dvd_of_mod_eq_zero heven) hdenQ
  rw [value, hc, hs, Int.cast_natCast, hcast, Nat.cast_mul, Nat.cast_pow, zpow_neg, zpow_natCast]
  push_cast
  field_simp

/-- **The quotient of two positive integers** has a hundred digits, and no fewer than its whole part
has. -/
theorem roundsTo_quotientNat (hnum : 0 < num) (hden : 0 < den) :
    RoundsTo (10 ^ min (Int.log 10 ((num : ℚ) / den) - 99) 0) ((num : ℚ) / den)
      (quotientNat num den).value := by
  obtain ⟨hreach, hadded⟩ := zerosToReach_spec hnum hden
  unfold quotientNat
  simp only
  generalize zerosToReach num den = z at hreach hadded ⊢
  have hone : 0 < z → digitCount (num * 10 ^ z / den) = 1 :=
    fun hz => digitCount_of_added hden (hadded hz)
  have hprecision : precision = 100 := rfl
  rw [log_div_zeros hnum hden hreach]
  by_cases heven : num * 10 ^ z % den = 0
  · rw [if_pos heven]
    rw [value_of_even hden (t := z) (by simp) (by simp [heven]) heven]
    have hshort := value_of_even hden (d := ⟨(num * 10 ^ z / den : ℕ), z⟩) rfl rfl heven
    have hplace : (z : ℤ) ≤ -min ((digitCount (num * 10 ^ z / den) : ℤ) - 1 - z - 99) 0 := by omega
    have hshift := value_shift (⟨(num * 10 ^ z / den : ℕ), z⟩ : Decimal) hplace
    rw [hshort, neg_neg] at hshift
    exact roundsTo_self (ten_zpow_pos _) ⟨_, hshift.symm⟩
  · rw [if_neg heven]
    have hplaces : min ((digitCount (num * 10 ^ z / den) : ℤ) - 1 - z - 99) 0 =
        -((z + (precision - digitCount (num * 10 ^ z / den)) : ℕ) : ℤ) := by
      omega
    rw [hplaces]
    apply roundsTo_places hden
    · push_cast
      rfl
    · simp only
      push_cast
      rfl

/-- The place of the last digit of a quotient: a hundred places from the first, or the last place of
the whole part of the quotient of the coefficients, whichever is further to the right. -/
def lastPlace (a b : Decimal) : ℤ := min (Int.log 10 |a.value / b.value| - 99) (b.scale - a.scale)

theorem RoundsTo.signed (h : RoundsTo u x q) {s : ℤ} (hs : s = 1 ∨ s = -1) :
    RoundsTo u (s * x) (s * q) := by
  rcases hs with rfl | rfl
  · simpa using h
  · simpa using h.neg

/-- What is divided by one stays as it is. -/
theorem quotient_of_one (h : b.value = 1) : a.quotient b = a := by
  have hsame : b.same (ofInt 1) = true := by rw [same_iff, h, value_ofInt, Int.cast_one]
  rw [quotient, hsame, Bool.or_true, if_pos rfl]

theorem sign_of_ne_zero {n : ℤ} (hn : n ≠ 0) : n.sign = 1 ∨ n.sign = -1 := by
  rcases Int.lt_or_lt_of_ne hn with hneg | hpos
  · exact .inr (Int.sign_eq_neg_one_of_neg hneg)
  · exact .inl (Int.sign_eq_one_of_pos hpos)

theorem value_eq_sign (a : Decimal) :
    a.value = a.coefficient.sign * a.coefficient.natAbs * 10 ^ (-a.scale) := by
  have hcast : ((a.coefficient.sign * a.coefficient.natAbs : ℤ) : ℚ) = a.coefficient := by
    rw [Int.sign_mul_natAbs]
  rw [value, ← hcast, Int.cast_mul, Int.cast_natCast]

/-- The sign, the quotient of the coefficients and the power of ten of an exact quotient. -/
theorem div_eq_signed (ha : a.coefficient ≠ 0) (hb : b.coefficient ≠ 0) :
    a.value / b.value = (a.coefficient.sign * b.coefficient.sign : ℤ) *
      ((a.coefficient.natAbs : ℚ) / b.coefficient.natAbs * 10 ^ (b.scale - a.scale)) := by
  have hnatAbs : (b.coefficient.natAbs : ℚ) ≠ 0 := by exact_mod_cast Int.natAbs_ne_zero.mpr hb
  have hpower := (ten_zpow_pos b.scale).ne'
  have hexp : (10 : ℚ) ^ (b.scale - a.scale) = 10 ^ (-a.scale) * 10 ^ b.scale := by
    rw [← ten_zpow_add]
    congr 1
    ring
  rw [value_eq_sign a, value_eq_sign b, hexp, zpow_neg _ b.scale]
  rcases sign_of_ne_zero hb with hs | hs <;> rw [hs] <;> push_cast <;> field_simp

/-- The quotient of two decimals is computed from that of their coefficients. -/
theorem value_quotient (ha : a.coefficient ≠ 0) (hone : b.value ≠ 1) :
    (a.quotient b).value = (a.coefficient.sign * b.coefficient.sign : ℤ) *
      ((quotientNat a.coefficient.natAbs b.coefficient.natAbs).value * 10 ^ (b.scale - a.scale)) := by
  have hzero : a.isZero = false := by
    rw [isZero, beq_eq_false_iff_ne]
    exact ha
  have hsame : b.same (ofInt 1) = false := by
    rw [Bool.eq_false_iff, ne_eq, same_iff, value_ofInt, Int.cast_one]
    exact hone
  have hexp : ∀ s : ℤ, -(s + (a.scale - b.scale)) = -s + (b.scale - a.scale) := fun s => by ring
  rw [quotient, hzero, hsame, Bool.or_false, if_neg Bool.false_ne_true]
  simp only [value]
  rw [hexp, ten_zpow_add]
  push_cast
  ring

/-- **The quotient of two decimals is the exact one, rounded** at the place of its last digit. -/
theorem roundsTo_quotient (hb : b.value ≠ 0) (hone : b.value ≠ 1) :
    RoundsTo (10 ^ lastPlace a b) (a.value / b.value) (a.quotient b).value := by
  rw [ne_eq, value_eq_zero_iff] at hb
  by_cases ha : a.coefficient = 0
  · have hzero : a.quotient b = a := by rw [quotient, isZero, ha]; rfl
    rw [hzero, value_eq_zero_iff.mpr ha, zero_div]
    exact roundsTo_self (ten_zpow_pos _) ⟨0, by simp⟩
  · have hnum : 0 < a.coefficient.natAbs := Int.natAbs_pos.mpr ha
    have hden : 0 < b.coefficient.natAbs := Int.natAbs_pos.mpr hb
    have hpos : 0 < (a.coefficient.natAbs : ℚ) / b.coefficient.natAbs := by positivity
    have hsign : a.coefficient.sign * b.coefficient.sign = 1 ∨
        a.coefficient.sign * b.coefficient.sign = -1 := by
      rcases sign_of_ne_zero ha with h | h <;> rcases sign_of_ne_zero hb with h' | h' <;> simp [h, h']
    have hsize : |a.value / b.value| =
        (a.coefficient.natAbs : ℚ) / b.coefficient.natAbs * 10 ^ (b.scale - a.scale) := by
      have hunit : |((a.coefficient.sign * b.coefficient.sign : ℤ) : ℚ)| = 1 := by
        rcases hsign with h | h <;> rw [h] <;> simp
      rw [div_eq_signed ha hb, abs_mul, hunit, one_mul, abs_of_pos]
      exact mul_pos hpos (ten_zpow_pos _)
    have hplace : lastPlace a b =
        min (Int.log 10 ((a.coefficient.natAbs : ℚ) / b.coefficient.natAbs) - 99) 0 +
          (b.scale - a.scale) := by
      rw [lastPlace, hsize, log_mul_zpow hpos]
      omega
    rw [hplace, ten_zpow_add, value_quotient ha hone, div_eq_signed ha hb]
    exact ((roundsTo_quotientNat hnum hden).scaled (ten_zpow_pos _)).signed hsign

end Decimal

end QueryExpr
