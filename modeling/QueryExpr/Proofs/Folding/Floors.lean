import Mathlib.Data.Sign.Basic
import QueryExpr.Proofs.Decimal.Floor
import QueryExpr.Proofs.Folding.Decimals

/-!
# Floor division of decimals

Folding divides two decimals, or a decimal and an integer, by taking the floor of their rounded
quotient, and the remainder is what that floor leaves. The results are given for every divisor but
zero. Where rounding slips to another floor, neither is exact, and the remainder has the wrong sign
or is too large; everywhere else both are exact. No dividend of up to 99 digits slips, if its digits
are counted down to the last place of the divisor.

* `remainder_iff`: the remainder is as it should be exactly if the quotient is the floor.
* `floors_of_decimals`: **quotients and remainders of decimals.**
-/

namespace QueryExpr

namespace Folding

variable {a b : Value} {d e : Decimal}

/-- **A remainder smaller than the divisor and of its sign** belongs to the floor, and to no other
quotient. -/
theorem remainder_iff {x y : ℚ} (hy : y ≠ 0) (n : ℤ) :
    (|x - y * n| < |y| ∧ (x - y * n = 0 ∨ SignType.sign (x - y * n) = SignType.sign y)) ↔
      n = ⌊x / y⌋ := by
  have hrest : x - y * n = (x / y - n) * y := by field_simp
  have hsign : SignType.sign y ≠ 0 := sign_ne_zero.mpr hy
  rw [hrest, abs_mul, mul_lt_iff_lt_one_left (abs_pos.mpr hy), mul_eq_zero_iff_right hy, sign_mul,
    mul_eq_right₀ hsign, sign_eq_one_iff, eq_comm (a := n), Int.floor_eq_iff, abs_lt]
  constructor
  · rintro ⟨⟨-, hlt⟩, hzero | hpos⟩
    · exact ⟨by linarith, by linarith⟩
    · exact ⟨by linarith, by linarith⟩
  · rintro ⟨hle, hlt⟩
    refine ⟨⟨by linarith, by linarith⟩, ?_⟩
    rcases hle.eq_or_lt with heq | hless
    · exact .inl (by linarith)
    · exact .inr (by linarith)

theorem foldBinary_floorDivide (ha : a.exactNumber? = some d) (hb : b.exactNumber? = some e)
    (h : a.isDecimal ∨ b.isDecimal) (he : e.value ≠ 0) :
    Value.foldBinary .floorDivide a b = some (.decimal (d.floorQuotient e).normalized) := by
  have hzero : ¬ e.isZero = true := by rwa [Decimal.isZero_iff]
  rw [foldBinary_exact ha hb h rfl (by decide), Number.combineDecimals?, if_neg hzero]
  rfl

theorem foldBinary_modulus (ha : a.exactNumber? = some d) (hb : b.exactNumber? = some e)
    (h : a.isDecimal ∨ b.isDecimal) (he : e.value ≠ 0) :
    Value.foldBinary .modulus a b = some (.decimal (d.modulus e).normalized) := by
  have hzero : ¬ e.isZero = true := by rwa [Decimal.isZero_iff]
  rw [foldBinary_exact ha hb h rfl (by decide), Number.combineDecimals?, if_neg hzero]
  rfl

theorem value_floorQuotient (d e : Decimal) :
    (d.floorQuotient e).normalized.value = (d.quotient e).floor := by
  rw [Decimal.value_normalized, Decimal.floorQuotient, Decimal.value_ofInt]

theorem value_modulus (d e : Decimal) :
    (d.modulus e).normalized.value = d.value - e.value * (d.quotient e).floor := by
  rw [Decimal.value_normalized, Decimal.modulus, Decimal.value_sub, Decimal.value_mul,
    Decimal.floorQuotient, Decimal.value_ofInt]

/-- **Floor division and remainder of decimals**, where one operand may be an integer, are given for
every divisor but zero. The quotient is the floor of the rounded one, and the remainder is what this
leaves. They are exact, and the remainder is smaller than the divisor and zero or of its sign, unless
rounding slips to another floor. A dividend below `2 * 10 ^ 99`, counted in the last places of both
operands, does not slip. -/
theorem floors_of_decimals (ha : a.exactNumber? = some d) (hb : b.exactNumber? = some e)
    (h : a.isDecimal ∨ b.isDecimal) (he : e.value ≠ 0) :
    ∃ q r : Decimal, Value.foldBinary .floorDivide a b = some (.decimal q) ∧
      Value.foldBinary .modulus a b = some (.decimal r) ∧
      q.value = ⌊(d.quotient e).value⌋ ∧ r.value = d.value - e.value * q.value ∧
      (q.value = ⌊d.value / e.value⌋ ↔ ¬ d.FloorSlips e) ∧
      (r.value = d.value - e.value * ⌊d.value / e.value⌋ ↔ ¬ d.FloorSlips e) ∧
      (|r.value| < |e.value| ∧ (r.value = 0 ∨ SignType.sign r.value = SignType.sign e.value) ↔
        ¬ d.FloorSlips e) ∧
      ((d.align e).1.natAbs < 2 * 10 ^ 99 → ¬ d.FloorSlips e) := by
  refine ⟨_, _, foldBinary_floorDivide ha hb h he, foldBinary_modulus ha hb h he, ?_, ?_, ?_, ?_, ?_,
    Decimal.not_floorSlips he⟩
  · rw [value_floorQuotient, Decimal.floor_eq]
  · rw [value_modulus, value_floorQuotient]
  · rw [value_floorQuotient, Int.cast_inj, Decimal.floor_quotient_iff he]
  · rw [value_modulus, sub_right_inj, mul_right_inj' he, Int.cast_inj,
      Decimal.floor_quotient_iff he]
  · rw [value_modulus, remainder_iff he, Decimal.floor_quotient_iff he]

/-- The quotient of `2 * 10 ^ 100` and three has a hundred digits before its point, and the last is
rounded up. -/
theorem quotient_thirds :
    ((⟨2, -100⟩ : Decimal).quotient (.ofInt 3)).value = (2 * 10 ^ 100 + 1) / 3 := by
  have hthree : (Decimal.ofInt 3).value = 3 := Decimal.value_ofInt 3
  have hexact : (⟨2, -100⟩ : Decimal).value / (Decimal.ofInt 3).value = 2 * 10 ^ 100 / 3 := by
    rw [hthree]
    norm_num [Decimal.value]
  have hplace : Decimal.lastPlace ⟨2, -100⟩ (.ofInt 3) = 0 := by
    have hlog : Int.log 10 |(2 * 10 ^ 100 / 3 : ℚ)| = 99 := by
      apply Decimal.log_eq <;> norm_num
    rw [Decimal.lastPlace, hexact, hlog]
    rfl
  have hfloor : ⌊(2 * 10 ^ 100 / 3 : ℚ)⌋ = (2 * 10 ^ 100 - 2) / 3 := by
    rw [Int.floor_eq_iff]
    norm_num
  have hround := Decimal.roundsTo_quotient (a := ⟨2, -100⟩) (b := .ofInt 3) (by norm_num)
    (by norm_num)
  rw [hplace, hexact] at hround
  rw [(hround.eq_floor_add_one_iff le_rfl).mpr (.inl ?_), hfloor]
  · norm_num
  · rw [hfloor]
    norm_num

/-- A third of `2 * 10 ^ 100` is rounded up to the next integer, and minus one is left. From 7.25
divided by minus two, minus four comes out, and -0.75 is left. -/
theorem floors_of_decimals_thirds :
    (∃ q r : Decimal,
      Value.foldBinary .floorDivide (.decimal ⟨2, -100⟩) (.int 3) = some (.decimal q) ∧
      Value.foldBinary .modulus (.decimal ⟨2, -100⟩) (.int 3) = some (.decimal r) ∧
      q.value = (2 * 10 ^ 100 + 1) / 3 ∧ r.value = -1) ∧
    ∃ q r : Decimal,
      Value.foldBinary .floorDivide (.decimal ⟨725, 2⟩) (.int (-2)) = some (.decimal q) ∧
      Value.foldBinary .modulus (.decimal ⟨725, 2⟩) (.int (-2)) = some (.decimal r) ∧
      q.value = -4 ∧ r.value = -3 / 4 := by
  have hthree : (3 : Int64).toInt = 3 := rfl
  have htwo : (-2 : Int64).toInt = -2 := rfl
  constructor
  · obtain ⟨q, r, hq, hr, hquotient, hrest, -⟩ := floors_of_decimals (a := .decimal ⟨2, -100⟩)
      (b := .int 3) rfl rfl (.inl rfl) (by rw [Decimal.value_ofInt, hthree]; norm_num)
    rw [hthree, quotient_thirds] at hquotient
    have hint : (2 * 10 ^ 100 + 1) / 3 = (((2 * 10 ^ 100 + 1) / 3 : ℤ) : ℚ) := by norm_num
    rw [hint, Int.floor_intCast] at hquotient
    refine ⟨q, r, hq, hr, by rw [hint, hquotient], ?_⟩
    rw [hrest, hquotient, hthree, Decimal.value_ofInt]
    norm_num [Decimal.value]
  · obtain ⟨q, r, hq, hr, -, -, hquotient, hrest, -, hsafe⟩ :=
      floors_of_decimals (a := .decimal ⟨725, 2⟩) (b := .int (-2)) rfl rfl (.inl rfl)
        (by rw [Decimal.value_ofInt, htwo]; norm_num)
    have hsafe := hsafe (by decide)
    have hvalues : (⟨725, 2⟩ : Decimal).value = 29 / 4 ∧ (Decimal.ofInt (-2)).value = -2 :=
      ⟨by norm_num [Decimal.value], by rw [Decimal.value_ofInt]; norm_num⟩
    have hfloor : ⌊(29 / 4 / -2 : ℚ)⌋ = -4 := by
      rw [Int.floor_eq_iff]
      norm_num
    rw [htwo, hvalues.1, hvalues.2, hfloor] at hquotient hrest
    refine ⟨q, r, hq, hr, ?_, ?_⟩
    · rw [hquotient.mpr hsafe]
      norm_num
    · rw [hrest.mpr hsafe]
      norm_num

end Folding

end QueryExpr
