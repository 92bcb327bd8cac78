import Mathlib.Data.Rat.Floor
import QueryExpr.Folding
import QueryExpr.Proofs.Folding.Word

/-!
# What folding makes of two integers

Folding an operator over two integers gives the exact result, with quotients rounded to their floor,
or nothing. It gives nothing where the divisor is zero or the exact result has more than 64 bits,
and in two cases more: the remainder of the smallest integer by -1, which is missing together with
the quotient, and the powers of -1, 0 and 1 with exponents of more than 32 bits.

* `exactValue?`: the result in exact arithmetic. `IsLost`: the results that folding misses.
* `foldBinary_ints`: **folding gives what is exact, has 64 bits and is not lost.**
* `integers_sound`: nothing but exact results comes out, and nothing traps on the way.
* `integers_complete`: the exact results that are not given.
-/

namespace QueryExpr

-- Powers are taken by the definition of the core library, whatever else is imported.
attribute [local instance (2000)] instPowNat

namespace Folding

open Integer Number

variable {op : BinaryOp} {a b : Int64}

/-! ## Exact results -/

/-- The operators that make an integer of two integers. The power is one of them where the exponent
is not negative. -/
def IsIntegral (op : BinaryOp) (b : Int64) : Prop :=
  op ∈ [.add, .subtract, .multiply, .floorDivide, .modulus] ∨ op = .power ∧ 0 ≤ b.toInt

/-- The exact result of an operator that makes an integer of two integers. -/
def exactValue? (op : BinaryOp) (a b : Int) : Option Int :=
  match op with
  | .add => some (a + b)
  | .subtract => some (a - b)
  | .multiply => some (a * b)
  | .floorDivide => if b = 0 then none else some ⌊(a / b : ℚ)⌋
  | .modulus => if b = 0 then none else some (a - b * ⌊(a / b : ℚ)⌋)
  | .power => if 0 ≤ b then some (a ^ b.toNat) else none
  | _ => none

/-- The exact results of 64 bits that folding does not give. -/
def IsLost (op : BinaryOp) (a b : Int64) : Prop :=
  op = .modulus ∧ a = Int64.minValue ∧ b = -1 ∨
    op = .power ∧ exponentBound ≤ b.toInt ∧ (a = -1 ∨ a = 0 ∨ a = 1)

instance (op : BinaryOp) (a b : Int64) : Decidable (IsLost op a b) :=
  inferInstanceAs (Decidable (_ ∨ _))

/-- The floor of a fraction is what division with rounding down gives. -/
theorem floor_div (x y : Int) : ⌊(x / y : ℚ)⌋ = x.fdiv y := by
  obtain ⟨n, rfl | rfl⟩ := y.eq_nat_or_neg
  · rw [Int.cast_natCast, Rat.floor_intCast_div_natCast,
      Int.fdiv_eq_ediv_of_nonneg _ (Int.natCast_nonneg n)]
  · have hflip : (x / ((-n : ℤ) : ℚ)) = ((-x : ℤ) / (n : ℚ)) := by
      push_cast
      rw [div_neg, neg_div]
    rw [hflip, Rat.floor_intCast_div_natCast, ← Int.neg_fdiv_neg, Int.neg_neg,
      Int.fdiv_eq_ediv_of_nonneg _ (Int.natCast_nonneg n)]

theorem exactValue?_floorDivide (x : Int) {y : Int} (hy : y ≠ 0) :
    exactValue? .floorDivide x y = some (x.fdiv y) := by
  simp only [exactValue?, if_neg hy, floor_div]

theorem exactValue?_modulus (x : Int) {y : Int} (hy : y ≠ 0) :
    exactValue? .modulus x y = some (x.fmod y) := by
  simp only [exactValue?, if_neg hy, floor_div, Int.fmod_def]

theorem exactValue?_power (x : Int) {y : Int} (hy : 0 ≤ y) :
    exactValue? .power x y = some (x ^ y.toNat) := by
  simp only [exactValue?, if_pos hy]

/-! ## What folding gives -/

/-- Floors are exact, and those with 64 bits are given. -/
theorem floorQuotient?_eq (a b : Int64) :
    floorQuotient? a b = (exactValue? .floorDivide a.toInt b.toInt).bind ofInt? := by
  by_cases hb : b = 0
  · subst hb
    rfl
  · rw [exactValue?_floorDivide _ (mt Word.toInt_eq_zero.mp hb), floorQuotient?, if_neg hb]
    rfl

/-- What the floor leaves is exact, and it is given unless the floor is too large. -/
theorem modulus?_eq (h : ¬ (a = Int64.minValue ∧ b = -1)) :
    modulus? a b = (exactValue? .modulus a.toInt b.toInt).bind ofInt? := by
  by_cases hb : b = 0
  · subst hb
    rfl
  · obtain ⟨q, hq, hfloor⟩ :=
      Word.exists_floorQuotient? (Word.divisionTrap?_eq_none_iff.mpr ⟨hb, h⟩)
    rw [exactValue?_modulus _ (mt Word.toInt_eq_zero.mp hb), modulus?, hq, Option.bind_some, hfloor,
      Int.mul_comm, ← Int.fmod_def]
    rfl

/-- Powers are exact, and those with 64 bits are given if the exponent has at most 32 bits. -/
theorem power?_eq (hb : 0 ≤ b.toInt) (h : b.toInt < exponentBound) :
    power? a b.toInt.toNat = (exactValue? .power a.toInt b.toInt).bind ofInt? := by
  have hlt : b.toInt.toNat < exponentBound := by omega
  rw [power?, if_pos hlt, ofInt?_pow_reducedExponent, exactValue?_power _ hb]
  rfl

/-- With larger exponents, only the powers of -1, 0 and 1 have 64 bits. -/
theorem exactValue?_power_of_le (hb : exponentBound ≤ b.toInt)
    (ha : ¬ (a = -1 ∨ a = 0 ∨ a = 1)) :
    (exactValue? .power a.toInt b.toInt).bind ofInt? = none := by
  have hlarge : largeExponent ≤ b.toInt.toNat := by
    have hbound : exponentBound = 4294967296 := rfl
    have hlimit : largeExponent = 64 := rfl
    omega
  have habs : 2 ≤ a.toInt.natAbs := by
    by_contra hsmall
    have hthree : a.toInt = -1 ∨ a.toInt = 0 ∨ a.toInt = 1 := by omega
    exact ha (hthree.imp (fun h => Int64.toInt_inj.mp h)
      (Or.imp (fun h => Int64.toInt_inj.mp h) (fun h => Int64.toInt_inj.mp h)))
  have hnonneg : 0 ≤ b.toInt := by omega
  rw [exactValue?_power _ hnonneg]
  exact ofInt?_eq_none (two_pow_le_natAbs_pow habs hlarge)

/-- The results that are lost are exact and have 64 bits. -/
theorem exists_of_isLost (h : IsLost op a b) :
    ∃ n : Int64, exactValue? op a.toInt b.toInt = some n.toInt := by
  rcases h with ⟨rfl, rfl, rfl⟩ | ⟨rfl, hb, ha⟩
  · refine ⟨0, ?_⟩
    rw [exactValue?_modulus _ (by decide)]
    decide
  · have hnonneg : 0 ≤ b.toInt := by omega
    have habs : a.toInt.natAbs ≤ 1 := by rcases ha with rfl | rfl | rfl <;> decide
    have hpower : (a.toInt ^ b.toInt.toNat).natAbs ≤ 1 := by
      rw [Int.natAbs_pow, ← Nat.one_pow b.toInt.toNat]
      exact Nat.pow_le_pow_left habs _
    refine ⟨Int64.ofInt (a.toInt ^ b.toInt.toNat), ?_⟩
    rw [exactValue?_power _ hnonneg, toInt_ofInt (by omega)]

/-- Folding such an operator over integers is the arithmetic of integers. -/
theorem foldBinary_eq_combineInts (h : IsIntegral op b) :
    Value.foldBinary op (.int a) (.int b) = combineInts op a b := by
  rcases h with hop | ⟨rfl, -⟩
  · simp only [List.mem_cons, List.not_mem_nil, or_false] at hop
    rcases hop with rfl | rfl | rfl | rfl | rfl <;> rfl
  · rfl

/-- **Folding an operator over two integers gives what is exact, has 64 bits and is not lost.** -/
theorem foldBinary_ints (h : IsIntegral op b) :
    Value.foldBinary op (.int a) (.int b) =
      if IsLost op a b then none
      else ((exactValue? op a.toInt b.toInt).bind ofInt?).map .int := by
  rw [foldBinary_eq_combineInts h]
  split
  · next hlost =>
    rcases hlost with ⟨rfl, rfl, rfl⟩ | ⟨rfl, hb, -⟩
    · rfl
    · have hnot : ¬ b < 0 := by
        rw [Int64.lt_iff_toInt_lt, Int64.toInt_zero]
        omega
      rw [combineInts, intPower?, if_neg hnot, power?, if_neg (by omega)]
      rfl
  · next hkept =>
    rcases h with hop | ⟨rfl, hb⟩
    · simp only [List.mem_cons, List.not_mem_nil, or_false] at hop
      rcases hop with rfl | rfl | rfl | rfl | rfl
      · rfl
      · rfl
      · rfl
      · exact congrArg (Option.map Value.int) (floorQuotient?_eq a b)
      · exact congrArg (Option.map Value.int)
          (modulus?_eq fun hsmallest => hkept (.inl ⟨rfl, hsmallest⟩))
    · have hnot : ¬ b < 0 := by
        rw [Int64.lt_iff_toInt_lt, Int64.toInt_zero]
        omega
      rw [combineInts, intPower?, if_neg hnot]
      by_cases hbound : b.toInt < exponentBound
      · rw [power?_eq hb hbound]
      · -- the exponent has more than 32 bits, and the power more than 64
        have hle : (exponentBound : Int) ≤ b.toInt := by omega
        rw [exactValue?_power_of_le hle fun ha => hkept (.inr ⟨rfl, hle, ha⟩), power?,
          if_neg (by omega)]

theorem exact_of_foldBinary {v : Value} (h : IsIntegral op b)
    (hv : Value.foldBinary op (.int a) (.int b) = some v) :
    ∃ n : Int64, v = .int n ∧ exactValue? op a.toInt b.toInt = some n.toInt := by
  rw [foldBinary_ints h] at hv
  split at hv
  · cases hv
  · obtain ⟨n, hn, rfl⟩ := Option.map_eq_some_iff.mp hv
    obtain ⟨x, hx, hword⟩ := Option.bind_eq_some_iff.mp hn
    exact ⟨n, rfl, by rw [hx, ofInt?_eq_some_iff.mp hword]⟩

theorem foldBinary_of_inexact (h : IsIntegral op b)
    (hnone : (exactValue? op a.toInt b.toInt).bind ofInt? = none) :
    Value.foldBinary op (.int a) (.int b) = none := by
  rw [foldBinary_ints h, hnone]
  split <;> rfl

/-! ## Quotients and remainders -/

/-- What is left of a division has the sign of the divisor and is smaller than it. -/
theorem fmod_bounds {x y : Int} (hy : y ≠ 0) :
    |x.fmod y| < |y| ∧ (x.fmod y = 0 ∨ (x.fmod y).sign = y.sign) := by
  have hpositive : ∀ x y : Int, 0 < y →
      |x.fmod y| < |y| ∧ (x.fmod y = 0 ∨ (x.fmod y).sign = y.sign) := by
    intro x y hy
    have hnonneg : 0 ≤ x.fmod y := Int.fmod_nonneg_of_pos x hy
    have hlt : x.fmod y < y := Int.fmod_lt_of_pos x hy
    refine ⟨by rwa [abs_of_nonneg hnonneg, abs_of_pos hy], ?_⟩
    rcases hnonneg.eq_or_lt with hzero | hpos
    · exact .inl hzero.symm
    · exact .inr (by rw [Int.sign_eq_one_of_pos hpos, Int.sign_eq_one_of_pos hy])
  rcases Int.lt_or_lt_of_ne hy with hneg | hpos
  · -- with both signs turned round the divisor is positive
    have hturned := hpositive (-x) (-y) (by omega)
    rw [Int.neg_fmod_neg, abs_neg, abs_neg, Int.sign_neg, Int.sign_neg] at hturned
    exact ⟨hturned.1, hturned.2.imp (by omega) (by omega)⟩
  · exact hpositive x y hpos

/-- The quotient and the remainder that folding gives belong together. -/
theorem quotient_remainder {q r : Int64}
    (hq : Value.foldBinary .floorDivide (.int a) (.int b) = some (.int q))
    (hr : Value.foldBinary .modulus (.int a) (.int b) = some (.int r)) :
    a.toInt = q.toInt * b.toInt + r.toInt ∧ |r.toInt| < |b.toInt| ∧
      (r.toInt = 0 ∨ r.toInt.sign = b.toInt.sign) := by
  obtain ⟨q', hq', hquotient⟩ := exact_of_foldBinary (.inl (by decide)) hq
  obtain ⟨r', hr', hrest⟩ := exact_of_foldBinary (.inl (by decide)) hr
  cases hq'
  cases hr'
  by_cases hb : b.toInt = 0
  · simp only [exactValue?, if_pos hb] at hquotient
    cases hquotient
  · rw [exactValue?_floorDivide _ hb, Option.some.injEq] at hquotient
    rw [exactValue?_modulus _ hb, Option.some.injEq] at hrest
    have hsum := Int.mul_fdiv_add_fmod a.toInt b.toInt
    obtain ⟨hlt, hsign⟩ := fmod_bounds (x := a.toInt) hb
    rw [hrest] at hlt hsign hsum
    refine ⟨?_, hlt, hsign⟩
    rw [← hquotient, Int.mul_comm, hsum]

/-! ## Soundness and completeness -/

/-- **Folding an operator over two integers is sound.** What it gives is an integer, and the exact
result of the operator, with floors of quotients. It gives nothing if the divisor is zero or the
exact result has more than 64 bits. The same comes out of the operations on words, none of which
traps on the way. A quotient and a remainder that are both given make up the dividend, and the
remainder is smaller than the divisor and zero or of its sign. -/
theorem integers_sound (h : IsIntegral op b) :
    (∀ v, Value.foldBinary op (.int a) (.int b) = some v →
      ∃ n : Int64, v = .int n ∧ exactValue? op a.toInt b.toInt = some n.toInt) ∧
    (op = .floorDivide ∨ op = .modulus → b = 0 →
      Value.foldBinary op (.int a) (.int b) = none) ∧
    (∀ n, exactValue? op a.toInt b.toInt = some n →
      n < -2 ^ (63 : Nat) ∨ 2 ^ (63 : Nat) ≤ n → Value.foldBinary op (.int a) (.int b) = none) ∧
    (Word.combine op a b).run = .ok (Value.foldBinary op (.int a) (.int b)) ∧
    ∀ q r, Value.foldBinary .floorDivide (.int a) (.int b) = some (.int q) →
      Value.foldBinary .modulus (.int a) (.int b) = some (.int r) →
      a.toInt = q.toInt * b.toInt + r.toInt ∧ |r.toInt| < |b.toInt| ∧
        (r.toInt = 0 ∨ r.toInt.sign = b.toInt.sign) := by
  refine ⟨fun v hv => exact_of_foldBinary h hv, ?_, fun n hn hrange => ?_, ?_,
    fun q r hq hr => quotient_remainder hq hr⟩
  · rintro hop rfl
    refine foldBinary_of_inexact h ?_
    rcases hop with rfl | rfl <;> rfl
  · refine foldBinary_of_inexact h ?_
    rw [hn, Option.bind_some, ofInt?_eq_none_iff]
    exact hrange
  · rw [foldBinary_eq_combineInts h, Word.run_combine]

/-- Seven divided by minus two, rounded down, is minus four, and minus one is left. The quotient of
the smallest integer by -1 has more than 64 bits. -/
theorem integers_sound_seven :
    exactValue? .floorDivide 7 (-2) = some (-4) ∧
      (Word.combine .floorDivide 7 (-2)).run = .ok (some (.int (-4))) ∧
      (7 : Int) = -4 * -2 + -1 ∧ |(-1 : Int)| < |-2| ∧
      Value.foldBinary .floorDivide (.int Int64.minValue) (.int (-1)) = none ∧
      Value.foldBinary .modulus (.int 7) (.int 0) = none := by
  have hfloor : IsIntegral .floorDivide (-2) := .inl (by decide)
  have hq : Value.foldBinary .floorDivide (.int 7) (.int (-2)) = some (.int (-4)) := rfl
  have hr : Value.foldBinary .modulus (.int 7) (.int (-2)) = some (.int (-1)) := rfl
  obtain ⟨hexact, -, -, hwords, hpair⟩ := integers_sound (a := 7) hfloor
  obtain ⟨n, hn, hquotient⟩ := hexact _ hq
  cases hn
  obtain ⟨hsum, hlt, -⟩ := hpair _ _ hq hr
  have hlarge : exactValue? .floorDivide Int64.minValue.toInt (-1 : Int64).toInt =
      some (2 ^ (63 : Nat)) := by
    rw [exactValue?_floorDivide _ (by decide)]
    decide
  refine ⟨hquotient, hwords.trans (congrArg Except.ok hq), hsum, hlt, ?_, ?_⟩
  · exact (integers_sound (a := Int64.minValue) (b := -1) (.inl (by decide))).2.2.1 _ hlarge
      (.inr (by decide))
  · exact (integers_sound (a := 7) (b := 0) (.inl (by decide))).2.1 (.inr rfl) rfl

/-- **Folding gives every exact result that has 64 bits, but for those that are lost**: the
remainder of the smallest integer by -1, and the powers of -1, 0 and 1 with exponents of more than
32 bits. -/
theorem integers_complete (h : IsIntegral op b) :
    (∀ n : Int64, exactValue? op a.toInt b.toInt = some n.toInt →
      Value.foldBinary op (.int a) (.int b) = if IsLost op a b then none else some (.int n)) ∧
    ((∃ n : Int64, exactValue? op a.toInt b.toInt = some n.toInt ∧
      Value.foldBinary op (.int a) (.int b) = none) ↔ IsLost op a b) := by
  have hgiven : ∀ n : Int64, exactValue? op a.toInt b.toInt = some n.toInt →
      Value.foldBinary op (.int a) (.int b) =
        if IsLost op a b then none else some (.int n) := by
    intro n hn
    rw [foldBinary_ints h, hn, Option.bind_some, ofInt?_toInt]
    rfl
  refine ⟨hgiven, ?_, fun hlost => ?_⟩
  · rintro ⟨n, hn, hnone⟩
    rw [hgiven n hn] at hnone
    by_contra hkept
    rw [if_neg hkept] at hnone
    cases hnone
  · obtain ⟨n, hn⟩ := exists_of_isLost hlost
    exact ⟨n, hn, by rw [hgiven n hn, if_pos hlost]⟩

/-- The smallest integer leaves nothing when it is divided by -1, and a power of one is one. Neither
is given, while the remainder by -2 and the power with the largest exponent of 32 bits are. -/
theorem integers_complete_smallest :
    (exactValue? .modulus Int64.minValue.toInt (-1) = some 0 ∧
      Value.foldBinary .modulus (.int Int64.minValue) (.int (-1)) = none) ∧
    (exactValue? .power 1 4294967296 = some 1 ∧
      Value.foldBinary .power (.int 1) (.int 4294967296) = none) ∧
    Value.foldBinary .modulus (.int Int64.minValue) (.int (-2)) = some (.int 0) ∧
    Value.foldBinary .power (.int 1) (.int 4294967295) = some (.int 1) := by
  have hzero : exactValue? .modulus Int64.minValue.toInt (-1 : Int64).toInt =
      some (0 : Int64).toInt := by
    rw [exactValue?_modulus _ (by decide)]
    decide
  have heven : exactValue? .modulus Int64.minValue.toInt (-2 : Int64).toInt =
      some (0 : Int64).toInt := by
    rw [exactValue?_modulus _ (by decide)]
    decide
  have hone : ∀ n : Int, 0 ≤ n → exactValue? .power 1 n = some 1 := by
    intro n hn
    rw [exactValue?_power _ hn, Int.one_pow]
  have hlost : IsLost .power 1 4294967296 := .inr ⟨rfl, by decide, .inr (.inr rfl)⟩
  have hpower : IsIntegral .power 4294967296 := .inr ⟨rfl, by decide⟩
  refine ⟨⟨hzero, ?_⟩, ⟨hone _ (by decide), ?_⟩, ?_, ?_⟩
  · have hgiven := (integers_complete (.inl (by decide))).1 0 hzero
    rwa [if_pos (by decide)] at hgiven
  · have hgiven := (integers_complete (a := 1) hpower).1 1 (hone _ (by decide))
    rwa [if_pos hlost] at hgiven
  · have hgiven := (integers_complete (.inl (by decide))).1 0 heven
    rwa [if_neg (by decide)] at hgiven
  · have hgiven := (integers_complete (a := 1) (b := 4294967295) (.inr ⟨rfl, by decide⟩)).1 1
      (hone _ (by decide))
    rwa [if_neg (by decide)] at hgiven

end Folding

end QueryExpr
