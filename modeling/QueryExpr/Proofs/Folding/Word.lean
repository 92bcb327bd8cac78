import Mathlib.Tactic.ByContra
import QueryExpr.Folding.Word

/-!
# Words compute what integers are

The arithmetic of integers is defined by exact results that are missing where they are no word.
The operations on words arrive at the same results: the corrected quotient is the floor, the
corrected remainder is what the floor leaves, and repeated squaring never meets a square that is
too large before the power is. No plain operation ever traps.

* `fdiv_eq_tdiv`, `fmod_eq_tmod`: the floor and its rest from the quotient rounded towards zero.
* `run_floorQuotient`, `run_modulus`, `run_power`: the three computations of several operations.
* `powerFrom_eq`: **repeated squaring gives a power exactly if it is a word.**
* `run_combine`: **every operator gives on words what it gives on integers.**
-/

namespace QueryExpr

-- Powers are taken by the definition of the core library, whatever else is imported.
attribute [local instance (2000)] instPowNat

namespace Integer

/-! ## Missing results -/

theorem ofInt?_eq_none_iff {n : Int} :
    ofInt? n = none ↔ n < -2 ^ (63 : Nat) ∨ 2 ^ (63 : Nat) ≤ n := by
  unfold ofInt?
  split
  · next h => simp; omega
  · next h => simp; omega

theorem ofInt?_toInt (m : Int64) : ofInt? m.toInt = some m := ofInt?_eq_some_iff.mpr rfl

theorem ofInt?_of_natAbs {n : Int} (h : 2 ^ (63 : Nat) < n.natAbs) : ofInt? n = none :=
  ofInt?_eq_none_iff.mpr (by omega)

/-- A product with a positive number is no word if the other factor is none. -/
theorem ofInt?_mul_of_pos {x p : Int} (hx : ofInt? x = none) (hp : 0 < p) :
    ofInt? (x * p) = none := by
  rw [ofInt?_eq_none_iff] at hx ⊢
  rcases hx with hx | hx
  · left
    have hle : x * p ≤ x * 1 := Int.mul_le_mul_of_nonpos_left (by omega) (by omega)
    omega
  · right
    have hle : x * 1 ≤ x * p := Int.mul_le_mul_of_nonneg_left (by omega) (by omega)
    omega

/-- The least power of two that is no word is no square. -/
theorem lt_natAbs_of_square {b : Int} (h : ofInt? (b * b) = none) :
    2 ^ (63 : Nat) < (b * b).natAbs := by
  have hsquare : b * b = b.natAbs * b.natAbs := (Int.natAbs_mul_self (a := b)).symm
  have hlarge : 2 ^ (63 : Nat) ≤ b.natAbs * b.natAbs := by
    have hnone := ofInt?_eq_none_iff.mp h
    omega
  have hroot : 3037000500 ≤ b.natAbs := by
    by_contra hsmall
    have hle : b.natAbs * b.natAbs ≤ 3037000499 * 3037000499 :=
      Nat.mul_le_mul (by omega) (by omega)
    omega
  have hle : 3037000500 * 3037000500 ≤ b.natAbs * b.natAbs := Nat.mul_le_mul hroot hroot
  rw [Int.natAbs_mul]
  omega

/-- Where a square is no word, no multiple of a power of it is one. -/
theorem ofInt?_mul_square_pow {a b : Int} {k : Nat} (h : ofInt? (b * b) = none) (ha : a ≠ 0)
    (hk : k ≠ 0) : ofInt? (a * (b * b) ^ k) = none := by
  have hlarge := lt_natAbs_of_square h
  have hfactor : 1 ≤ a.natAbs := by omega
  have hpower : (b * b).natAbs ≤ (b * b).natAbs ^ k := Nat.le_self_pow hk _
  refine ofInt?_of_natAbs ?_
  rw [Int.natAbs_mul, Int.natAbs_pow]
  calc 2 ^ (63 : Nat) < (b * b).natAbs := hlarge
    _ ≤ (b * b).natAbs ^ k := hpower
    _ = 1 * (b * b).natAbs ^ k := (Nat.one_mul _).symm
    _ ≤ a.natAbs * (b * b).natAbs ^ k := Nat.mul_le_mul_right _ hfactor

end Integer

namespace Word

open Integer

variable {a b acc base : Int64} {n : Nat}

/-! ## Division -/

theorem divisionTrap?_eq_none_iff :
    divisionTrap? a b = none ↔ b ≠ 0 ∧ ¬ (a = Int64.minValue ∧ b = -1) := by
  unfold divisionTrap?
  split
  · next h => simp [h]
  · next h => split <;> simp_all

theorem toInt_eq_zero : b.toInt = 0 ↔ b = 0 := by
  rw [← Int64.toInt_zero, Int64.toInt_inj]

theorem toInt_div (h : divisionTrap? a b = none) : (a / b).toInt = a.toInt.tdiv b.toInt := by
  obtain ⟨-, hfits⟩ := divisionTrap?_eq_none_iff.mp h
  by_cases ha : a = Int64.minValue
  · exact Int64.toInt_div_of_ne_right a b fun hb => hfits ⟨ha, hb⟩
  · exact Int64.toInt_div_of_ne_left a b ha

/-- When a result is corrected, in terms of the integers that the words stand for. -/
theorem isCorrected_iff (rest a b : Int64) :
    (rest != 0 && signsDiffer a b) = true ↔
      rest.toInt ≠ 0 ∧ (decide (a.toInt < 0) != decide (b.toInt < 0)) = true := by
  simp only [signsDiffer, Int64.lt_iff_toInt_lt, Int64.toInt_zero, Bool.and_eq_true, bne_iff_ne,
    ne_eq, toInt_eq_zero]

/-- The remainder of the quotient rounded towards zero has the sign of the dividend. -/
theorem tmod_neg_iff {x y : Int} (h : x.tmod y ≠ 0) : x.tmod y < 0 ↔ x < 0 := by
  rcases Int.lt_or_le x 0 with hx | hx
  · have hneg : 0 ≤ (-x).tmod y := Int.tmod_nonneg y (by omega)
    rw [Int.neg_tmod] at hneg
    omega
  · have hpos : 0 ≤ x.tmod y := Int.tmod_nonneg y hx
    omega

/-- **The floor of a quotient**: one less than the quotient rounded towards zero, if the signs
differ and something remains. -/
theorem fdiv_eq_tdiv {x y : Int} (hy : y ≠ 0) :
    x.fdiv y =
      if x.tmod y ≠ 0 ∧ (decide (x < 0) != decide (y < 0)) = true then x.tdiv y - 1
      else x.tdiv y := by
  rw [Int.fdiv_eq_tdiv]
  have hdvd : y ∣ x ↔ x.tmod y = 0 := Int.dvd_iff_tmod_eq_zero
  by_cases hrest : x.tmod y = 0
  · simp [hdvd, hrest]
  · rcases Int.lt_or_gt_of_ne hy with hneg | hpos
    · have hsign : y.sign = -1 := Int.sign_eq_neg_one_of_neg hneg
      by_cases hx : x < 0 <;> simp [hdvd, hrest, hx, hneg, hsign] <;> omega
    · have hsign : y.sign = 1 := Int.sign_eq_one_of_pos hpos
      by_cases hx : x < 0 <;> simp [hdvd, hrest, hx, hsign] <;> omega

/-- **What the floor of a quotient leaves**: the remainder after rounding towards zero, and the
divisor with it, if their signs differ and something remains. -/
theorem fmod_eq_tmod {x y : Int} (hy : y ≠ 0) :
    x.fmod y =
      if x.tmod y ≠ 0 ∧ (decide (x.tmod y < 0) != decide (y < 0)) = true then x.tmod y + y
      else x.tmod y := by
  have hfloor := fdiv_eq_tdiv (x := x) hy
  have hrest := Int.mul_tdiv_add_tmod x y
  rw [Int.fmod_def]
  by_cases hzero : x.tmod y = 0
  · simp only [hzero, ne_eq, not_true_eq_false, false_and, if_false] at hfloor ⊢
    rw [hfloor]
    omega
  · have hsign := tmod_neg_iff hzero
    simp only [hsign]
    split at hfloor
    · next h => rw [if_pos h, hfloor, Int.mul_sub, Int.mul_one]; omega
    · next h => rw [if_neg h, hfloor]; omega

/-- Where the quotient does not trap, its floor is a word. -/
theorem exists_floorQuotient? (h : divisionTrap? a b = none) :
    ∃ q : Int64, floorQuotient? a b = some q ∧ q.toInt = a.toInt.fdiv b.toInt := by
  obtain ⟨hb, -⟩ := divisionTrap?_eq_none_iff.mp h
  have hb' : b.toInt ≠ 0 := mt toInt_eq_zero.mp hb
  have hrange : ofInt? (a.toInt.fdiv b.toInt) ≠ none := by
    intro hnone
    rw [ofInt?_eq_none_iff, fdiv_eq_tdiv hb', ← toInt_div h] at hnone
    have hlow := (a / b).le_toInt
    have hhigh := (a / b).toInt_lt
    split at hnone
    · next hc =>
      -- a quotient as small as this leaves nothing
      have hsmall : (a / b).toInt = -2 ^ (63 : Nat) := by omega
      have habs : (a.toInt.tdiv b.toInt).natAbs = a.toInt.natAbs / b.toInt.natAbs :=
        Int.natAbs_tdiv ..
      rw [← toInt_div h, hsmall] at habs
      have hle : a.toInt.natAbs ≤ 2 ^ (63 : Nat) := by
        have := a.le_toInt
        have := a.toInt_lt
        omega
      have hone : b.toInt.natAbs = 1 := by
        by_contra hne
        have hhalf : a.toInt.natAbs / b.toInt.natAbs ≤ a.toInt.natAbs / 2 :=
          Nat.div_le_div_left (by omega) (by decide)
        omega
      have hrest : (a.toInt.tmod b.toInt).natAbs = 0 := by
        rw [Int.natAbs_tmod, hone, Nat.mod_one]
      exact hc.1 (Int.natAbs_eq_zero.mp hrest)
    · omega
  cases hq : ofInt? (a.toInt.fdiv b.toInt) with
  | none => exact absurd hq hrange
  | some q => exact ⟨q, by rw [floorQuotient?, if_neg hb, hq], ofInt?_eq_some_iff.mp hq⟩

theorem floorQuotient?_of_trap {trap : Trap} (h : divisionTrap? a b = some trap) :
    floorQuotient? a b = none := by
  by_cases hb : b = 0
  · rw [floorQuotient?, if_pos hb]
  · have hlarge : a = Int64.minValue ∧ b = -1 := by
      by_contra hfits
      rw [divisionTrap?_eq_none_iff.mpr ⟨hb, hfits⟩] at h
      cases h
    obtain ⟨rfl, rfl⟩ := hlarge
    rfl

theorem run_floorQuotient (a b : Int64) : (floorQuotient a b).run = .ok (floorQuotient? a b) := by
  unfold floorQuotient
  rw [run_checked_bind, divide?]
  cases htrap : divisionTrap? a b with
  | some trap => rw [floorQuotient?_of_trap htrap]; rfl
  | none =>
    obtain ⟨hb, -⟩ := divisionTrap?_eq_none_iff.mp htrap
    have hb' : b.toInt ≠ 0 := mt toInt_eq_zero.mp hb
    have hplain : remainder a b = .ok (a % b) := by rw [remainder, htrap]
    have hcorrected := isCorrected_iff (a % b) a b
    rw [Option.elim_some, run_plain_bind hplain, floorQuotient?, if_neg hb, fdiv_eq_tdiv hb',
      ← Int64.toInt_mod, ← toInt_div htrap]
    split
    · next h =>
      rw [if_pos (hcorrected.mp h), run_checked, subtract?, Int64.toInt_one]
    · next h =>
      rw [if_neg (mt hcorrected.mpr h), run_pure, ofInt?_toInt]

theorem run_modulus (a b : Int64) : (modulus a b).run = .ok (modulus? a b) := by
  unfold modulus
  rw [run_checked_bind, remainder?]
  cases htrap : divisionTrap? a b with
  | some trap => rw [modulus?, floorQuotient?_of_trap htrap]; rfl
  | none =>
    obtain ⟨hb, -⟩ := divisionTrap?_eq_none_iff.mp htrap
    have hb' : b.toInt ≠ 0 := mt toInt_eq_zero.mp hb
    obtain ⟨q, hq, hfloor⟩ := exists_floorQuotient? htrap
    have hleft : a.toInt - q.toInt * b.toInt = a.toInt.fmod b.toInt := by
      rw [Int.fmod_def, hfloor, Int.mul_comm]
    have hcorrected := isCorrected_iff (a % b) (a % b) b
    rw [Option.elim_some, modulus?, hq, Option.bind_some, hleft, fmod_eq_tmod hb',
      ← Int64.toInt_mod]
    split
    · next h => rw [if_pos (hcorrected.mp h), run_checked, add?]
    · next h => rw [if_neg (mt hcorrected.mpr h), run_pure, ofInt?_toInt]

/-! ## Powers -/

/-- The power after one step: the lowest digit is dealt with, and the rest is a power of the
square. -/
theorem pow_halves (x y : Int) (n : Nat) :
    x * y ^ n = (if n % 2 = 1 then x * y else x) * (y * y) ^ (n / 2) := by
  have hsquare : (y * y) ^ (n / 2) = y ^ (2 * (n / 2)) := by
    rw [Int.pow_mul, Int.pow_succ, Int.pow_succ, Int.pow_zero, Int.one_mul]
  rw [hsquare]
  split
  · next hodd =>
    have hn : n = 2 * (n / 2) + 1 := by omega
    conv => lhs; rw [hn, Int.pow_succ]
    rw [Int.mul_comm (y ^ _) y, Int.mul_assoc]
  · next heven =>
    have hn : n = 2 * (n / 2) := by omega
    conv => lhs; rw [hn]

/-- The lowest digit of the exponent decides whether the base is multiplied in. -/
theorem ofInt?_digit (acc base : Int64) (n : Nat) :
    (if n % 2 = 1 then multiply? acc base else some acc) =
      ofInt? (if n % 2 = 1 then acc.toInt * base.toInt else acc.toInt) := by
  split
  · rfl
  · rw [ofInt?_toInt]

/-- **Repeated squaring gives a power exactly if it is a word.** A square is only taken while a
digit of the exponent is left, and then the power is at least as large as the square, unless a zero
has been multiplied in; but then the base is zero, too. -/
theorem powerFrom_eq (hzero : acc.toInt = 0 → base.toInt = 0) :
    powerFrom acc base n = ofInt? (acc.toInt * base.toInt ^ n) := by
  induction n using Nat.strongRecOn generalizing acc base with
  | ind n ih =>
    rw [powerFrom]
    by_cases hn : n = 0
    · rw [if_pos hn, hn, Int.pow_zero, Int.mul_one, ofInt?_toInt]
    · rw [if_neg hn, ofInt?_digit, pow_halves]
      cases hdigit : ofInt? (if n % 2 = 1 then acc.toInt * base.toInt else acc.toInt) with
      | none =>
        -- the base is multiplied in and is not zero, so what follows is positive
        have hne : base.toInt ≠ 0 := by
          intro hb
          rw [hb] at hdigit
          split at hdigit
          · rw [Int.mul_zero] at hdigit; cases hdigit
          · rw [ofInt?_toInt] at hdigit; cases hdigit
        have hsquare : 0 < base.toInt * base.toInt := by
          rw [← Int.natAbs_mul_self (a := base.toInt)]
          have hpos : 0 < base.toInt.natAbs * base.toInt.natAbs :=
            Nat.mul_pos (by omega) (by omega)
          omega
        exact (ofInt?_mul_of_pos hdigit (Int.pow_pos hsquare)).symm
      | some acc' =>
        have hacc := ofInt?_eq_some_iff.mp hdigit
        have hzero' : acc'.toInt = 0 → base.toInt = 0 := by
          intro h
          rw [hacc] at h
          split at h
          · exact (Int.mul_eq_zero.mp h).elim hzero id
          · exact hzero h
        rw [← hacc, Option.bind_some]
        by_cases hone : n = 1
        · rw [if_pos hone, hone]
          show some acc' = ofInt? (acc'.toInt * (base.toInt * base.toInt) ^ 0)
          rw [Int.pow_zero, Int.mul_one, ofInt?_toInt]
        · rw [if_neg hone]
          have hhalf : n / 2 ≠ 0 := by omega
          cases hsquare : multiply? base base with
          | none =>
            have hne : acc'.toInt ≠ 0 := by
              intro h
              rw [multiply?, hzero' h, Int.mul_zero] at hsquare
              cases hsquare
            exact (ofInt?_mul_square_pow hsquare hne hhalf).symm
          | some square =>
            have hvalue := ofInt?_eq_some_iff.mp hsquare
            rw [Option.bind_some, ih (n / 2) (by omega), hvalue]
            intro h
            rw [hvalue, hzero' h, Int.mul_zero]

theorem run_power (h : 0 ≤ b.toInt) :
    (power a b).run = .ok (power? a b.toInt.toNat) := by
  have hexponent : exponent? b =
      if b.toInt.toNat < exponentBound then some b.toInt.toNat else none := by
    unfold exponent?
    by_cases hb : b.toInt.toNat < exponentBound
    · rw [if_pos hb, if_pos ⟨h, by omega⟩]
    · rw [if_neg hb, if_neg (by omega)]
  unfold power power?
  rw [run_checked_bind, hexponent]
  split
  · next hb =>
    have hone : (1 : Int64).toInt = 0 → a.toInt = 0 := by
      intro h
      rw [Int64.toInt_one] at h
      cases h
    rw [Option.elim_some, run_checked, powerFrom_eq hone, Int64.toInt_one, Int.one_mul,
      ofInt?_pow_reducedExponent]
  · rfl

/-! ## Operators -/

theorem run_valued {c : Computation Int64} {r : Option Int64} (h : c.run = .ok r) :
    (valued c).run = .ok (r.map .int) := by
  unfold valued
  rw [OptionT.run_bind, h]
  cases r <;> rfl

/-- **Every operator gives on words what it gives on integers**, and never traps. -/
theorem run_combine (op : BinaryOp) (a b : Int64) :
    (combine op a b).run = .ok (Number.combineInts op a b) := by
  cases op with
  | floorDivide => exact run_valued (run_floorQuotient a b)
  | modulus => exact run_valued (run_modulus a b)
  | power =>
    unfold combine Number.combineInts Number.intPower?
    dsimp only
    split
    · rfl
    · next hb =>
      have hnonneg : 0 ≤ b.toInt := by
        rw [Int64.lt_iff_toInt_lt, Int64.toInt_zero] at hb
        omega
      exact run_valued (run_power hnonneg)
  | add => exact run_valued rfl
  | subtract => exact run_valued rfl
  | multiply => exact run_valued rfl
  | _ => rfl

end Word

end QueryExpr
