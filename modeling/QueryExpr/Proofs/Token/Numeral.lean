import QueryExpr.FloatText
import QueryExpr.Token.Scan

/-!
# Numerals

A number is digits, then perhaps a point with digits, then perhaps a power of ten. It is
scanned as a whole wherever no character follows that could go on with it, and only numbers
are scanned. Numbers that are written out have a simpler power of ten: they are numerals.

* `scanNumber_append`: a number is scanned to its end.
* `isNumber_scanNumber`: what is scanned is a number.
* `isNumeral_nat`, `isNumeral_float`: integers and floating numbers are written as numerals.
* `digitsValue_toDigits`: the digits of a number are read back.
-/

namespace QueryExpr

namespace Token

variable {ds cs rest : List Char}

/-- A list of digits that is not empty. -/
def IsDigits (ds : List Char) : Prop := ds ≠ [] ∧ ∀ c ∈ ds, c.isDigit = true

/-- A point with digits, or nothing. -/
inductive IsFraction : List Char → Prop
  | none : IsFraction []
  | point {ds : List Char} (h : IsDigits ds) : IsFraction ('.' :: ds)

/-- A power of ten, or nothing. -/
inductive IsPower : List Char → Prop
  | none : IsPower []
  | positive {ds : List Char} (h : IsDigits ds) : IsPower ('e' :: ds)
  | negative {ds : List Char} (h : IsDigits ds) : IsPower ('e' :: '-' :: ds)

/-- Digits, perhaps a fraction, and perhaps a power of ten. -/
inductive IsNumeral : List Char → Prop
  | intro {whole fraction power : List Char} (hw : IsDigits whole) (hf : IsFraction fraction)
    (hp : IsPower power) : IsNumeral (whole ++ fraction ++ power)

/-- A power of ten after either mark, with or without a sign, or nothing. -/
inductive IsExponent : List Char → Prop
  | none : IsExponent []
  | unsigned {mark : Char} {ds : List Char} (hm : mark = 'e' ∨ mark = 'E') (h : IsDigits ds) :
    IsExponent (mark :: ds)
  | signed {mark sign : Char} {ds : List Char} (hm : mark = 'e' ∨ mark = 'E')
    (hs : sign = '+' ∨ sign = '-') (h : IsDigits ds) : IsExponent (mark :: sign :: ds)

/-- Digits, perhaps a fraction, and perhaps a power of ten in any form. -/
inductive IsNumber : List Char → Prop
  | intro {whole fraction exponent : List Char} (hw : IsDigits whole) (hf : IsFraction fraction)
    (he : IsExponent exponent) : IsNumber (whole ++ fraction ++ exponent)

theorem IsPower.isExponent (h : IsPower cs) : IsExponent cs := by
  cases h with
  | none => exact .none
  | positive h => exact .unsigned (.inl rfl) h
  | negative h => exact .signed (.inl rfl) (.inr rfl) h

theorem IsNumeral.isNumber (h : IsNumeral cs) : IsNumber cs := by
  obtain ⟨hw, hf, hp⟩ := h
  exact .intro hw hf hp.isExponent

/-- Nothing follows that could go on with a number. -/
def StopsNumber (rest : List Char) : Prop :=
  ∀ c ∈ rest.head?, c.isDigit = false ∧ c ≠ '.' ∧ ¬ (c = 'e' ∨ c = 'E')

/-- What may stand directly after a token: nothing, a space or a closing parenthesis. -/
def Follows (rest : List Char) : Prop := ∀ c ∈ rest.head?, c = ' ' ∨ c = ')'

theorem Follows.nil : Follows [] := nofun

theorem Follows.space (rest : List Char) : Follows (' ' :: rest) := by
  intro c hc
  cases hc
  exact Or.inl rfl

theorem Follows.paren (rest : List Char) : Follows (')' :: rest) := by
  intro c hc
  cases hc
  exact Or.inr rfl

/-- Where a list ends or goes on with what fails the test, the test stops. -/
theorem takeWhile_append {p : Char → Bool} (hcs : ∀ c ∈ cs, p c = true)
    (hrest : ∀ c ∈ rest.head?, p c = false) :
    (cs ++ rest).takeWhile p = cs ∧ (cs ++ rest).dropWhile p = rest := by
  rw [List.takeWhile_append_of_pos hcs, List.dropWhile_append_of_pos hcs]
  cases rest with
  | nil => simp
  | cons c tail =>
    have hc : p c = false := hrest c rfl
    simp [hc]

theorem isDigits_of_all (hne : ds ≠ []) (h : ds.all Char.isDigit = true) : IsDigits ds :=
  ⟨hne, List.all_eq_true.mp h⟩

theorem IsDigits.head (h : IsDigits ds) : ∃ d tail, ds = d :: tail ∧ d.isDigit = true := by
  cases ds with
  | nil => exact absurd rfl h.1
  | cons d tail => exact ⟨d, tail, rfl, h.2 d List.mem_cons_self⟩

theorem startsWithDigit_of_isDigits (h : IsDigits ds) (rest : List Char) :
    startsWithDigit (ds ++ rest) = true := by
  obtain ⟨d, tail, rfl, hd⟩ := h.head
  exact hd

theorem scanDigits_append (h : IsDigits ds) (hrest : ∀ c ∈ rest.head?, c.isDigit = false) :
    scanDigits (ds ++ rest) = (ds, rest) := by
  obtain ⟨ht, hd⟩ := takeWhile_append h.2 hrest
  rw [scanDigits, ht, hd]

theorem StopsNumber.not_isDigit (h : StopsNumber rest) : ∀ c ∈ rest.head?, c.isDigit = false :=
  fun c hc => (h c hc).1

theorem Follows.stopsNumber (h : Follows rest) : StopsNumber rest := by
  intro c hc
  rcases h c hc with rfl | rfl <;> decide

theorem scanExponent_append (h : IsExponent cs) (hrest : StopsNumber rest) :
    scanExponent (cs ++ rest) = (cs, rest) := by
  cases h with
  | none =>
    cases rest with
    | nil => rfl
    | cons c tail =>
      have hmark := (hrest c rfl).2.2
      rw [List.nil_append, scanExponent.eq_def]
      simp only [if_neg hmark]
  | unsigned hm h =>
    rename_i mark ds
    have hs := startsWithDigit_of_isDigits h rest
    have hd := scanDigits_append h hrest.not_isDigit
    obtain ⟨d, tail, rfl, hdig⟩ := h.head
    -- a sign is no digit
    have hsign : ¬ (d = '+' ∨ d = '-') := by
      rintro (rfl | rfl) <;> exact absurd hdig (by decide)
    rw [List.cons_append] at hs hd
    simp only [List.cons_append, scanExponent, if_pos hm, if_neg hsign, hs, if_true, hd]
  | signed hm hsign h =>
    have hs := startsWithDigit_of_isDigits h rest
    have hd := scanDigits_append h hrest.not_isDigit
    simp only [List.cons_append, scanExponent, if_pos hm, if_pos hsign, hs, if_true, hd]

/-- What follows the digits of a power is no digit and no point. -/
theorem IsExponent.head (h : IsExponent cs) (hrest : StopsNumber rest) :
    ∀ c ∈ (cs ++ rest).head?, c.isDigit = false ∧ c ≠ '.' := by
  have hmark : ∀ c : Char, c = 'e' ∨ c = 'E' → c.isDigit = false ∧ c ≠ '.' := by
    rintro c (rfl | rfl) <;> decide
  intro c hc
  cases h with
  | none =>
    obtain ⟨hdigit, hpoint, -⟩ := hrest c hc
    exact ⟨hdigit, hpoint⟩
  | unsigned hm _ => cases hc; exact hmark _ hm
  | signed hm _ _ => cases hc; exact hmark _ hm

theorem scanFraction_append (h : IsFraction cs) (hrest : ∀ c ∈ rest.head?, c.isDigit = false ∧ c ≠ '.') :
    scanFraction (cs ++ rest) = (cs, rest) := by
  cases h with
  | none =>
    cases rest with
    | nil => rfl
    | cons c tail =>
      have hc : c ≠ '.' := (hrest c rfl).2
      rw [List.nil_append, scanFraction]
      intro _ he
      exact hc (List.cons.inj he).1
  | point h =>
    have hs := startsWithDigit_of_isDigits h rest
    have hd := scanDigits_append h fun c hc => (hrest c hc).1
    simp only [List.cons_append, scanFraction, hs, if_true, hd]

/-- **A number is scanned to its end.** -/
theorem scanNumber_append (h : IsNumber cs) (hrest : StopsNumber rest) :
    scanNumber (cs ++ rest) = (cs, rest) := by
  obtain ⟨hw, hf, he⟩ := h
  rename_i whole fraction exponent
  have hexponent := he.head hrest
  have hfraction : ∀ c ∈ (fraction ++ (exponent ++ rest)).head?, c.isDigit = false := by
    intro c hc
    cases hf with
    | none => exact (hexponent c hc).1
    | point _ => cases hc; decide
  have h1 : scanDigits (whole ++ fraction ++ exponent ++ rest) =
      (whole, fraction ++ (exponent ++ rest)) := by
    rw [List.append_assoc, List.append_assoc, scanDigits_append hw hfraction]
  rw [scanNumber, h1]
  simp only
  rw [scanFraction_append hf hexponent]
  simp only
  rw [scanExponent_append he hrest]

theorem IsNumber.head (h : IsNumber cs) : ∃ d tail, cs = d :: tail ∧ d.isDigit = true := by
  obtain ⟨hw, -, -⟩ := h
  obtain ⟨d, tail, rfl, hd⟩ := hw.head
  exact ⟨d, _, rfl, hd⟩

/-! ## What is scanned -/

theorem isDigits_scanDigits (h : startsWithDigit cs = true) : IsDigits (scanDigits cs).1 := by
  cases cs with
  | nil => cases h
  | cons d tail =>
    have hd : d.isDigit = true := h
    refine ⟨?_, List.all_eq_true.mp List.all_takeWhile⟩
    rw [scanDigits, List.takeWhile_cons, if_pos hd]
    exact List.cons_ne_nil _ _

theorem isFraction_scanFraction (cs : List Char) : IsFraction (scanFraction cs).1 := by
  unfold scanFraction
  split
  · split
    · next hs => exact .point (isDigits_scanDigits hs)
    · exact .none
  · exact .none

theorem isExponent_scanExponent (cs : List Char) : IsExponent (scanExponent cs).1 := by
  unfold scanExponent
  split
  · split
    · next hm =>
      split
      · split
        · next hsign =>
          split
          · next hs => exact .signed hm hsign (isDigits_scanDigits hs)
          · exact .none
        · split
          · next hs => exact .unsigned hm (isDigits_scanDigits hs)
          · exact .none
      · exact .none
    · exact .none
  · exact .none

/-- **Only a number is scanned.** -/
theorem isNumber_scanNumber (h : startsWithDigit cs = true) : IsNumber (scanNumber cs).1 :=
  .intro (isDigits_scanDigits h) (isFraction_scanFraction _) (isExponent_scanExponent _)

/-! ## What is written out -/

theorem isDigits_zero : IsDigits ['0'] := isDigits_of_all nofun (by decide)

theorem isDigits_toDigits (n : Nat) : IsDigits (Nat.toDigits 10 n) :=
  ⟨Nat.toDigits_ne_nil, fun _ hc => Nat.isDigit_of_mem_toDigits (by decide) (by decide) hc⟩

theorem isDigits_append {es : List Char} (hd : IsDigits ds) (he : ∀ c ∈ es, c.isDigit = true) :
    IsDigits (ds ++ es) := by
  refine ⟨by simp [hd.1], fun c hc => ?_⟩
  rcases List.mem_append.mp hc with hc | hc
  · exact hd.2 c hc
  · exact he c hc

theorem IsDigits.take {n : Nat} (hd : IsDigits ds) (hn : 0 < n) : IsDigits (ds.take n) := by
  refine ⟨fun h => ?_, fun c hc => hd.2 c (List.mem_of_mem_take hc)⟩
  have hpos := List.length_pos_iff.mpr hd.1
  have hlen := congrArg List.length h
  rw [List.length_take, List.length_nil] at hlen
  omega

theorem IsDigits.drop {n : Nat} (hd : IsDigits ds) (hn : n < ds.length) : IsDigits (ds.drop n) := by
  refine ⟨fun h => ?_, fun c hc => hd.2 c (List.mem_of_mem_drop hc)⟩
  have hlen := congrArg List.length h
  rw [List.length_drop, List.length_nil] at hlen
  omega

/-- **An unsigned integer is written as a numeral.** -/
theorem isNumeral_nat (n : Nat) : IsNumeral (Nat.toDigits 10 n) := by
  have h := IsNumeral.intro (isDigits_toDigits n) .none .none
  simpa using h

/-- Digits, a point and digits are a numeral. -/
theorem isNumeral_point {es : List Char} (hd : IsDigits ds) (he : IsDigits es) :
    IsNumeral (ds ++ '.' :: es) := by
  have h := IsNumeral.intro hd (.point he) .none
  rwa [List.append_nil] at h

theorem isPower_int (n : Int) : IsPower ('e' :: (toString n).toList) := by
  cases n with
  | ofNat m =>
    have h : (toString (Int.ofNat m)).toList = Nat.toDigits 10 m := by
      rw [← Nat.toList_repr]
      rfl
    rw [h]
    exact .positive (isDigits_toDigits m)
  | negSucc m =>
    have h : (toString (Int.negSucc m)).toList = '-' :: Nat.toDigits 10 (m + 1) := by
      have : toString (Int.negSucc m) = "-" ++ Nat.repr (m + 1) := rfl
      rw [this, String.toList_append, Nat.toList_repr]
      rfl
    rw [h]
    exact .negative (isDigits_toDigits (m + 1))

theorem isDigit_of_mem_zeros {n : Nat} {c : Char} (h : c ∈ (Decimal.zeros n).toList) :
    c.isDigit = true := by
  rw [Decimal.zeros, String.toList_ofList] at h
  rw [List.eq_of_mem_replicate h]
  decide

/-- Digits with a point before some of them are a numeral. -/
theorem isNumeral_plainDigits {scale : Int} (hd : IsDigits ds) (hs : 0 < scale) :
    IsNumeral (Decimal.plainDigits ds scale).toList ∧ '.' ∈ (Decimal.plainDigits ds scale).toList := by
  have hplaces : 0 < scale.toNat := by omega
  rw [Decimal.plainDigits, if_neg (by omega)]
  simp only
  by_cases hl : scale.toNat < ds.length
  · rw [if_pos hl]
    simp only [String.toList_append, String.toList_ofList]
    have htake : IsDigits (ds.take (ds.length - scale.toNat)) := hd.take (by omega)
    have hdrop : IsDigits (ds.drop (ds.length - scale.toNat)) := hd.drop (by omega)
    have hpoint : ".".toList = ['.'] := rfl
    rw [hpoint, List.append_assoc]
    exact ⟨isNumeral_point htake hdrop, by simp⟩
  · rw [if_neg hl]
    simp only [String.toList_append, String.toList_ofList]
    have hrest : IsDigits ((Decimal.zeros (scale.toNat - ds.length)).toList ++ ds) := by
      refine ⟨by simp [hd.1], fun c hc => ?_⟩
      rcases List.mem_append.mp hc with hc | hc
      · exact isDigit_of_mem_zeros hc
      · exact hd.2 c hc
    have hpoint : "0.".toList = ['0'] ++ ['.'] := rfl
    rw [hpoint, List.append_assoc, List.append_assoc]
    exact ⟨isNumeral_point isDigits_zero hrest, by simp⟩

/-- A first digit, the others after a point and a power of ten are a numeral. -/
theorem isNumeral_scientificDigits (scale : Int) (hd : IsDigits ds) :
    IsNumeral (Decimal.scientificDigits "e" ds scale).toList ∧
      'e' ∈ (Decimal.scientificDigits "e" ds scale).toList := by
  have hone : IsDigits (ds.take 1) := hd.take Nat.one_pos
  have hpower := isPower_int (ds.length - 1 - scale)
  have hmark : "e".toList = ['e'] := rfl
  simp only [Decimal.scientificDigits, String.toList_append, String.toList_ofList, hmark]
  rw [List.append_assoc _ ['e']]
  refine ⟨IsNumeral.intro hone ?_ hpower, by simp⟩
  by_cases hl : ds.length ≤ 1
  · rw [if_pos hl]
    exact .none
  · have hpoint : ("." ++ String.ofList (ds.drop 1)).toList = '.' :: ds.drop 1 := by
      simp only [String.toList_append, String.toList_ofList]
      rfl
    rw [if_neg hl, hpoint]
    exact .point (hd.drop (Nat.not_le.mp hl))

/-- **An unsigned floating number is written as a numeral**, with a point or a power of ten. -/
theorem isNumeral_float (x : Float) :
    IsNumeral (FloatText.unsignedText x).toList ∧
      ∃ c ∈ (FloatText.unsignedText x).toList, c = '.' ∨ c = 'e' := by
  have hd := isDigits_toDigits (Decimal.shortest x).coefficient.natAbs
  unfold FloatText.unsignedText
  by_cases h0 : (x == 0) = true
  · rw [if_pos h0]
    exact ⟨isNumeral_point isDigits_zero isDigits_zero, '.', by decide, Or.inl rfl⟩
  · rw [if_neg h0]
    simp only
    by_cases hl : FloatText.scientificFrom ≤ x
    · rw [if_pos hl]
      obtain ⟨h, hmem⟩ := isNumeral_scientificDigits (Decimal.shortest x).scale hd
      exact ⟨h, 'e', hmem, Or.inr rfl⟩
    · rw [if_neg hl]
      by_cases hs : (Decimal.shortest x).scale ≤ 0
      · rw [if_pos hs, Decimal.plainDigits, if_pos hs]
        simp only [String.toList_append, String.toList_ofList]
        have hwhole := isDigits_append hd fun c hc =>
          isDigit_of_mem_zeros (n := (-(Decimal.shortest x).scale).toNat) hc
        have hpoint : ".0".toList = '.' :: ['0'] := rfl
        rw [hpoint]
        exact ⟨isNumeral_point hwhole isDigits_zero, '.', by simp, Or.inl rfl⟩
      · rw [if_neg hs]
        obtain ⟨h, hmem⟩ := isNumeral_plainDigits hd (Int.not_le.mp hs)
        exact ⟨h, '.', hmem, Or.inl rfl⟩

/-- The digits of a number are read back. -/
theorem digitsValue_toDigits (n : Nat) : Decimal.digitsValue (Nat.toDigits 10 n) = n := by
  have h : Decimal.digitsValue (Nat.toDigits 10 n) = Nat.ofDigitChars 10 (Nat.toDigits 10 n) 0 := by
    rw [Nat.ofDigitChars_eq_foldl]
    rfl
  rw [h, Nat.ofDigitChars_ten_toDigits]

end Token

end QueryExpr
