import QueryExpr.Proofs.Folding.Typing

/-!
# The kinds of numbers

Arithmetic is promoted twice: an operator gives its node the widest kind among the categories
of its operands, and folding brings two numbers to the wider of their kinds. The categories
know nothing of nulls, and a null makes the result of folding null. Apart from that, and from
powers, both promotions are the same function of the kinds (`resultKind?`).

* `numericKind?_joined`: the kind of a node from the kinds of its operands.
* `numericKind?_foldArithmetic`: the kind of a result from the kinds of the numbers.
* `numericKind?_of_sweep`: the induction on the expression.
* `Folding.compile_predicts_kind`: **categories tell the kind of the value.**
-/

namespace QueryExpr

open Rule Registry QueryExpr.Expr

/-- The kinds of numbers. -/
inductive NumericKind where
  | integer
  | decimal
  | floating
  deriving DecidableEq, Repr

namespace NumericKind

def category : NumericKind → Category
  | integer => .integer
  | decimal => .decimal
  | floating => .floating

/-- The kind to which numbers of two kinds are brought. -/
def wider : NumericKind → NumericKind → NumericKind
  | floating, _ | _, floating => floating
  | decimal, _ | _, decimal => decimal
  | integer, integer => integer

end NumericKind

/-- **The kind that an arithmetic operator gives** over operands of two kinds, of which one may
be missing: true division is always floating, and the wider kind wins otherwise. -/
def BinaryOp.resultKind? (op : BinaryOp) (j k : Option NumericKind) : Option NumericKind :=
  if op = .divide then some .floating else Option.merge NumericKind.wider j k

variable {e a b x : Expr} {op : BinaryOp} {t : ValueType} {u v w : Value} {k : NumericKind}
  {s : Categories}

/-! ## The kinds of categories -/

/-- The widest kind of number that a set holds. -/
def Categories.numericKind? (s : Categories) : Option NumericKind :=
  if s.has .floating then some .floating
  else if s.has .decimal then some .decimal
  else if s.has .integer then some .integer
  else none

/-- The set holds the category of one kind of number and is numeric, or neither. -/
structure Categories.Kinded (s : Categories) : Prop where
  numeric : s.has .numeric = s.numericKind?.isSome
  category : ∀ k : NumericKind, s.has k.category = decide (s.numericKind? = some k)

instance (s : Categories) : Decidable s.Kinded :=
  decidable_of_iff (s.has .numeric = s.numericKind?.isSome ∧
      ∀ k ∈ [NumericKind.integer, .decimal, .floating],
        s.has k.category = decide (s.numericKind? = some k))
    ⟨fun h => ⟨h.1, fun k => h.2 k (by cases k <;> decide)⟩, fun h => ⟨h.1, fun k _ => h.2 k⟩⟩

theorem Categories.Kinded.eq_some (h : s.Kinded) (hk : s.has k.category = true) :
    s.numericKind? = some k := by
  rw [h.category k, decide_eq_true_eq] at hk
  exact hk

theorem kinded_value (v : Value) : v.categories.Kinded := by
  cases v <;> simp only [Value.categories, Value.kind] <;> decide

theorem kinded_scalar (t : ValueType) : (t.categories .scalar).closure.Kinded := by
  cases t <;> decide

/-- The categories of an arithmetic node, by its shape and its kind. -/
theorem numericKind?_arithmetic (shape : Shape) (k : NumericKind) :
    (Categories.closure ({shape.category} ∪ {k.category})).Kinded ∧
      (Categories.closure ({shape.category} ∪ {k.category})).numericKind? = some k := by
  cases shape <;> cases k <;> decide

/-- A truth value is of no kind of number. -/
theorem numericKind?_truth (shape : Shape) :
    (Categories.closure ({shape.category} ∪ {.boolean})).Kinded ∧
      (Categories.closure ({shape.category} ∪ {.boolean})).numericKind? = none := by
  cases shape <;> decide

/-! ## The kind of a node -/

/-- What a constructor asks the categories of an operand. -/
theorem Categories.Kinded.has (h : s.Kinded) :
    s.has .numeric = s.numericKind?.isSome ∧
      s.has .integer = decide (s.numericKind? = some .integer) ∧
      s.has .decimal = decide (s.numericKind? = some .decimal) ∧
      s.has .floating = decide (s.numericKind? = some .floating) :=
  ⟨h.numeric, h.category .integer, h.category .decimal, h.category .floating⟩

/-- The widest category of two operands, of which one is a number. -/
theorem numericKind_pair (op : BinaryOp) (ha : a.categories.Kinded) (hb : b.categories.Kinded)
    (hsome : a.categories.numericKind?.isSome = true ∨ b.categories.numericKind?.isSome = true) :
    ∃ k, op.resultKind? a.categories.numericKind? b.categories.numericKind? = some k ∧
      Constructor.numericKind (.binary op) [a, b] = k.category := by
  by_cases hop : op = .divide
  · subst hop
    exact ⟨.floating, rfl, rfl⟩
  · have hne : Operation.binary op ≠ .binary .divide := fun h => hop (Operation.binary.inj h)
    obtain ⟨hna, hia, hda, hfa⟩ := ha.has
    obtain ⟨hnb, hib, hdb, hfb⟩ := hb.has
    unfold Constructor.numericKind BinaryOp.resultKind?
    rw [if_neg hne, if_neg hop]
    revert hsome hna hia hda hfa hnb hib hdb hfb
    -- what the operands have is known by their kinds, and one of them may have none
    rcases a.categories.numericKind? with _ | _ | _ | _ <;>
      rcases b.categories.numericKind? with _ | _ | _ | _ <;>
      intro hsome hna hia hda hfa hnb hib hdb hfb <;>
      first
        | exact ⟨_, rfl, by simp [hna, hia, hda, hfa, hnb, hib, hdb, hfb, NumericKind.category,
            NumericKind.wider]⟩
        | simp at hsome

/-- At least one operand of arithmetic is a number, as not both are raw nulls. -/
theorem Registry.Operands.isSome (h : Operands op a b) (harith : op.family = .arithmetic)
    (ha : a.categories.Kinded) (hb : b.categories.Kinded) :
    a.categories.numericKind?.isSome = true ∨ b.categories.numericKind?.isSome = true := by
  have hnode : ∀ {x : Expr}, x.categories.Kinded → x.isValue = false →
      isLegalOperand op.family x = true → x.categories.numericKind?.isSome = true := by
    intro x hx hvalue hlegal
    have hne : x ≠ .value .null := by
      rintro rfl
      cases hvalue
    rw [isLegalOperand_of_ne _ hne, harith] at hlegal
    rw [← hx.numeric]
    exact hlegal
  rcases h.chooses with hv | ⟨-, hv⟩
  · exact .inl (hnode ha hv h.left)
  · exact .inr (hnode hb hv h.right)

/-- **The kind of an arithmetic node** follows from the kinds of its operands. -/
theorem numericKind?_joined (h : Operands op a b) (harith : op.family = .arithmetic)
    (ha : a.categories.Kinded) (hb : b.categories.Kinded) :
    (joined op a b).categories.Kinded ∧ (joined op a b).categories.numericKind? =
      op.resultKind? a.categories.numericKind? b.categories.numericKind? := by
  obtain ⟨k, hk, hcategory⟩ := numericKind_pair op ha hb (h.isSome harith ha hb)
  rw [categories_arithmetic harith, hcategory, hk]
  exact numericKind?_arithmetic _ k

/-- Comparisons and connectives are of no kind of number. -/
theorem numericKind?_joined_truth (h : op.family ≠ .arithmetic) (a b : Expr) :
    (joined op a b).categories.Kinded ∧ (joined op a b).categories.numericKind? = none := by
  rw [categories_truth h]
  exact numericKind?_truth _

theorem numericKind?_negated (x : Expr) :
    (negated x).categories.Kinded ∧ (negated x).categories.numericKind? = none :=
  numericKind?_truth _

/-! ## The kind of a value -/

/-- The kind of a number; other values and nulls have none. -/
def Value.numericKind? : Value → Option NumericKind
  | int _ => some .integer
  | decimal _ => some .decimal
  | float _ => some .floating
  | _ => none

theorem Value.numericKind?_of_isTruth (h : v.isTruth = true) : v.numericKind? = none := by
  cases v <;> first | rfl | cases h

theorem numericKind?_value (v : Value) : v.categories.numericKind? = v.numericKind? := by
  cases v <;> simp only [Value.categories, Value.kind] <;> rfl

theorem numericKind?_scalar (h : t.accepts v = true) :
    (scalar t v).categories.numericKind? = v.numericKind? := by
  have hc : (scalar t v).categories.numericKind? = (t.categories .scalar).closure.numericKind? := rfl
  rw [hc]
  cases t <;> cases v <;> first | rfl | cases h

namespace Number

def kind : Number → NumericKind
  | int _ => .integer
  | decimal _ => .decimal
  | float _ => .floating

variable {m n : Number}

theorem numericKind?_of_ofValue? (h : ofValue? v = some n) : v.numericKind? = some n.kind := by
  cases v <;> cases h <;> rfl

theorem numericKind?_of_map {α : Type} {f : α → Value} (hf : ∀ a, (f a).numericKind? = some k)
    {o : Option α} (h : o.map f = some v) : v.numericKind? = some k := by
  obtain ⟨a, -, rfl⟩ := Option.map_eq_some_iff.1 h
  exact hf a

theorem numericKind?_finite? {y : Float} (h : finite? y = some v) :
    v.numericKind? = some .floating := by
  unfold finite? at h
  split at h <;> cases h
  rfl

/-- Only a power leaves the integers. -/
theorem numericKind?_combineInts {m n : Int64} (hop : op ≠ .power)
    (h : combineInts op m n = some v) : v.numericKind? = some .integer := by
  cases op with
  | power => exact absurd rfl hop
  | add | subtract | multiply | floorDivide | modulus => exact numericKind?_of_map (fun _ => rfl) h
  | _ => cases h

theorem numericKind?_combineFloats {y z : Float} (h : combineFloats op y z = some v) :
    v.numericKind? = some .floating := by
  unfold combineFloats at h
  split at h
  all_goals first
    | exact numericKind?_finite? h
    | split at h <;> first | exact numericKind?_finite? h | cases h
    | cases h

/-- **Two numbers are combined to the wider of their kinds**, and divided as floating ones. -/
theorem numericKind?_combine (hop : op ≠ .power) (h : combine op m n = some v) :
    v.numericKind? = op.resultKind? (some m.kind) (some n.kind) := by
  unfold combine at h
  rw [BinaryOp.resultKind?]
  split at h
  · next hdivide =>
    rw [if_pos hdivide]
    split at h
    · cases h
    · exact numericKind?_finite? h
  · next hdivide =>
    rw [if_neg hdivide]
    cases m <;> cases n <;> first
      | exact numericKind?_combineInts hop h
      | exact numericKind?_combineFloats h
      | exact numericKind?_of_map (fun _ => rfl) h

end Number

/-- **The kind of the result of arithmetic**, unless a null makes it null. -/
theorem numericKind?_foldArithmetic (hop : op ≠ .power) (h : Value.foldArithmetic op u w = some v)
    (hv : v ≠ .null) : u ≠ .null ∧ w ≠ .null ∧
      v.numericKind? = op.resultKind? u.numericKind? w.numericKind? := by
  unfold Value.foldArithmetic at h
  split at h
  · cases h
    exact absurd rfl hv
  · next hnull =>
    have hu : u ≠ .null := by rintro rfl; exact hnull rfl
    have hw : w ≠ .null := by rintro rfl; exact hnull (Bool.or_true _)
    refine ⟨hu, hw, ?_⟩
    split at h
    · next m n hm hn =>
      rw [Number.numericKind?_of_ofValue? hm, Number.numericKind?_of_ofValue? hn]
      exact Number.numericKind?_combine hop h
    · cases h

/-! ## The induction -/

namespace Folding

/-- An operator that is computed has both its operands computed. -/
theorem foldBinary_of_sweep_joined (ha : a.Computable) (hb : b.Computable)
    (h : (sweep rules (joined op a b)).expr = .value v) :
    ∃ u w, (sweep rules a).expr = .value u ∧ (sweep rules b).expr = .value w ∧
      Value.foldBinary op u w = some v := by
  rw [sweep_joined] at h
  by_cases hv : (sweep rules a).expr.isValue = true ∧ (sweep rules b).expr.isValue = true
  · obtain ⟨u, hu⟩ := exists_of_isValue hv.1
    obtain ⟨w, hw⟩ := exists_of_isValue hv.2
    rw [hu, hw, applyFirst_values ((settles ha).foldable u hu) ((settles hb).foldable w hw)] at h
    refine ⟨u, w, hu, hw, ?_⟩
    cases hf : Value.foldBinary op u w with
    | some v' =>
      rw [hf] at h
      cases h
      rfl
    | none =>
      rw [hf] at h
      cases h
  · rw [applyFirst_binary hv] at h
    cases h

/-- A negation that is computed is that of a value. -/
theorem negation?_of_sweep_negated (h : (sweep rules (negated x)).expr = .value v) :
    ∃ u : Value, u.negation? = some v := by
  rw [sweep_negated] at h
  cases hv : (sweep rules x).expr.isValue with
  | false =>
    rw [applyFirst_not hv] at h
    cases h
  | true =>
    obtain ⟨u, hu⟩ := exists_of_isValue hv
    rw [hu, applyFirst_not_value] at h
    refine ⟨u, ?_⟩
    cases hn : u.negation? with
    | some w =>
      rw [hn] at h
      cases h
      rfl
    | none =>
      rw [hn] at h
      cases h

/-- No power stands in the expression. -/
def HasNoPower (e : Expr) : Prop := Everywhere (fun x => x.operation? ≠ some (.binary .power)) e

/-- What is formed of literals is of one kind of number, or of none. -/
theorem kinded (h : Formed (IsLiteral Value.isFoldable) e) : e.categories.Kinded := by
  induction h with
  | leaf h =>
    cases h with
    | scalar hv h => exact kinded_scalar _
    | value h => exact kinded_value _
  | @joined op a b _ _ h iha ihb =>
    by_cases hf : op.family = .arithmetic
    · exact (numericKind?_joined h hf iha ihb).1
    · exact (numericKind?_joined_truth hf a b).1
  | negated _ _ _ _ => exact (numericKind?_negated _).1

/-- **A value that is left of an expression is null, or of the kind of its categories.** -/
theorem numericKind?_of_sweep (h : Formed (IsLiteral Value.isFoldable) e) (hpower : HasNoPower e)
    (hv : (sweep rules e).expr = .value v) (hnull : v ≠ .null) :
    v.numericKind? = e.categories.numericKind? := by
  induction h generalizing v with
  | leaf h =>
    cases h with
    | @scalar t w ht h =>
      have hsweep : (sweep rules (scalar t w)).expr = .value w := rfl
      rw [hsweep] at hv
      cases hv
      exact (numericKind?_scalar ht).symm
    | value h =>
      rw [sweep] at hv
      cases hv
      exact (numericKind?_value v).symm
  | @joined op a b ha hb h iha ihb =>
    obtain ⟨hnode, hargs⟩ := everywhere_node.1 hpower
    have hop : op ≠ .power := by
      rintro rfl
      exact hnode rfl
    obtain ⟨u, w, hu, hw, hfold⟩ := foldBinary_of_sweep_joined (ha.computable fun _ => id)
      (hb.computable fun _ => id) hv
    cases hf : op.family with
    | arithmetic =>
      -- no operand is null, so the kinds of both values are those of their expressions
      rw [Value.foldBinary, hf] at hfold
      obtain ⟨hu', hw', hkind⟩ := numericKind?_foldArithmetic hop hfold hnull
      rw [(numericKind?_joined h hf (kinded ha) (kinded hb)).2, hkind,
        iha (hargs a (by simp)) hu hu', ihb (hargs b (by simp)) hw hw']
    | comparison =>
      rw [Value.foldBinary, hf] at hfold
      rw [(numericKind?_joined_truth (by rw [hf]; decide) a b).2]
      exact Value.numericKind?_of_isTruth (Value.isTruth_foldComparison hfold)
    | logical =>
      rw [Value.foldBinary, hf] at hfold
      rw [(numericKind?_joined_truth (by rw [hf]; decide) a b).2]
      exact Value.numericKind?_of_isTruth (Value.isTruth_foldLogical hfold)
  | @negated x hx _ _ _ =>
    obtain ⟨u, hu⟩ := negation?_of_sweep_negated hv
    rw [(numericKind?_negated x).2]
    cases u <;> cases hu <;> rfl

/-! ## Literals of any value -/

/-- A value that an operator takes is one that folding is about. -/
theorem isFoldable_of_legal (h : isLegalOperand op.family (.value v) = true) :
    v.isFoldable = true := by
  cases v with
  | list _ | schema _ | fragment _ =>
    have hempty : ∀ family, (∅ : Categories).closure.has (requiredOperand family) = false := by
      intro family
      cases family <;> decide
    have hlegal : (∅ : Categories).closure.has (requiredOperand op.family) = true := h
    rw [hempty] at hlegal
    cases hlegal
  | _ => rfl

/-- Lists, schemas and fragments are no operands: they stand alone, or not at all. -/
theorem formed_of_literals (h : Formed (IsLiteral fun _ => true) e) :
    e.isValue = true ∨ Formed (IsLiteral Value.isFoldable) e := by
  have hoperand : ∀ {op : BinaryOp} {x : Expr}, isLegalOperand op.family x = true →
      x.isValue = true ∨ Formed (IsLiteral Value.isFoldable) x →
      Formed (IsLiteral Value.isFoldable) x := by
    intro op x hlegal hx
    rcases hx with hx | hx
    · obtain ⟨v, rfl⟩ := exists_of_isValue hx
      exact .leaf (.value (isFoldable_of_legal hlegal))
    · exact hx
  induction h with
  | leaf h =>
    cases h with
    | scalar hv h => exact .inr (.leaf (.scalar hv (isFoldable_of_accepts hv)))
    | value h => exact .inl rfl
  | joined _ _ h iha ihb => exact .inr (.joined (hoperand h.left iha) (hoperand h.right ihb) h)
  | negated _ hv hlegal ih =>
    exact .inr (.negated (ih.resolve_left (by rw [hv]; exact Bool.false_ne_true)) hv hlegal)

/-- What a compiled value has of the categories of its expression. -/
structure Agrees (v : Value) (c : Categories) : Prop where
  kinded : c.Kinded
  number : v ≠ .null → v.numericKind? = c.numericKind?
  suits : v.Suits c

theorem Agrees.value (v : Value) : Agrees v v.categories where
  kinded := kinded_value v
  number _ := (numericKind?_value v).symm
  suits := v.suits_categories

/-- A value that an expression compiles to agrees with its categories. -/
theorem agrees_of_compile (h : Formed (IsLiteral fun _ => true) e) (hpower : HasNoPower e)
    {limit : Nat} (hv : (compiler limit).compile e = .ok v) : Agrees v e.categories := by
  rcases formed_of_literals h with hvalue | hformed
  · obtain ⟨w, rfl⟩ := exists_of_isValue hvalue
    have hswept : (sweep rules (.value w)).expr = .value v := Compiler.sweep_of_compile rfl hv
    cases hswept
    exact .value v
  · have hswept : (sweep rules e).expr = .value v :=
      Compiler.sweep_of_compile (rests concludes e).again hv
    refine ⟨kinded hformed, numericKind?_of_sweep hformed hpower hswept, ?_⟩
    cases types (fun _ => id) hformed with
    | value w hw hsuits =>
      rw [hw] at hswept
      cases hswept
      exact hsuits
    | blocked hblocked =>
      have hnode := hblocked.isValue
      rw [hswept] at hnode
      cases hnode

/-- An arithmetic node of what is built of literals is promoted. -/
theorem promoted {l r : Expr} {c : Categories} (h : Formed (IsLiteral fun _ => true) e)
    (he : e = .node (.binary op) [l, r] c) (harith : op.family = .arithmetic) :
    c.numericKind? = op.resultKind? l.categories.numericKind? r.categories.numericKind? := by
  rcases formed_of_literals h with hvalue | hformed
  · rw [he] at hvalue
    cases hvalue
  · -- only operators make nodes of two operands
    cases hformed with
    | leaf h => cases h <;> cases he
    | joined ha hb hop =>
      cases he
      exact (numericKind?_joined hop harith (kinded ha) (kinded hb)).2
    | negated hx hv hlegal => cases he

/-- **Categories tell the kind of the value.** An expression that the standard operators build of
typed scalars and raw values, without powers, compiles to null or to a value of the kind that its
categories name. True division is always floating, and other arithmetic is of the widest kind
among its operands. -/
theorem compile_predicts_kind (he : Built standard (IsLiteral fun _ => true) e)
    (hpower : HasNoPower e) {limit : Nat} (hv : (compiler limit).compile e = .ok v)
    (hnull : v ≠ .null) :
    (e.categories.has .integer = true → ∃ n, v = .int n) ∧
    (e.categories.has .decimal = true → ∃ d, v = .decimal d) ∧
    (e.categories.has .floating = true → ∃ y, v = .float y) ∧
    (e.categories.has .boolean = true → ∃ b, v = .bool b) ∧
    ∀ op l r c, e = .node (.binary op) [l, r] c → op.family = .arithmetic →
      c.numericKind? = op.resultKind? l.categories.numericKind? r.categories.numericKind? := by
  have hformed := formed_of_built (fun _ => IsLiteral.closed) he
  have hagrees := agrees_of_compile hformed hpower hv
  have hkind : ∀ k : NumericKind, e.categories.has k.category = true → v.numericKind? = some k :=
    fun k hk => (hagrees.number hnull).trans (hagrees.kinded.eq_some hk)
  refine ⟨fun h => ?_, fun h => ?_, fun h => ?_, fun h => ?_,
    fun op l r c h harith => promoted hformed h harith⟩
  · have hinteger := hkind .integer h
    cases v <;> first | exact ⟨_, rfl⟩ | cases hinteger
  · have hdecimal := hkind .decimal h
    cases v <;> first | exact ⟨_, rfl⟩ | cases hdecimal
  · have hfloating := hkind .floating h
    cases v <;> first | exact ⟨_, rfl⟩ | cases hfloating
  · have htruth := hagrees.suits.truth h
    cases v with
    | bool b => exact ⟨b, rfl⟩
    | null => exact absurd rfl hnull
    | _ => cases htruth

/-- `7 // 2 + 1.0`, whose quotient is an integer and whose sum is a decimal. -/
theorem compile_predicts_kind_sum :
    ∃ q e v, standard.applyBinary (.binary .floorDivide) (scalar .int8 (.int 7)) (.value (.int 2)) =
        .ok q ∧
      standard.applyBinary (.binary .add) q (scalar .decimal (.decimal (.ofInt 1))) = .ok e ∧
      q.categories.has .integer = true ∧ e.categories.has .decimal = true ∧
      (compiler Settings.defaultLimit).compile e = .ok v ∧ ∃ d, v = .decimal d := by
  have hlimit : 2 ≤ Settings.defaultLimit := by decide
  have hseven : Built standard (IsLiteral fun _ => true) (scalar .int8 (.int 7)) :=
    .leaf (.scalar rfl rfl)
  have htwo : Built standard (IsLiteral fun _ => true) (.value (.int 2)) := .leaf (.value rfl)
  have hone : Built standard (IsLiteral fun _ => true) (scalar .decimal (.decimal (.ofInt 1))) :=
    .leaf (.scalar rfl rfl)
  obtain ⟨q, hq⟩ : ∃ q, q = joined .floorDivide (scalar .int8 (.int 7)) (.value (.int 2)) := ⟨_, rfl⟩
  have hquotient : standard.applyBinary (.binary .floorDivide) (scalar .int8 (.int 7))
      (.value (.int 2)) = .ok q := by rw [hq]; rfl
  obtain ⟨e, he⟩ : ∃ e, e = joined .add q (scalar .decimal (.decimal (.ofInt 1))) := ⟨_, rfl⟩
  have hsum : standard.applyBinary (.binary .add) q (scalar .decimal (.decimal (.ofInt 1))) =
      .ok e := by rw [he, hq]; rfl
  have hbuilt := Built.binary (.binary hseven htwo hquotient) hone hsum
  have hpower : HasNoPower e := by
    rw [he, hq]
    simp [HasNoPower, joined, scalar, make, operation?]
  have hdecimal : e.categories.has .decimal = true := by rw [he, hq]; rfl
  have hvalue : ∃ v, (sweep rules e).expr = .value v ∧ v ≠ .null := by
    rw [he, hq]
    exact ⟨_, rfl, nofun⟩
  obtain ⟨v, hv, hnull⟩ := hvalue
  have hcompile : (compiler Settings.defaultLimit).compile e = .ok v := by
    rw [compile_eq_outcome e hlimit, hv]
    rfl
  obtain ⟨-, hkind, -⟩ := compile_predicts_kind hbuilt hpower hcompile hnull
  exact ⟨q, e, v, hquotient, hsum, by rw [hq]; rfl, hdecimal, hcompile, hkind hdecimal⟩

end Folding

end QueryExpr
