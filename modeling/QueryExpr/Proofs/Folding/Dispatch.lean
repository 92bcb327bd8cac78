import QueryExpr.Proofs.Folding.Comparison
import QueryExpr.Proofs.Folding.Constant

/-!
# What a standard operator makes of two operands

An operator between two operands reads the same whichever of them is raw: the standard registry
finds its constructor by the left operand, by the right one, or by the mirror image of a
comparison, and in all three cases the node means the operator on the operands as they were
written. If both are literals, it folds to what the operator gives on their values.

* `Registry.arranged`: the node that is made. `applyBinary_eq_arranged`: when it is made.
* `Folding.compile_joined`, `Folding.compile_arranged`: what becomes of it.
* `Folding.standard_operators`: **the three ways of dispatch are one operator.**
-/

namespace QueryExpr

open Rule Registry QueryExpr.Expr

variable {k mirror : BinaryOp} {l r e : Expr} {a b v : Value}

/-- The value that a raw value or a typed scalar holds. -/
def Expr.literalValue? : Expr → Option Value
  | .value v => some v
  | e => e.scalar?.map Prod.snd

theorem Expr.literalValue?_eq_some (h : e.literalValue? = some v) :
    e = .value v ∨ ∃ t c, e = .node (.scalar t) [.value v] c := by
  cases e with
  | value w =>
    cases h
    exact .inl rfl
  | node o args c =>
    obtain ⟨⟨t, w⟩, hscalar, rfl⟩ := Option.map_eq_some_iff.mp h
    obtain ⟨c', hnode⟩ := scalar?_eq_some hscalar
    exact .inr ⟨t, c', hnode⟩

namespace Registry

/-! ## The node that is made -/

/-- The node of an operator over two operands as they are written. A comparison with a raw value on
its left is turned round. -/
def arranged (k : BinaryOp) (l r : Expr) : Expr :=
  match l, k.mirrored? with
  | .value v, some mirror => joined mirror r (.value v)
  | l, _ => joined k l r

theorem arranged_of_node (h : l.isValue = false) (k : BinaryOp) (r : Expr) :
    arranged k l r = joined k l r := by
  cases l with
  | value v => cases h
  | node o args c => rfl

theorem arranged_of_ne (h : k.mirrored? = none) (l r : Expr) : arranged k l r = joined k l r := by
  unfold arranged
  rw [h]
  cases l <;> rfl

theorem arranged_of_value (h : k.mirrored? = some mirror) (v : Value) (r : Expr) :
    arranged k (.value v) r = joined mirror r (.value v) := by
  unfold arranged
  rw [h]

theorem arranged_cases (k : BinaryOp) (l r : Expr) :
    arranged k l r = joined k l r ∨
      ∃ mirror, k.mirrored? = some mirror ∧ arranged k l r = joined mirror r l := by
  cases l with
  | node o args c => exact .inl rfl
  | value v =>
    cases hm : k.mirrored? with
    | none => exact .inl (arranged_of_ne hm _ _)
    | some mirror => exact .inr ⟨mirror, rfl, arranged_of_value hm v r⟩

theorem mirrored?_eq_none (h : k.family ≠ .comparison) : k.mirrored? = none := by
  cases hm : k.mirrored? with
  | none => rfl
  | some mirror => exact absurd (BinaryOp.family_mirrored.mp (by rw [hm]; rfl)) h

/-- A node after a raw value chooses the constructor of the mirror image of a comparison. -/
theorem resolveRight?_of_mirrored (hm : k.mirrored? = some mirror)
    (hr : r.categories.closure = r.categories) (hv : r.isValue = false)
    (hlegal : isLegalOperand k.family r = true) :
    standard.resolveRight? (.binary k) r = some (standardConstructor (.binary mirror)) := by
  have hfam : k.family = .comparison := BinaryOp.family_mirrored.mp (by rw [hm]; rfl)
  have hrev : ¬ (Operator.binary k).isReversible = true := by
    rw [Operator.isReversible, hfam]
    decide
  have hmirror : (Operator.binary k).mirrored? = some (.binary mirror) := by
    rw [Operator.mirrored?, hm]
    rfl
  have hchoosing : isChoosing (.binary mirror) r = true := by
    rw [isChoosing_of_node hv, Operator.family, ← family_of_mirrored hm]
    exact hlegal
  rw [resolveRight?, if_neg hrev, hmirror, Option.bind_some, resolve?_left hr, if_pos hchoosing]

/-- **Legal operands of which one is a node** are put together. -/
theorem applyBinary_arranged (hl : l.categories.closure = l.categories)
    (hr : r.categories.closure = r.categories) (hleft : isLegalOperand k.family l = true)
    (hright : isLegalOperand k.family r = true) (hnode : l.isValue = false ∨ r.isValue = false) :
    standard.applyBinary (.binary k) l r = .ok (arranged k l r) := by
  cases l with
  | node o args c =>
    rw [arranged_of_node rfl]
    exact applyBinary_of_operands hl hr ⟨hleft, hright, .inl rfl⟩
  | value v =>
    have hv : r.isValue = false := hnode.resolve_left nofun
    by_cases hfam : k.family = .comparison
    · -- a comparison is left to the node after it
      obtain ⟨mirror, hm⟩ := Option.isSome_iff_exists.mp (BinaryOp.family_mirrored.mpr hfam)
      have harity : ¬ (Operator.binary k).arity ≠ 2 := fun hne => hne rfl
      have hnone : standard.resolve? (.binary k) .left (Expr.value v).dispatchCategories = none :=
        resolve?_left hl
      rw [arranged_of_value hm, applyBinary, if_neg harity]
      simp only [hnone, resolveRight?_of_mirrored hm hr hv hright]
      exact construct_of_legal (List.forall_mem_cons.mpr
        ⟨hleft, List.forall_mem_singleton.mpr hright⟩)
    · rw [arranged_of_ne (mirrored?_eq_none hfam)]
      exact applyBinary_of_operands hl hr ⟨hleft, hright, .inr ⟨hfam, hv⟩⟩

/-- **When a standard operator applies, and what it makes.** -/
theorem applyBinary_eq_arranged (hl : l.categories.closure = l.categories)
    (hr : r.categories.closure = r.categories) :
    standard.applyBinary (.binary k) l r = .ok e ↔
      isLegalOperand k.family l = true ∧ isLegalOperand k.family r = true ∧
        (l.isValue = false ∨ r.isValue = false) ∧ e = arranged k l r := by
  constructor
  · intro h
    have hoperands : isLegalOperand k.family l = true ∧ isLegalOperand k.family r = true ∧
        (l.isValue = false ∨ r.isValue = false) := by
      obtain ⟨op, a, b, ⟨hk, rfl, rfl⟩ | ⟨hm, rfl, rfl⟩, hop, -⟩ := applyBinary_eq_ok hl hr h
      · cases hk
        exact ⟨hop.left, hop.right, hop.chooses.imp_right And.right⟩
      · -- the operands of the mirror image are the same
        obtain ⟨mirror, hmirror, hsame⟩ := Option.map_eq_some_iff.mp hm
        cases hsame
        rw [family_of_mirrored hmirror]
        exact ⟨hop.right, hop.left, hop.chooses.symm.imp_left And.right⟩
    obtain ⟨hleft, hright, hnode⟩ := hoperands
    rw [applyBinary_arranged hl hr hleft hright hnode] at h
    exact ⟨hleft, hright, hnode, (Except.ok.inj h).symm⟩
  · rintro ⟨hleft, hright, hnode, rfl⟩
    exact applyBinary_arranged hl hr hleft hright hnode

end Registry

namespace Folding

/-! ## What becomes of it -/

/-- One sweep leaves the value of a literal. -/
theorem sweep_literalValue (h : e.literalValue? = some v) : (sweep rules e).expr = .value v := by
  rcases literalValue?_eq_some h with rfl | ⟨t, c, rfl⟩ <;> rfl

/-- The node of an operator over literals folds to the result on their values, and is stuck if
there is none. -/
theorem compile_joined (op : BinaryOp) (hl : l.literalValue? = some a)
    (hr : r.literalValue? = some b) (ha : a.isFoldable = true) (hb : b.isFoldable = true)
    {limit : Nat} (hlimit : 2 ≤ limit) :
    (compiler limit).compile (joined op l r) =
      match Value.foldBinary op a b with
      | some u => .ok u
      | none => .error (.unresolved op.label [a.categories, b.categories]) := by
  rw [compile_eq_outcome _ hlimit, sweep_joined, sweep_literalValue hl, sweep_literalValue hr,
    applyFirst_values ha hb]
  cases Value.foldBinary op a b with
  | some u => rfl
  | none =>
    have hvalues : [Expr.value a, Expr.value b].all Expr.isValue = true := rfl
    exact congrArg Except.error (Expr.unresolved_of_values hvalues)

/-- **A comparison that is turned round folds as it is written.** -/
theorem compile_arranged (hl : l.literalValue? = some a) (hr : r.literalValue? = some b)
    (ha : a.isFoldable = true) (hb : b.isFoldable = true) {limit : Nat} (hlimit : 2 ≤ limit) :
    (∀ u, Value.foldBinary k a b = some u →
      (compiler limit).compile (arranged k l r) = .ok u) ∧
    (Value.foldBinary k a b = none → ∃ op v w,
      (op = k ∧ v = a ∧ w = b ∨ k.mirrored? = some op ∧ v = b ∧ w = a) ∧
      (compiler limit).compile (arranged k l r) =
        .error (.unresolved op.label [v.categories, w.categories])) := by
  rcases arranged_cases k l r with hsame | ⟨mirror, hm, hturned⟩
  · have hcompile := compile_joined k hl hr ha hb hlimit
    rw [hsame]
    refine ⟨fun u hu => by rw [hcompile, hu], fun hnone => ⟨k, a, b, .inl ⟨rfl, rfl, rfl⟩, ?_⟩⟩
    rw [hcompile, hnone]
  · -- the mirror image on the values turned round has the same result
    have hcompile := compile_joined mirror hr hl hb ha hlimit
    rw [Value.foldBinary_mirrored hm] at hcompile
    rw [hturned]
    refine ⟨fun u hu => by rw [hcompile, hu], fun hnone => ⟨mirror, b, a, .inr ⟨hm, rfl, rfl⟩, ?_⟩⟩
    rw [hcompile, hnone]

/-- **The three ways of dispatch are one operator.** A standard operator applies exactly if each
operand is a raw null or carries the category that its family asks for, and one of them is a node.
It makes its own node of them as they are written; only a comparison with a raw value on its left
makes its mirror image of them turned round. If both are literals that operators take, the node
folds to the result of the operator on their values as they are written, and is stuck if there is
none. The categories of an expression are closed when it is made. -/
theorem standard_operators (k : BinaryOp) (hl : l.categories.closure = l.categories)
    (hr : r.categories.closure = r.categories) :
    ((∃ e, standard.applyBinary (.binary k) l r = .ok e) ↔
      (l = .value .null ∨ l.categories.has (requiredOperand k.family) = true) ∧
      (r = .value .null ∨ r.categories.has (requiredOperand k.family) = true) ∧
      (l.isValue = false ∨ r.isValue = false)) ∧
    ∀ e, standard.applyBinary (.binary k) l r = .ok e →
      (l.isValue = false ∨ k.family ≠ .comparison →
        e.operation? = some (.binary k) ∧ e.args = [l, r]) ∧
      (l.isValue = true → k.family = .comparison → ∃ mirror, k.mirrored? = some mirror ∧
        e.operation? = some (.binary mirror) ∧ e.args = [r, l]) ∧
      ∀ a b limit, l.literalValue? = some a → r.literalValue? = some b → a.isFoldable = true →
        b.isFoldable = true → 2 ≤ limit →
        (∀ u, Value.foldBinary k a b = some u → (compiler limit).compile e = .ok u) ∧
        (Value.foldBinary k a b = none → ∃ op v w,
          (op = k ∧ v = a ∧ w = b ∨ k.mirrored? = some op ∧ v = b ∧ w = a) ∧
          (compiler limit).compile e =
            .error (.unresolved op.label [v.categories, w.categories])) := by
  refine ⟨?_, fun e he => ?_⟩
  · rw [← isLegalOperand_iff, ← isLegalOperand_iff]
    constructor
    · rintro ⟨e, he⟩
      obtain ⟨hleft, hright, hnode, -⟩ := (applyBinary_eq_arranged hl hr).mp he
      exact ⟨hleft, hright, hnode⟩
    · rintro ⟨hleft, hright, hnode⟩
      exact ⟨_, applyBinary_arranged hl hr hleft hright hnode⟩
  · obtain ⟨-, -, -, rfl⟩ := (applyBinary_eq_arranged hl hr).mp he
    refine ⟨?_, fun hv hfam => ?_, fun a b limit ha hb hfa hfb hlimit => ?_⟩
    · rintro (hv | hfam)
      · rw [arranged_of_node hv]
        exact ⟨rfl, rfl⟩
      · rw [arranged_of_ne (mirrored?_eq_none hfam)]
        exact ⟨rfl, rfl⟩
    · obtain ⟨v, rfl⟩ := exists_of_isValue hv
      obtain ⟨mirror, hm⟩ := Option.isSome_iff_exists.mp (BinaryOp.family_mirrored.mpr hfam)
      rw [arranged_of_value hm]
      exact ⟨mirror, hm, rfl, rfl⟩
    · exact compile_arranged ha hb hfa hfb hlimit

/-- The raw `1.5` before a typed integer is compared with it by the mirror image, and the node folds
to the outcome of `1.5 < 2`; with a text in place of the integer it is stuck. -/
theorem standard_operators_less :
    (∃ e, standard.applyBinary (.binary .less) (.value (.float 1.5))
        (scalar .int8 (.int 2)) = .ok e ∧
      e.operation? = some (.binary .greater) ∧
      (compiler Settings.defaultLimit).compile e = .ok (.bool true)) ∧
    ∃ e, standard.applyBinary (.binary .less) (.value (.float 1.5)) (string "2") = .ok e ∧
      ∃ operation arguments,
        (compiler Settings.defaultLimit).compile e = .error (.unresolved operation arguments) := by
  have hraw : (Expr.value (.float 1.5)).categories.closure = (Expr.value (.float 1.5)).categories :=
    Value.closure_categories _
  have hlimit : 2 ≤ Settings.defaultLimit := by decide
  constructor
  · obtain ⟨happlies, hmade⟩ := standard_operators .less hraw
      (r := scalar .int8 (.int 2)) (Categories.closure_closure _)
    obtain ⟨e, he⟩ := happlies.mpr ⟨.inr (by decide), .inr (by decide), .inr rfl⟩
    obtain ⟨-, hturned, hfold⟩ := hmade e he
    obtain ⟨mirror, hm, hoperation, -⟩ := hturned rfl rfl
    cases hm
    have hless : Value.foldBinary .less (.float 1.5) (.int 2) = some (.bool true) := rfl
    exact ⟨e, he, hoperation, (hfold _ _ _ rfl rfl rfl rfl hlimit).1 _ hless⟩
  · obtain ⟨happlies, hmade⟩ := standard_operators .less hraw
      (r := string "2") (Categories.closure_closure _)
    obtain ⟨e, he⟩ := happlies.mpr ⟨.inr (by decide), .inr (by decide), .inr rfl⟩
    obtain ⟨op, v, w, -, hstuck⟩ := ((hmade e he).2.2 _ _ _ rfl rfl rfl rfl hlimit).2 rfl
    exact ⟨e, he, _, _, hstuck⟩

end Folding

end QueryExpr
