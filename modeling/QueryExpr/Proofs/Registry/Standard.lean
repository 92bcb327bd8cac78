import Mathlib.Data.List.Nodup
import QueryExpr.Proofs.Category
import QueryExpr.Registry.Dispatch

/-!
# Expressions of the standard operators

The standard registry has one entry for each operator, on the category that all operands of
its family carry. So an operator applies exactly if both operands are legal and one of them
is a node that may choose: the left one, or also the right one if the operator is not a
comparison. A comparison that is chosen by its right operand becomes its mirror image.

* `standard_entries`: the entries of the standard registry.
* `applyBinary_eq_ok`, `applyUnary_eq_ok`: what the standard operators build.
* `Built`, `Formed`, `formed_of_built`: expressions made by applying operators, and how the
  standard ones are put together.
-/

namespace QueryExpr

namespace Registry

variable {o : Operator} {op k : BinaryOp} {e a b l r x : Expr} {side : Side}

/-! ## Entries -/

/-- The one entry of an operator on a side, if the operator is chosen there at all. -/
def standardEntries (o : Operator) : Side → List Entry
  | .left => [⟨Categories.closure {requiredOperand o.family}, standardConstructor o, false⟩]
  | .right =>
    if o.isReversible then
      [⟨Categories.closure {requiredOperand o.family}, (standardConstructor o).swapped, true⟩]
    else []

theorem findFault?_standard (o : Operator) :
    findFault? o (Categories.closure {requiredOperand o.family}) (standardConstructor o) = none := by
  cases o with
  | not => rfl
  | binary op => cases op <;> rfl

/-- Where an operator has no entries yet it is given its standard ones. -/
theorem register_standard {r : Registry} (h : ∀ side, r.entries o side = []) :
    ∃ r', r.register o {requiredOperand o.family} (standardConstructor o) = .ok r' ∧
      (∀ side, r'.entries o side = standardEntries o side) ∧
      ∀ o', o' ≠ o → ∀ side, r'.entries o' side = r.entries o' side := by
  have hplace : ∀ side new, r.place o side new = .ok [new] := by
    intro side new
    rw [place, h side]
    rfl
  simp only [register, check, findFault?_standard, hplace, bind, Except.bind, pure, Except.pure]
  by_cases hrev : o.isReversible = true
  · rw [if_pos hrev]
    refine ⟨_, rfl, fun side => ?_, fun o' ho' side => ?_⟩
    · cases side with
      | left => rw [entries_set_of_ne _ _ (by simp), entries_set_self, standardEntries]
      | right => rw [entries_set_self, standardEntries, if_pos hrev]
    · rw [entries_set_of_ne _ _ (by simp [ho']), entries_set_of_ne _ _ (by simp [ho'])]
  · rw [if_neg hrev]
    refine ⟨_, rfl, fun side => ?_, fun o' ho' side => ?_⟩
    · cases side with
      | left => rw [entries_set_self, standardEntries]
      | right => rw [entries_set_of_ne _ _ (by simp), standardEntries, if_neg hrev, h]
    · rw [entries_set_of_ne _ _ (by simp [ho'])]

theorem foldlM_register_standard : ∀ (os : List Operator), os.Nodup → ∀ r : Registry,
    (∀ o ∈ os, ∀ side, r.entries o side = []) →
    ∃ r', os.foldlM
        (fun r o => r.register o {requiredOperand o.family} (standardConstructor o)) r = .ok r' ∧
      (∀ o ∈ os, ∀ side, r'.entries o side = standardEntries o side) ∧
      ∀ o ∉ os, ∀ side, r'.entries o side = r.entries o side := by
  intro os
  induction os with
  | nil => exact fun _ r _ => ⟨r, rfl, by simp, fun _ _ _ => rfl⟩
  | cons o os ih =>
    intro hnd r hr
    obtain ⟨ho, hnd⟩ := List.nodup_cons.mp hnd
    obtain ⟨r₁, h₁, hself, hother⟩ := register_standard (hr o List.mem_cons_self)
    -- the operators still to come have no entries yet
    have hne : ∀ o' ∈ os, o' ≠ o := by
      rintro o' ho' rfl
      exact ho ho'
    obtain ⟨r', h', hin, hout⟩ := ih hnd r₁ fun o' ho' side => by
      rw [hother o' (hne o' ho') side, hr o' (List.mem_cons_of_mem o ho') side]
    refine ⟨r', ?_, fun o' ho' side => ?_, fun o' ho' side => ?_⟩
    · rw [List.foldlM_cons, h₁]
      exact h'
    · rcases List.mem_cons.mp ho' with rfl | ho'
      · rw [hout o' ho side, hself side]
      · exact hin o' ho' side
    · rw [List.mem_cons, not_or] at ho'
      rw [hout o' ho'.2 side, hother o' ho'.1 side]

/-- The standard operators can be registered. -/
theorem registerStandard_empty : registerStandard empty = .ok standard := by
  obtain ⟨r, hr, -⟩ := foldlM_register_standard Operator.all (by decide) empty fun _ _ _ => rfl
  have hs : registerStandard empty = .ok r := hr
  rw [standard, hs]

/-- **The entries of the standard registry.** -/
theorem standard_entries (o : Operator) (side : Side) :
    standard.entries o side = standardEntries o side := by
  obtain ⟨r, hr, hin, -⟩ := foldlM_register_standard Operator.all (by decide) empty fun _ _ _ => rfl
  have hs : registerStandard empty = .ok r := hr
  rw [registerStandard_empty, Except.ok.injEq] at hs
  rw [hs]
  exact hin o (Operator.mem_all o) side

/-! ## Choosing a constructor -/

theorem covers_closure_singleton {receiver : Categories} {c : Category}
    (h : receiver.closure = receiver) : receiver.covers (Categories.closure {c}) = receiver.has c := by
  rw [Bool.eq_iff_iff, Categories.covers_iff]
  constructor
  · intro hsub
    exact hsub c (by
      show (Categories.closure {c}).has c = true
      rw [Categories.has_closure, Categories.has_singleton, beq_self_eq_true, Bool.true_or])
  · intro hc
    have := Categories.closure_mono (Categories.singleton_subset hc)
    rwa [h] at this

/-- The expression is a node that carries the category. -/
def isChoosing (o : Operator) (e : Expr) : Bool :=
  !e.isValue && e.categories.has (requiredOperand o.family)

theorem resolve?_of_entries {c : Constructor} {derived : Bool} {o' : Operator}
    (hc : e.categories.closure = e.categories)
    (h : standard.entries o' side = [⟨Categories.closure {requiredOperand o.family}, c, derived⟩]) :
    standard.resolve? o' side e.dispatchCategories = if isChoosing o e then some c else none := by
  have hcovers : e.dispatchCategories.covers (Categories.closure {requiredOperand o.family}) =
      isChoosing o e := by
    cases e with
    | value v =>
      show (∅ : Categories).covers (Categories.closure {requiredOperand o.family}) = false
      cases o.family <;> rfl
    | node op args cs => exact covers_closure_singleton hc
  rw [resolve?, h, List.filter_cons, List.filter_nil, hcovers]
  cases isChoosing o e <;> rfl

/-- A left operand chooses the constructor of the operator. -/
theorem resolve?_left (hc : e.categories.closure = e.categories) :
    standard.resolve? o .left e.dispatchCategories =
      if isChoosing o e then some (standardConstructor o) else none :=
  resolve?_of_entries hc (standard_entries o .left)

/-- A right operand chooses the constructor with its arguments exchanged. -/
theorem resolve?_right (hc : e.categories.closure = e.categories) (hrev : o.isReversible = true) :
    standard.resolve? o .right e.dispatchCategories =
      if isChoosing o e then some (standardConstructor o).swapped else none := by
  have hs : standard.entries o .right =
      [⟨Categories.closure {requiredOperand o.family}, (standardConstructor o).swapped, true⟩] := by
    rw [standard_entries, standardEntries, if_pos hrev]
  exact resolve?_of_entries hc hs

/-! ## Building nodes -/

/-- The node of an operator over two operands. -/
def joined (op : BinaryOp) (a b : Expr) : Expr :=
  .make (.binary op) [a, b] ((standardConstructor (.binary op)).resultCategories [a, b])

/-- The node of a negation. -/
def negated (x : Expr) : Expr :=
  .make .not [x] ((standardConstructor .not).resultCategories [x])

/-- A numeric node is of one kind of number, or of none. -/
theorem numericKind_cases (operation : Operation) (args : List Expr) :
    Constructor.numericKind operation args = .floating ∨
      Constructor.numericKind operation args = .decimal ∨
      Constructor.numericKind operation args = .integer ∨
      Constructor.numericKind operation args = .numeric := by
  unfold Constructor.numericKind
  dsimp only
  repeat' split
  all_goals simp

/-- The categories of a node follow from those of its arguments. -/
theorem resultCategories_congr (c : Constructor) {args args' : List Expr}
    (h : args.map Expr.categories = args'.map Expr.categories) :
    c.resultCategories args = c.resultCategories args' := by
  have hshape : Constructor.shapeOf args = Constructor.shapeOf args' := by
    have hany : ∀ es : List Expr, es.any (·.categories.has .column) =
        (es.map Expr.categories).any (·.has .column) := fun es => by rw [List.any_map]; rfl
    rw [Constructor.shapeOf, Constructor.shapeOf, hany, hany, h]
  have hkind : Constructor.numericKind c.operation args = Constructor.numericKind c.operation args' := by
    rw [Constructor.numericKind, Constructor.numericKind, h]
  rw [Constructor.resultCategories, Constructor.resultCategories, hshape, hkind]

/-- Both operands suit the operator, and one of them may choose it; only the left one may
choose a comparison. -/
structure Operands (op : BinaryOp) (a b : Expr) : Prop where
  left : isLegalOperand op.family a = true
  right : isLegalOperand op.family b = true
  chooses : a.isValue = false ∨ op.family ≠ .comparison ∧ b.isValue = false

/-- Only a raw null is legal without the category that the family asks for. -/
theorem isLegalOperand_of_ne (family : Family) (h : e ≠ .value .null) :
    isLegalOperand family e = e.categories.has (requiredOperand family) := by
  cases e with
  | node o args c => rfl
  | value v => cases v <;> first | rfl | exact absurd rfl h

/-- **Legal operands** are the raw null and what carries the category that the family asks for. -/
theorem isLegalOperand_iff (family : Family) (e : Expr) :
    isLegalOperand family e = true ↔
      e = .value .null ∨ e.categories.has (requiredOperand family) = true := by
  by_cases hnull : e = .value .null
  · rw [hnull]
    exact ⟨fun _ => .inl rfl, fun _ => rfl⟩
  · rw [isLegalOperand_of_ne family hnull]
    exact ⟨.inr, fun h => h.resolve_left hnull⟩

/-- A node is legal exactly if it may choose. -/
theorem isChoosing_of_node (h : e.isValue = false) :
    isChoosing o e = isLegalOperand o.family e := by
  cases e with
  | value v => cases h
  | node op args c => rfl

theorem isValue_of_isChoosing (h : isChoosing o e = true) :
    e.isValue = false ∧ isLegalOperand o.family e = true := by
  have hv : e.isValue = false := by
    rw [isChoosing, Bool.and_eq_true, Bool.not_eq_true'] at h
    exact h.1
  exact ⟨hv, by rw [← isChoosing_of_node hv, h]⟩

theorem construct_eq_ok {operands args : List Expr} {c : Constructor}
    (h : construct o operands c args = .ok e) :
    (∀ x ∈ operands, isLegalOperand o.family x = true) ∧ e = c.build args := by
  unfold construct at h
  by_cases hall : operands.all (isLegalOperand o.family) = true
  · rw [if_pos hall] at h
    cases h
    exact ⟨List.all_eq_true.mp hall, rfl⟩
  · rw [if_neg hall] at h
    cases h

theorem construct_of_legal {operands args : List Expr} {c : Constructor}
    (h : ∀ x ∈ operands, isLegalOperand o.family x = true) :
    construct o operands c args = .ok (c.build args) := by
  rw [construct, if_pos (List.all_eq_true.mpr h)]

theorem build_swapped (op : BinaryOp) (a b : Expr) :
    (standardConstructor (.binary op)).swapped.build [b, a] = joined op a b := rfl

/-- A comparison and its mirror image take the same operands. -/
theorem family_of_mirrored (h : k.mirrored? = some op) : k.family = op.family := by
  have hk : k.family = .comparison := BinaryOp.family_mirrored.mp (by rw [h]; rfl)
  have hop : op.family = .comparison :=
    BinaryOp.family_mirrored.mp (by rw [BinaryOp.mirrored_mirrored h]; rfl)
  rw [hk, hop]

/-- A right operand that chooses is a node: it chooses the constructor with its arguments
exchanged, and for a comparison that of the mirror image. -/
theorem resolveRight?_eq_some {c : Constructor} (hr : r.categories.closure = r.categories)
    (h : standard.resolveRight? (.binary k) r = some c) :
    r.isValue = false ∧
      (k.family ≠ .comparison ∧ c = (standardConstructor (.binary k)).swapped ∨
        ∃ op, k.mirrored? = some op ∧ c = standardConstructor (.binary op)) := by
  unfold resolveRight? at h
  by_cases hrev : (Operator.binary k).isReversible = true
  · rw [if_pos hrev, resolve?_right hr hrev, Option.ite_none_right_eq_some] at h
    have hfam : k.family ≠ .comparison := by simpa [Operator.isReversible] using hrev
    exact ⟨(isValue_of_isChoosing h.1).1, Or.inl ⟨hfam, (Option.some.inj h.2).symm⟩⟩
  · rw [if_neg hrev, Operator.mirrored?] at h
    cases hm : k.mirrored? with
    | none => rw [hm] at h; cases h
    | some op =>
      rw [hm, Option.map_some, Option.bind_some, resolve?_left hr,
        Option.ite_none_right_eq_some] at h
      exact ⟨(isValue_of_isChoosing h.1).1, Or.inr ⟨op, rfl, (Option.some.inj h.2).symm⟩⟩

/-- **What the standard operators build of two operands**: the node of the operator, or of
its mirror image with the operands exchanged. -/
theorem applyBinary_eq_ok (hl : l.categories.closure = l.categories)
    (hr : r.categories.closure = r.categories) (h : standard.applyBinary o l r = .ok e) :
    ∃ op a b, (o = .binary op ∧ a = l ∧ b = r ∨ o.mirrored? = some (.binary op) ∧ a = r ∧ b = l) ∧
      Operands op a b ∧ e = joined op a b := by
  cases o with
  | not => cases h
  | binary k =>
    have harity : ¬ (Operator.binary k).arity ≠ 2 := fun hne => hne rfl
    rw [applyBinary, if_neg harity, resolve?_left hl] at h
    by_cases hcl : isChoosing (.binary k) l = true
    · rw [if_pos hcl] at h
      obtain ⟨hlegal, rfl⟩ := construct_eq_ok h
      have hleft := hlegal l (by simp)
      have hright := hlegal r (by simp)
      have hv := (isValue_of_isChoosing hcl).1
      exact ⟨k, l, r, Or.inl ⟨rfl, rfl, rfl⟩, ⟨hleft, hright, Or.inl hv⟩, rfl⟩
    · rw [if_neg hcl] at h
      cases hc : standard.resolveRight? (.binary k) r with
      | none => simp only [hc] at h; cases h
      | some c =>
        simp only [hc] at h
        obtain ⟨hlegal, rfl⟩ := construct_eq_ok h
        have hleft := hlegal l (by simp)
        have hright := hlegal r (by simp)
        obtain ⟨hv, ⟨hfam, rfl⟩ | ⟨op, hm, rfl⟩⟩ := resolveRight?_eq_some hr hc
        · exact ⟨k, l, r, Or.inl ⟨rfl, rfl, rfl⟩, ⟨hleft, hright, Or.inr ⟨hfam, hv⟩⟩,
            build_swapped k l r⟩
        · -- the mirror image has its operands where the node has them
          have hmirror : (Operator.binary k).mirrored? = some (.binary op) := by
            rw [Operator.mirrored?, hm]
            rfl
          refine ⟨op, r, l, Or.inr ⟨hmirror, rfl, rfl⟩, ⟨?_, ?_, Or.inl hv⟩, rfl⟩
          · rw [← family_of_mirrored hm]
            exact hright
          · rw [← family_of_mirrored hm]
            exact hleft

/-- **Suitable operands are joined** in the order in which they are given. -/
theorem applyBinary_of_operands (ha : a.categories.closure = a.categories)
    (hb : b.categories.closure = b.categories) (h : Operands op a b) :
    standard.applyBinary (.binary op) a b = .ok (joined op a b) := by
  have hlegal : ∀ x ∈ [a, b], isLegalOperand (Operator.binary op).family x = true := by
    intro x hx
    rcases List.mem_cons.mp hx with rfl | hx
    · exact h.left
    · rw [List.mem_singleton.mp hx]
      exact h.right
  have harity : ¬ (Operator.binary op).arity ≠ 2 := fun hne => hne rfl
  rw [applyBinary, if_neg harity, resolve?_left ha]
  cases hv : a.isValue with
  | false =>
    rw [isChoosing_of_node hv, if_pos (hlegal a (by simp))]
    exact construct_of_legal hlegal
  | true =>
    -- a raw value chooses nothing, so the right operand does
    have hnot : isChoosing (.binary op) a = false := by rw [isChoosing, hv]; rfl
    obtain ⟨hfam, hbv⟩ := h.chooses.resolve_left (by rw [hv]; decide)
    have hrev : (Operator.binary op).isReversible = true := by simpa [Operator.isReversible] using hfam
    rw [hnot, if_neg Bool.false_ne_true]
    simp only [resolveRight?]
    rw [if_pos hrev, resolve?_right hb hrev, isChoosing_of_node hbv, if_pos (hlegal b (by simp))]
    exact construct_of_legal hlegal

/-- **What the standard operators build of one operand** is a negation. -/
theorem applyUnary_eq_ok (hx : x.categories.closure = x.categories)
    (h : standard.applyUnary o x = .ok e) :
    o = .not ∧ x.isValue = false ∧ isLegalOperand .logical x = true ∧ e = negated x := by
  cases o with
  | binary op => cases h
  | not =>
    rw [applyUnary, if_neg (by decide), resolve?_left hx] at h
    by_cases hc : isChoosing .not x = true
    · rw [if_pos hc] at h
      obtain ⟨-, rfl⟩ := construct_eq_ok h
      obtain ⟨hv, hlegal⟩ := isValue_of_isChoosing hc
      exact ⟨rfl, hv, hlegal, rfl⟩
    · rw [if_neg hc] at h
      cases h

theorem applyUnary_of_operand (hx : x.categories.closure = x.categories) (hv : x.isValue = false)
    (hlegal : isLegalOperand .logical x = true) : standard.applyUnary .not x = .ok (negated x) := by
  have hlegal' : isLegalOperand Operator.not.family x = true := hlegal
  rw [applyUnary, if_neg (by decide), resolve?_left hx, isChoosing_of_node hv, if_pos hlegal']
  exact construct_of_legal fun y hy => by rw [List.mem_singleton.mp hy]; exact hlegal

/-! ## Expressions -/

/-- Expressions made of leaves by applying operators of a registry. -/
inductive Built (r : Registry) (leaf : Expr → Prop) : Expr → Prop
  | leaf {e : Expr} (h : leaf e) : Built r leaf e
  | binary {o : Operator} {left right e : Expr} (hl : Built r leaf left) (hr : Built r leaf right)
    (h : r.applyBinary o left right = .ok e) : Built r leaf e
  | unary {o : Operator} {operand e : Expr} (ho : Built r leaf operand)
    (h : r.applyUnary o operand = .ok e) : Built r leaf e

/-- Leaves joined by operators over suitable operands. -/
inductive Formed (leaf : Expr → Prop) : Expr → Prop
  | leaf {e : Expr} (h : leaf e) : Formed leaf e
  | joined {op : BinaryOp} {a b : Expr} (ha : Formed leaf a) (hb : Formed leaf b)
    (h : Operands op a b) : Formed leaf (joined op a b)
  | negated {x : Expr} (hx : Formed leaf x) (hv : x.isValue = false)
    (hlegal : isLegalOperand .logical x = true) : Formed leaf (negated x)

variable {leaf : Expr → Prop}

/-- The categories of what is formed are closed if those of its leaves are. -/
theorem Formed.closed (hleaf : ∀ e, leaf e → e.categories.closure = e.categories)
    (h : Formed leaf e) : e.categories.closure = e.categories := by
  cases h with
  | leaf h => exact hleaf _ h
  | joined ha hb h => exact Categories.closure_closure _
  | negated hx hv hlegal => exact Categories.closure_closure _

theorem Formed.mono {leaf' : Expr → Prop} (hleaf : ∀ e, leaf e → leaf' e) (h : Formed leaf e) :
    Formed leaf' e := by
  induction h with
  | leaf h => exact .leaf (hleaf _ h)
  | joined _ _ h iha ihb => exact .joined iha ihb h
  | negated _ hv hlegal ih => exact .negated ih hv hlegal

/-- **What is built with the standard registry is formed** of the same leaves. -/
theorem formed_of_built (hleaf : ∀ e, leaf e → e.categories.closure = e.categories)
    (h : Built standard leaf e) : Formed leaf e := by
  induction h with
  | leaf h => exact .leaf h
  | binary hl hr h ihl ihr =>
    obtain ⟨op, a, b, hside, hop, rfl⟩ := applyBinary_eq_ok (ihl.closed hleaf) (ihr.closed hleaf) h
    rcases hside with ⟨-, rfl, rfl⟩ | ⟨-, rfl, rfl⟩
    · exact .joined ihl ihr hop
    · exact .joined ihr ihl hop
  | unary ho h ih =>
    obtain ⟨-, hv, hlegal, rfl⟩ := applyUnary_eq_ok (ih.closed hleaf) h
    exact .negated ih hv hlegal

end Registry

end QueryExpr
