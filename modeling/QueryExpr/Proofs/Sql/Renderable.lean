import QueryExpr.Proofs.Folding.Constant
import QueryExpr.Proofs.Sql.Rendering

/-!
# What can be written as a query

Two things keep an expression out of a query: a floating number that is not finite has no spelling,
and a column under another name is an item of a select list, which no operator takes. Every other
expression of literals and columns is written, and what is not written is left as a node that no
rule applies to, so that there is an error and no text.

* `IsTerm`, `HasFiniteFloats`, `HasNoAlias`: the leaves, and the two conditions.
* `operand?_scalar`, `operand?_joined`, `operand?_negated`: the operands that nodes become.
* `operand_iff`: the induction, **what becomes an operand**.
* `compile_iff_operand`: what becomes an operand is compiled, and no other root but a column.
* `compile_renderable`: **which expressions are queries.**
-/

namespace QueryExpr

open Rule Registry QueryExpr.Expr

/-- No floating number, or a finite one. -/
def Value.isFinite : Value → Bool
  | .float x => x.isFinite
  | _ => true

namespace Expr

variable {P : Expr → Prop} {e s : Expr} {name : String} {shown? : Option String} {c : Categories}

/-- A literal that operators take, or a column. -/
def IsTerm (e : Expr) : Prop := IsLiteral Value.isFoldable e ∨ IsColumn e

theorem IsTerm.closed (h : IsTerm e) : e.categories.closure = e.categories :=
  h.elim IsLiteral.closed IsColumn.closed

/-- All floating numbers that stand in the expression are finite. -/
def HasFiniteFloats (e : Expr) : Prop := Everywhere (fun x => x.asValue?.all Value.isFinite) e

/-- No column that stands in the expression has another name. -/
def HasNoAlias (e : Expr) : Prop := Everywhere (fun x => x.alias? = none) e

/-! ## Conditions on sources and columns -/

theorem everywhere_optionalText (hvalue : ∀ v, v.isFinite = true → P (.value v)) :
    Everywhere P (optionalText shown?) := by
  cases shown? with
  | none => exact everywhere_value.mpr (hvalue _ rfl)
  | some other => exact everywhere_value.mpr (hvalue _ rfl)

/-- What holds of tables, projections and raw values that are finite holds all over a source. -/
theorem IsSource.everywhere (hs : s.IsSource)
    (hnode : ∀ o args c, o ≠ .column → P (.node o args c))
    (hvalue : ∀ v, v.isFinite = true → P (.value v)) : Everywhere P s := by
  induction hs with
  | table t =>
    rw [Expr.table, make, everywhere_node]
    refine ⟨hnode _ _ _ (by decide), ?_⟩
    simp only [List.forall_mem_cons, everywhere_value]
    exact ⟨hvalue _ rfl, hvalue _ rfl, everywhere_optionalText hvalue,
      everywhere_optionalText hvalue, List.forall_mem_nil _⟩
  | project _ h ih =>
    obtain ⟨narrowed, rfl⟩ := project_ok h
    rw [make, everywhere_node]
    refine ⟨hnode _ _ _ (by decide), ?_⟩
    simp only [List.forall_mem_cons, everywhere_value]
    exact ⟨ih, hvalue _ rfl, hvalue _ rfl, List.forall_mem_nil _⟩

/-- The same holds all over the arguments of a column. -/
theorem everywhere_column_args (hs : s.IsSource)
    (hnode : ∀ o args c, o ≠ .column → P (.node o args c))
    (hvalue : ∀ v, v.isFinite = true → P (.value v)) :
    ∀ a ∈ [s, value (.text name), optionalText shown?], Everywhere P a := by
  simp only [List.forall_mem_cons, everywhere_value]
  exact ⟨hs.everywhere hnode hvalue, hvalue _ rfl, everywhere_optionalText hvalue,
    List.forall_mem_nil _⟩

theorem alias?_of_ne {o : Operation} {args : List Expr} (h : o ≠ .column) :
    (node o args c).alias? = none := by
  cases o with
  | column => exact absurd rfl h
  | _ => rfl

theorem alias?_column :
    (node .column [s, value (.text name), optionalText shown?] c).alias? = shown? := by
  cases shown? <;> rfl

theorem columnName?_column :
    (node .column [s, value (.text name), optionalText shown?] c).columnName? = some name := rfl

theorem hasFiniteFloats_value {v : Value} : HasFiniteFloats (value v) ↔ v.isFinite = true := by
  rw [HasFiniteFloats, everywhere_value]
  rfl

theorem hasFiniteFloats_node {o : Operation} {args : List Expr} :
    HasFiniteFloats (node o args c) ↔ ∀ a ∈ args, HasFiniteFloats a :=
  everywhere_node.trans (and_iff_right rfl)

theorem hasFiniteFloats_column (hs : s.IsSource) :
    HasFiniteFloats (node .column [s, value (.text name), optionalText shown?] c) :=
  hasFiniteFloats_node.mpr (everywhere_column_args hs (fun _ _ _ _ => rfl) fun _ hv => hv)

theorem hasNoAlias_column_args (hs : s.IsSource) :
    ∀ a ∈ [s, value (.text name), optionalText shown?], HasNoAlias a :=
  everywhere_column_args hs (fun _ _ _ => alias?_of_ne) fun _ _ => rfl

/-- No column has another name if the expression itself is none and those below it are not. -/
theorem hasNoAlias_iff : HasNoAlias e ↔ e.alias? = none ∧ ∀ a ∈ e.args, HasNoAlias a := by
  cases e with
  | value v => simp [HasNoAlias, args]
  | node o args c => exact everywhere_node

theorem hasNoAlias_column (hs : s.IsSource) :
    HasNoAlias (node .column [s, value (.text name), optionalText shown?] c) ↔ shown? = none := by
  rw [hasNoAlias_iff, alias?_column]
  exact and_iff_left (hasNoAlias_column_args hs)

/-! ## Conditions on operators -/

theorem hasFiniteFloats_joined {op : BinaryOp} {a b : Expr} :
    HasFiniteFloats (joined op a b) ↔ HasFiniteFloats a ∧ HasFiniteFloats b := by
  simp [joined, make, hasFiniteFloats_node]

theorem hasNoAlias_joined {op : BinaryOp} {a b : Expr} :
    HasNoAlias (joined op a b) ↔ HasNoAlias a ∧ HasNoAlias b := by
  simp [HasNoAlias, joined, make, alias?, operation?]

theorem hasFiniteFloats_negated {x : Expr} : HasFiniteFloats (negated x) ↔ HasFiniteFloats x := by
  simp [negated, make, hasFiniteFloats_node]

theorem hasNoAlias_negated {x : Expr} : HasNoAlias (negated x) ↔ HasNoAlias x := by
  simp [HasNoAlias, negated, make, alias?, operation?]

end Expr

namespace Sql

variable {e a b s x : Expr} {op : BinaryOp} {v : Value} {f : Fragment} {c : Categories}
  {name : String} {shown? : Option String} {limit : Nat}

/-! ## Literals -/

/-- Values that operators take are spelled if they are finite. -/
theorem ofValue?_isSome (h : v.isFoldable = true) : (Fragment.ofValue? v).isSome = v.isFinite := by
  cases v with
  | list _ | schema _ | fragment _ => cases h
  | float x =>
    rw [Fragment.ofValue?, Value.isFinite]
    cases x.isFinite <;> rfl
  | _ => rfl

/-- What a value is spelled with is no item of a select list. -/
theorem listPrecedence_lt_of_value (h : v.isFoldable = true) (hf : Fragment.ofValue? v = some f) :
    Fragment.listPrecedence < f.precedence := by
  have hnumber : ∀ text, Fragment.listPrecedence < (Fragment.number text).precedence := by
    intro text
    unfold Fragment.number
    split
    · exact Nat.succ_pos _
    · exact Nat.succ_pos _
  cases v with
  | list _ | schema _ | fragment _ => cases h
  | int n => cases hf; exact hnumber _
  | decimal d => cases hf; exact hnumber _
  | float x =>
    rw [Fragment.ofValue?, Option.ite_none_right_eq_some] at hf
    cases hf.2
    exact hnumber _
  | _ => cases hf; exact Nat.succ_pos _

/-- A value that operators take is the operand it is spelled as. -/
theorem operand?_value (h : v.isFoldable = true) : operand? (.value v) = Fragment.ofValue? v := by
  rw [operand?]
  cases hf : Fragment.ofValue? v with
  | none => rfl
  | some f => rw [Option.filter_some, if_pos (decide_eq_true (listPrecedence_lt_of_value h hf))]

/-! ## Operands -/

/-- A node whose fragment is no item of a select list becomes that operand. -/
theorem operand?_node {o : Operation} {args : List Expr}
    (h : ∀ f, fragment? (swept o args c) = some f → Fragment.listPrecedence < f.precedence) :
    operand? (sweep rules (.node o args c)).expr = fragment? (swept o args c) := by
  rcases sweep_node_cases o args c with ⟨f, hf, hexpr⟩ | ⟨hf, hexpr⟩
  · rw [hexpr, hf, operand?, Fragment.ofValue?, Option.filter_some,
      if_pos (decide_eq_true (h f hf))]
  · rw [hexpr, hf]
    rfl

theorem isSome_bind_map {left right : Option Fragment} {k : Fragment → Fragment → Fragment} :
    (left.bind fun f => right.map (k f)).isSome ↔ left.isSome ∧ right.isSome := by
  cases left <;> cases right <;> simp

/-! The fragments of scalars and operators are no items of a select list. -/

theorem listPrecedence_lt_scalar {t : ValueType} (h : v.isFoldable = true)
    (hf : fragment? (swept (.scalar t) [.value v] c) = some f) :
    Fragment.listPrecedence < f.precedence := listPrecedence_lt_of_value h hf

theorem listPrecedence_lt_binary (hf : fragment? (swept (.binary op) [a, b] c) = some f) :
    Fragment.listPrecedence < f.precedence := by
  obtain ⟨left, -, hf⟩ := Option.bind_eq_some_iff.mp hf
  obtain ⟨right, -, rfl⟩ := Option.map_eq_some_iff.mp hf
  cases op <;> exact Nat.succ_pos _

theorem listPrecedence_lt_not (hf : fragment? (swept .not [x] c) = some f) :
    Fragment.listPrecedence < f.precedence := by
  obtain ⟨operand, -, rfl⟩ := Option.map_eq_some_iff.mp hf
  exact Nat.succ_pos _

theorem operand?_scalar {t : ValueType} (h : v.isFoldable = true) :
    operand? (sweep rules (Expr.scalar t v)).expr = Fragment.ofValue? v :=
  operand?_node fun _ => listPrecedence_lt_scalar h

theorem operand?_joined (op : BinaryOp) (a b : Expr) :
    operand? (sweep rules (joined op a b)).expr =
      (operand? (sweep rules a).expr).bind fun f =>
        (operand? (sweep rules b).expr).map (Fragment.binary op f) :=
  operand?_node fun _ => listPrecedence_lt_binary

theorem operand?_negated (x : Expr) :
    operand? (sweep rules (negated x)).expr =
      (operand? (sweep rules x).expr).map Fragment.negation :=
  operand?_node fun _ => listPrecedence_lt_not

/-- **Which literals and columns are operands**, once they are rewritten. -/
theorem operand_of_term (h : IsTerm e) :
    (operand? (sweep rules e).expr).isSome ↔ HasFiniteFloats e ∧ HasNoAlias e := by
  rcases h with h | h
  · cases h with
    | @scalar t v hv hfold =>
      rw [operand?_scalar hfold, ofValue?_isSome hfold]
      simp [Expr.scalar, make, hasFiniteFloats_node, hasFiniteFloats_value, HasNoAlias, alias?,
        operation?]
    | @value v hfold =>
      rw [sweep, operand?_value hfold, ofValue?_isSome hfold]
      simp [hasFiniteFloats_value, HasNoAlias, alias?, operation?]
  · obtain ⟨s, name, shown?, c, hs, -, rfl⟩ := h.parts
    rw [sweep_column hs name shown?, hasNoAlias_column hs,
      and_iff_right (hasFiniteFloats_column hs)]
    cases shown? with
    | none => exact ⟨fun _ => rfl, fun _ => rfl⟩
    | some shown => exact ⟨nofun, nofun⟩

/-- **What becomes an operand**: an expression without numbers that are not finite and without
columns under another name. -/
theorem operand_iff (h : Formed IsTerm e) :
    (operand? (sweep rules e).expr).isSome ↔ HasFiniteFloats e ∧ HasNoAlias e := by
  induction h with
  | leaf h => exact operand_of_term h
  | @joined op a b _ _ _ iha ihb =>
    rw [operand?_joined, isSome_bind_map, iha, ihb, hasFiniteFloats_joined, hasNoAlias_joined]
    exact and_and_and_comm
  | @negated x _ _ _ ih =>
    rw [operand?_negated, Option.isSome_map, ih, hasFiniteFloats_negated, hasNoAlias_negated]

/-! ## Queries -/

/-- A node whose fragment is no item of a select list is compiled if it becomes an operand. -/
theorem compile_node_iff {o : Operation} {args : List Expr} (hl : 2 ≤ limit)
    (h : ∀ f, fragment? (swept o args c) = some f → Fragment.listPrecedence < f.precedence) :
    (∃ sql, compile (compiler limit) (.node o args c) = .ok sql) ↔
      (operand? (sweep rules (.node o args c)).expr).isSome := by
  rw [operand?_node h, compile_node o args c hl]
  cases fragment? (swept o args c) <;> simp

theorem compile_value_iff (hl : 2 ≤ limit) (h : v.isFoldable = true) :
    (∃ sql, compile (compiler limit) (.value v) = .ok sql) ↔
      (operand? (sweep rules (.value v)).expr).isSome := by
  rw [sweep, operand?_value h, compile_value v hl]
  cases Fragment.ofValue? v <;> simp

/-- A column is compiled to its name, and to its other name if it has one. -/
theorem compile_column (hl : 2 ≤ limit) (hs : s.IsSource) :
    compile (compiler limit) (.node .column [s, .value (.text name), optionalText shown?] c) =
      .ok (columnFragment name shown?).text :=
  compile_of_sweep hl (sweep_column hs name shown?) rfl

/-- An expression that is no column under another name is compiled if it becomes an operand. -/
theorem compile_iff_operand (hl : 2 ≤ limit) (h : Formed IsTerm e) (halias : e.alias? = none) :
    (∃ sql, compile (compiler limit) e = .ok sql) ↔ (operand? (sweep rules e).expr).isSome := by
  cases h with
  | leaf h =>
    rcases h with h | h
    · cases h with
      | scalar hv hfold => exact compile_node_iff hl fun _ => listPrecedence_lt_scalar hfold
      | value hfold => exact compile_value_iff hl hfold
    · obtain ⟨s, name, shown?, c, hs, -, rfl⟩ := h.parts
      rw [alias?_column] at halias
      rw [compile_column hl hs, sweep_column hs name shown?, halias]
      exact ⟨fun _ => rfl, fun _ => ⟨_, rfl⟩⟩
  | joined _ _ _ => exact compile_node_iff hl fun _ => listPrecedence_lt_binary
  | negated _ _ _ => exact compile_node_iff hl fun _ => listPrecedence_lt_not

/-- The columns under another name are leaves. -/
theorem isColumn_of_alias (h : Formed IsTerm e) (halias : e.alias? ≠ none) :
    e.IsColumn := by
  cases h with
  | leaf h =>
    rcases h with h | h
    · cases h with
      | scalar _ _ => exact absurd rfl halias
      | value _ => exact absurd rfl halias
    · exact h
  | joined _ _ _ => exact absurd rfl halias
  | negated _ _ _ => exact absurd rfl halias

/-- **Which expressions are queries.** What is built of literals and columns is compiled exactly if
no floating number in it is infinite or undefined and no column below the root has another name. A
root that is a column under another name is shown with both names. A node that is not compiled is
unresolved, and a raw value that is not compiled has no form. -/
theorem compile_renderable (he : Built standard IsTerm e) (hl : 2 ≤ limit) :
    ((∃ sql, compile (compiler limit) e = .ok sql) ↔
      HasFiniteFloats e ∧ ∀ a ∈ e.args, HasNoAlias a) ∧
    (∀ name shown, e.columnName? = some name → e.alias? = some shown →
      compile (compiler limit) e = .ok (name ++ " AS " ++ shown)) ∧
    ∀ err, compile (compiler limit) e = .error err →
      (∃ v, e = .value v ∧ err = .noQueryForm v) ∨
      e.isValue = false ∧ ∃ operation arguments, err = .unresolved operation arguments := by
  have hformed := formed_of_built (fun _ => IsTerm.closed) he
  refine ⟨?_, fun name shown hname halias => ?_, fun err herr => ?_⟩
  · by_cases halias : e.alias? = none
    · rw [compile_iff_operand hl hformed halias, operand_iff hformed, hasNoAlias_iff,
        and_iff_right halias]
    · -- under another name a column is compiled, and no column stands below it
      obtain ⟨s, name, shown?, c, hs, -, rfl⟩ := (isColumn_of_alias hformed halias).parts
      rw [compile_column hl hs]
      exact ⟨fun _ => ⟨hasFiniteFloats_column hs, hasNoAlias_column_args hs⟩, fun _ => ⟨_, rfl⟩⟩
  · have hcolumn := isColumn_of_alias hformed (by rw [halias]; exact Option.some_ne_none _)
    obtain ⟨s, name', shown?, c, hs, -, rfl⟩ := hcolumn.parts
    rw [columnName?_column, Option.some.injEq] at hname
    rw [alias?_column] at halias
    rw [compile_column hl hs, hname, halias]
    rfl
  · cases e with
    | value v =>
      rw [compile_value v hl] at herr
      split at herr
      · cases herr
      · cases herr
        exact .inl ⟨v, rfl, rfl⟩
    | node o args c =>
      rw [compile_node o args c hl] at herr
      split at herr
      · cases herr
      · cases herr
        exact .inr ⟨rfl, _, _, rfl⟩

/-- The column `a` of a table is shown as `a AS b` under the name `b`; `a + 1` is a query, and with
the other name in it the sum is unresolved. -/
theorem compile_renderable_alias :
    ∃ (t : Table) (column shown sum named : Expr), t.schema.columns = [⟨"a", .int64, false⟩] ∧
      (Expr.table t).column "a" = .ok column ∧ column.withAlias "b" = .ok shown ∧
      standard.applyBinary (.binary .add) column (.value (.int 1)) = .ok sum ∧
      standard.applyBinary (.binary .add) shown (.value (.int 1)) = .ok named ∧
      compile (compiler 2) shown = .ok "a AS b" ∧
      (∃ sql, compile (compiler 2) sum = .ok sql) ∧
      ∃ operation arguments,
        compile (compiler 2) named = .error (.unresolved operation arguments) := by
  obtain ⟨t, ht⟩ : ∃ t : Table, t = ⟨"t", ⟨[⟨"a", .int64, false⟩], by simp, by simp⟩, none, none⟩ :=
    ⟨_, rfl⟩
  obtain ⟨column, hc⟩ : ∃ column : Option String → Expr, ∀ shown?, column shown? =
      make .column [Expr.table t, .value (.text "a"), optionalText shown?]
        (ValueType.int64.categories .column) := ⟨_, fun _ => rfl⟩
  obtain ⟨sum, hs⟩ : ∃ sum : Option String → Expr,
      ∀ shown?, sum shown? = joined .add (column shown?) (.value (.int 1)) := ⟨_, fun _ => rfl⟩
  have hcolumn : (Expr.table t).column "a" = .ok (column none) := by
    rw [hc, ht]
    rfl
  have hshown : (column none).withAlias "b" = .ok (column (some "b")) := by
    rw [hc, hc]
    rfl
  have hsum : ∀ shown?, standard.applyBinary (.binary .add) (column shown?) (.value (.int 1)) =
      .ok (sum shown?) := by
    intro shown?
    have hnumeric : (ValueType.int64.categories .column).closure.has .numeric = true := by decide
    rw [hs, hc]
    exact applyBinary_of_operands (Categories.closure_closure _) (Value.closure_categories _)
      ⟨hnumeric, by decide, .inl rfl⟩
  have hplain : (column none).IsColumn := .column (.table t) hcolumn
  have hnamed : (column (some "b")).IsColumn := .renamed hplain hshown
  have hone : Built standard IsTerm (.value (.int 1)) := .leaf (.inl (.value rfl))
  obtain ⟨hsuccess, -, -⟩ :=
    compile_renderable (.binary (.leaf (.inr hplain)) hone (hsum none)) (Nat.le_refl 2)
  obtain ⟨hrefused, -, herror⟩ :=
    compile_renderable (.binary (.leaf (.inr hnamed)) hone (hsum (some "b"))) (Nat.le_refl 2)
  obtain ⟨-, hboth, -⟩ := compile_renderable (.leaf (.inr hnamed)) (Nat.le_refl 2)
  have hfloats : HasFiniteFloats (.value (.int 1)) := hasFiniteFloats_value.mpr rfl
  refine ⟨t, column none, column (some "b"), sum none, sum (some "b"), by rw [ht], hcolumn, hshown,
    hsum none, hsum (some "b"), ?_, ?_, ?_⟩
  · exact hboth "a" "b" (by rw [hc]; rfl) (by rw [hc]; rfl)
  · refine hsuccess.mpr ⟨?_, ?_⟩
    · rw [hs, hc, hasFiniteFloats_joined]
      exact ⟨hasFiniteFloats_column (.table t), hfloats⟩
    · rw [hs, hc]
      exact List.forall_mem_cons.mpr ⟨(hasNoAlias_column (.table t)).mpr rfl,
        List.forall_mem_cons.mpr ⟨everywhere_value.mpr rfl, nofun⟩⟩
  · cases hcompiled : compile (compiler 2) (sum (some "b")) with
    | ok sql =>
      have hbelow := (hrefused.mp ⟨sql, hcompiled⟩).2
      rw [hs, hc] at hbelow
      exact absurd ((hasNoAlias_column (.table t)).mp (hbelow _ List.mem_cons_self)) nofun
    | error err =>
      rcases herror err hcompiled with ⟨v, hv, -⟩ | ⟨-, operation, arguments, rfl⟩
      · rw [hs] at hv
        cases hv
      · exact ⟨operation, arguments, rfl⟩

end Sql

end QueryExpr
