import QueryExpr.Proofs.Expr.Parts
import QueryExpr.Proofs.Rewrite.Normal
import QueryExpr.Sql

/-!
# What the rules for queries do with a node

The rules for queries are one function of the expression, so their order does not matter. It
puts a fragment in the place of a node whose arguments allow for one.

* `fragment?`: the fragment that a node becomes.
* `decided`, `concludes`: **the rules write that fragment, and do nothing else.**
* `sweep_node_cases`, `fragment_of_sweep`: a node becomes the fragment of its rewritten arguments,
  or it stays over them.
* `sweep_of_compile`, `compile_of_sweep`: a query is compiled from what one sweep leaves.
* `compile_node`: a node is compiled to the text of its fragment, or it is unresolved.
-/

namespace QueryExpr

open Rule QueryExpr.Expr

namespace Sql

/-- **The fragment that a node becomes**, whatever the order of the rules for queries. -/
def fragment? : Expr → Option Fragment
  | .node (.scalar _) [.value v] _ => Fragment.ofValue? v
  | .node .table args _ =>
    (textAt? args 0).map fun name => .atom (Table.qualify (textAt? args 2) (textAt? args 3) name)
  | .node .column args c =>
    if isSourceDone (.node .column args c) then
      (textAt? args 1).map fun name =>
        match textAt? args 2 with
        | some shown => ⟨name ++ " AS " ++ shown, Fragment.listPrecedence⟩
        | none => .atom name
    else none
  | .node .projection args c =>
    if isSourceDone (.node .projection args c) then
      (Expr.node .projection args c).projectedNames?.map fun names =>
        ⟨", ".intercalate names, Fragment.listPrecedence⟩
    else none
  | .node (.function name) args _ => (args.mapM operand?).map (.call name)
  | .node .not [x] _ => (operand? x).map Fragment.negation
  | .node (.binary op) [l, r] _ =>
    (operand? l).bind fun left => (operand? r).map fun right => .binary op left right
  | _ => none

variable {args : List Expr} {c : Categories} {t : ValueType} {name : String} {op : BinaryOp}
  {l r x : Expr}

/-! Each rule says what becomes of the nodes of its operation. -/

theorem scalar_produce? {v : Value} : scalar.produce? (.node (.scalar t) [.value v] c) =
    (fragment? (.node (.scalar t) [.value v] c)).map rendered := rfl

theorem table_produce? : table.produce? (.node .table args c) =
    (fragment? (.node .table args c)).map rendered := by
  rw [fragment?, Option.map_map]
  rfl

theorem column_produce? : column.produce? (.node .column args c) =
    (fragment? (.node .column args c)).map rendered := by
  have hname : (Expr.node .column args c).columnName? = textAt? args 1 := rfl
  have halias : (Expr.node .column args c).alias? = textAt? args 2 := rfl
  dsimp only [column]
  rw [fragment?, hname, halias]
  split
  · rw [Option.map_map]
    cases textAt? args 2 <;> rfl
  · rfl

theorem projection_produce? : projection.produce? (.node .projection args c) =
    (fragment? (.node .projection args c)).map rendered := by
  dsimp only [projection]
  rw [fragment?]
  split
  · rw [Option.map_map]
    rfl
  · rfl

theorem function_produce? : function.produce? (.node (.function name) args c) =
    (fragment? (.node (.function name) args c)).map rendered := by
  rw [fragment?, Option.map_map]
  rfl

theorem negation_produce? : negation.produce? (.node .not [x] c) =
    (fragment? (.node .not [x] c)).map rendered := by
  rw [fragment?, Option.map_map]
  rfl

theorem binary_produce? : (binary op).produce? (.node (.binary op) [l, r] c) =
    (fragment? (.node (.binary op) [l, r] c)).map rendered := by
  have hoperands : (Expr.node (.binary op) [l, r] c).operandsOf? op = some (l, r) := if_pos rfl
  dsimp only [binary]
  rw [hoperands, fragment?]
  dsimp only
  cases operand? l <;> cases operand? r <;> rfl

/-- **The rules for queries decide together** what becomes of a node. -/
theorem decided : DecidedBy rules fun e => (fragment? e).map rendered where
  sound := by
    intro rule e p hrule hp
    simp only [rules, List.mem_append, List.mem_cons, List.not_mem_nil, or_false, List.mem_map]
      at hrule
    -- a rule that applies tells the operation of the node, and then the node tells the rule
    rcases hrule with (rfl | rfl | rfl | rfl | rfl | rfl) | ⟨op, -, rfl⟩
    · obtain ⟨⟨t, v⟩, hscalar, -⟩ := Option.bind_eq_some_iff.1 hp
      obtain ⟨c, rfl⟩ := scalar?_eq_some hscalar
      rwa [scalar_produce?] at hp
    · have htable : ∃ args c, e = .node .table args c := by
        dsimp only [table] at hp
        split at hp
        · exact ⟨_, _, rfl⟩
        · cases hp
      obtain ⟨args, c, rfl⟩ := htable
      rwa [table_produce?] at hp
    · have hname : ∃ name, e.columnName? = some name := by
        dsimp only [column] at hp
        split at hp
        · obtain ⟨name, hname, -⟩ := Option.map_eq_some_iff.1 hp
          exact ⟨name, hname⟩
        · cases hp
      obtain ⟨name, hname⟩ := hname
      obtain ⟨args, c, rfl⟩ := columnName?_eq_some hname
      rwa [column_produce?] at hp
    · have hnames : ∃ names, e.projectedNames? = some names := by
        dsimp only [projection] at hp
        split at hp
        · obtain ⟨names, hnames, -⟩ := Option.map_eq_some_iff.1 hp
          exact ⟨names, hnames⟩
        · cases hp
      obtain ⟨names, hnames⟩ := hnames
      obtain ⟨args, c, rfl⟩ := projectedNames?_eq_some hnames
      rwa [projection_produce?] at hp
    · have hfunction : ∃ name args c, e = .node (.function name) args c := by
        dsimp only [function] at hp
        split at hp
        · exact ⟨_, _, _, rfl⟩
        · cases hp
      obtain ⟨name, args, c, rfl⟩ := hfunction
      rwa [function_produce?] at hp
    · obtain ⟨f, hf, -⟩ := Option.map_eq_some_iff.1 hp
      obtain ⟨x, hnegated, -⟩ := Option.bind_eq_some_iff.1 hf
      obtain ⟨c, rfl⟩ := negated?_eq_some hnegated
      rwa [negation_produce?] at hp
    · have hoperands : ∃ l r, e.operandsOf? op = some (l, r) := by
        dsimp only [binary] at hp
        split at hp
        · next l r hoperands => exact ⟨l, r, hoperands⟩
        · cases hp
      obtain ⟨l, r, hoperands⟩ := hoperands
      obtain ⟨c, rfl⟩ := operandsOf?_eq_some hoperands
      rwa [binary_produce?] at hp
  complete := by
    intro e p hp
    have hsome : ∃ f, fragment? e = some f := by
      obtain ⟨f, hf, -⟩ := Option.map_eq_some_iff.1 hp
      exact ⟨f, hf⟩
    obtain ⟨f, hf⟩ := hsome
    unfold fragment? at hf
    split at hf
    · exact ⟨scalar, by simp [rules], scalar_produce?.trans hp⟩
    · exact ⟨table, by simp [rules], table_produce?.trans hp⟩
    · exact ⟨column, by simp [rules], column_produce?.trans hp⟩
    · exact ⟨projection, by simp [rules], projection_produce?.trans hp⟩
    · exact ⟨function, by simp [rules], function_produce?.trans hp⟩
    · exact ⟨negation, by simp [rules], negation_produce?.trans hp⟩
    · exact ⟨binary _, by simp [rules, BinaryOp.mem_all], binary_produce?.trans hp⟩
    · cases hf

theorem concludes : Concludes rules := by
  refine decided.concludes fun {e p} hp => ?_
  obtain ⟨f, -, rfl⟩ := Option.map_eq_some_iff.1 hp
  exact .inr ⟨_, rfl⟩

/-- A node over what one sweep leaves of its arguments. -/
def swept (o : Operation) (args : List Expr) (c : Categories) : Expr :=
  .node o (args.map fun e => (sweep rules e).expr) c

/-- **One sweep leaves a fragment of a node** or the node over what it leaves of the arguments. -/
theorem sweep_node_cases (o : Operation) (args : List Expr) (c : Categories) :
    (∃ f, fragment? (swept o args c) = some f ∧
      (sweep rules (.node o args c)).expr = .value (.fragment f)) ∨
    (fragment? (swept o args c) = none ∧ (sweep rules (.node o args c)).expr = swept o args c) := by
  have hsweep : (sweep rules (.node o args c)).expr =
      (settle (swept o args c) ((fragment? (swept o args c)).map rendered)).expr := by
    rw [sweep_expr concludes, decided.applyFirst]
    rfl
  cases hf : fragment? (swept o args c) with
  | none => exact .inr ⟨rfl, by rw [hsweep, hf]; rfl⟩
  | some f => exact .inl ⟨f, rfl, by rw [hsweep, hf]; rfl⟩

/-- **A node that becomes a value becomes a fragment**, that of its rewritten arguments. -/
theorem fragment_of_sweep {o : Operation} {v : Value}
    (h : (sweep rules (.node o args c)).expr = .value v) :
    ∃ f, v = .fragment f ∧
      fragment? (.node o (args.map fun e => (sweep rules e).expr) c) = some f := by
  rcases sweep_node_cases o args c with ⟨f, hf, hexpr⟩ | ⟨-, hexpr⟩
  · rw [hexpr] at h
    cases h
    exact ⟨f, rfl, hf⟩
  · rw [hexpr] at h
    cases h

/-! ## Compiled queries -/

variable {e : Expr} {v : Value} {f : Fragment} {sql : String} {limit : Nat}

/-- A query is compiled from what one sweep leaves of the expression, whatever the limit. -/
theorem sweep_of_compile (h : compile (compiler limit) e = .ok sql) :
    ∃ v f, (sweep rules e).expr = .value v ∧ Fragment.ofValue? v = some f ∧ sql = f.text := by
  obtain ⟨v, hv, h⟩ := Error.bind_ok h
  have hswept : (sweep rules e).expr = .value v :=
    Compiler.sweep_of_compile (rests concludes e).again hv
  cases hf : Fragment.ofValue? v with
  | none =>
    rw [hf] at h
    cases h
  | some f =>
    rw [hf] at h
    cases h
    exact ⟨v, f, hswept, hf, rfl⟩

/-- **A node is compiled to the text of its fragment**, or it is unresolved. -/
theorem compile_node (o : Operation) (args : List Expr) (c : Categories) (hl : 2 ≤ limit) :
    compile (compiler limit) (.node o args c) =
      match fragment? (swept o args c) with
      | some f => .ok f.text
      | none => .error (swept o args c).unresolved := by
  have hcompile : (compiler limit).compile (.node o args c) =
      (sweep rules (.node o args c)).expr.outcome :=
    Compiler.compile_of_settled hl (rests concludes _).again
  rw [compile, hcompile]
  rcases sweep_node_cases o args c with ⟨f, hf, hexpr⟩ | ⟨hf, hexpr⟩
  · rw [hexpr, hf]
    rfl
  · rw [hexpr, hf]
    rfl

/-- A raw value is compiled to its spelling. -/
theorem compile_value (v : Value) (hl : 2 ≤ limit) :
    compile (compiler limit) (.value v) =
      match Fragment.ofValue? v with
      | some f => .ok f.text
      | none => .error (.noQueryForm v) := by
  have hcompile : (compiler limit).compile (.value v) = .ok v :=
    Compiler.compile_of_settled hl (rests concludes _).again
  rw [compile, hcompile]
  rfl

/-- With two passes an expression of which a value is left is compiled to the text of the value. -/
theorem compile_of_sweep (hl : 2 ≤ limit) (hv : (sweep rules e).expr = .value v)
    (hf : Fragment.ofValue? v = some f) : compile (compiler limit) e = .ok f.text := by
  have hcompile : (compiler limit).compile e = .ok v := by
    rw [Compiler.compile_of_settled hl (rests concludes e).again]
    exact congrArg Expr.outcome hv
  simp only [compile, hcompile, bind, Except.bind, hf]
  rfl

end Sql

end QueryExpr
