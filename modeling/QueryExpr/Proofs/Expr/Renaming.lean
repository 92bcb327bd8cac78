import QueryExpr.Phrase.Elaborate
import QueryExpr.Proofs.Expr.Leaves
import QueryExpr.Proofs.Expr.Parts
import QueryExpr.Proofs.Registry.Possible
import QueryExpr.Proofs.Registry.Typing
import QueryExpr.Proofs.Rewrite.Normal

/-!
# Renaming columns

The other name of a column is written to a fixed place among its arguments, and nothing looks
whether the place is there. It is in every column that is taken from a table, and nothing that is
done to a column takes it away. But a constructor builds nodes of its operation with whatever
arguments it is given, and registration lets the operation of columns pass: such a node may be too
short, and renaming it stops the program.

* `withAlias_spec`: what a renaming gives, by the number of arguments.
* `Made`: the expressions that can be made. `Made.parse`, `Made.rewrite`: reading texts and
  rewriting make no others.
* `Made.everywhere`: **the invariant**: if no constructor builds columns, all columns have the place.
* `renaming_stops`: **renaming stops exactly at columns without the place**, which only constructors
  build.
-/

namespace QueryExpr

open Registry

namespace Expr

variable {e e' : Expr} {args operands : List Expr} {name : String} {P : Operation → Prop}
  {r : Registry} {o : Operator} {c : Constructor} {rules : List Rule}

/-- **The column with another name**, of which all the rest is as before. -/
structure IsRenamed (e e' : Expr) (name : String) : Prop where
  operation : e'.operation? = some .column
  name : e'.alias? = some name
  categories : e'.categories = e.categories
  length : e'.args.length = e.args.length
  others : ∀ i, i ≠ aliasPlace → e'.args[i]? = e.args[i]?

/-- If it is a column, it has the place for another name. -/
def HasAliasPlace (e : Expr) : Prop := e.operation? = some .column → aliasPlace < e.args.length

/-- **What a renaming gives**: an error for what is no column, the renamed column if the place for
the name is there, and otherwise no answer at all. -/
theorem withAlias_spec (e : Expr) (name : String) :
    (e.operation? ≠ some .column → e.withAlias name = .error (.notColumn e.categories)) ∧
    (e.operation? = some .column → aliasPlace < e.args.length →
      ∃ e', e.withAlias name = .ok e' ∧ IsRenamed e e' name) ∧
    (e.operation? = some .column → e.args.length ≤ aliasPlace →
      e.withAlias name = .error (.outOfBounds e.args.length aliasPlace)) := by
  cases e with
  | value v =>
    refine ⟨fun _ => rfl, fun hcolumn => ?_, fun hcolumn => ?_⟩
    · cases hcolumn
    · cases hcolumn
  | node operation args c =>
    have hop : (node operation args c).operation? = some operation := rfl
    rw [hop]
    refine ⟨fun hne => ?_, fun hcolumn hplace => ?_, fun hcolumn hshort => ?_⟩
    · cases operation with
      | column => exact absurd rfl hne
      | _ => rfl
    · cases hcolumn
      have hplace : aliasPlace < args.length := hplace
      have hwrite : writeArg args aliasPlace (value (.text name)) =
          .ok (args.set aliasPlace (value (.text name))) := if_pos hplace
      refine ⟨node .column (args.set aliasPlace (value (.text name))) c, ?_, rfl, ?_, rfl, ?_, ?_⟩
      · simp only [withAlias, operation?, Expr.args, hwrite]
        rfl
      · have hset : (args.set aliasPlace (value (.text name)))[2]? = some (value (.text name)) :=
          List.getElem?_set_self hplace
        simp [alias?, operation?, Expr.args, hset, asText?, asValue?, Value.asText?]
      · simp [Expr.args]
      · intro i hi
        exact List.getElem?_set_ne hi.symm
    · cases hcolumn
      have hshort : args.length ≤ aliasPlace := hshort
      have hwrite : writeArg args aliasPlace (value (.text name)) =
          .error (.outOfBounds args.length aliasPlace) := if_neg (by omega)
      simp only [withAlias, operation?, Expr.args, hwrite]
      rfl

/-! ## What can be made -/

/-- **The expressions that can be made**, where constructors are used of which the operations meet a
condition: on their own, and in registries that requests have made. -/
inductive Made (P : Operation → Prop) : Expr → Prop
  | value (v : Value) : Made P (.value v)
  | scalar (t : ValueType) (v : Value) : Made P (scalar t v)
  | table (t : Table) : Made P (table t)
  | column {e e' : Expr} {name : String} (he : Made P e) (h : e.column name = .ok e') : Made P e'
  | project {e e' : Expr} {names : List String} (he : Made P e) (h : e.project names = .ok e') :
    Made P e'
  | renamed {e e' : Expr} {name : String} (he : Made P e) (h : e.withAlias name = .ok e') :
    Made P e'
  | function (name : String) (c : Categories) {args : List Expr} (hargs : ∀ a ∈ args, Made P a) :
    Made P (function name args c)
  | built (c : Constructor) (hc : P c.operation) {args : List Expr} (hargs : ∀ a ∈ args, Made P a) :
    Made P (c.build args)
  | applied {r : Registry} {o : Operator} {operands : List Expr} {e : Expr}
    (hr : ReachableBy (fun q => P q.constructor.operation) r)
    (hoperands : ∀ x ∈ operands, Made P x) (h : r.apply o operands = .ok e) : Made P e
  /-- A part of what is made. -/
  | argument {e a : Expr} (he : Made P e) (ha : a ∈ e.args) : Made P a
  /-- A node whose arguments were rewritten, one by one. -/
  | refilled {e : Expr} {args : List Expr} (he : Made P e) (hargs : ∀ a ∈ args, Made P a)
    (hlength : args.length = e.args.length) : Made P (e.withArgs args)

theorem Made.ofNumber {negative : Bool} {digits : String}
    (h : Phrase.ofNumber negative digits = .ok e) : Made P e := by
  simp only [Phrase.ofNumber] at h
  by_cases hfloat : Phrase.isFloating digits = true
  · rw [if_pos hfloat] at h
    generalize FloatText.read? _ = read? at h
    cases read? with
    | none => cases h
    | some x => cases h; exact .scalar _ _
  · rw [if_neg hfloat] at h
    generalize Integer.ofInt? _ = integer? at h
    cases integer? with
    | none => cases h
    | some n => cases h; exact .scalar _ _

/-- What a phrase stands for is made of its source. -/
theorem Made.elaborate {source? : Option Expr} {p : Phrase}
    (hr : ReachableBy (fun q => P q.constructor.operation) r)
    (hsource : ∀ s, source? = some s → Made P s) (h : p.elaborate r source? = .ok e) :
    Made P e := by
  induction p generalizing e with
  | number negative digits => exact .ofNumber h
  | text s => cases h; exact .scalar _ _
  | truth b => cases h; exact .scalar _ _
  | null => cases h; exact .value _
  | column name =>
    cases source? with
    | none => cases h
    | some s => exact .column (hsource s rfl) h
  | not operand ih =>
    obtain ⟨x, hx, h⟩ := Error.bind_ok h
    have happly : r.apply .not [x] = .ok e := h
    exact .applied hr (List.forall_mem_singleton.mpr (ih hx)) happly
  | negate operand ih =>
    obtain ⟨x, hx, h⟩ := Error.bind_ok h
    have happly : r.apply (.binary .subtract) [int64 0, x] = .ok e := h
    refine .applied hr ?_ happly
    simpa using ⟨.scalar _ _, ih hx⟩
  | binary op left right ihl ihr =>
    obtain ⟨x, hx, h⟩ := Error.bind_ok h
    obtain ⟨y, hy, h⟩ := Error.bind_ok h
    have happly : r.apply (.binary op) [x, y] = .ok e := h
    refine .applied hr ?_ happly
    simpa using ⟨ihl hx, ihr hy⟩
  | fault error => cases h
  | faultAfter phrase error =>
    obtain ⟨x, -, h⟩ := Error.bind_ok h
    cases h

/-- **Reading texts** makes no other expressions. -/
theorem Made.parse {source? : Option Expr} {s : String}
    (hr : ReachableBy (fun q => P q.constructor.operation) r)
    (hsource : ∀ s, source? = some s → Made P s) (h : Expr.parse r source? s = .ok e) :
    Made P e := by
  unfold Expr.parse at h
  split at h
  · cases h
  · exact .elaborate hr hsource h

/-- The rules put nothing in the place of an expression that cannot be made. -/
def RulesMake (P : Operation → Prop) (rules : List Rule) : Prop :=
  ∀ rule ∈ rules, ∀ e new, Made P e → rule.produce? e = some (.replace new) → Made P new

theorem Made.applyFirst (hrules : RulesMake P rules) (h : Made P e) :
    Made P (Rule.applyFirst rules e).expr := by
  induction rules with
  | nil => exact h
  | cons rule rules ih =>
    obtain ⟨hrule, hrest⟩ := List.forall_mem_cons.mp hrules
    rw [Rule.applyFirst]
    split
    · next p hp =>
      cases p with
      | keep => exact h
      | replace new => exact hrule e new h hp
    · exact ih hrest

theorem Made.sweep (hrules : RulesMake P rules) (h : Made P e) :
    Made P (Rule.sweep rules e).expr := by
  induction e using Expr.induct with
  | value v => rwa [Rule.sweep]
  | node operation args c ih =>
    have hswept : Made P (.node operation (Rule.sweepAll rules args).1 c) := by
      rw [Rule.sweepAll_eq]
      refine .refilled h ?_ (List.length_map _)
      intro x hx
      obtain ⟨a, ha, rfl⟩ := List.mem_map.mp hx
      exact ih a ha (.argument h ha)
    rw [Rule.sweep]
    refine .applyFirst hrules ?_
    split
    · exact hswept
    · exact h

/-- **Rewriting** makes no other expressions if the rules do not. -/
theorem Made.rewrite {compiler : Compiler} {f : Fixpoint} (hrules : RulesMake P compiler.rules)
    (h : Made P e) (hf : compiler.rewrite e = .ok f) : Made P f.expr := by
  have hpasses : ∀ left done e, Made P e →
      Strategy.runPasses compiler.pass left done e = .ok f → Made P f.expr := by
    intro left
    induction left with
    | zero => intro done e _ hrun; cases hrun
    | succ left ih =>
      intro done e he hrun
      rw [Strategy.runPasses_succ (Compiler.pass_eq_sweep compiler e)] at hrun
      split at hrun
      · exact ih _ _ (he.sweep hrules) hrun
      · cases hrun
        exact he.sweep hrules
  exact hpasses _ _ _ h hf

/-! ## The invariant -/

/-- **Registries build no columns** if no request has asked for it. -/
theorem operation_ne_column (hr : ReachableBy (fun q => q.constructor.operation ≠ .column) r) :
    ∀ o side, ∀ entry ∈ r.entries o side, entry.constructor.operation ≠ .column := by
  refine hr.constructors (C := fun c => c.operation ≠ .column) (fun _ hc => hc) fun o => ?_
  cases o with
  | not => exact fun h => nomatch h
  | binary op => exact fun h => nomatch h

theorem everywhere_build (hc : c.operation ≠ .column)
    (hargs : ∀ a ∈ args, Everywhere HasAliasPlace a) : Everywhere HasAliasPlace (c.build args) := by
  rw [Constructor.build, make, everywhere_node]
  refine ⟨fun h => absurd (Option.some.inj h) hc, fun x hx => ?_⟩
  exact hargs x ((c.arrange_perm args).mem_iff.mp hx)

theorem everywhere_args (h : Everywhere HasAliasPlace e) :
    ∀ a ∈ e.args, Everywhere HasAliasPlace a := by
  cases e with
  | value v => exact List.forall_mem_nil _
  | node operation args c => exact (everywhere_node.mp h).2

theorem hasAliasPlace_value (v : Value) : Everywhere HasAliasPlace (.value v) :=
  everywhere_value.mpr fun h => nomatch h

theorem hasAliasPlace_optionalText (s? : Option String) :
    Everywhere HasAliasPlace (optionalText s?) := by
  cases s? <;> exact hasAliasPlace_value _

/-- **If no constructor builds columns, all columns have the place** for another name. -/
theorem Made.everywhere (h : Made (· ≠ .column) e) : Everywhere HasAliasPlace e := by
  induction h with
  | value v => exact hasAliasPlace_value v
  | scalar t v =>
    rw [Expr.scalar, make, everywhere_node, List.forall_mem_singleton]
    exact ⟨fun h => (nomatch h), hasAliasPlace_value v⟩
  | table t =>
    rw [Expr.table, make, everywhere_node]
    refine ⟨fun h => (nomatch h), ?_⟩
    simp only [List.forall_mem_cons]
    exact ⟨hasAliasPlace_value _, hasAliasPlace_value _, hasAliasPlace_optionalText _,
      hasAliasPlace_optionalText _, List.forall_mem_nil _⟩
  | column _ h ih =>
    obtain ⟨-, c, -, -, rfl⟩ := column_ok h
    rw [make, everywhere_node]
    refine ⟨fun _ => Nat.lt_succ_self 2, ?_⟩
    simp only [List.forall_mem_cons]
    exact ⟨ih, hasAliasPlace_value _, hasAliasPlace_value _, List.forall_mem_nil _⟩
  | project _ h ih =>
    obtain ⟨narrowed, rfl⟩ := project_ok h
    rw [make, everywhere_node]
    refine ⟨fun h => (nomatch h), ?_⟩
    simp only [List.forall_mem_cons]
    exact ⟨ih, hasAliasPlace_value _, hasAliasPlace_value _, List.forall_mem_nil _⟩
  | renamed _ h ih =>
    obtain ⟨args, c, rfl, hplace, rfl⟩ := withAlias_ok h
    rw [everywhere_node]
    refine ⟨fun _ => ?_, fun x hx => ?_⟩
    · show aliasPlace < (args.set aliasPlace _).length
      rwa [List.length_set]
    · rcases List.mem_or_eq_of_mem_set hx with hx | rfl
      · exact everywhere_args ih x hx
      · exact hasAliasPlace_value _
  | function name c _ ih =>
    rw [Expr.function, make, everywhere_node]
    exact ⟨fun h => (nomatch h), ih⟩
  | built c hc _ ih => exact everywhere_build hc ih
  | applied hr _ h ih =>
    obtain ⟨-, c, args, hchoose, rfl⟩ := apply_eq_ok.mp h
    obtain ⟨o', side, -, entry, hentry, rfl⟩ := entry_of_choose? hchoose
    obtain ⟨hargs, -⟩ := choose?_args hchoose
    refine everywhere_build (operation_ne_column hr _ _ entry hentry) fun a ha => ?_
    exact ih a (hargs.mem_iff.mp ha)
  | argument _ ha ih => exact everywhere_args ih _ ha
  | @refilled e args _ _ hlength ihe ihargs =>
    cases e with
    | value v => exact hasAliasPlace_value v
    | node operation old c =>
      rw [withArgs, everywhere_node]
      refine ⟨fun h => ?_, ihargs⟩
      have hplace : aliasPlace < old.length := ihe.self h
      show aliasPlace < args.length
      rw [hlength]
      exact hplace

/-! ## Constructors of columns -/

/-- A node with too few arguments that a constructor builds cannot be renamed. -/
theorem withAlias_build (hc : c.operation = .column) (hargs : args.length ≤ aliasPlace)
    (name : String) :
    (c.build args).withAlias name = .error (.outOfBounds args.length aliasPlace) := by
  have hlength : (c.build args).args.length = args.length := (c.arrange_perm args).length_eq
  have hcolumn : (c.build args).operation? = some .column := congrArg some hc
  rw [← hlength] at hargs ⊢
  exact (withAlias_spec _ name).2.2 hcolumn hargs

/-- What an operator builds by a constructor of columns cannot be renamed: an operator has too few
operands. -/
theorem withAlias_apply (hchoose : r.choose? o operands = some (c, args))
    (hc : c.operation = .column) (happly : r.apply o operands = .ok e) (name : String) :
    e.withAlias name = .error (.outOfBounds operands.length aliasPlace) := by
  obtain ⟨-, c', args', hchoose', rfl⟩ := apply_eq_ok.mp happly
  rw [hchoose] at hchoose'
  cases hchoose'
  obtain ⟨hargs, harity⟩ := choose?_args hchoose
  have hshort : args.length ≤ aliasPlace := by
    rw [hargs.length_eq, harity]
    cases o with
    | not => decide
    | binary op => exact Nat.le_refl 2
  rw [withAlias_build hc hshort, hargs.length_eq]

/-- What is made without constructors of columns is renamed, or it is no column. -/
theorem Made.withAlias (h : Made (· ≠ .column) e) (name : String) :
    (∃ e', e.withAlias name = .ok e' ∧ IsRenamed e e' name) ∨
      e.withAlias name = .error (.notColumn e.categories) := by
  obtain ⟨hother, hrenamed, -⟩ := withAlias_spec e name
  by_cases hcolumn : e.operation? = some .column
  · exact .inl (hrenamed hcolumn (h.everywhere.self hcolumn))
  · exact .inr (hother hcolumn)

/-- **Renaming stops exactly at columns without the place for the name.** Any other column is given
the name, with all the rest as it was, and what is no column gives an error. Only constructors of
columns build those that lack the place: without them, however an expression is made, by
constructors and registries of other operations, by reading and by rewriting, it is renamed or gives
the error. But with at most two arguments such a constructor builds what cannot be renamed, and so
does every operator that is bound to one. -/
theorem renaming_stops (e : Expr) (name : String) :
    ((e.operation? ≠ some .column → e.withAlias name = .error (.notColumn e.categories)) ∧
      (e.operation? = some .column → aliasPlace < e.args.length →
        ∃ e', e.withAlias name = .ok e' ∧ IsRenamed e e' name) ∧
      (e.operation? = some .column → e.args.length ≤ aliasPlace →
        e.withAlias name = .error (.outOfBounds e.args.length aliasPlace))) ∧
    (Made (· ≠ .column) e → (∃ e', e.withAlias name = .ok e' ∧ IsRenamed e e' name) ∨
      e.withAlias name = .error (.notColumn e.categories)) ∧
    (∀ (c : Constructor) (args : List Expr), c.operation = .column → args.length ≤ aliasPlace →
      e = c.build args → e.withAlias name = .error (.outOfBounds args.length aliasPlace)) ∧
    ∀ (r : Registry) (o : Operator) (operands args : List Expr) (c : Constructor),
      r.choose? o operands = some (c, args) → c.operation = .column → r.apply o operands = .ok e →
      e.withAlias name = .error (.outOfBounds operands.length aliasPlace) := by
  refine ⟨withAlias_spec e name, fun h => h.withAlias name, ?_, ?_⟩
  · rintro c args hc hargs rfl
    exact withAlias_build hc hargs name
  · intro r o operands args c hchoose hc happly
    exact withAlias_apply hchoose hc happly name

/-- A request to negate scalar truth values by building a column. -/
def negationByColumn : Request :=
  ⟨.not, .left, .ofList [.boolean, .scalar], ⟨.column, .boolean, false⟩⟩

/-- The request is granted, and the column that then stands for a negation cannot be renamed; nor can
one that is built of nothing. A column of a table can. -/
theorem renaming_stops_negation :
    (∃ r e, negationByColumn.attempt standard = .ok r ∧
      r.apply .not [scalar .bool (.bool true)] = .ok e ∧
      e.withAlias "x" = .error (.outOfBounds 1 2)) ∧
    (negationByColumn.constructor.build []).withAlias "x" = .error (.outOfBounds 0 2) ∧
    ∃ (t : Table) (e e' : Expr), (table t).column "id" = .ok e ∧ e.withAlias "x" = .ok e' ∧
      IsRenamed e e' "x" := by
  refine ⟨?_, ?_, ?_⟩
  · obtain ⟨r, hr⟩ : ∃ r, negationByColumn.attempt standard = .ok r := ⟨_, rfl⟩
    have hafter : r = standard.after negationByColumn := by
      rw [Registry.after, hr]
    obtain ⟨e, he⟩ : ∃ e, (standard.after negationByColumn).apply .not
        [scalar .bool (.bool true)] = .ok e := ⟨_, rfl⟩
    have hchoose : (standard.after negationByColumn).choose? .not [scalar .bool (.bool true)] =
        some (negationByColumn.constructor, [scalar .bool (.bool true)]) := rfl
    rw [← hafter] at he hchoose
    obtain ⟨-, -, -, hbound⟩ := renaming_stops e "x"
    exact ⟨r, e, hr, he, hbound r .not _ _ _ hchoose rfl he⟩
  · obtain ⟨-, -, hbuilt, -⟩ := renaming_stops (negationByColumn.constructor.build []) "x"
    exact hbuilt _ [] rfl (by decide) rfl
  · obtain ⟨t, ht⟩ : ∃ t : Table,
      t = ⟨"orders", ⟨[⟨"id", .int64, false⟩], by decide, by decide⟩, none, none⟩ := ⟨_, rfl⟩
    obtain ⟨e, he⟩ : ∃ e, (table t).column "id" = .ok e := by
      rw [ht]
      exact ⟨_, rfl⟩
    obtain ⟨-, hmade, -, -⟩ := renaming_stops e "x"
    rcases hmade (.column (.table t) he) with ⟨e', hok, hrenamed⟩ | herror
    · exact ⟨t, e, e', he, hok, hrenamed⟩
    · obtain ⟨schema, c, -, -, rfl⟩ := column_ok he
      cases herror

end Expr

end QueryExpr
