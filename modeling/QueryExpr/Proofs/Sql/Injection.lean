import QueryExpr.Proofs.Sql.Rules
import QueryExpr.Proofs.Sql.Quotation

/-!
# Texts stay in their quotes

Whatever the texts in an expression hold, its query text has them as strings, in their order,
and nothing outside of these strings begins a comment or ends the statement. Names are not
quoted, so they have to be words.

The rules look at arguments that have been rewritten. So a node may stand where a table has its
name or a column its name, and its fragment is then written there, with the strings in it.

* `quotations`: the texts that the strings of a query hold.
* `looseTexts`: the texts of an expression outside of tables, columns and projections.
* `clean_sweep`: the induction on the expression.
* `text_never_escapes`: **a compiled query has exactly the texts as its strings.**
-/

namespace QueryExpr

open Rule QueryExpr.Expr

namespace Sql

variable {e : Expr} {args : List Expr} {c : Categories} {o : Operation} {v : Value} {f : Fragment}
  {s sql : String}

/-! ## Texts of an expression -/

mutual

/-- The texts of an expression, from left to right, but for what belongs to sources, columns
and projections. -/
def looseTexts : Expr → List String
  | .value v => v.quotation?.toList
  | .node .table _ _ | .node .column _ _ | .node .projection _ _ => []
  | .node _ args _ => looseTextsAll args

def looseTextsAll : List Expr → List String
  | [] => []
  | e :: rest => looseTexts e ++ looseTextsAll rest

end

/-- A node that is rewritten to a fragment. -/
def isRendered (e : Expr) : Bool := !e.isValue && (sweep rules e).expr.isValue

mutual

/-- **The texts that the strings of a query hold**: those of the operands and, where a node
stands for a name and is rewritten, those of the node. A table is written with its database
and schema before its name. -/
def quotations : Expr → List String
  | .value v => v.quotation?.toList
  | .node .table args _ =>
    let found := nameQuotations args
    found.getD 2 [] ++ found.getD 3 [] ++ found.getD 0 []
  | .node .column args _ =>
    let found := nameQuotations args
    found.getD 1 [] ++ found.getD 2 []
  | .node .projection _ _ => []
  | .node _ args _ => quotationsAll args

def quotationsAll : List Expr → List String
  | [] => []
  | e :: rest => quotations e ++ quotationsAll rest

/-- What each argument adds where it stands for a name: a raw value adds nothing. -/
def nameQuotations : List Expr → List (List String)
  | [] => []
  | e :: rest => (if isRendered e then quotations e else []) :: nameQuotations rest

end

theorem quotationsAll_eq (es : List Expr) : quotationsAll es = (es.map quotations).flatten := by
  induction es with
  | nil => rfl
  | cons e es ih => rw [quotationsAll, ih, List.map_cons, List.flatten_cons]

theorem nameQuotations_eq (es : List Expr) :
    nameQuotations es = es.map fun e => if isRendered e then quotations e else [] := by
  induction es with
  | nil => rfl
  | cons e es ih => rw [nameQuotations, ih, List.map_cons]

/-! ## Names -/

/-- The arguments that stand for names, in the order in which they are written. -/
def nameArgs : Expr → List Expr
  | .node .table args _ => [2, 3, 0].filterMap (args[·]?)
  | .node .column args _ => [1, 2].filterMap (args[·]?)
  | _ => []

/-- The texts that a node has for names. -/
def names : Expr → List String
  | .node .projection args c => (Expr.node .projection args c).projectedNames?.getD []
  | .node (.function name) _ _ => [name]
  | e => (nameArgs e).filterMap asText?

/-- No piece of query text stands in the expression as a raw value. -/
def HasNoFragment (e : Expr) : Prop := Everywhere (fun x => ∀ f, x ≠ .value (.fragment f)) e

/-- All names are words. -/
def HasWordNames (e : Expr) : Prop := Everywhere (fun x => ∀ name ∈ names x, IsWord name) e

/-- Only raw values stand for names. -/
def HasRawNames (e : Expr) : Prop := Everywhere (fun x => ∀ a ∈ nameArgs x, a.isValue = true) e

theorem looseTextsAll_eq (es : List Expr) : looseTextsAll es = (es.map looseTexts).flatten := by
  induction es with
  | nil => rfl
  | cons e es ih => rw [looseTextsAll, ih, List.map_cons, List.flatten_cons]

theorem nameQuotations_getD (args : List Expr) (i : Nat) :
    (nameQuotations args).getD i [] =
      (args[i]?.map fun e => if isRendered e then quotations e else []).getD [] := by
  rw [nameQuotations_eq, List.getD_eq_getElem?_getD, List.getElem?_map]

/-- A raw value that stands for a name adds no strings. -/
theorem nameQuotations_of_isValue {i : Nat} (h : ∀ a, args[i]? = some a → a.isValue = true) :
    (nameQuotations args).getD i [] = [] := by
  rw [nameQuotations_getD]
  cases ha : args[i]? with
  | none => rfl
  | some a =>
    have hrendered : isRendered a = false := by rw [isRendered, h a ha]; rfl
    rw [Option.map_some, hrendered]
    rfl

/-- **Where only raw values stand for names**, the strings hold just the loose texts. -/
theorem quotations_eq_looseTexts (h : HasRawNames e) : quotations e = looseTexts e := by
  induction e using Expr.induct with
  | value v => rw [quotations, looseTexts]
  | node o args c ih =>
    obtain ⟨hself, hargs⟩ := everywhere_node.1 h
    have hall : quotationsAll args = looseTextsAll args := by
      rw [quotationsAll_eq, looseTextsAll_eq]
      congr 1
      exact List.map_congr_left fun a ha => ih a ha (hargs a ha)
    have hname : ∀ {i : Nat}, (∀ a, args[i]? = some a → a ∈ nameArgs (.node o args c)) →
        (nameQuotations args).getD i [] = [] :=
      fun hi => nameQuotations_of_isValue fun a ha => hself a (hi a ha)
    cases o with
    | table =>
      rw [quotations, looseTexts, hname, hname, hname]
      · rfl
      all_goals
        intro a ha
        simp [nameArgs, ha]
    | column =>
      rw [quotations, looseTexts, hname, hname]
      · rfl
      all_goals
        intro a ha
        simp [nameArgs, ha]
    | projection => rw [quotations, looseTexts]
    | scalar _ | binary _ | not | function _ =>
      rw [quotations, looseTexts, hall] <;> nofun

/-- A name is written cleanly with the given strings, or it is missing and so are they. -/
def CleanName (name? : Option String) (ts : List String) : Prop :=
  match name? with
  | some name => Clean name.toList ts
  | none => ts = []

/-- A qualified name. -/
theorem clean_qualify {database? schemaName? : Option String} {name : String}
    {ts us ws : List String} (hdatabase : CleanName database? ts)
    (hschema : CleanName schemaName? us) (hname : Clean name.toList ws) :
    Clean (Table.qualify database? schemaName? name).toList (ts ++ us ++ ws) := by
  have hjoin : ∀ {names : List String} {tss : List (List String)},
      List.Forall₂ (fun name ts => Clean name.toList ts) names tss →
      Clean (".".intercalate names).toList tss.flatten := by
    intro names tss h
    rw [String.toList_intercalate]
    exact Clean.intercalate (by decide) (by decide) (List.forall₂_map_left_iff.2 h)
  unfold Table.qualify
  cases database? with
  | none =>
    cases schemaName? with
    | none =>
      rw [show ts = [] from hdatabase, show us = [] from hschema]
      simpa using hjoin (.cons hname .nil)
    | some schemaName =>
      rw [show ts = [] from hdatabase]
      simpa using hjoin (.cons hschema (.cons hname .nil))
  | some database =>
    cases schemaName? with
    | none =>
      rw [show us = [] from hschema]
      simpa using hjoin (.cons hdatabase (.cons hname .nil))
    | some schemaName =>
      simpa using hjoin (.cons hdatabase (.cons hschema (.cons hname .nil)))

/-! ## The induction -/

/-- What is left of an expression is spelled cleanly, with its quotations. -/
def CleanSweep (e : Expr) : Prop := ∀ v f, (sweep rules e).expr = .value v →
  Fragment.ofValue? v = some f → Clean f.text.toList (quotations e)

/-- An argument that stands for a name. -/
theorem clean_nameArg (he : CleanSweep e) (hfragment : ∀ f, e ≠ .value (.fragment f))
    (hword : ∀ name, e.asText? = some name → IsWord name) :
    CleanName (sweep rules e).expr.asText? (if isRendered e then quotations e else []) := by
  cases e with
  | value v =>
    have hrendered : isRendered (.value v) = false := rfl
    rw [sweep, hrendered]
    cases v with
    | text s => exact clean_word (hword s rfl)
    | fragment f => exact absurd rfl (hfragment f)
    | _ => exact rfl
  | node o args c =>
    rw [isRendered]
    cases hswept : (sweep rules (.node o args c)).expr with
    | value v =>
      obtain ⟨f, rfl, -⟩ := fragment_of_sweep hswept
      exact he _ f hswept rfl
    -- a node that is left has no text to be a name
    | node o' args' c' => exact rfl

/-- An operand. -/
theorem clean_operand (he : CleanSweep e) (h : operand? (sweep rules e).expr = some f) :
    Clean f.text.toList (quotations e) := by
  cases hswept : (sweep rules e).expr with
  | value v =>
    rw [hswept, operand?, Option.filter_eq_some_iff] at h
    exact he v f hswept h.1
  | node o args c =>
    rw [hswept] at h
    cases h

/-- The operands of a call. -/
theorem clean_operands {fs : List Fragment} (he : ∀ a ∈ args, CleanSweep a)
    (h : (args.map fun e => (sweep rules e).expr).mapM operand? = some fs) :
    List.Forall₂ (fun f ts => Clean f.text.toList ts) fs (args.map quotations) := by
  induction args generalizing fs with
  | nil =>
    cases h
    exact .nil
  | cons a args ih =>
    rw [List.forall_mem_cons] at he
    rw [List.map_cons, List.mapM_cons] at h
    obtain ⟨f, hf, h⟩ := Option.bind_eq_some_iff.1 h
    obtain ⟨fs, hfs, h⟩ := Option.bind_eq_some_iff.1 h
    cases h
    exact .cons (clean_operand he.1 hf) (ih he.2 hfs)

/-- What is left of the arguments, each by itself. -/
def sweptArgs (args : List Expr) : List Expr := args.map fun e => (sweep rules e).expr

/-- The name that an argument stands for. -/
theorem clean_nameAt (hargs : ∀ a ∈ args, CleanSweep a) (hfragments : ∀ a ∈ args, HasNoFragment a)
    (hnames : ∀ name ∈ names (.node o args c), IsWord name) {i : Nat}
    (hi : ∀ a, args[i]? = some a → ∀ name, a.asText? = some name → name ∈ names (.node o args c)) :
    CleanName (textAt? (sweptArgs args) i) ((nameQuotations args).getD i []) := by
  rw [textAt?, sweptArgs, List.getElem?_map, nameQuotations_getD]
  cases ha : args[i]? with
  | none => exact rfl
  | some a =>
    have hmem : a ∈ args := List.mem_of_getElem? ha
    exact clean_nameArg (hargs a hmem) (hfragments a hmem).self fun name hname =>
      hnames name (hi a ha name hname)

theorem clean_scalar {t : ValueType} (hargs : ∀ a ∈ args, CleanSweep a)
    (h : fragment? (.node (.scalar t) (sweptArgs args) c) = some f) :
    Clean f.text.toList (quotationsAll args) := by
  match args with
  | [a] =>
    have ha := hargs a List.mem_cons_self
    rw [sweptArgs, List.map_singleton] at h
    cases hswept : (sweep rules a).expr with
    | value v =>
      rw [hswept, fragment?] at h
      rw [quotationsAll, quotationsAll, List.append_nil]
      exact ha v f hswept h
    | node o args c =>
      rw [hswept] at h
      cases h
  | [] => cases h
  | _ :: _ :: _ => simp [sweptArgs, fragment?] at h

theorem clean_table (hargs : ∀ a ∈ args, CleanSweep a) (hfragments : ∀ a ∈ args, HasNoFragment a)
    (hnames : ∀ name ∈ names (.node .table args c), IsWord name)
    (h : fragment? (.node .table (sweptArgs args) c) = some f) :
    Clean f.text.toList (quotations (.node .table args c)) := by
  have hname : ∀ i ∈ [2, 3, 0], CleanName (textAt? (sweptArgs args) i)
      ((nameQuotations args).getD i []) := by
    intro i hi
    refine clean_nameAt hargs hfragments hnames fun a ha name hname => ?_
    exact List.mem_filterMap.2 ⟨a, List.mem_filterMap.2 ⟨i, hi, ha⟩, hname⟩
  obtain ⟨name, htext, rfl⟩ := Option.map_eq_some_iff.1 h
  have htable := hname 0 (by decide)
  rw [htext] at htable
  rw [quotations]
  exact clean_qualify (hname 2 (by decide)) (hname 3 (by decide)) htable

theorem clean_column (hargs : ∀ a ∈ args, CleanSweep a) (hfragments : ∀ a ∈ args, HasNoFragment a)
    (hnames : ∀ name ∈ names (.node .column args c), IsWord name)
    (h : fragment? (.node .column (sweptArgs args) c) = some f) :
    Clean f.text.toList (quotations (.node .column args c)) := by
  have hname : ∀ i ∈ [1, 2], CleanName (textAt? (sweptArgs args) i)
      ((nameQuotations args).getD i []) := by
    intro i hi
    refine clean_nameAt hargs hfragments hnames fun a ha name hname => ?_
    exact List.mem_filterMap.2 ⟨a, List.mem_filterMap.2 ⟨i, hi, ha⟩, hname⟩
  rw [fragment?] at h
  split at h
  · obtain ⟨name, htext, rfl⟩ := Option.map_eq_some_iff.1 h
    have hcolumn := hname 1 (by decide)
    have halias := hname 2 (by decide)
    rw [htext] at hcolumn
    rw [quotations]
    cases hshown : textAt? (sweptArgs args) 2 with
    | none =>
      rw [hshown] at halias
      rw [show (nameQuotations args).getD 2 [] = [] from halias, List.append_nil]
      exact hcolumn
    | some shown =>
      rw [hshown] at halias
      have hword : Clean ("AS ".toList ++ shown.toList) ((nameQuotations args).getD 2 []) :=
        Clean.prepend (by decide) halias
      have hitem := Clean.glue hcolumn (show isNeutral ' ' = true from rfl) hword
      simpa using hitem
  · cases h

/-- The names of the columns of a projection are those it had. -/
theorem projectedNames?_swept {names : List String}
    (h : (Expr.node .projection (sweptArgs args) c).projectedNames? = some names) :
    (Expr.node .projection args c).projectedNames? = some names := by
  have hget : (sweptArgs args)[1]? = args[1]?.map fun e => (sweep rules e).expr := List.getElem?_map
  cases ha : args[1]? with
  | none =>
    rw [ha] at hget
    simp [projectedNames?, operation?, Expr.args, hget] at h
  | some a =>
    rw [ha] at hget
    cases a with
    | value v =>
      simp only [Option.map_some, sweep] at hget
      simpa [projectedNames?, operation?, Expr.args, hget, ha] using h
    | node o args' c' =>
      -- a node becomes no list
      cases hswept : (sweep rules (.node o args' c')).expr with
      | value v =>
        obtain ⟨f, rfl, -⟩ := fragment_of_sweep hswept
        simp [projectedNames?, operation?, Expr.args, hget, hswept] at h
      | node o'' args'' c'' =>
        simp [projectedNames?, operation?, Expr.args, hget, hswept] at h

theorem clean_projection (hnames : ∀ name ∈ names (.node .projection args c), IsWord name)
    (h : fragment? (.node .projection (sweptArgs args) c) = some f) : Clean f.text.toList [] := by
  have hlist : ∀ items : List String, (∀ name ∈ items, IsWord name) →
      Clean (", ".intercalate items).toList [] := by
    intro items hitems
    have hwords : List.Forall₂ Clean (items.map String.toList) (items.map fun _ => []) := by
      induction items with
      | nil => exact .nil
      | cons name items ih =>
        rw [List.forall_mem_cons] at hitems
        exact .cons (clean_word hitems.1) (ih hitems.2)
    rw [String.toList_intercalate]
    simpa using Clean.intercalate (by decide) (by decide) hwords
  rw [fragment?] at h
  split at h
  · obtain ⟨items, hitems, rfl⟩ := Option.map_eq_some_iff.1 h
    refine hlist items fun name hname => hnames name ?_
    rw [names, projectedNames?_swept hitems]
    exact hname
  · cases h

theorem clean_not (hargs : ∀ a ∈ args, CleanSweep a)
    (h : fragment? (.node .not (sweptArgs args) c) = some f) :
    Clean f.text.toList (quotationsAll args) := by
  match args with
  | [a] =>
    obtain ⟨g, hg, rfl⟩ := Option.map_eq_some_iff.1 h
    rw [quotationsAll, quotationsAll, List.append_nil]
    exact clean_negation (clean_operand (hargs a List.mem_cons_self) hg)
  | [] | _ :: _ :: _ => cases h

theorem clean_binaryNode {op : BinaryOp} (hargs : ∀ a ∈ args, CleanSweep a)
    (h : fragment? (.node (.binary op) (sweptArgs args) c) = some f) :
    Clean f.text.toList (quotationsAll args) := by
  match args with
  | [l, r] =>
    obtain ⟨left, hl, h⟩ := Option.bind_eq_some_iff.1 h
    obtain ⟨right, hr, rfl⟩ := Option.map_eq_some_iff.1 h
    rw [quotationsAll, quotationsAll, quotationsAll, List.append_nil]
    exact clean_binary (clean_operand (hargs l (by simp)) hl) (clean_operand (hargs r (by simp)) hr) op
  | [] | [_] | _ :: _ :: _ :: _ => cases h

/-- **What a sweep leaves is spelled cleanly**, whatever the texts in the expression. -/
theorem clean_sweep (e : Expr) (hfragment : HasNoFragment e) (hword : HasWordNames e) :
    CleanSweep e := by
  induction e using Expr.induct with
  | value v =>
    intro w f hw hf
    rw [sweep] at hw
    cases hw
    exact clean_value (fun f hv => hfragment.self f (congrArg Expr.value hv)) hf
  | node o args c ih =>
    intro v f hv hf
    obtain ⟨g, rfl, hg⟩ := fragment_of_sweep hv
    cases hf
    obtain ⟨-, hfragments⟩ := everywhere_node.1 hfragment
    obtain ⟨hself, hwords⟩ := everywhere_node.1 hword
    have hargs : ∀ a ∈ args, CleanSweep a := fun a ha => ih a ha (hfragments a ha) (hwords a ha)
    cases o with
    | scalar t => exact clean_scalar hargs hg
    | table => exact clean_table hargs hfragments hself hg
    | column => exact clean_column hargs hfragments hself hg
    | projection => exact clean_projection hself hg
    | binary op => exact clean_binaryNode hargs hg
    | not => exact clean_not hargs hg
    | function name =>
      obtain ⟨fs, hfs, rfl⟩ := Option.map_eq_some_iff.1 hg
      have hcall := clean_call (hself name (by simp [names])) (clean_operands hargs hfs)
      rwa [← quotationsAll_eq] at hcall

/-! ## Compiled queries -/

/-- **Texts never escape their quotes.** Of an expression that holds no pieces of query text and
whose names are words, a compiled query is read to its end outside of a string, its strings hold
exactly the texts of the expression, and nothing outside of them begins a comment or ends the
statement. Texts stand in tables and columns only in nodes that are rewritten where a name is
looked for: where all names are raw values, the strings hold the texts outside of tables, columns
and projections. -/
theorem text_never_escapes (hfragment : HasNoFragment e) (hword : HasWordNames e) {limit : Nat}
    (h : compile (compiler limit) e = .ok sql) :
    ∃ outside, dissect sql.toList = some (outside, quotations e) ∧
      ¬ ['-', '-'] <:+: outside ∧ ¬ ['/', '*'] <:+: outside ∧ ';' ∉ outside ∧
      (HasRawNames e → quotations e = looseTexts e) := by
  obtain ⟨v, f, hv, hf, rfl⟩ := sweep_of_compile h
  obtain ⟨outside, hsafe, hdissect⟩ := (clean_sweep e hfragment hword v f hv hf).dissect
  obtain ⟨hminus, hslash, hend⟩ := hsafe.no_comment
  exact ⟨outside, hdissect, hminus, hslash, hend, quotations_eq_looseTexts⟩

/-- A call whose operand is a text with a quote and all that a query could trip over. -/
theorem text_never_escapes_call :
    ∃ sql outside, compile (compiler Settings.defaultLimit) (.node (.function "f")
        [.value (.text "it's -- /* ;"), Expr.scalar .int8 (.int (-1))] ∅) = .ok sql ∧
      dissect sql.toList = some (outside, ["it's -- /* ;"]) ∧ ¬ ['-', '-'] <:+: outside := by
  obtain ⟨e, he⟩ : ∃ e : Expr, e = .node (.function "f")
    [.value (.text "it's -- /* ;"), Expr.scalar .int8 (.int (-1))] ∅ := ⟨_, rfl⟩
  have hswept : ∃ f, (sweep rules e).expr = .value (.fragment f) := by
    rw [he]
    exact ⟨_, rfl⟩
  obtain ⟨f, hf⟩ := hswept
  have hcompile := compile_of_sweep (show 2 ≤ Settings.defaultLimit by decide) hf rfl
  have hfragment : HasNoFragment e := by
    rw [he]
    simp [HasNoFragment, Expr.scalar, make]
  have hword : HasWordNames e := by
    have hname : IsWord "f" := by
      intro c hc
      rw [List.mem_singleton.1 hc]
      decide
    rw [he]
    simp [HasWordNames, Expr.scalar, make, names, nameArgs, hname]
  obtain ⟨outside, hdissect, hminus, -⟩ := text_never_escapes hfragment hword hcompile
  have htexts : quotations e = ["it's -- /* ;"] := by
    rw [he]
    rfl
  rw [htexts] at hdissect
  rw [← he]
  exact ⟨f.text, outside, hcompile, hdissect, hminus⟩

/-- A column that is built with a node for its name is written by what becomes of the node, here
by a string, although no text stands outside of it. -/
theorem text_in_place_of_name :
    ∃ e sql, e = (Constructor.mk .column .boolean false).build
        [Expr.scalar .int32 (.int 1), Expr.scalar .string (.text "foo"), .value .null] ∧
      HasNoFragment e ∧ HasWordNames e ∧
      compile (compiler Settings.defaultLimit) e = .ok sql ∧
      ∀ outside, dissect sql.toList ≠ some (outside, looseTexts e) := by
  obtain ⟨e, he⟩ : ∃ e : Expr, e = (Constructor.mk .column .boolean false).build
    [Expr.scalar .int32 (.int 1), Expr.scalar .string (.text "foo"), .value .null] := ⟨_, rfl⟩
  have hswept : (sweep rules e).expr = .value (.fragment (.atom (Fragment.quote "foo"))) := by
    rw [he]
    rfl
  have hcompile := compile_of_sweep (show 2 ≤ Settings.defaultLimit by decide) hswept rfl
  have hfragment : HasNoFragment e := by
    rw [he]
    simp [HasNoFragment, Constructor.build, Constructor.arrange, Expr.scalar, make]
  have hword : HasWordNames e := by
    rw [he]
    simp [HasWordNames, Constructor.build, Constructor.arrange, Expr.scalar, make, names, nameArgs,
      asText?, asValue?, Value.asText?]
  refine ⟨e, _, he, hfragment, hword, hcompile, fun outside hdissect => ?_⟩
  have hquote := dissect_quote "foo" (show ([] : List Char).head? ≠ some '\'' from nofun)
  have htexts : looseTexts e = [] := by
    rw [he]
    rfl
  rw [List.append_nil, dissect] at hquote
  rw [htexts] at hdissect
  have hboth := hquote.symm.trans hdissect
  cases hboth

end Sql

end QueryExpr
