import QueryExpr.Proofs.Expr.Leaves
import QueryExpr.Proofs.Schema.Selection

/-!
# Chains of projections

Columns are requested of a table, then of the projection that the request has made, and so on. At
each stage the schema at hand is the last request, name by name and in its order, and each of its
columns is still the one of the table. What comes next depends on nothing else: which requests are
granted, and which single columns there are.

* `IsStage.project`: one request.
* `IsStage.projectAll`: a chain of granted requests.
* `projections_exact`: **a chain keeps the schema exact**, and so what each further call gives.
-/

namespace QueryExpr

namespace Expr

variable {t : Table} {e : Expr} {current names : List String} {requests : List (List String)}

/-- What a chain of requests for columns makes of an expression. -/
def projectAll (e : Expr) (requests : List (List String)) : Except Error Expr :=
  requests.foldlM project e

/-- The names at hand after a chain of requests: those of the last one, or all of the table. -/
def namesAfter (t : Table) (requests : List (List String)) : List String :=
  requests.getLast?.getD t.schema.names

/-- Some columns of a table are at hand: their names are `current`, in this order. -/
structure IsStage (t : Table) (current : List String) (e : Expr) : Prop where
  source : e.sourceName? = some t.name
  schema : ∃ s, e.schema? = some s ∧ s.names = current ∧ ∀ c ∈ s.columns, c ∈ t.schema.columns

/-- **How a request ends** where some columns of a table are at hand: unknown names are all
reported, then the first repeated one, and otherwise exactly the requested columns are at hand. -/
structure Answers (t : Table) (current names : List String) (answer : Except Error Expr) : Prop where
  unknown : names.filter (· ∉ current) ≠ [] →
    answer = .error (.unknownColumns t.name (names.filter (· ∉ current)))
  repeated : (∀ n ∈ names, n ∈ current) → ¬ names.Nodup →
    ∃ before name after, names = before ++ name :: after ∧ before.Nodup ∧ name ∈ before ∧
      answer = .error (.invalidSchema (.duplicateName name))
  granted : (∀ n ∈ names, n ∈ current) → names.Nodup → ∃ p, answer = .ok p ∧ IsStage t names p

/-! ## One request -/

theorem isStage_table (t : Table) : IsStage t t.schema.names (table t) where
  source := by simp [table, make, sourceName?, asText?, asValue?, Value.asText?]
  schema := ⟨t.schema, schema?_table t, rfl, fun _ hc => hc⟩

/-- A request is answered by the schema at hand, in the name of the table. -/
theorem project_eq {s : Schema} (hsource : e.sourceName? = some t.name)
    (hschema : e.schema? = some s) (names : List String) :
    e.project names = match s.select names with
      | .ok narrowed =>
        .ok (make .projection [e, value (.list (names.map .text)), value (.schema narrowed)] {.table})
      | .error refusal => .error (.ofRefusal t.name refusal) := by
  have hrequired : e.requireSchema = .ok s := by
    rw [requireSchema, hschema]
  rw [project, hrequired, hsource]
  cases hselected : s.select names with
  | ok narrowed => simp [bind, Except.bind, pure, Except.pure, hselected]
  | error refusal => simp [bind, Except.bind, hselected, throw, throwThe, MonadExceptOf.throw]

/-- **One request.** -/
theorem IsStage.project (h : IsStage t current e) (names : List String) :
    Answers t current names (e.project names) := by
  obtain ⟨s, hs, rfl, hcolumns⟩ := h.schema
  have hproject := project_eq h.source hs names
  constructor
  · intro hunknown
    rw [← Schema.missing_eq] at hunknown ⊢
    rw [hproject, Schema.select_of_missing hunknown]
    rfl
  · intro hknown hrepeated
    obtain ⟨before, name, after, hnames, hdistinct, hmem, hselect⟩ :=
      Schema.select_of_repeated hknown hrepeated
    rw [hproject, hselect]
    exact ⟨before, name, after, hnames, hdistinct, hmem, rfl⟩
  · intro hknown hdistinct
    obtain ⟨narrowed, hselect, hnames, hkept⟩ := Schema.select_of_distinct hknown hdistinct
    rw [hproject, hselect]
    have hsource : (make .projection
        [e, value (.list (names.map .text)), value (.schema narrowed)] {.table}).sourceName? =
        some t.name := by
      rw [make, sourceName?]
      exact h.source
    exact ⟨_, rfl, hsource, narrowed, rfl, hnames, fun c hc => hcolumns c (hkept c hc)⟩

/-- A request that was granted asked for distinct names at hand, which are those at hand now. -/
theorem IsStage.of_project {p : Expr} (h : IsStage t current e) (hp : e.project names = .ok p) :
    (∀ n ∈ names, n ∈ current) ∧ names.Nodup ∧ IsStage t names p := by
  have hanswers := h.project names
  rw [hp] at hanswers
  have hknown : ∀ n ∈ names, n ∈ current := by
    by_contra hunknown
    have hnonempty : names.filter (· ∉ current) ≠ [] := by
      rw [ne_eq, List.filter_eq_nil_iff]
      simpa using hunknown
    cases hanswers.unknown hnonempty
  have hdistinct : names.Nodup := by
    by_contra hrepeated
    obtain ⟨_, _, _, _, _, _, herror⟩ := hanswers.repeated hknown hrepeated
    cases herror
  obtain ⟨p', hp', hstage⟩ := hanswers.granted hknown hdistinct
  cases hp'
  exact ⟨hknown, hdistinct, hstage⟩

/-- **A single column** is there exactly if its name is at hand, and it is a column of the table. -/
theorem IsStage.column (h : IsStage t current e) (name : String) :
    (name ∈ current → ∃ c ∈ t.schema.columns, c.name = name ∧
      e.column name = .ok (.node .column [e, value (.text name), value .null]
        (c.type.categories .column))) ∧
    (name ∉ current → e.column name = .error (.unknownColumns t.name [name])) := by
  obtain ⟨s, hs, rfl, hcolumns⟩ := h.schema
  have hrequired : e.requireSchema = .ok s := by
    rw [requireSchema, hs]
  constructor
  · intro hname
    obtain ⟨c, hc, rfl⟩ := List.mem_map.mp hname
    have hget : s.get? c.name = some c := Schema.get?_eq_some_iff.mpr ⟨hc, rfl⟩
    refine ⟨c, hcolumns c hc, rfl, ?_⟩
    have hclosed : (c.type.categories .column).closure = c.type.categories .column :=
      Categories.closure_closure _
    rw [Expr.column, hrequired]
    simp [bind, Except.bind, pure, Except.pure, hget, make, hclosed]
  · intro hname
    have hget : s.get? name = none := Schema.get?_eq_none_iff.mpr hname
    rw [Expr.column, hrequired]
    simp [bind, Except.bind, hget, h.source, throw, throwThe, MonadExceptOf.throw]

/-! ## Chains -/

theorem projectAll_cons (e : Expr) (names : List String) (requests : List (List String)) :
    e.projectAll (names :: requests) = e.project names >>= fun p => p.projectAll requests :=
  List.foldlM_cons

/-- **After a chain of granted requests** the names of the last one are at hand. -/
theorem IsStage.projectAll {e' : Expr} (h : IsStage t current e)
    (hall : e.projectAll requests = .ok e') : IsStage t (requests.getLast?.getD current) e' := by
  induction requests generalizing e current with
  | nil =>
    cases hall
    exact h
  | cons names rest ih =>
    rw [projectAll_cons] at hall
    obtain ⟨p, hp, hrest⟩ := Error.bind_ok hall
    obtain ⟨-, -, hstage⟩ := h.of_project hp
    rw [List.getLast?_cons]
    exact ih hstage hrest

/-- A chain is granted exactly if each request asks for distinct names of the one before. -/
theorem IsStage.projectAll_ok_iff (h : IsStage t current e) :
    (∃ e', e.projectAll requests = .ok e') ↔
      List.IsChain (fun before names => ∀ n ∈ names, n ∈ before) (current :: requests) ∧
        ∀ names ∈ requests, names.Nodup := by
  induction requests generalizing e current with
  | nil =>
    simp [Expr.projectAll, pure, Except.pure]
  | cons names rest ih =>
    rw [projectAll_cons, List.isChain_cons_cons, List.forall_mem_cons]
    constructor
    · rintro ⟨e', hall⟩
      obtain ⟨p, hp, hrest⟩ := Error.bind_ok hall
      obtain ⟨hknown, hdistinct, hstage⟩ := h.of_project hp
      obtain ⟨hchain, hall⟩ := (ih hstage).mp ⟨e', hrest⟩
      exact ⟨⟨hknown, hchain⟩, hdistinct, hall⟩
    · rintro ⟨⟨hknown, hchain⟩, hdistinct, hall⟩
      obtain ⟨p, hp, hstage⟩ := (h.project names).granted hknown hdistinct
      rw [hp]
      exact (ih hstage).mpr ⟨hchain, hall⟩

/-- **Chains of projections keep schemas exact.** A chain of requests on a table is granted exactly
if each request asks for distinct names of the one before, the first one for names of the table.
Then the columns at hand are those of the last request, in its order and as the table has them, and
the source is the table. What a further request or a single column gives depends on these names. -/
theorem projections_exact (t : Table) (requests : List (List String)) :
    ((∃ e, (table t).projectAll requests = .ok e) ↔
      List.IsChain (fun before names => ∀ n ∈ names, n ∈ before) (t.schema.names :: requests) ∧
        ∀ names ∈ requests, names.Nodup) ∧
    ∀ e, (table t).projectAll requests = .ok e →
      IsStage t (namesAfter t requests) e ∧
      (∀ names, Answers t (namesAfter t requests) names (e.project names)) ∧
      ∀ name,
        (name ∈ namesAfter t requests → ∃ c ∈ t.schema.columns, c.name = name ∧
          e.column name = .ok (.node .column [e, value (.text name), value .null]
            (c.type.categories .column))) ∧
        (name ∉ namesAfter t requests → e.column name = .error (.unknownColumns t.name [name])) := by
  have htable := isStage_table t
  refine ⟨htable.projectAll_ok_iff, ?_⟩
  intro e hall
  have hstage : IsStage t (namesAfter t requests) e := htable.projectAll hall
  exact ⟨hstage, hstage.project, hstage.column⟩

/-- Of the columns `id`, `amount` and `note` of a table the last two are requested in the other
order. Then `amount` is a floating column and `id` is gone, and a name requested twice is refused. -/
theorem projections_exact_narrowed :
    ∃ (t : Table) (e : Expr), t.name = "orders" ∧ t.schema.names = ["id", "amount", "note"] ∧
      (table t).projectAll [["note", "amount", "id"], ["note", "amount"]] = .ok e ∧
      (∃ s, e.schema? = some s ∧ s.names = ["note", "amount"]) ∧
      e.project ["id", "amount", "gone"] = .error (.unknownColumns "orders" ["id", "gone"]) ∧
      e.project ["note", "note"] = .error (.invalidSchema (.duplicateName "note")) ∧
      e.column "amount" = .ok (.node .column [e, value (.text "amount"), value .null]
        (ValueType.float64.categories .column)) := by
  obtain ⟨t, ht⟩ : ∃ t : Table, t = ⟨"orders", ⟨[⟨"id", .int64, false⟩, ⟨"amount", .float64, true⟩,
    ⟨"note", .string, true⟩], by decide, by decide⟩, none, none⟩ := ⟨_, rfl⟩
  have hname : t.name = "orders" := by rw [ht]
  have hnames : t.schema.names = ["id", "amount", "note"] := by rw [ht]; rfl
  have hexact := projections_exact t [["note", "amount", "id"], ["note", "amount"]]
  obtain ⟨e, he⟩ := hexact.1.mpr (by rw [hnames]; decide)
  obtain ⟨hstage, hproject, hcolumn⟩ := hexact.2 e he
  have hcurrent : namesAfter t [["note", "amount", "id"], ["note", "amount"]] = ["note", "amount"] :=
    rfl
  rw [hcurrent] at hstage hproject hcolumn
  refine ⟨t, e, hname, hnames, he, ?_, ?_, ?_, ?_⟩
  · obtain ⟨s, hs, hlast, -⟩ := hstage.schema
    exact ⟨s, hs, hlast⟩
  · rw [← hname]
    exact (hproject ["id", "amount", "gone"]).unknown (by decide)
  · obtain ⟨before, name, after, hsplit, -, -, hrefused⟩ :=
      (hproject ["note", "note"]).repeated (by decide) (by decide)
    have hsame : name ∈ ["note", "note"] := by rw [hsplit]; simp
    have hnote : name = "note" := by simpa using hsame
    rw [hrefused, hnote]
  · obtain ⟨c, hc, hamount, hfound⟩ := (hcolumn "amount").1 (by decide)
    have hfloat : c.type = .float64 := by
      rw [ht] at hc
      rcases List.mem_cons.mp hc with rfl | hc
      · exact absurd hamount (by decide)
      · rcases List.mem_cons.mp hc with rfl | hc
        · rfl
        · rw [List.mem_singleton.mp hc] at hamount
          exact absurd hamount (by decide)
    rw [hfound, hfloat]

end Expr

end QueryExpr
