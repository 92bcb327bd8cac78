import Mathlib.Data.List.Nodup
import QueryExpr.Proofs.Schema.Codec

/-!
# Selecting columns

No two columns of a schema share a name, so a name leads to one column at most, and the columns that
some names lead to have these names in the same order. A selection fails for one of two reasons only:
a name that the schema lacks, or a name that is requested twice. An empty name is always lacking.

* `get?_eq_some_iff`: a name leads to the column that has it.
* `missing_eq`: the names that a schema lacks.
* `select_of_missing`, `select_of_repeated`, `select_of_distinct`: **how a selection ends.**
-/

namespace QueryExpr

namespace Schema

variable {s : Schema} {c : Column} {name : String} {names : List String}

/-! ## Names -/

/-- **A name leads to the one column that has it.** -/
theorem get?_eq_some_iff : s.get? name = some c ↔ c ∈ s.columns ∧ c.name = name := by
  have hfound : ∀ {d : Column}, s.get? name = some d → d ∈ s.columns ∧ d.name = name := by
    intro d h
    unfold get? at h
    exact ⟨List.mem_of_find?_eq_some h, by simpa using List.find?_some h⟩
  constructor
  · exact hfound
  · rintro ⟨hc, hname⟩
    have hsome : (s.get? name).isSome = true := by
      rw [get?, List.find?_isSome]
      exact ⟨c, hc, beq_iff_eq.mpr hname⟩
    obtain ⟨d, hd⟩ := Option.isSome_iff_exists.mp hsome
    obtain ⟨hmem, hsame⟩ := hfound hd
    have heq : d = c := List.inj_on_of_nodup_map s.distinct hmem hc (hsame.trans hname.symm)
    rw [hd, heq]

theorem get?_eq_none_iff : s.get? name = none ↔ name ∉ s.names := by
  rw [get?, List.find?_eq_none, names, List.mem_map]
  simp

theorem contains_iff : s.contains name = true ↔ name ∈ s.names := by
  rw [contains, Option.isSome_iff_ne_none, ne_eq, get?_eq_none_iff, not_not]

/-- The names that a schema lacks are those that none of its columns has. -/
theorem missing_eq (s : Schema) (names : List String) :
    s.missing names = names.filter (· ∉ s.names) := by
  apply List.filter_congr
  intro name hname
  by_cases h : name ∈ s.names
  · simp [contains_iff.mpr h, h]
  · have hnot : s.contains name = false := by
      rw [← Bool.not_eq_true, contains_iff]
      exact h
    simp [hnot, h]

theorem missing_eq_nil_iff : s.missing names = [] ↔ ∀ n ∈ names, n ∈ s.names := by
  rw [missing_eq, List.filter_eq_nil_iff]
  simp

/-! ## Selection -/

/-- The columns that names lead to are columns of the schema. -/
theorem mem_of_mem_selected (h : c ∈ names.filterMap s.get?) : c ∈ s.columns := by
  obtain ⟨name, -, hc⟩ := List.mem_filterMap.mp h
  exact (get?_eq_some_iff.mp hc).1

/-- The columns that known names lead to have these names, in the order of the request. -/
theorem map_name_selected (h : ∀ n ∈ names, n ∈ s.names) :
    (names.filterMap s.get?).map Column.name = names := by
  induction names with
  | nil => rfl
  | cons name rest ih =>
    obtain ⟨hname, hrest⟩ := List.forall_mem_cons.mp h
    obtain ⟨c, hc, hsame⟩ := List.mem_map.mp hname
    have hget : s.get? name = some c := get?_eq_some_iff.mpr ⟨hc, hsame⟩
    rw [List.filterMap_cons_some hget, List.map_cons, hsame, ih hrest]

theorem select_of_missing (h : s.missing names ≠ []) :
    s.select names = .error (.unknown (s.missing names)) := by
  rw [select, if_neg]
  simpa using h

theorem select_of_known (h : ∀ n ∈ names, n ∈ s.names) :
    s.select names = (ofColumns (names.filterMap s.get?)).mapError .defect := by
  rw [select, if_pos]
  simpa using missing_eq_nil_iff.mpr h

/-- **Distinct known names select their columns.** -/
theorem select_of_distinct (h : ∀ n ∈ names, n ∈ s.names) (hdistinct : names.Nodup) :
    ∃ narrowed, s.select names = .ok narrowed ∧ narrowed.names = names ∧
      ∀ c ∈ narrowed.columns, c ∈ s.columns := by
  have hnamed : ∀ c ∈ names.filterMap s.get?, c.name ≠ "" :=
    fun c hc => s.named c (mem_of_mem_selected hc)
  have hnodup : ((names.filterMap s.get?).map Column.name).Nodup := by
    rw [map_name_selected h]
    exact hdistinct
  refine ⟨⟨names.filterMap s.get?, hnamed, hnodup⟩, ?_, map_name_selected h,
    fun c hc => mem_of_mem_selected hc⟩
  have hmade : ofColumns (names.filterMap s.get?) = .ok ⟨_, hnamed, hnodup⟩ :=
    ofColumns_eq_ok_iff.mpr rfl
  rw [select_of_known h, hmade]
  rfl

/-- **Of known names that are not distinct, the first one that repeats is refused.** -/
theorem select_of_repeated (h : ∀ n ∈ names, n ∈ s.names) (hrepeated : ¬ names.Nodup) :
    ∃ before name after, names = before ++ name :: after ∧ before.Nodup ∧ name ∈ before ∧
      s.select names = .error (.defect (.duplicateName name)) := by
  have hnames := map_name_selected h
  rw [select_of_known h]
  cases hmade : ofColumns (names.filterMap s.get?) with
  | ok narrowed =>
    -- a schema has no repeated names
    have hcolumns := ofColumns_eq_ok_iff.mp hmade
    have hdistinct := narrowed.distinct
    rw [hcolumns, hnames] at hdistinct
    exact absurd hdistinct hrepeated
  | error defect =>
    have hselected : ∀ c ∈ names.filterMap s.get?, c.name ≠ "" :=
      fun c hc => s.named c (mem_of_mem_selected hc)
    have hdefective := ofColumns_eq_error_iff.mp hmade
    generalize names.filterMap s.get? = columns at hnames hselected hdefective
    cases hdefective with
    | empty before after hsound hempty =>
      exact absurd hempty (hselected _ (by simp))
    | @duplicate before after c hsound hc hmem =>
      refine ⟨before.map Column.name, c.name, after.map Column.name, ?_, ?_, hmem, rfl⟩
      · rw [← hnames, List.map_append, List.map_cons]
      · exact (findDefect?_eq_none_iff.mp hsound).2

end Schema

end QueryExpr
