import Mathlib.Data.List.Basic
import QueryExpr.CommandLine.Options

/-!
# What settings say

Options are read off the settings of an argument list by the values of every option, by how often it
is given, and by the arguments that are no options. So the order of the settings does not matter
where no option is given twice. The settings that get the schema from a file are those that are
there, without the ones that get it elsewhere or put it somewhere; they give the same options but
for these.

* `ofSettings?_eq_some_iff`: the options that settings give, part by part.
* `SameReading.of_perm`: settings in another order.
* `gives_reloading`: **the options of a run that gets its schema from a file.**
-/

namespace QueryExpr

namespace Setting

theorem valueOf?_eq_some_iff {flag : Flag} {setting : Setting} {text : String} :
    setting.valueOf? flag = some text ↔ setting = valued flag text := by
  cases setting <;> simp [valueOf?]

theorem length_valuesOf_le (flag : Flag) (settings : List Setting) :
    (valuesOf flag settings).length ≤ count flag settings := by
  rw [valuesOf, List.length_filterMap_eq_countP]
  refine List.countP_mono_left fun setting _ hvalue => ?_
  obtain ⟨text, htext⟩ := Option.isSome_iff_exists.mp hvalue
  rw [valueOf?_eq_some_iff.mp htext]
  exact beq_self_eq_true _

end Setting

namespace Options

open Setting

/-! ## Settings in another order -/

/-- Settings of which the same can be read. -/
structure SameReading (settings settings' : List Setting) : Prop where
  values : ∀ flag, valuesOf flag settings' = valuesOf flag settings
  counts : ∀ flag, count flag settings' = count flag settings
  plains : plains settings' = plains settings

variable {settings settings' : List Setting} {o : Options}

theorem eq_of_perm_of_length_le_one {α : Type} {xs ys : List α} (h : xs.Perm ys)
    (hlen : ys.length ≤ 1) : xs = ys := by
  match ys with
  | [] => exact h.eq_nil
  | [y] => exact List.perm_singleton.mp h
  | _ :: _ :: _ => simp at hlen

/-- **The order of settings does not matter** where no option is given twice, and no more than one
argument is no option. -/
theorem SameReading.of_perm (h : settings'.Perm settings)
    (hcount : ∀ flag, count flag settings ≤ 1)
    (hplains : (Setting.plains settings).length ≤ 1) : SameReading settings settings' where
  values flag := eq_of_perm_of_length_le_one (h.filterMap _)
    (Nat.le_trans (length_valuesOf_le flag settings) (hcount flag))
  counts _ := h.countP_eq _
  plains := eq_of_perm_of_length_le_one (h.filterMap _) hplains

/-! ## The options, part by part -/

/-- Settings that give options. -/
structure Gives (settings : List Setting) (o : Options) : Prop where
  coherent : isCoherent settings = true
  expression : plains settings = [o.expression]
  schemaFile : readOptional readPath? none (valuesOf .schemaFile settings).head? =
    some o.schemaFile?
  writeSchema : readOptional readPath? none (valuesOf .writeSchema settings).head? =
    some o.writeSchema?
  backend : readOptional Backend.ofName? .sql (valuesOf .backend settings).head? = some o.backend
  limit : readOptional readLimit? defaultLimit (valuesOf .maxIterations settings).head? =
    some o.limit
  table : (valuesOf .table settings).head?.getD defaultTable = o.table
  columns : valuesOf .column settings = o.columns
  trace : decide (0 < count .trace settings) = o.trace
  explain : decide (0 < count .explain settings) = o.explain
  debug : decide (0 < count .debug settings) = o.debug

theorem ofSettings?_eq_some_iff : ofSettings? settings = some o ↔ Gives settings o := by
  constructor
  · intro h
    rw [ofSettings?] at h
    split at h
    · cases h
    · next hcoherent =>
      split at h
      · next expression hplains =>
        simp only [Option.bind_eq_bind, Option.bind_eq_some_iff, Option.pure_def] at h
        obtain ⟨schemaFile?, hschema, writeSchema?, hwrite, backend, hbackend, limit, hlimit, h⟩ := h
        cases h
        exact ⟨by simpa using hcoherent, hplains, hschema, hwrite, hbackend, hlimit, rfl, rfl, rfl,
          rfl, rfl⟩
      · cases h
  · rintro ⟨hcoherent, hplains, hschema, hwrite, hbackend, hlimit, htable, hcolumns, htrace, hexplain,
      hdebug⟩
    simp only [ofSettings?, hcoherent, hplains, hschema, hwrite, hbackend, hlimit, htable, hcolumns,
      htrace, hexplain, hdebug]
    rfl

theorem ofArguments?_eq_some_iff {args : List String} :
    ofArguments? args = some o ↔ ∃ settings, read? args = some settings ∧ Gives settings o := by
  simp only [ofArguments?, Option.bind_eq_bind, Option.bind_eq_some_iff, ofSettings?_eq_some_iff]

theorem Gives.of_sameReading (h : SameReading settings settings') (hgives : Gives settings o) :
    Gives settings' o where
  coherent := by simpa only [isCoherent, h.counts] using hgives.coherent
  expression := h.plains.trans hgives.expression
  schemaFile := by rw [h.values, hgives.schemaFile]
  writeSchema := by rw [h.values, hgives.writeSchema]
  backend := by rw [h.values, hgives.backend]
  limit := by rw [h.values, hgives.limit]
  table := by rw [h.values, hgives.table]
  columns := (h.values .column).trans hgives.columns
  trace := by rw [h.counts, hgives.trace]
  explain := by rw [h.counts, hgives.explain]
  debug := by rw [h.counts, hgives.debug]

/-! ## The schema from a file -/

theorem isCoherent_iff : isCoherent settings = true ↔
    (∀ flag, flag ≠ .column → count flag settings ≤ 1) ∧
      (count .column settings = 0 ∨ count .schemaFile settings = 0) := by
  have hall : ∀ flag : Flag, flag ∈ Flag.all := by
    intro flag
    cases flag <;> decide
  have honce : (Flag.all.all fun flag => flag == .column || count flag settings ≤ 1) = true ↔
      ∀ flag, flag ≠ .column → count flag settings ≤ 1 := by
    simp only [List.all_eq_true, hall, forall_const, Bool.or_eq_true, beq_iff_eq, decide_eq_true_iff]
    exact forall_congr' fun flag => Decidable.or_iff_not_imp_left
  rw [isCoherent, Bool.and_eq_true, honce, Bool.or_eq_true, beq_iff_eq, beq_iff_eq]

/-- Whether an option says where the schema comes from or where it goes. -/
def isAboutSchema : Flag → Bool
  | .column | .schemaFile | .writeSchema => true
  | _ => false

/-- The settings that say nothing of where the schema comes from or goes. -/
def withoutSchema (settings : List Setting) : List Setting :=
  settings.filter fun setting => !setting.flag?.any isAboutSchema

/-- The same settings with the schema from a file. -/
def reloading (path : String) (settings : List Setting) : List Setting :=
  .valued .schemaFile path :: withoutSchema settings

/-- The same options with the schema from a file. -/
def reloaded (path : String) (o : Options) : Options :=
  { o with columns := [], schemaFile? := some path, writeSchema? := none }

variable {path : String}

theorem valuesOf_withoutSchema (flag : Flag) (settings : List Setting) :
    valuesOf flag (withoutSchema settings) =
      if isAboutSchema flag then [] else valuesOf flag settings := by
  have hleft : ∀ setting : Setting,
      (if !setting.flag?.any isAboutSchema then setting.valueOf? flag else none) =
        if isAboutSchema flag then none else setting.valueOf? flag := by
    intro setting
    cases hvalue : setting.valueOf? flag with
    | none => simp
    | some text =>
      rw [valueOf?_eq_some_iff.mp hvalue]
      cases hflag : isAboutSchema flag <;> simp [flag?, hflag]
  rw [valuesOf, withoutSchema, List.filterMap_filter]
  simp only [hleft]
  split
  · exact List.filterMap_eq_nil_iff.mpr fun _ _ => rfl
  · rfl

theorem count_withoutSchema (flag : Flag) (settings : List Setting) :
    count flag (withoutSchema settings) = if isAboutSchema flag then 0 else count flag settings := by
  rw [count, count, withoutSchema, List.countP_filter]
  split
  · next hflag =>
    refine List.countP_eq_zero.mpr fun setting _ => ?_
    by_cases hsame : setting.flag? = some flag <;> simp [hsame, hflag]
  · next hflag =>
    refine List.countP_congr fun setting _ => ?_
    by_cases hsame : setting.flag? = some flag <;> simp [hsame, hflag]

theorem plains_withoutSchema (settings : List Setting) :
    plains (withoutSchema settings) = plains settings := by
  rw [plains, withoutSchema, List.filterMap_filter]
  refine List.filterMap_congr fun setting _ => ?_
  cases setting <;> simp [flag?]

theorem valuesOf_reloading (flag : Flag) (path : String) (settings : List Setting) :
    valuesOf flag (reloading path settings) =
      if flag = .schemaFile then [path]
      else if isAboutSchema flag then [] else valuesOf flag settings := by
  rw [reloading, valuesOf, List.filterMap_cons, ← valuesOf, valuesOf_withoutSchema]
  by_cases hflag : flag = .schemaFile
  · subst hflag
    rfl
  · simp [valueOf?, hflag, Ne.symm hflag]

theorem count_reloading (flag : Flag) (path : String) (settings : List Setting) :
    count flag (reloading path settings) =
      if flag = .schemaFile then 1
      else if isAboutSchema flag then 0 else count flag settings := by
  rw [reloading, count, List.countP_cons, ← count, count_withoutSchema]
  by_cases hflag : flag = .schemaFile
  · subst hflag
    rfl
  · simp [hflag, Ne.symm hflag, flag?]

theorem plains_reloading (path : String) (settings : List Setting) :
    plains (reloading path settings) = plains settings :=
  plains_withoutSchema settings

theorem count_reloading_le (hcoherent : isCoherent settings = true) (flag : Flag) :
    count flag (reloading path settings) ≤ 1 := by
  have honce := (isCoherent_iff.mp hcoherent).1
  rw [count_reloading]
  split
  · exact Nat.le_refl 1
  · split
    · exact Nat.zero_le 1
    · next hflag =>
      refine honce flag ?_
      rintro rfl
      exact hflag rfl

/-- **The options of a run that gets its schema from a file** are those of the run before it, apart
from where the schema comes from and where it goes. -/
theorem gives_reloading (hgives : Gives settings o) (hpath : path ≠ "") :
    Gives (reloading path settings) (reloaded path o) where
  coherent := by
    refine isCoherent_iff.mpr ⟨fun flag _ => count_reloading_le hgives.coherent flag, .inl ?_⟩
    rw [count_reloading]
    rfl
  expression := (plains_reloading path settings).trans hgives.expression
  schemaFile := by
    rw [valuesOf_reloading]
    exact if_neg hpath
  writeSchema := by
    rw [valuesOf_reloading]
    rfl
  backend := by
    rw [valuesOf_reloading]
    exact hgives.backend
  limit := by
    rw [valuesOf_reloading]
    exact hgives.limit
  table := by
    rw [valuesOf_reloading]
    exact hgives.table
  columns := by
    rw [valuesOf_reloading]
    rfl
  trace := by
    rw [count_reloading]
    exact hgives.trace
  explain := by
    rw [count_reloading]
    exact hgives.explain
  debug := by
    rw [count_reloading]
    exact hgives.debug

theorem path_ne_empty (hgives : Gives settings o) (hwrite : o.writeSchema? = some path) :
    path ≠ "" := by
  have hread := hgives.writeSchema
  rw [hwrite] at hread
  cases hvalue : (valuesOf .writeSchema settings).head? with
  | none =>
    rw [hvalue] at hread
    cases hread
  | some value =>
    rw [hvalue, readOptional, readPath?] at hread
    split at hread
    · cases hread
    · next hvalue =>
      cases hread
      exact hvalue

end Options

end QueryExpr
