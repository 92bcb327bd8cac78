import Mathlib.Data.String.Basic
import QueryExpr.CommandLine
import QueryExpr.Proofs.Schema.Codec

/-!
# Columns in words

A column is written as its name, its type and, if nulls are allowed, the word null, with colons
between them. Only a column whose name has no colon in it is read back, and only from what is
written for it. Every other specification is refused for its shape or for its type, and a list of
them for the first that is refused, or for the first column that may not follow those before it.

* `splitToList_eq_iff`: the pieces of a text.
* `readColumn_eq_ok_iff`, `readColumn_eq_error_iff`: specifications that are read, and others.
* `describedSchema_eq_ok_iff`, `describedSchema_eq_error_iff`: **the lists of specifications that
  describe a schema**, and what is wrong with the others.
-/

namespace QueryExpr

/-! ## The pieces of a text -/

theorem not_mem_of_mem_splitOn {sep : Char} {cs piece : List Char} (h : piece ∈ cs.splitOn sep) :
    sep ∉ piece := by
  induction cs generalizing piece with
  | nil =>
    rw [List.splitOn_nil, List.mem_singleton] at h
    rw [h]
    exact List.not_mem_nil
  | cons c cs ih =>
    rw [List.splitOn_cons_eq_if_modifyHead] at h
    obtain ⟨first, others, hcs⟩ := List.exists_cons_of_ne_nil (List.splitOn_ne_nil sep cs)
    split at h
    · rcases List.mem_cons.mp h with rfl | hrest
      · exact List.not_mem_nil
      · exact ih hrest
    · next hc =>
      rw [hcs] at h ih
      -- the character goes to the first piece, and it is no separator
      rcases List.mem_cons.mp h with rfl | hrest
      · rw [List.mem_cons, not_or]
        exact ⟨fun hsep => hc (by rw [hsep, beq_self_eq_true]), ih List.mem_cons_self⟩
      · exact ih (List.mem_cons_of_mem _ hrest)

/-- **The pieces of a text** are free of the separator and make up the text with it between them. -/
theorem splitToList_eq_iff {s : String} {sep : Char} {pieces : List String} :
    s.splitToList (· == sep) = pieces ↔ pieces ≠ [] ∧ (∀ piece ∈ pieces, sep ∉ piece.toList) ∧
      s.toList = [sep].intercalate (pieces.map String.toList) := by
  rw [String.splitToList_of_valid, ← List.splitOn_eq_splitOnP]
  constructor
  · rintro rfl
    refine ⟨by simp [List.splitOn_ne_nil], fun piece hpiece => ?_, ?_⟩
    · obtain ⟨cs, hcs, rfl⟩ := List.mem_map.mp hpiece
      rw [String.toList_ofList]
      exact not_mem_of_mem_splitOn hcs
    · have hid : String.toList ∘ String.ofList = id := funext fun _ => String.toList_ofList
      rw [List.map_map, hid, List.map_id, List.intercalate_splitOn]
  · rintro ⟨hne, hfree, hs⟩
    have hpieces : ∀ cs ∈ pieces.map String.toList, sep ∉ cs := by
      simpa only [List.forall_mem_map] using hfree
    have hid : String.ofList ∘ String.toList = id := funext fun _ => String.ofList_toList
    rw [hs, List.splitOn_intercalate sep hpieces (by simpa using hne), List.map_map, hid, List.map_id]

/-! ## One specification -/

/-- What is written for a column with a given name and type. -/
def specify (name type : String) (nullable : Bool) : String :=
  name ++ ":" ++ type ++ if nullable then ":null" else ""

/-- What is written for a column. -/
def Column.specification (c : Column) : String := specify c.name c.type.name c.nullable

theorem ValueType.ofName?_eq_some_iff {s : String} {t : ValueType} :
    ofName? s = some t ↔ t.name = s := by
  constructor
  · intro h
    rw [ofName?] at h
    simpa using List.find?_some h
  · rintro rfl
    exact ofName?_name t

theorem ValueType.ofName?_eq_none_iff {s : String} :
    ofName? s = none ↔ ∀ t : ValueType, t.name ≠ s := by
  rw [Option.eq_none_iff_forall_ne_some]
  exact forall_congr' fun t => not_congr ofName?_eq_some_iff

theorem ValueType.colon_not_mem_name (t : ValueType) : ':' ∉ t.name.toList := by
  cases t <;> decide

namespace CommandLine

/-- A specification that says a name, a type and whether nulls are allowed. -/
structure Specifies (spec name type : String) (nullable : Bool) : Prop where
  spelled : spec = specify name type nullable
  name_free : ':' ∉ name.toList
  type_free : ':' ∉ type.toList

variable {spec name type : String} {nullable : Bool} {c : Column} {failure : Failure}

theorem Specifies.colon_mem (h : Specifies spec name type nullable) : ':' ∈ spec.toList := by
  rw [h.spelled]
  simp [specify]

theorem splitToList_eq_pieces_iff :
    spec.splitToList (· == ':') = [name, type] ++ (if nullable then ["null"] else []) ↔
      Specifies spec name type nullable := by
  have hfields : Specifies spec name type nullable ↔
      ':' ∉ name.toList ∧ ':' ∉ type.toList ∧ spec = specify name type nullable :=
    ⟨fun h => ⟨h.name_free, h.type_free, h.spelled⟩, fun h => ⟨h.2.2, h.1, h.2.1⟩⟩
  rw [hfields, splitToList_eq_iff, ← String.toList_inj]
  cases nullable <;> simp [specify, List.intercalate, and_assoc]

theorem readColumn_of_specifies (h : Specifies spec name type nullable) :
    readColumn spec =
      match ValueType.ofName? type with
      | some type => .ok ⟨name, type, nullable⟩
      | none => .error (.ofType name type missingType) := by
  have hpieces := splitToList_eq_pieces_iff.mpr h
  cases nullable <;> simp only [readColumn, hpieces] <;> rfl

theorem readColumn_of_shapeless (h : ∀ name type nullable, ¬ Specifies spec name type nullable) :
    readColumn spec = .error (.ofShape spec) := by
  rw [readColumn]
  split
  · next name type hsplit =>
    have hspec : Specifies spec name type false := splitToList_eq_pieces_iff.mp hsplit
    exact absurd hspec (h name type false)
  · next name type hsplit =>
    have hspec : Specifies spec name type true := splitToList_eq_pieces_iff.mp hsplit
    exact absurd hspec (h name type true)
  · rfl

/-- A specification that is not read, and why. -/
inductive BadSpecification (spec : String) : Failure → Prop
  /-- It is no name and type, alone or with the word null after them. -/
  | shape (h : ∀ name type nullable, ¬ Specifies spec name type nullable) :
    BadSpecification spec (.ofShape spec)
  /-- Its type does not exist. -/
  | type {name type : String} {nullable : Bool} (h : Specifies spec name type nullable)
      (hnone : ∀ t : ValueType, t.name ≠ type) : BadSpecification spec (.ofType name type missingType)

theorem specifies_specification (h : ':' ∉ c.name.toList) :
    Specifies c.specification c.name c.type.name c.nullable :=
  ⟨rfl, h, c.type.colon_not_mem_name⟩

/-- **A specification is read as the column that it is written for**, if its name has no colon. -/
theorem readColumn_eq_ok_iff :
    readColumn spec = .ok c ↔ ':' ∉ c.name.toList ∧ spec = c.specification := by
  constructor
  · intro h
    by_cases hspec : ∃ name type nullable, Specifies spec name type nullable
    · obtain ⟨name, type, nullable, hspec⟩ := hspec
      rw [readColumn_of_specifies hspec] at h
      split at h
      · next t ht =>
        cases h
        refine ⟨hspec.name_free, hspec.spelled.trans ?_⟩
        rw [Column.specification, ValueType.ofName?_eq_some_iff.mp ht]
      · cases h
    · simp only [not_exists] at hspec
      rw [readColumn_of_shapeless hspec] at h
      cases h
  · rintro ⟨hname, rfl⟩
    rw [readColumn_of_specifies (specifies_specification hname), ValueType.ofName?_name]

/-- **A specification that is not read is refused for its shape or for its type.** -/
theorem readColumn_eq_error_iff : readColumn spec = .error failure ↔ BadSpecification spec failure := by
  constructor
  · intro h
    by_cases hspec : ∃ name type nullable, Specifies spec name type nullable
    · obtain ⟨name, type, nullable, hspec⟩ := hspec
      rw [readColumn_of_specifies hspec] at h
      split at h
      · cases h
      · next ht =>
        cases h
        exact .type hspec (ValueType.ofName?_eq_none_iff.mp ht)
    · simp only [not_exists] at hspec
      rw [readColumn_of_shapeless hspec] at h
      cases h
      exact .shape hspec
  · rintro (hshape | ⟨hspec, hnone⟩)
    · exact readColumn_of_shapeless hshape
    · rw [readColumn_of_specifies hspec, ValueType.ofName?_eq_none_iff.mpr hnone]

/-! ## All the columns -/

section MapM

variable {α β ε : Type} {f : α → Except ε β} {x : α} {xs : List α}

theorem mapM_cons_eq_ok_iff {ys : List β} :
    (x :: xs).mapM f = .ok ys ↔
      ∃ y rest, f x = .ok y ∧ xs.mapM f = .ok rest ∧ ys = y :: rest := by
  rw [List.mapM_cons]
  constructor
  · intro h
    cases hx : f x with
    | error err =>
      rw [hx] at h
      cases h
    | ok y =>
      cases hxs : xs.mapM f with
      | error err =>
        rw [hx, hxs] at h
        cases h
      | ok rest =>
        rw [hx, hxs] at h
        cases h
        exact ⟨y, rest, rfl, rfl, rfl⟩
  · rintro ⟨y, rest, hx, hxs, rfl⟩
    rw [hx, hxs]
    rfl

theorem mapM_cons_eq_error_iff {err : ε} :
    (x :: xs).mapM f = .error err ↔
      f x = .error err ∨ ∃ y, f x = .ok y ∧ xs.mapM f = .error err := by
  rw [List.mapM_cons]
  cases hx : f x with
  | error first =>
    constructor
    · rintro ⟨⟩
      exact .inl rfl
    · rintro (⟨⟨⟩⟩ | ⟨_, ⟨⟩, -⟩)
      rfl
  | ok y =>
    constructor
    · intro h
      cases hxs : xs.mapM f with
      | error later =>
        rw [hxs] at h
        cases h
        exact .inr ⟨y, rfl, rfl⟩
      | ok rest =>
        rw [hxs] at h
        cases h
    · rintro (⟨⟨⟩⟩ | ⟨_, -, hxs⟩)
      rw [hxs]
      rfl

end MapM

/-- What is written for columns that can be read back. -/
structure Specified (specs : List String) (columns : List Column) : Prop where
  spelled : specs = columns.map Column.specification
  free : ∀ c ∈ columns, ':' ∉ c.name.toList

/-- Specifications one of which is not read, after those of some columns. -/
inductive Unread (specs : List String) (failure : Failure) : Prop
  | intro (before : List Column) (spec : String) (after : List String)
    (hspecs : specs = before.map Column.specification ++ spec :: after)
    (hbefore : ∀ c ∈ before, ':' ∉ c.name.toList) (h : BadSpecification spec failure)

variable {specs : List String} {columns : List Column}

theorem mapM_readColumn_eq_ok_iff : specs.mapM readColumn = .ok columns ↔ Specified specs columns := by
  induction specs generalizing columns with
  | nil =>
    constructor
    · rintro ⟨⟩
      exact ⟨rfl, nofun⟩
    · rintro ⟨hspelled, -⟩
      rw [List.map_eq_nil_iff.mp hspelled.symm]
      rfl
  | cons spec specs ih =>
    simp only [mapM_cons_eq_ok_iff, readColumn_eq_ok_iff, ih]
    constructor
    · rintro ⟨c, rest, ⟨hc, rfl⟩, ⟨rfl, hrest⟩, rfl⟩
      exact ⟨rfl, List.forall_mem_cons.mpr ⟨hc, hrest⟩⟩
    · rintro ⟨hspecs, hfree⟩
      cases columns with
      | nil => cases hspecs
      | cons c rest =>
        rw [List.map_cons, List.cons.injEq] at hspecs
        have hboth := List.forall_mem_cons.mp hfree
        exact ⟨c, rest, ⟨hboth.1, hspecs.1⟩, ⟨hspecs.2, hboth.2⟩, rfl⟩

theorem unread_cons : Unread (spec :: specs) failure ↔
    BadSpecification spec failure ∨ ∃ c, readColumn spec = .ok c ∧ Unread specs failure := by
  simp only [readColumn_eq_ok_iff]
  constructor
  · rintro ⟨before, bad, after, hspecs, hbefore, h⟩
    -- either the first specification is bad, or it stands before the one that is
    cases before with
    | nil =>
      cases hspecs
      exact .inl h
    | cons c before =>
      cases hspecs
      have hboth := List.forall_mem_cons.mp hbefore
      exact .inr ⟨c, ⟨hboth.1, rfl⟩, before, bad, after, rfl, hboth.2, h⟩
  · rintro (h | ⟨c, ⟨hc, rfl⟩, before, bad, after, rfl, hbefore, h⟩)
    · exact ⟨[], spec, specs, rfl, nofun, h⟩
    · exact ⟨c :: before, bad, after, rfl, List.forall_mem_cons.mpr ⟨hc, hbefore⟩, h⟩

theorem mapM_readColumn_eq_error_iff :
    specs.mapM readColumn = .error failure ↔ Unread specs failure := by
  induction specs with
  | nil =>
    constructor
    · rintro ⟨⟩
    · rintro ⟨before, bad, after, hspecs, -, -⟩
      simp at hspecs
  | cons spec specs ih =>
    rw [mapM_cons_eq_error_iff, unread_cons, readColumn_eq_error_iff, ih]

/-- Specifications that describe no schema: one of them is not read, or their columns are not
sound. -/
inductive Undescribed (specs : List String) : Failure → Prop
  | unread {failure : Failure} (h : Unread specs failure) : Undescribed specs failure
  | defect {columns : List Column} {d : SchemaDefect} (h : Specified specs columns) (hdefect : Schema.Defective columns d) :
    Undescribed specs (.ofError (.invalidSchema d))

theorem describedSchema_of_specified (h : Specified specs columns) :
    describedSchema specs =
      (Schema.ofColumns columns).mapError fun d => .ofError (.invalidSchema d) := by
  rw [describedSchema, mapM_readColumn_eq_ok_iff.mpr h]
  rfl

theorem describedSchema_of_unread (h : Unread specs failure) :
    describedSchema specs = .error failure := by
  rw [describedSchema, mapM_readColumn_eq_error_iff.mpr h]
  rfl

/-- **Specifications describe a schema exactly if they are written for its columns**, none of which
has a colon in its name. -/
theorem describedSchema_eq_ok_iff {s : Schema} :
    describedSchema specs = .ok s ↔ Specified specs s.columns := by
  constructor
  · intro h
    cases hread : specs.mapM readColumn with
    | error failure =>
      rw [describedSchema_of_unread (mapM_readColumn_eq_error_iff.mp hread)] at h
      cases h
    | ok columns =>
      have hspecified := mapM_readColumn_eq_ok_iff.mp hread
      rw [describedSchema_of_specified hspecified] at h
      cases hsound : Schema.ofColumns columns with
      | error defect =>
        rw [hsound] at h
        cases h
      | ok s' =>
        rw [hsound] at h
        cases h
        rwa [Schema.ofColumns_eq_ok_iff.mp hsound]
  · intro h
    rw [describedSchema_of_specified h, Schema.ofColumns_columns]
    rfl

/-- **Specifications that describe no schema** are refused for the first that is not read, and
otherwise for the first column that may not follow those before it. -/
theorem describedSchema_eq_error_iff :
    describedSchema specs = .error failure ↔ Undescribed specs failure := by
  constructor
  · intro h
    cases hread : specs.mapM readColumn with
    | error failure =>
      have hunread := mapM_readColumn_eq_error_iff.mp hread
      rw [describedSchema_of_unread hunread] at h
      cases h
      exact .unread hunread
    | ok columns =>
      have hspecified := mapM_readColumn_eq_ok_iff.mp hread
      rw [describedSchema_of_specified hspecified] at h
      cases hsound : Schema.ofColumns columns with
      | error defect =>
        rw [hsound] at h
        cases h
        exact .defect hspecified (Schema.ofColumns_eq_error_iff.mp hsound)
      | ok s =>
        rw [hsound] at h
        cases h
  · rintro (hunread | ⟨hspecified, hdefect⟩)
    · exact describedSchema_of_unread hunread
    · rw [describedSchema_of_specified hspecified, Schema.ofColumns_eq_error_iff.mpr hdefect]
      rfl

end CommandLine

end QueryExpr
