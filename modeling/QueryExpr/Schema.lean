import QueryExpr.ValueType

/-!
# Schemas and tables

A schema lists the columns of a table in order. No column is without a name and no two
share one; `Schema.ofColumns` refuses every other list and says what is wrong with the first
column that breaks the rule.

* `findDefect?_eq_none_iff`: the lists without a defect are those a schema can hold;
* `ofColumns_columns`: the columns of a schema make that schema again.
-/

namespace QueryExpr

/-- A named column, its type, and whether it may hold nulls. -/
structure Column where
  name : String
  type : ValueType
  nullable : Bool
  deriving DecidableEq, Repr

namespace Column

/-- The type and whether the column is nullable. -/
def describe (c : Column) : String :=
  c.type.name ++ (if c.nullable then "(nullable)" else "(non-nullable)")

/-- The column in a one-line summary: a question mark stands for nullable. -/
def summary (c : Column) : String := c.name ++ ": " ++ c.type.name ++ (if c.nullable then "?" else "")

end Column

/-- Why a list of columns is no schema. -/
inductive SchemaDefect where
  | emptyName
  | duplicateName (name : String)
  deriving DecidableEq, Repr

namespace SchemaDefect

def message : SchemaDefect → String
  | emptyName => "column name must not be empty"
  | duplicateName name => "duplicate column name '" ++ name ++ "'"

end SchemaDefect

/-- The columns of a table. -/
structure Schema where
  columns : List Column
  named : ∀ c ∈ columns, c.name ≠ ""
  distinct : (columns.map Column.name).Nodup
  deriving DecidableEq

namespace Schema

/-- The first defect in a list of columns, where the names in `seen` are taken. -/
def findDefectFrom? (seen : List String) : List Column → Option SchemaDefect
  | [] => none
  | c :: rest =>
    if c.name = "" then some .emptyName
    else if c.name ∈ seen then some (.duplicateName c.name)
    else findDefectFrom? (c.name :: seen) rest

/-- The first defect in a list of columns. -/
def findDefect? (columns : List Column) : Option SchemaDefect := findDefectFrom? [] columns

theorem findDefectFrom?_eq_none_iff {seen : List String} {columns : List Column} :
    findDefectFrom? seen columns = none ↔
      (∀ c ∈ columns, c.name ≠ "") ∧ (columns.map Column.name).Nodup ∧
        ∀ c ∈ columns, c.name ∉ seen := by
  induction columns generalizing seen with
  | nil => simp [findDefectFrom?]
  | cons c rest ih =>
    by_cases hempty : c.name = ""
    · simp [findDefectFrom?, hempty]
    · by_cases hseen : c.name ∈ seen
      · simp [findDefectFrom?, hempty, hseen]
      · simp only [findDefectFrom?, hempty, hseen, if_false, ih, List.mem_cons, List.map_cons,
          List.nodup_cons, List.mem_map, forall_eq_or_imp, not_or, not_false_iff, true_and,
          ne_eq, not_exists, not_and]
        constructor
        · rintro ⟨h1, h2, h3⟩
          exact ⟨h1, ⟨fun d hd => (h3 d hd).1, h2⟩, fun d hd => (h3 d hd).2⟩
        · rintro ⟨h1, ⟨h2, h3⟩, h4⟩
          exact ⟨h1, h3, fun d hd => ⟨h2 d hd, h4 d hd⟩⟩

theorem findDefect?_eq_none_iff {columns : List Column} :
    findDefect? columns = none ↔
      (∀ c ∈ columns, c.name ≠ "") ∧ (columns.map Column.name).Nodup := by
  simp [findDefect?, findDefectFrom?_eq_none_iff]

/-- The schema of a list of columns. -/
def ofColumns (columns : List Column) : Except SchemaDefect Schema :=
  match h : findDefect? columns with
  | none => .ok ⟨columns, (findDefect?_eq_none_iff.1 h).1, (findDefect?_eq_none_iff.1 h).2⟩
  | some defect => .error defect

theorem ofColumns_columns (s : Schema) : ofColumns s.columns = .ok s := by
  have h : findDefect? s.columns = none := findDefect?_eq_none_iff.2 ⟨s.named, s.distinct⟩
  unfold ofColumns
  split
  · rfl
  · next hd => rw [h] at hd; cases hd

/-- The column of a given name. -/
def get? (s : Schema) (name : String) : Option Column := s.columns.find? (·.name == name)

def contains (s : Schema) (name : String) : Bool := (s.get? name).isSome

def names (s : Schema) : List String := s.columns.map Column.name

/-- The requested names that the schema lacks, in the order of the request. -/
def missing (s : Schema) (requested : List String) : List String :=
  requested.filter fun name => !s.contains name

/-- Why columns cannot be selected. -/
inductive Refusal where
  | unknown (names : List String)
  | defect (defect : SchemaDefect)
  deriving DecidableEq, Repr

/-- The named columns in the order of the request. -/
def select (s : Schema) (requested : List String) : Except Refusal Schema :=
  if (s.missing requested).isEmpty then
    (ofColumns (requested.filterMap s.get?)).mapError .defect
  else .error (.unknown (s.missing requested))

/-- The columns on one line. -/
def summary (s : Schema) : String := ", ".intercalate (s.columns.map Column.summary)

/-- The columns on a line each, under a heading. -/
def text (s : Schema) : String :=
  "TableSchema\n" ++ String.join (s.columns.map fun c => "  " ++ c.name ++ ": " ++ c.describe ++ "\n")

end Schema

/-- A table: its name, its schema, and where it lives. -/
structure Table where
  name : String
  schema : Schema
  database? : Option String
  schemaName? : Option String
  deriving DecidableEq

namespace Table

/-- A name after the qualifiers that are given, joined by points. -/
def qualify (database? schemaName? : Option String) (name : String) : String :=
  ".".intercalate (database?.toList ++ schemaName?.toList ++ [name])

def qualifiedName (t : Table) : String := qualify t.database? t.schemaName? t.name

end Table

end QueryExpr
