import QueryExpr.Error

/-!
# Making expressions

Typed scalars, tables, and what is taken from a table: single columns and projections. A
projection holds the schema of its columns, so that columns can be taken from it in turn.
A column that a table does not have is refused when it is asked for.

A column can be given another name, which is written to a place among its arguments that the
columns of a table have.

* `schema?_table`: a table is read with the schema it was made of.
-/

namespace QueryExpr

namespace Expr

/-! ## Scalars -/

/-- A scalar of a given type. -/
def scalar (type : ValueType) (v : Value) : Expr :=
  make (.scalar type) [value v] (type.categories .scalar)

def bool (b : Bool) : Expr := scalar .bool (.bool b)

def int64 (n : Int64) : Expr := scalar .int64 (.int n)

def float64 (x : Float) : Expr := scalar .float64 (.float x)

def string (s : String) : Expr := scalar .string (.text s)

/-! ## Tables -/

/-- A text that may be absent. -/
def optionalText : Option String → Expr
  | some s => value (.text s)
  | none => value .null

/-- A table: its name, its schema, its database and the name of its schema there. -/
def table (t : Table) : Expr :=
  make .table
    [value (.text t.name), value (.schema t.schema), optionalText t.database?,
      optionalText t.schemaName?]
    {.table}

/-- The schema that an argument holds. -/
def asSchema? : Expr → Option Schema
  | value (.schema s) => some s
  | _ => none

/-- The schema of a table or projection. -/
def schema? (e : Expr) : Option Schema :=
  match e.operation? with
  | some .table => e.args[1]?.bind asSchema?
  | some .projection => e.args[2]?.bind asSchema?
  | _ => none

theorem schema?_table (t : Table) : (table t).schema? = some t.schema := rfl

/-- The text that an argument holds. -/
def asText? (e : Expr) : Option String := e.asValue?.bind Value.asText?

/-- The name of the table that a table, projection or column is taken from. -/
def sourceName? : Expr → Option String
  | node .table (name :: _) _ => name.asText?
  | node .projection (source :: _) _ => source.sourceName?
  | node .column (source :: _) _ => source.sourceName?
  | _ => none

/-- The name of a column. -/
def columnName? (e : Expr) : Option String :=
  match e.operation? with
  | some .column => e.args[1]?.bind asText?
  | _ => none

/-- The name under which a column is shown, if it has another one. -/
def alias? (e : Expr) : Option String :=
  match e.operation? with
  | some .column => e.args[2]?.bind asText?
  | _ => none

/-- The names of the columns of a projection. -/
def projectedNames? (e : Expr) : Option (List String) :=
  match e.operation?, e.args[1]? with
  | some .projection, some (value (.list names)) => some (names.filterMap Value.asText?)
  | _, _ => none

/-! ## Columns -/

/-- The schema of a table or projection, or the error for anything else. -/
def requireSchema (e : Expr) : Except Error Schema :=
  match e.schema? with
  | some s => .ok s
  | none => .error (.notTable e.categories)

/-- The column of a given name. -/
def column (e : Expr) (name : String) : Except Error Expr := do
  let schema ← e.requireSchema
  match schema.get? name with
  | some c =>
    return make .column [e, value (.text name), value .null] (c.type.categories .column)
  | none => throw (.unknownColumns (e.sourceName?.getD "") [name])

/-- The columns of the given names, in that order. All missing names are reported at once. -/
def project (e : Expr) (names : List String) : Except Error Expr := do
  let schema ← e.requireSchema
  match schema.select names with
  | .ok narrowed =>
    return make .projection [e, value (.list (names.map .text)), value (.schema narrowed)] {.table}
  | .error refusal => throw (.ofRefusal (e.sourceName?.getD "") refusal)

/-- The arguments with another one in a place that is expected to be there. -/
def writeArg (args : List Expr) (place : Nat) (arg : Expr) : Except Error (List Expr) :=
  if place < args.length then .ok (args.set place arg)
  else .error (.outOfBounds args.length place)

/-- The place among the arguments of a column where its other name stands. -/
def aliasPlace : Nat := 2

/-- The same column shown under another name. Its arguments are not counted first. -/
def withAlias (e : Expr) (name : String) : Except Error Expr :=
  match e.operation? with
  | some .column => do
    let args ← writeArg e.args aliasPlace (value (.text name))
    return e.withArgs args
  | _ => .error (.notColumn e.categories)

end Expr

end QueryExpr
