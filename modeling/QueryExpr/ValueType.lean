import QueryExpr.Category

/-!
# Value types

The fourteen types a column or a scalar can have, and the categories each gives a value.
A row identifier is an integer that names a pseudo column.
-/

namespace QueryExpr

/-- The type of a column or of a typed scalar. -/
inductive ValueType where
  | bool
  | int8
  | int16
  | int32
  | int64
  | float16
  | float32
  | float64
  | decimal
  | date
  | time
  | timestamp
  | rowid
  | string
  deriving DecidableEq, Repr

namespace ValueType

/-- Every type; a type's place here is its number in the binary form of a schema. -/
def all : List ValueType :=
  [bool, int8, int16, int32, int64, float16, float32, float64, decimal, date, time, timestamp,
    rowid, string]

def name : ValueType → String
  | bool => "bool"
  | int8 => "int8"
  | int16 => "int16"
  | int32 => "int32"
  | int64 => "int64"
  | float16 => "float16"
  | float32 => "float32"
  | float64 => "float64"
  | decimal => "decimal"
  | date => "date"
  | time => "time"
  | timestamp => "timestamp"
  | rowid => "rowid"
  | string => "string"

/-- The name with a capital, as registration errors write it. -/
def capitalName : ValueType → String
  | bool => "Bool"
  | int8 => "Int8"
  | int16 => "Int16"
  | int32 => "Int32"
  | int64 => "Int64"
  | float16 => "Float16"
  | float32 => "Float32"
  | float64 => "Float64"
  | decimal => "Decimal"
  | date => "Date"
  | time => "Time"
  | timestamp => "Timestamp"
  | rowid => "Rowid"
  | string => "String"

/-- The type of a given name; case counts. -/
def ofName? (s : String) : Option ValueType := all.find? (·.name == s)

theorem ofName?_name (t : ValueType) : ofName? t.name = some t := by cases t <;> decide

/-- The place of a type in `all`. -/
def index : ValueType → Nat
  | bool => 0
  | int8 => 1
  | int16 => 2
  | int32 => 3
  | int64 => 4
  | float16 => 5
  | float32 => 6
  | float64 => 7
  | decimal => 8
  | date => 9
  | time => 10
  | timestamp => 11
  | rowid => 12
  | string => 13

theorem getElem?_index (t : ValueType) : all[t.index]? = some t := by cases t <;> rfl

/-- The kinds of value a type has, whatever their shape. -/
def kinds : ValueType → Categories
  | bool => .ofList [.boolean]
  | int8 | int16 | int32 | int64 => .ofList [.numeric, .integer]
  | float16 | float32 | float64 => .ofList [.numeric, .floating]
  | decimal => .ofList [.numeric, .decimal]
  | date => .ofList [.temporal, .date]
  | time => .ofList [.temporal, .time]
  | timestamp => .ofList [.temporal, .timestamp]
  | rowid => .ofList [.numeric, .integer, .pseudoColumn]
  | string => .ofList [.string]

/-- All the categories of a value of this type and the given shape. -/
def categories (t : ValueType) (shape : Shape) : Categories :=
  (t.kinds ∪ {shape.category}).closure

end ValueType

end QueryExpr
