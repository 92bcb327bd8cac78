import QueryExpr.Schema
import QueryExpr.Calendar
import QueryExpr.FloatText
import QueryExpr.Text.Quoted

/-!
# Values

The raw values that stand at the leaves of an expression: nulls, truth values, numbers,
texts, dates and times, lists of values, schemas, and fragments of query text.

Two values are the same (`Value.same`) when they are of one kind and equal as what they
are: decimals by value, and floating numbers as such numbers compare, so that a NaN is
not the same as itself.

* `closure_categories`: the categories of a value are closed.
-/

namespace QueryExpr

/-- A piece of query text, and how tightly its outermost operator binds. -/
structure Fragment where
  text : String
  precedence : Nat
  deriving DecidableEq, Repr

namespace Fragment

/-- The precedence of a fragment that no operator can split. -/
def atomic : Nat := 255

/-- A fragment that no operator can split. -/
def atom (text : String) : Fragment := ⟨text, atomic⟩

end Fragment

/-- A raw value. -/
inductive Value where
  | null
  | bool (b : Bool)
  | int (n : Int64)
  | float (x : Float)
  | decimal (d : Decimal)
  | text (s : String)
  | date (d : Date)
  | time (t : Time)
  | timestamp (t : Timestamp)
  | list (items : List Value)
  | schema (s : Schema)
  | fragment (f : Fragment)

namespace Value

def isNull : Value → Bool
  | null => true
  | _ => false

/-- The text of a text or a fragment. -/
def asText? : Value → Option String
  | text s => some s
  | fragment f => some f.text
  | _ => none

def asInt? : Value → Option Int64
  | int n => some n
  | _ => none

/-- The most specific category of the value; none for what no operator takes. -/
def kind : Value → Categories
  | null => .ofList [.value, .scalar]
  | bool _ => .ofList [.scalar, .boolean]
  | int _ => .ofList [.scalar, .integer]
  | float _ => .ofList [.scalar, .floating]
  | decimal _ => .ofList [.scalar, .decimal]
  | text _ => .ofList [.scalar, .string]
  | date _ => .ofList [.scalar, .date]
  | time _ => .ofList [.scalar, .time]
  | timestamp _ => .ofList [.scalar, .timestamp]
  | list _ | schema _ | fragment _ => ∅

/-- The categories of a value as an operand. -/
def categories (v : Value) : Categories := v.kind.closure

theorem closure_categories (v : Value) : v.categories.closure = v.categories := by
  cases v <;> simp only [categories, kind] <;> decide

/-! ## Text -/

def boolText (b : Bool) : String := if b then "true" else "false"

mutual

/-- The plain text of a value; texts stand as they are. -/
def display : Value → String
  | null => "NULL"
  | bool b => boolText b
  | int n => toString n.toInt
  | float x => FloatText.text x
  | decimal d => d.text
  | text s => s
  | date d => d.text
  | time t => t.text
  | timestamp t => t.text
  | list items => "[" ++ ", ".intercalate (displays items) ++ "]"
  | schema s => s.summary
  | fragment f => f.text

def displays : List Value → List String
  | [] => []
  | v :: rest => v.display :: displays rest

end

mutual

/-- The text of a value inside an expression: texts are quoted and schemas marked. -/
def repr : Value → String
  | text s => Text.quoted s
  | list items => "[" ++ ", ".intercalate (reprs items) ++ "]"
  | schema s => "schema(" ++ s.summary ++ ")"
  | v => v.display

def reprs : List Value → List String
  | [] => []
  | v :: rest => v.repr :: reprs rest

end

/-! ## Sameness -/

mutual

/-- Whether two values are of one kind and equal, where `sameFloat` compares numbers. -/
def sameBy (sameFloat : Float → Float → Bool) : Value → Value → Bool
  | null, null => true
  | bool a, bool b => a == b
  | int a, int b => a == b
  | float a, float b => sameFloat a b
  | decimal a, decimal b => a.same b
  | text a, text b => a == b
  | date a, date b => a == b
  | time a, time b => a == b
  | timestamp a, timestamp b => a == b
  | list as, list bs => allSameBy sameFloat as bs
  | schema a, schema b => a == b
  | fragment a, fragment b => a == b
  | _, _ => false

def allSameBy (sameFloat : Float → Float → Bool) : List Value → List Value → Bool
  | [], [] => true
  | a :: as, b :: bs => sameBy sameFloat a b && allSameBy sameFloat as bs
  | _, _ => false

end

/-- Whether two values are equal; a NaN equals nothing. -/
def same (a b : Value) : Bool := sameBy (· == ·) a b

/-- Whether two numbers are equal or both NaN. -/
def alikeFloat (a b : Float) : Bool := a == b || (a.isNaN && b.isNaN)

/-- Whether two values are equal, where a NaN equals a NaN. -/
def alike (a b : Value) : Bool := sameBy alikeFloat a b

end Value

end QueryExpr
