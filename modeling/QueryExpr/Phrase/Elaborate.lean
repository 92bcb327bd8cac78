import QueryExpr.Expr.Build
import QueryExpr.Folding.Number
import QueryExpr.Phrase.Read
import QueryExpr.Registry.Dispatch
import QueryExpr.Token.Scan

/-!
# The expression that a phrase stands for

Names become columns of a source table and operators are applied through a registry. The
parts of a phrase are taken in the order in which they are written, so of two things that
are wrong the one that is met first is reported.
-/

namespace QueryExpr

namespace Phrase

/-- Whether a number is written with a point or a power of ten. -/
def isFloating (digits : String) : Bool := digits.toList.any fun c => c == '.' || c == 'e' || c == 'E'

/-- The scalar that a number writes: a floating number if it has a point or a power of ten,
and an integer of 64 bits otherwise. -/
def ofNumber (negative : Bool) (digits : String) : Except Error Expr :=
  let written := if negative then "-" ++ digits else digits
  if isFloating digits then
    match FloatText.read? written with
    | some x => .ok (.float64 x)
    | none => .error (.syntaxError (.invalidNumber written))
  else
    let magnitude : Int := Decimal.digitsValue digits.toList
    match Integer.ofInt? (if negative then -magnitude else magnitude) with
    | some n => .ok (.int64 n)
    | none => .error (.syntaxError (.integerOutOfRange written))

/-- The column of a source table, if there is a source at all. -/
def ofColumn (source? : Option Expr) (name : String) : Except Error Expr :=
  match source? with
  | some source => source.column name
  | none => .error (.syntaxError (.columnWithoutSource name))

/-- The expression that a phrase stands for. -/
def elaborate (r : Registry) (source? : Option Expr) : Phrase → Except Error Expr
  | number negative digits => ofNumber negative digits
  | text s => .ok (.string s)
  | truth b => .ok (.bool b)
  | null => .ok (.value .null)
  | column name => ofColumn source? name
  | not operand => do
    let operand ← operand.elaborate r source?
    r.applyUnary .not operand
  | negate operand => do
    let operand ← operand.elaborate r source?
    r.applyBinary (.binary .subtract) (.int64 0) operand
  | binary op left right => do
    let left ← left.elaborate r source?
    let right ← right.elaborate r source?
    r.applyBinary (.binary op) left right
  | fault error => .error (.syntaxError error)
  | faultAfter phrase error => do
    let _ ← phrase.elaborate r source?
    .error (.syntaxError error)

end Phrase

namespace Expr

/-- The expression that a text writes, where names are columns of the source. -/
def parse (r : Registry) (source? : Option Expr) (s : String) : Except Error Expr :=
  match Token.tokenize s with
  | .error e => .error (.syntaxError e)
  | .ok tokens => (readPhrase tokens).elaborate r source?

end Expr

end QueryExpr
