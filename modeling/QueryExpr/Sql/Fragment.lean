import QueryExpr.Operator
import QueryExpr.Value

/-!
# Fragments of queries

How values and operators are spelled in a query, and how tightly an operator binds. An
operand that binds less tightly than the operator around it is put in parentheses; one that
binds equally tightly is, too, unless it stands on the side to which the operator
associates. Items of a select list cannot be operands.
-/

namespace QueryExpr

/-- The side on which an operand may bind as tightly as the operator. -/
inductive Associativity where
  | left
  | right
  | neither
  deriving DecidableEq, Repr

namespace BinaryOp

/-- The spelling of an operator in a query. -/
def symbol : BinaryOp → String
  | power => "**"
  | multiply => "*"
  | divide => "/"
  | floorDivide => "//"
  | modulus => "%"
  | add => "+"
  | subtract => "-"
  | equals => "="
  | notEquals => "<>"
  | greaterEqual => ">="
  | greater => ">"
  | lessEqual => "<="
  | less => "<"
  | identical => "IS NOT DISTINCT FROM"
  | and => "AND"
  | xor => "XOR"
  | or => "OR"

/-- How tightly an operator binds. -/
def precedence : BinaryOp → Nat
  | power => 50
  | multiply | divide | floorDivide | modulus => 40
  | add | subtract => 30
  | equals | notEquals | greaterEqual | greater | lessEqual | less | identical => 20
  | and => 10
  | xor => 8
  | or => 5

def associativity : BinaryOp → Associativity
  | power => .right
  | equals | notEquals | greaterEqual | greater | lessEqual | less | identical => .neither
  | _ => .left

end BinaryOp

namespace Fragment

/-- The precedence of the items of a select list. -/
def listPrecedence : Nat := 0

/-- The precedence of a negation. -/
def notPrecedence : Nat := 15

/-- The precedence of a minus sign: `-2 ** 2` is `-(2 ** 2)`, and `-2 * 2` is `(-2) * 2`. -/
def signPrecedence : Nat := 45

/-- A text between quotes, in which each quote is doubled. -/
def quote (s : String) : String :=
  "'" ++ String.ofList (s.toList.flatMap fun c => if c = '\'' then ['\'', '\''] else [c]) ++ "'"

/-- Whether a text begins with a minus sign. -/
def startsWithMinus (s : String) : Bool := s.toList.head? == some '-'

/-- A number; a negative one binds like a minus sign. -/
def number (text : String) : Fragment :=
  if startsWithMinus text then ⟨text, signPrecedence⟩ else .atom text

/-- The spelling of a value. Lists, schemas and numbers that are not finite have none. -/
def ofValue? : Value → Option Fragment
  | .fragment f => some f
  | .null => some (.atom "NULL")
  | .bool b => some (.atom (if b then "TRUE" else "FALSE"))
  | .int n => some (number (toString n.toInt))
  | .float x => if x.isFinite then some (number (FloatText.text x)) else none
  | .decimal d => some (number d.text)
  | .text s => some (.atom (quote s))
  | .date d => some (.atom ("DATE " ++ quote d.text))
  | .time t => some (.atom ("TIME " ++ quote t.text))
  | .timestamp t => some (.atom ("TIMESTAMP " ++ quote t.text))
  | .list _ | .schema _ => none

/-- The text of a fragment, in parentheses if need be. -/
def wrap (f : Fragment) (inParentheses : Bool) : String :=
  if inParentheses then "(" ++ f.text ++ ")" else f.text

/-- Whether the left operand of an operator needs parentheses. -/
def leftNeedsParentheses (op : BinaryOp) (f : Fragment) : Bool :=
  decide (f.precedence < op.precedence)
    || (f.precedence == op.precedence && op.associativity != .left)

/-- Whether the right operand of an operator needs parentheses. Two minus signs in a row
would begin a comment. -/
def rightNeedsParentheses (op : BinaryOp) (f : Fragment) : Bool :=
  decide (f.precedence < op.precedence)
    || (f.precedence == op.precedence && op.associativity != .right)
    || (op == .subtract && startsWithMinus f.text)

/-- An operator between its operands. -/
def binary (op : BinaryOp) (left right : Fragment) : Fragment :=
  ⟨left.wrap (leftNeedsParentheses op left) ++ " " ++ op.symbol ++ " "
    ++ right.wrap (rightNeedsParentheses op right), op.precedence⟩

/-- A negation. -/
def negation (operand : Fragment) : Fragment :=
  ⟨"NOT " ++ operand.wrap (decide (operand.precedence < notPrecedence)), notPrecedence⟩

/-- A call of a function. -/
def call (name : String) (args : List Fragment) : Fragment :=
  .atom (name ++ "(" ++ ", ".intercalate (args.map Fragment.text) ++ ")")

end Fragment

end QueryExpr
