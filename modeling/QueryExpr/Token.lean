import QueryExpr.Text.Quoted

/-!
# Tokens

The words and signs of the expression language. A keyword is recognised in any case: what
counts is how the word is written in capitals, and a few letters beyond ASCII have capitals
within it (`capitals`).

* `Keyword.ofWord?_spelling`: a keyword is read back from its spelling.
-/

namespace QueryExpr

/-- The reserved words. -/
inductive Keyword where
  | and
  | or
  | xor
  | not
  | nullValue
  | trueValue
  | falseValue
  | is
  | distinct
  | fromWord
  deriving DecidableEq, Repr

/-- The capitals of a character, as far as they are ASCII; other characters stay. -/
def capitals (c : Char) : List Char :=
  if c = 'ı' then ['I']
  else if c = 'ſ' then ['S']
  else if c = 'ß' then ['S', 'S']
  else if c = 'ﬀ' then ['F', 'F']
  else if c = 'ﬁ' then ['F', 'I']
  else if c = 'ﬂ' then ['F', 'L']
  else if c = 'ﬃ' then ['F', 'F', 'I']
  else if c = 'ﬄ' then ['F', 'F', 'L']
  else if c = 'ﬅ' ∨ c = 'ﬆ' then ['S', 'T']
  else [c.toUpper]

namespace Keyword

def all : List Keyword :=
  [and, or, xor, not, nullValue, trueValue, falseValue, is, distinct, fromWord]

/-- The keyword in capitals. -/
def spelling : Keyword → String
  | and => "AND"
  | or => "OR"
  | xor => "XOR"
  | not => "NOT"
  | nullValue => "NULL"
  | trueValue => "TRUE"
  | falseValue => "FALSE"
  | is => "IS"
  | distinct => "DISTINCT"
  | fromWord => "FROM"

/-- The name of the keyword in messages. -/
def name : Keyword → String
  | and => "And"
  | or => "Or"
  | xor => "Xor"
  | not => "Not"
  | nullValue => "Null"
  | trueValue => "True"
  | falseValue => "False"
  | is => "Is"
  | distinct => "Distinct"
  | fromWord => "From"

/-- The keyword that a word writes in some case. -/
def ofWord? (word : List Char) : Option Keyword :=
  all.find? fun k => k.spelling.toList == word.flatMap capitals

theorem ofWord?_spelling (k : Keyword) : ofWord? k.spelling.toList = some k := by
  cases k <;> decide

end Keyword

/-- The signs of the language. -/
inductive Sign where
  | plus
  | minus
  | star
  | doubleStar
  | slash
  | doubleSlash
  | percent
  | equal
  | notEqual
  | less
  | greater
  | lessEqual
  | greaterEqual
  | leftParen
  | rightParen
  deriving DecidableEq, Repr

namespace Sign

/-- The name of the sign in messages. -/
def name : Sign → String
  | plus => "Plus"
  | minus => "Minus"
  | star => "Star"
  | doubleStar => "DoubleStar"
  | slash => "Slash"
  | doubleSlash => "DoubleSlash"
  | percent => "Percent"
  | equal => "Equal"
  | notEqual => "NotEqual"
  | less => "Less"
  | greater => "Greater"
  | lessEqual => "LessEqual"
  | greaterEqual => "GreaterEqual"
  | leftParen => "LeftParen"
  | rightParen => "RightParen"

end Sign

/-- A token of the language. -/
inductive Token where
  | identifier (name : String)
  /-- A number as it is written. -/
  | number (digits : String)
  /-- A text without its quotes. -/
  | text (s : String)
  | keyword (k : Keyword)
  | sign (s : Sign)
  deriving DecidableEq, Repr

namespace Token

/-- The token in messages. -/
def describe : Token → String
  | identifier name => "Identifier(" ++ Text.quoted name ++ ")"
  | number digits => "Number(" ++ Text.quoted digits ++ ")"
  | text s => "String(" ++ Text.quoted s ++ ")"
  | keyword k => k.name
  | sign s => s.name

/-- The name of the end of the tokens. -/
def endName : String := "Eof"

/-- The next token, or the end, in messages. -/
def describeNext : Option Token → String
  | some t => t.describe
  | none => endName

end Token

/-- Why a text is no expression. -/
inductive SyntaxError where
  | unexpectedCharacter (c : Char) (position : Nat)
  | unterminatedText (position : Nat)
  | unexpectedToken (found : Option Token)
  | trailingToken (found : Token)
  | missingToken (expected : Token) (found : Option Token)
  | columnWithoutSource (name : String)
  | integerOutOfRange (text : String)
  | invalidNumber (text : String)
  deriving DecidableEq, Repr

namespace SyntaxError

def message : SyntaxError → String
  | unexpectedCharacter c position =>
    "unexpected character '" ++ c.toString ++ "' at position " ++ toString position
  | unterminatedText position => "unterminated string starting at position " ++ toString position
  | unexpectedToken found => "unexpected token " ++ Token.describeNext found
  | trailingToken found => "unexpected token " ++ found.describe ++ " after expression"
  | missingToken expected found =>
    "expected " ++ expected.describe ++ ", found " ++ Token.describeNext found
  | columnWithoutSource name => "column '" ++ name ++ "' used without a source table"
  | integerOutOfRange text => "integer '" ++ text ++ "' out of range"
  | invalidNumber text => "invalid number '" ++ text ++ "'"

end SyntaxError

end QueryExpr
