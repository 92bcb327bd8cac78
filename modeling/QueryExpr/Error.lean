import QueryExpr.Registry.Constructor
import QueryExpr.Schema.Bytes
import QueryExpr.Token

/-!
# Errors

Everything that can go wrong, by its cause, and the one place where each cause is put
into words.

* `bind_ok`: what succeeds in two steps succeeds in each;
* `bind_error`: what fails in two steps fails in one of them.
-/

namespace QueryExpr

/-- Why a constructor cannot be bound to an operator. -/
inductive RegistrationFault where
  /-- No node can carry the category. -/
  | impossibleCategory
  /-- The results do not suit the family of the operator. -/
  | wrongResult (family : Family) (result : ResultRule)
  /-- The operation has another number of operands. -/
  | wrongArity (operator : Operator)
  /-- The operation belongs to another family. -/
  | foreignOperation (operation : Operation)
  /-- The operator is never chosen by its right operand. -/
  | notReversible
  /-- Another constructor is bound to the category. -/
  | alreadyBound (operation : Operation)
  /-- A receiver could carry this category and an equally specific one. -/
  | ambiguous (rival : Categories)
  deriving DecidableEq, Repr

namespace RegistrationFault

def message : RegistrationFault → String
  | impossibleCategory => "category can never be carried by a node"
  | wrongResult family result => family.name ++ " operator cannot produce [" ++ result.text ++ "]"
  | wrongArity operator => operator.word ++ " takes " ++ toString operator.arity ++ " operand(s)"
  | foreignOperation operation =>
    "constructor " ++ operation.label ++ " belongs to another operator family"
  | notReversible => "operator has no reflected form"
  | alreadyBound operation => "already bound to " ++ operation.describe
  | ambiguous rival => "ambiguous with registration on [" ++ rival.text ++ "]"

end RegistrationFault

/-- The ways in which work on expressions can fail. -/
inductive Error where
  /-- Columns that a table does not have. -/
  | unknownColumns (table : String) (names : List String)
  | invalidSchema (defect : SchemaDefect)
  /-- A constructor that cannot be bound to the operator of the given word. -/
  | registration (word : String) (category : Categories) (fault : RegistrationFault)
  /-- An operator that does not take such operands. -/
  | unsupportedOperator (operator : Operator) (operands : List Categories)
  /-- A column or projection of what is no table. -/
  | notTable (operand : Categories)
  /-- A new name for what is no column. -/
  | notColumn (operand : Categories)
  /-- A write to a place of a list that is too short for it. The program stops here: no caller is
  given the error. -/
  | outOfBounds (length place : Nat)
  /-- A rewrite that still changed the tree in its last pass. -/
  | nonTerminating (passes : Nat) (last : Expr)
  /-- A node that no rule rewrites although its arguments are values. -/
  | unresolved (operation : String) (arguments : List Categories)
  | syntaxError (error : SyntaxError)
  /-- A value that cannot be written in a query. -/
  | noQueryForm (v : Value)
  /-- A refusal of whatever runs the queries. -/
  | runner (reason : String)
  | serialization (error : DecodeError)

namespace Error

/-- A list between square brackets. -/
def bracketed (items : List String) : String := "[" ++ ", ".intercalate items ++ "]"

def unsupportedMessage (operator : String) (categories : List String) : String :=
  "Unsupported operation " ++ operator ++ " for categories " ++ bracketed categories

def message : Error → String
  | unknownColumns table names => "Unknown column(s) " ++ bracketed names ++ " in table " ++ table
  | invalidSchema defect => "Invalid schema: " ++ defect.message
  | registration word category fault =>
    "Configuration error for operator " ++ word ++ " on [" ++ category.text ++ "]: " ++ fault.message
  | unsupportedOperator operator operands =>
    unsupportedMessage operator.word (operands.map Categories.text)
  | notTable operand => unsupportedMessage "getitem" operand.names
  | notColumn operand => unsupportedMessage "alias" operand.names
  -- a program that stops has no error to put into words
  | outOfBounds .. => ""
  | nonTerminating passes last =>
    "Rewrite did not reach a fixpoint after " ++ toString passes ++ " passes, last tree: " ++ last.text
  | unresolved operation arguments =>
    "Unresolved expression " ++ operation ++ " with argument categories "
      ++ bracketed (arguments.map Categories.text)
  | syntaxError error => "Syntax error: " ++ error.message
  | noQueryForm v => "Backend error: no SQL form for value " ++ v.repr
  | runner reason => "Backend error: " ++ reason
  | serialization error => "Serialization error: " ++ error.message

/-- A schema that cannot be loaded. -/
def ofLoad : LoadError → Error
  | .undecodable error => serialization error
  | .unsound defect => invalidSchema defect

/-- Columns of a table that cannot be selected. -/
def ofRefusal (table : String) : Schema.Refusal → Error
  | .unknown names => unknownColumns table names
  | .defect defect => invalidSchema defect

/-- What succeeds in two steps succeeds in each. -/
theorem bind_ok {α β : Type} {x : Except Error α} {f : α → Except Error β} {b : β}
    (h : x >>= f = .ok b) : ∃ a, x = .ok a ∧ f a = .ok b := by
  cases x with
  | error err => cases h
  | ok a => exact ⟨a, rfl, h⟩

/-- What fails in two steps fails in the first or in the second. -/
theorem bind_error {α β : Type} {x : Except Error α} {f : α → Except Error β} {err : Error}
    (h : x >>= f = .error err) : x = .error err ∨ ∃ a, x = .ok a ∧ f a = .error err := by
  cases x with
  | error e => cases h; exact Or.inl rfl
  | ok a => exact Or.inr ⟨a, rfl, h⟩

end Error

end QueryExpr
