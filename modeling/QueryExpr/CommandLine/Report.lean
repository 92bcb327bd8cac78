import QueryExpr.Error
import QueryExpr.CommandLine.Files
import QueryExpr.Log

/-!
# Reports

What can be seen of a run from outside: its exit code, and what it prints on the standard output and
on the standard error. The log goes to the standard error, each record with its time, and so does
the failure in which a run may end.

* `Report.after`: the report of a run that had logged something before.
-/

namespace QueryExpr

/-- Why a run fails: a message, and its cause where the message only gives the occasion. -/
structure Failure where
  message : String
  cause? : Option String
  deriving DecidableEq, Repr

namespace Failure

/-- A failure of the library. -/
def ofError (e : Error) : Failure := ⟨e.message, none⟩

/-- The standard operators cannot be registered. -/
def ofRegistry (e : Error) : Failure := ⟨"Failed to build operator registry", some e.message⟩

/-- The expression cannot be read. -/
def ofExpression (e : Error) : Failure := ⟨"Failed to parse expression", some e.message⟩

/-- The schema file cannot be read. -/
def ofReading (name cause : String) : Failure := ⟨"Failed to read schema from " ++ name, some cause⟩

/-- The schema file cannot be written. -/
def ofWriting (name cause : String) : Failure := ⟨"Failed to write schema to " ++ name, some cause⟩

/-- A column specification is not of the right form. -/
def ofShape (spec : String) : Failure :=
  ⟨"Invalid column '" ++ spec ++ "', expected name:type[:null]", none⟩

/-- A column specification has a type that does not exist. -/
def ofType (name type cause : String) : Failure :=
  ⟨"Unknown type '" ++ type ++ "' for column '" ++ name ++ "'", some cause⟩

/-- A message with the lines after its first one indented. -/
def indented (s : String) : String :=
  String.ofList (s.toList.flatMap fun c => if c = '\n' then "\n    ".toList else [c])

/-- What is printed for a failure. -/
def text (f : Failure) : String :=
  match f.cause? with
  | none => "Error: " ++ f.message ++ "\n"
  | some cause => "Error: " ++ f.message ++ "\n\nCaused by:\n    " ++ indented cause ++ "\n"

end Failure

/-- What a run prints and how it ends. -/
inductive Report where
  /-- The arguments cannot be read. -/
  | usage
  /-- It printed `out` and logged `log`, and then failed or came to its end. -/
  | done (out : String) (log : List Log.Record) (failure? : Option Failure)
  deriving DecidableEq, Repr

namespace Report

/-- The exit code of the run. -/
def exitCode : Report → UInt32
  | usage => 2
  | done _ _ none => 0
  | done _ _ (some _) => 1

/-- What is printed on the standard output. -/
def standardOutput : Report → String
  | usage => ""
  | done out _ _ => out

/-- What is printed on the standard error, where `time n` is the time of record number `n`. -/
def standardError (time : Nat → String) : Report → String
  | usage => "usage: query-expr [OPTIONS] EXPRESSION\n"
  | done _ log failure? => Log.lines time log ++ (failure?.map Failure.text).getD ""

/-- The report of the same run after something else was logged. -/
def after (earlier : List Log.Record) : Report → Report
  | usage => usage
  | done out log failure? => done out (earlier ++ log) failure?

theorem after_nil (r : Report) : r.after [] = r := by
  cases r <;> rfl

end Report

end QueryExpr
