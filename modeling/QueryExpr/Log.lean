/-!
# The log

What the program does is logged as it goes on. Each record has a severity and the part of the
program that it comes from, and a filter tells from these which records are wanted. The others are
never made. What has been logged when the work fails stays logged.

* `Logging.runOn`: the outcome of work that logs, and the log as the work leaves it.
-/

namespace QueryExpr

namespace Log

/-- How much a record matters, the most important first. -/
inductive Severity where
  | info
  | debug
  | trace
  deriving DecidableEq, Repr

namespace Severity

/-- The place in the order of importance. -/
def rank : Severity → Nat
  | info => 0
  | debug => 1
  | trace => 2

def name : Severity → String
  | info => "INFO"
  | debug => "DEBUG"
  | trace => "TRACE"

end Severity

/-- The parts of the program that log. -/
inductive Part where
  | commandLine
  | registry
  | rewriting
  | compiling
  | queries
  | folding
  deriving DecidableEq, Repr

namespace Part

/-- The name of a part in a record. -/
def name : Part → String
  | commandLine => "vibeql"
  | registry => "vibeql::registry"
  | rewriting => "vibeql::rewrite::strategy"
  | compiling => "vibeql::backend"
  | queries => "vibeql::backend::sql_standard"
  | folding => "vibeql::backend::arithmetic"

end Part

/-- Which records are wanted. -/
abbrev Filter := Severity → Part → Bool

/-- The records of any part that matter at least as much as those of a severity. -/
def Filter.upTo (finest : Severity) : Filter := fun severity _ => severity.rank ≤ finest.rank

/-- One thing that was logged. -/
structure Record where
  severity : Severity
  part : Part
  message : String
  deriving DecidableEq, Repr

/-- The line that is printed for a record. The names of severities take up five characters. -/
def Record.line (time : String) (r : Record) : String :=
  let padding := String.ofList (List.replicate (5 - r.severity.name.length) ' ')
  "[" ++ time ++ " " ++ r.severity.name ++ padding ++ " " ++ r.part.name ++ "] " ++ r.message
    ++ "\n"

/-- The lines that are printed for records, where `time n` is the time of record number `n`. -/
def lines (time : Nat → String) : List Record → String
  | [] => ""
  | r :: rest => r.line (time 0) ++ lines (fun n => time (n + 1)) rest

end Log

open Log

/-- Work that may fail and logs while it goes on. -/
abbrev Logging (ε α : Type) := ReaderT Filter (ExceptT ε (StateM (Array Record))) α

namespace Logging

variable {ε ε' α β : Type}

/-- The outcome of work that goes on with a log, and the log as the work leaves it. -/
def runOn (work : Logging ε α) (wanted : Filter) (log : Array Record) :
    Except ε α × Array Record :=
  ((work.run wanted).run).run log

/-- Logs a message, which is only made if it is wanted. -/
def log (severity : Severity) (part : Part) (message : Unit → String) : Logging ε Unit :=
  fun wanted =>
    if wanted severity part then modify fun log => log.push ⟨severity, part, message ()⟩
    else pure ()

/-- Logs a message under a condition. -/
def logIf (condition : Bool) (severity : Severity) (part : Part) (message : Unit → String) :
    Logging ε Unit :=
  if condition then log severity part message else pure ()

/-- Work of which nothing is logged. -/
def ofExcept : Except ε α → Logging ε α
  | .ok a => pure a
  | .error e => throw e

/-- The same work with failures of another kind. -/
def mapError (f : ε → ε') (work : Logging ε α) : Logging ε' α := fun wanted =>
  (work.run wanted).adapt f

/-! ## Runs of work -/

variable {work : Logging ε α} {next : α → Logging ε β} {wanted : Filter}
  {before after : Array Record}

theorem runOn_pure (a : α) : (pure a : Logging ε α).runOn wanted before = (.ok a, before) := rfl

theorem runOn_throw (e : ε) : (throw e : Logging ε α).runOn wanted before = (.error e, before) :=
  rfl

theorem runOn_log (severity : Severity) (part : Part) (message : Unit → String) :
    (log severity part message : Logging ε Unit).runOn wanted before =
      (.ok (),
        if wanted severity part then before.push ⟨severity, part, message ()⟩ else before) := by
  have hrun : (log severity part message : Logging ε Unit).runOn wanted before =
      ((if wanted severity part then modify fun log => log.push ⟨severity, part, message ()⟩
        else pure () : ExceptT ε (StateM (Array Record)) Unit).run).run before := rfl
  rw [hrun]
  cases wanted severity part <;> rfl

theorem runOn_bind_ok {a : α} (h : work.runOn wanted before = (.ok a, after)) :
    (work >>= next).runOn wanted before = (next a).runOn wanted after := by
  have hwork : (work.run wanted).run.run before = (.ok a, after) := h
  simp only [runOn, ReaderT.run_bind, ExceptT.run_bind, StateT.run_bind, hwork]
  rfl

theorem runOn_bind_error {e : ε} (h : work.runOn wanted before = (.error e, after)) :
    (work >>= next).runOn wanted before = (.error e, after) := by
  have hwork : (work.run wanted).run.run before = (.error e, after) := h
  simp only [runOn, ReaderT.run_bind, ExceptT.run_bind, StateT.run_bind, hwork]
  rfl

theorem runOn_mapError {f : ε → ε'} {x : Except ε α} (h : work.runOn wanted before = (x, after)) :
    (work.mapError f).runOn wanted before = (x.mapError f, after) := by
  have hwork : (work.run wanted).run.run before = (x, after) := h
  have hrun : (work.mapError f).runOn wanted before =
      (Except.mapError f <$> (work.run wanted).run).run before := rfl
  rw [hrun, StateT.run_map, hwork]
  rfl

end Logging

end QueryExpr
