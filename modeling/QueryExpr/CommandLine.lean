import QueryExpr.CommandLine.Options
import QueryExpr.CommandLine.Report
import QueryExpr.Expr.View
import QueryExpr.Log.Compiling
import QueryExpr.Phrase.Elaborate
import QueryExpr.Schema.Bytes

/-!
# The command line

A run of the program reads the schema of a table from column specifications or from a file,
perhaps writes it to a file, and then compiles an expression over the table. Files are a
value that a run takes and gives back, so that what it leaves behind can be stated.

What a run logs depends on its options, but the environment in which it runs can ask for other
records: none at all, for instance.

* `report`: the run with a schema. `run`: the whole run.
-/

namespace QueryExpr

open Log

namespace CommandLine

/-- The cause that is given for the name of no type. -/
def missingType : String := "Matching variant not found"

/-- The column that a specification `name:type` or `name:type:null` describes. -/
def readColumn (spec : String) : Except Failure Column :=
  let column := fun (name type : String) (nullable : Bool) =>
    match ValueType.ofName? type with
    | some type => Except.ok (⟨name, type, nullable⟩ : Column)
    | none => .error (.ofType name type missingType)
  match spec.splitToList (· == ':') with
  | [name, type] => column name type false
  | [name, type, "null"] => column name type true
  | _ => .error (.ofShape spec)

/-- The schema that the content of a file holds. -/
def readSchema (bytes : List UInt8) : Except Failure Schema :=
  (Schema.ofBytes bytes).mapError fun e => .ofError (.ofLoad e)

/-- The schema of the columns that specifications describe. -/
def describedSchema (specs : List String) : Except Failure Schema := do
  let columns ← specs.mapM readColumn
  (Schema.ofColumns columns).mapError fun d => .ofError (.invalidSchema d)

/-- The schema of the source table, from a file or from specifications. -/
def loadSchema (o : Options) (files : Files) : Except Failure Schema :=
  match o.schemaFile? with
  | some name =>
    match files.read name with
    | .ok bytes => readSchema bytes
    | .error fault => .error (.ofReading name fault.text)
  | none => describedSchema o.columns

/-- The files after the schema is written where this is asked for. -/
def saveSchema (o : Options) (s : Schema) (files : Files) : Except Failure Files :=
  match o.writeSchema? with
  | none => .ok files
  | some name =>
    match files.writeFault? name with
    | none => .ok (files.put name s.toBytes)
    | some fault => .error (.ofWriting name fault.text)

/-- The table that the columns of an expression are taken from. -/
def sourceTable (o : Options) (s : Schema) : Table := ⟨o.table, s, none, none⟩

/-! ## The log -/

/-- The least important records that a run logs by itself. -/
def finest (o : Options) : Severity :=
  if o.trace then .trace else if o.debug then .debug else .info

/-- The records that a run logs: those that the environment asks for, if it does. -/
def wanted (environment? : Option Filter) (o : Options) : Filter :=
  environment?.getD (.upTo (finest o))

/-- The record of a schema that was written. -/
def savedRecord (name : String) : Record := ⟨.info, .commandLine, "Wrote schema to " ++ name⟩

/-- What a run logs of writing the schema. -/
def savedRecords (wanted : Filter) (o : Options) : List Record :=
  match o.writeSchema? with
  | some name => if wanted .info .commandLine then [savedRecord name] else []
  | none => []

/-! ## Runs -/

/-- The expression that is to be compiled. -/
def readExpression (o : Options) (s : Schema) : Logging Failure Expr := do
  let r ← (Logging.registerStandard .empty).mapError .ofRegistry
  let t := sourceTable o s
  Logging.log .info .commandLine fun _ =>
    "Source table " ++ t.qualifiedName ++ " (" ++ t.schema.summary ++ ")"
  (Logging.ofExcept (Expr.parse r (some (.table t)) o.expression)).mapError .ofExpression

/-- What the expression is compiled to. -/
def compile (backend : Backend) (settings : Settings) (e : Expr) : Logging Error String :=
  match backend with
  | .sql => Logging.compileToQuery settings e
  | .arithmetic => Logging.compileToValue settings e

/-- The report of a run whose schema is there. -/
def report (wanted : Filter) (o : Options) (s : Schema) : Report :=
  match (readExpression o s).runOn wanted #[] with
  | (.error failure, log) => .done "" log.toList (some failure)
  | (.ok e, log) =>
    let settings := (Settings.default.withLimit o.limit).withTrace o.trace
    let explained := if o.explain then e.explain else ""
    match (compile o.backend settings e).runOn wanted log with
    | (.ok text, log) => .done (explained ++ text ++ "\n") log.toList none
    | (.error err, log) => .done explained log.toList (some (.ofError err))

/-- Runs the program with given options. -/
def runOptions (environment? : Option Filter) (o : Options) (files : Files) : Report × Files :=
  match loadSchema o files with
  | .error failure => (.done "" [] (some failure), files)
  | .ok s =>
    match saveSchema o s files with
    | .error failure => (.done "" [] (some failure), files)
    | .ok files =>
      let wanted := wanted environment? o
      ((report wanted o s).after (savedRecords wanted o), files)

/-- Runs the program with an argument list. -/
def run (environment? : Option Filter) (args : List String) (files : Files) : Report × Files :=
  match Options.ofArguments? args with
  | none => (.usage, files)
  | some o => runOptions environment? o files

end CommandLine

end QueryExpr
