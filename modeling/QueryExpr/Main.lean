import QueryExpr.CommandLine

/-!
# The program

The outer layer of the command line: it reads and writes the schema files of a run, prints
its report and ends with its exit code. What is printed is decided by
`QueryExpr.CommandLine`.
-/

namespace QueryExpr

namespace CommandLine

/-- How an operating system error is worded. -/
def causeOf : IO.Error → String
  | .noFileOrDirectory .. => FileFault.missing.text
  | e => toString e

/-- The schema of the source table. -/
def obtainSchema (o : Options) : IO (Except Failure Schema) :=
  match o.schemaFile? with
  | none => return describedSchema o.columns
  | some name => do
    try return readSchema (← IO.FS.readBinFile name).toList
    catch e => return .error (.ofReading name (causeOf e))

/-- Writes the schema where this is asked for. -/
def keepSchema (o : Options) (s : Schema) : IO (Option Failure) :=
  match o.writeSchema? with
  | none => return none
  | some name => do
    try
      IO.FS.writeBinFile name (ByteArray.mk s.toBytes.toArray)
      return none
    catch e => return some (.ofWriting name (causeOf e))

/-- The report of a run with given options, in an environment that asks for no other records. -/
def perform (o : Options) : IO Report := do
  match ← obtainSchema o with
  | .error failure => return .done "" [] (some failure)
  | .ok s =>
    match ← keepSchema o s with
    | some failure => return .done "" [] (some failure)
    | none =>
      let wanted := wanted none o
      return (report wanted o s).after (savedRecords wanted o)

/-- Prints a report and gives the exit code. The only clock here counts milliseconds from some
start, so that is the time of the records. -/
def present (report : Report) : IO UInt32 := do
  let now ← IO.monoMsNow
  IO.print report.standardOutput
  IO.eprint (report.standardError fun _ => toString now)
  return report.exitCode

end CommandLine

end QueryExpr

def main (args : List String) : IO UInt32 := do
  match QueryExpr.Options.ofArguments? args with
  | none => QueryExpr.CommandLine.present .usage
  | some o => QueryExpr.CommandLine.present (← QueryExpr.CommandLine.perform o)
