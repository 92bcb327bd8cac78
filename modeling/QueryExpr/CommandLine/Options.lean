/-!
# Options of the command line

An option has a long name after two hyphens and mostly a letter after one. A value follows
its option, either at once (`-tname`, `--table=name`) or as the next argument, which then
must not look like an option. Letters without values can share a hyphen. What is left is
the expression; after `--` nothing is taken for an option.

An option may be given once, except for columns. Columns and a schema file exclude each
other.
-/

namespace QueryExpr

-- Powers are taken by the definition of the core library, whatever else is imported.
attribute [local instance (2000)] instPowNat

/-- What an expression is compiled to. -/
inductive Backend where
  /-- The text of a query. -/
  | sql
  /-- A single value. -/
  | arithmetic
  deriving DecidableEq, Repr

namespace Backend

def ofName? (s : String) : Option Backend :=
  if s = "sql" then some sql else if s = "arithmetic" then some arithmetic else none

end Backend

/-- The options that exist. -/
inductive Flag where
  | table
  | column
  | schemaFile
  | writeSchema
  | backend
  | maxIterations
  | trace
  | explain
  | debug
  deriving DecidableEq, Repr

namespace Flag

def all : List Flag :=
  [table, column, schemaFile, writeSchema, backend, maxIterations, trace, explain, debug]

def longName : Flag → String
  | table => "table"
  | column => "column"
  | schemaFile => "schema-file"
  | writeSchema => "write-schema"
  | backend => "backend"
  | maxIterations => "max-iterations"
  | trace => "trace"
  | explain => "explain"
  | debug => "debug"

def letter? : Flag → Option Char
  | table => some 't'
  | column => some 'c'
  | schemaFile => some 'f'
  | writeSchema => some 'w'
  | backend => some 'b'
  | maxIterations => some 'm'
  | trace => none
  | explain => some 'e'
  | debug => some 'd'

/-- Whether the option has a value. -/
def takesValue : Flag → Bool
  | trace | explain | debug => false
  | _ => true

def ofLongName? (s : String) : Option Flag := all.find? (·.longName == s)

def ofLetter? (c : Char) : Option Flag := all.find? (·.letter? == some c)

end Flag

/-- What an argument list says, in order. -/
inductive Setting where
  /-- An argument that is no option. -/
  | plain (text : String)
  /-- An option without a value. -/
  | switch (flag : Flag)
  | valued (flag : Flag) (text : String)
  deriving DecidableEq, Repr

namespace Setting

/-- Whether an argument is an option, or a value that could be taken for one. -/
def looksLikeOption (arg : String) : Bool := arg.startsWith "-" && arg != "-"

/-- The letters after one hyphen, up to one that takes a value: that letter comes second,
with what follows it. -/
def splitLetters : List Char → Option (List Setting × Option (Flag × List Char))
  | [] => some ([], none)
  | c :: rest =>
    match Flag.ofLetter? c with
    | none => none
    | some flag =>
      if flag.takesValue then some ([], some (flag, rest))
      else (splitLetters rest).map fun (settings, last) => (.switch flag :: settings, last)

/-- The value that directly follows a letter; an equals sign before it does not belong to it. -/
def attached : List Char → String
  | '=' :: rest => String.ofList rest
  | cs => String.ofList cs

/-- A name after two hyphens, and the value after an equals sign if there is one. -/
def splitLong (cs : List Char) : String × Option String :=
  let name := String.ofList (cs.takeWhile (· != '='))
  match cs.dropWhile (· != '=') with
  | _ :: value => (name, some (String.ofList value))
  | [] => (name, none)

/-- An option that still waits for its value, if any, goes with the argument after it. -/
def readFrom (waiting : Option Flag) : List String → Option (List Setting)
  | [] => if waiting.isSome then none else some []
  | arg :: rest =>
    match waiting with
    | some flag =>
      if looksLikeOption arg then none
      else (readFrom none rest).map (.valued flag arg :: ·)
    | none =>
      if arg = "--" then some (rest.map .plain)
      else
        match arg.toList with
        | '-' :: '-' :: cs =>
          let (name, value?) := splitLong cs
          match Flag.ofLongName? name, value? with
          | none, _ => none
          | some flag, some value =>
            if flag.takesValue then (readFrom none rest).map (.valued flag value :: ·) else none
          | some flag, none =>
            if flag.takesValue then readFrom (some flag) rest
            else (readFrom none rest).map (.switch flag :: ·)
        | '-' :: c :: cs =>
          match splitLetters (c :: cs) with
          | none => none
          | some (settings, none) => (readFrom none rest).map (settings ++ ·)
          | some (settings, some (flag, [])) => (readFrom (some flag) rest).map (settings ++ ·)
          | some (settings, some (flag, value)) =>
            (readFrom none rest).map (settings ++ .valued flag (attached value) :: ·)
        | _ => (readFrom none rest).map (.plain arg :: ·)

/-- The settings of an argument list, if every option in it exists and has its value. -/
def read? (args : List String) : Option (List Setting) := readFrom none args

/-- The option that a setting is about. -/
def flag? : Setting → Option Flag
  | plain _ => none
  | switch flag => some flag
  | valued flag _ => some flag

/-- The value that a setting gives to an option. -/
def valueOf? (flag : Flag) : Setting → Option String
  | valued f text => if f = flag then some text else none
  | _ => none

/-- The values of an option. -/
def valuesOf (flag : Flag) (settings : List Setting) : List String :=
  settings.filterMap (valueOf? flag)

/-- The arguments that are no options. -/
def plains (settings : List Setting) : List String :=
  settings.filterMap fun
    | plain text => some text
    | _ => none

/-- How often an option is given. -/
def count (flag : Flag) (settings : List Setting) : Nat :=
  settings.countP (·.flag? == some flag)

end Setting

/-- What a run of the program is asked to do. -/
structure Options where
  expression : String
  table : String
  columns : List String
  schemaFile? : Option String
  writeSchema? : Option String
  backend : Backend
  limit : Nat
  trace : Bool
  explain : Bool
  debug : Bool
  deriving DecidableEq, Repr

namespace Options

/-- The table that is read from unless another one is named. -/
def defaultTable : String := "t"

/-- The passes that are allowed unless another number is given. -/
def defaultLimit : Nat := 100

/-- A natural number of 64 bits, after a plus sign or not. -/
def readLimit? (s : String) : Option Nat :=
  let digits := match s.toList with
    | '+' :: rest => rest
    | cs => cs
  if digits.isEmpty || !digits.all Char.isDigit then none
  else
    let n := digits.foldl (fun n c => 10 * n + (c.toNat - '0'.toNat)) 0
    if n < 2 ^ (64 : Nat) then some n else none

/-- The outcome of reading an optional value, where a given value must be readable. -/
def readOptional {α β : Type} (read : α → Option β) (default : β) : Option α → Option β
  | none => some default
  | some a => read a

/-- A file name is not empty. -/
def readPath? (s : String) : Option (Option String) := if s = "" then none else some (some s)

/-- Whether no option but the column is given twice, and columns go without a schema file. -/
def isCoherent (settings : List Setting) : Bool :=
  (Flag.all.all fun flag => flag == .column || Setting.count flag settings ≤ 1)
    && (Setting.count .column settings == 0 || Setting.count .schemaFile settings == 0)

/-- The options that settings give. -/
def ofSettings? (settings : List Setting) : Option Options := do
  let value? := fun flag => (Setting.valuesOf flag settings).head?
  let isOn := fun flag => decide (0 < Setting.count flag settings)
  if isCoherent settings = false then none
  match Setting.plains settings with
  | [expression] =>
    let schemaFile? ← readOptional readPath? none (value? .schemaFile)
    let writeSchema? ← readOptional readPath? none (value? .writeSchema)
    let backend ← readOptional Backend.ofName? .sql (value? .backend)
    let limit ← readOptional readLimit? defaultLimit (value? .maxIterations)
    return {
      expression, schemaFile?, writeSchema?, backend, limit
      table := (value? .table).getD defaultTable
      columns := Setting.valuesOf .column settings
      trace := isOn .trace
      explain := isOn .explain
      debug := isOn .debug }
  | _ => none

/-- The options that an argument list gives. -/
def ofArguments? (args : List String) : Option Options := do
  ofSettings? (← Setting.read? args)

end Options

end QueryExpr
