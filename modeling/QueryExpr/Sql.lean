import QueryExpr.Compiler
import QueryExpr.Expr.Build
import QueryExpr.Sql.Fragment

/-!
# Queries

The rules that turn an expression into the text of a query. Each takes a node whose
arguments have become fragments and makes one fragment of it.
-/

namespace QueryExpr

namespace Sql

/-- A fragment as an expression. -/
def rendered (f : Fragment) : Production := .replace (.value (.fragment f))

/-- The fragment of an argument, unless it is an item of a select list. -/
def operand? : Expr → Option Fragment
  | .value v => (Fragment.ofValue? v).filter fun f => decide (Fragment.listPrecedence < f.precedence)
  | .node .. => none

/-- A typed scalar is spelled like its value. -/
def scalar : Rule where
  name := "sql_scalar"
  produce? e := e.scalar?.bind fun (_, v) => (Fragment.ofValue? v).map rendered

/-- The text that an argument holds, if the argument is there. -/
def textAt? (args : List Expr) (i : Nat) : Option String := args[i]?.bind Expr.asText?

/-- A table is written by its qualified name. -/
def table : Rule where
  name := "sql_table"
  produce? e :=
    match e with
    | .node .table args _ =>
      (textAt? args 0).map fun name =>
        rendered (.atom (Table.qualify (textAt? args 2) (textAt? args 3) name))
    | _ => none

/-- Whether the first argument has become a value. -/
def isSourceDone (e : Expr) : Bool := e.args.head?.any Expr.isValue

/-- A column is written by its name; under another name it is an item of a select list. -/
def column : Rule where
  name := "sql_column"
  produce? e :=
    if isSourceDone e then
      e.columnName?.map fun name =>
        match e.alias? with
        | some shown => rendered ⟨name ++ " AS " ++ shown, Fragment.listPrecedence⟩
        | none => rendered (.atom name)
    else none

/-- A projection is written as its column names. -/
def projection : Rule where
  name := "sql_projection"
  produce? e :=
    if isSourceDone e then
      e.projectedNames?.map fun names => rendered ⟨", ".intercalate names, Fragment.listPrecedence⟩
    else none

/-- A function is written as a call. -/
def function : Rule where
  name := "sql_function"
  produce? e :=
    match e with
    | .node (.function name) args _ => (args.mapM operand?).map fun args => rendered (.call name args)
    | _ => none

def negation : Rule where
  name := "sql_not"
  produce? e := (e.negated?.bind operand?).map fun f => rendered f.negation

/-- A given operator is written between its operands. -/
def binary (op : BinaryOp) : Rule where
  name := "sql_" ++ op.label
  produce? e :=
    match e.operandsOf? op with
    | some (left, right) =>
      match operand? left, operand? right with
      | some left, some right => some (rendered (.binary op left right))
      | _, _ => none
    | none => none

/-- All the rules for queries. -/
def rules : List Rule :=
  [scalar, table, column, projection, function, negation] ++ BinaryOp.all.map binary

/-- The compiler that makes queries of expressions. -/
def compiler (limit : Nat) : Compiler := ⟨rules, limit⟩

/-- The text that a compiler makes of an expression. -/
def compile (c : Compiler) (e : Expr) : Except Error String := do
  let v ← c.compile e
  match Fragment.ofValue? v with
  | some f => return f.text
  | none => throw (.noQueryForm v)

/-! ## Running queries -/

/-- The rows that a query gives. -/
structure Rows where
  columns : List String
  rows : List (List Value)

/-- What runs queries: each connection and each query may change its state. -/
structure Runner (σ : Type) where
  connect : σ → Except Error Unit × σ
  run : σ → String → Except Error Rows × σ

/-- A runner that gives no rows. -/
def dryRun : Runner Unit where
  connect s := (.ok (), s)
  run s _ := (.ok ⟨[], []⟩, s)

/-- What a runner was asked to do, and whether it refuses. -/
structure Journal where
  refuses : Bool
  connections : Nat
  /-- The queries, in the order in which they came. -/
  queries : List String
  deriving DecidableEq, Repr

namespace Journal

/-- A journal without entries. -/
def start (refuses : Bool) : Journal := ⟨refuses, 0, []⟩

/-- The answer to a query: one numbered row for each query so far, all with the text of
this one. -/
def rows (j : Journal) (sql : String) : Rows :=
  ⟨["n", "sql"], (List.range j.queries.length).map fun i => [.int (Int64.ofNat (i + 1)), .text sql]⟩

end Journal

/-- A runner that keeps a journal and counts its entries in rows. -/
def journaling : Runner Journal where
  connect j :=
    if j.refuses then (.error (.runner "connection refused"), j)
    else (.ok (), { j with connections := j.connections + 1 })
  run j sql :=
    let j := { j with queries := j.queries ++ [sql] }
    if j.refuses then (.error (.runner "cannot run SQL"), j) else (.ok (j.rows sql), j)

/-- Compiles an expression and runs the query. -/
def execute {σ : Type} (c : Compiler) (runner : Runner σ) (state : σ) (e : Expr) :
    Except Error Rows × σ :=
  match compile c e with
  | .ok sql => runner.run state sql
  | .error err => (.error err, state)

end Sql

end QueryExpr
