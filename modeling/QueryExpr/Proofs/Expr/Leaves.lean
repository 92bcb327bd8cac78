import QueryExpr.Expr.Build
import QueryExpr.Proofs.Category

/-!
# The leaves of an expression

A source is a table or what chains of projections make of one; a column is taken from a
source and may have been renamed since; a typed scalar holds a raw value of its type.
Whatever a source or column was made with, its node has one of few shapes.

* `project_ok`, `column_ok`, `withAlias_ok`: what a successful call has built.
* `IsColumn.parts`, `IsColumn.shape`: the node of a column holds its source, its name and its other
  name.
-/

namespace QueryExpr

/-- The raw values that a scalar of a type can hold. Row identifiers have no scalars. -/
def ValueType.accepts : ValueType → Value → Bool
  | .bool, .bool _ => true
  | .int8, .int _ | .int16, .int _ | .int32, .int _ | .int64, .int _ => true
  | .float16, .float _ | .float32, .float _ | .float64, .float _ => true
  | .decimal, .decimal _ => true
  | .date, .date _ => true
  | .time, .time _ => true
  | .timestamp, .timestamp _ => true
  | .string, .text _ => true
  | _, _ => false

namespace Expr

/-- A table, or a projection of a source. -/
inductive IsSource : Expr → Prop
  | table (t : Table) : IsSource (table t)
  | project {e p : Expr} {names : List String} (he : IsSource e) (h : e.project names = .ok p) :
    IsSource p

/-- A column of a source, under its own name or another one. -/
inductive IsColumn : Expr → Prop
  | column {s e : Expr} {name : String} (hs : IsSource s) (h : s.column name = .ok e) : IsColumn e
  | renamed {e e' : Expr} {name : String} (he : IsColumn e) (h : e.withAlias name = .ok e') :
    IsColumn e'

/-- A typed scalar. -/
def IsScalar (e : Expr) : Prop := ∃ t v, t.accepts v = true ∧ e = scalar t v

theorem requireSchema_ok {e : Expr} {schema : Schema} (h : e.requireSchema = .ok schema) :
    e.schema? = some schema := by
  unfold requireSchema at h
  cases hs : e.schema? with
  | none => rw [hs] at h; cases h
  | some s => rw [hs] at h; cases h; rfl

theorem project_ok {e p : Expr} {names : List String} (h : e.project names = .ok p) :
    ∃ narrowed, p = make .projection
      [e, value (.list (names.map .text)), value (.schema narrowed)] {.table} := by
  obtain ⟨schema, -, h⟩ := Error.bind_ok h
  cases hn : schema.select names with
  | error refusal => rw [hn] at h; cases h
  | ok narrowed => rw [hn] at h; cases h; exact ⟨narrowed, rfl⟩

theorem column_ok {s e : Expr} {name : String} (h : s.column name = .ok e) :
    ∃ schema c, s.schema? = some schema ∧ schema.get? name = some c ∧
      e = make .column [s, value (.text name), value .null] (c.type.categories .column) := by
  obtain ⟨schema, hs, h⟩ := Error.bind_ok h
  cases hc : schema.get? name with
  | none => rw [hc] at h; cases h
  | some c => rw [hc] at h; cases h; exact ⟨schema, c, requireSchema_ok hs, hc, rfl⟩

theorem writeArg_ok {args args' : List Expr} {place : Nat} {arg : Expr}
    (h : writeArg args place arg = .ok args') :
    place < args.length ∧ args' = args.set place arg := by
  unfold writeArg at h
  split at h
  · next hplace => cases h; exact ⟨hplace, rfl⟩
  · cases h

theorem withAlias_ok {e e' : Expr} {name : String} (h : e.withAlias name = .ok e') :
    ∃ args c, e = node .column args c ∧ aliasPlace < args.length ∧
      e' = node .column (args.set aliasPlace (value (.text name))) c := by
  cases e with
  | value v => cases h
  | node o args c =>
    cases o with
    | column =>
      obtain ⟨written, hwritten, h⟩ := Error.bind_ok h
      obtain ⟨hplace, rfl⟩ := writeArg_ok hwritten
      cases h
      exact ⟨args, c, rfl, hplace, rfl⟩
    | _ => cases h

/-- A column holds a source, its name, and its other name if it has one. Its categories are
closed. -/
theorem IsColumn.parts {e : Expr} (h : IsColumn e) :
    ∃ s name shown? c, IsSource s ∧ c.closure = c ∧
      e = node .column [s, value (.text name), optionalText shown?] c := by
  induction h with
  | column hs h =>
    obtain ⟨-, c, -, -, rfl⟩ := column_ok h
    exact ⟨_, _, none, _, hs, Categories.closure_closure _, rfl⟩
  | @renamed _ _ other _ h ih =>
    obtain ⟨s, name, shown?, c, hs, hc, he⟩ := ih
    obtain ⟨args, c', he', -, rfl⟩ := withAlias_ok h
    rw [he] at he'
    cases he'
    exact ⟨s, name, some other, c, hs, hc, rfl⟩

/-- A column holds a source and two raw values: its name, and its other name or null. -/
theorem IsColumn.shape {e : Expr} (h : IsColumn e) :
    ∃ s name shown c, IsSource s ∧ e = node .column [s, value (.text name), value shown] c := by
  obtain ⟨s, name, shown?, c, hs, -, rfl⟩ := h.parts
  cases shown? with
  | none => exact ⟨s, name, .null, _, hs, rfl⟩
  | some other => exact ⟨s, name, .text other, _, hs, rfl⟩

theorem IsColumn.closed {e : Expr} (h : IsColumn e) : e.categories.closure = e.categories := by
  obtain ⟨s, name, shown?, c, -, hc, rfl⟩ := h.parts
  exact hc

end Expr

end QueryExpr
