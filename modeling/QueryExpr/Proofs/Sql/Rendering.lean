import QueryExpr.Proofs.Expr.Leaves
import QueryExpr.Proofs.Phrase.Spelling
import QueryExpr.Proofs.Sql.Rules

/-!
# The text that an expression becomes

An expression of raw values, typed scalars, columns and operators says a phrase, and the
rules for queries make the fragment of that phrase of it in one sweep.

* `Value.ofValue?_phrase`: a raw value is spelled like its phrase.
* `Sql.renders`: the induction on the expression.
* `Sql.compile_phrase`: **the query text of an expression is that of its phrase.**
-/

namespace QueryExpr

open Rule QueryExpr.Expr

/-! ## Values -/

theorem FloatText.text_of_isFinite {x : Float} (h : x.isFinite = true) :
    text x = (if isNegative x then "-" else "") ++ unsignedText x.abs := by
  have hn : x.isNaN = false ∧ x.isInf = false := by
    revert h
    unfold Float.isFinite Float.isNaN Float.isInf Float.Model.isFinite Float.Model.isNaN
      Float.Model.isInf
    cases x.toModel.unpack <;> first | exact fun _ => ⟨rfl, rfl⟩ | nofun
  rw [text, hn.1, hn.2]
  simp only [Bool.false_eq_true, if_false]
  cases isNegative x with
  | false => rw [if_neg Bool.false_ne_true, if_neg Bool.false_ne_true, String.empty_append]
  | true => rw [if_pos rfl, if_pos rfl]

namespace Value

/-- Null, truth values, integers, finite floating numbers and texts. -/
def isSpelled : Value → Bool
  | null | bool _ | int _ | text _ => true
  | float x => x.isFinite
  | _ => false

/-- The phrase that spells a value. -/
def phrase : Value → Phrase
  | bool b => .truth b
  | int n => .number (decide (n.toInt < 0)) (toString n.toInt.natAbs)
  | float x => .number (FloatText.isNegative x) (FloatText.unsignedText x.abs)
  | text s => .text s
  | _ => .null

theorem toString_int (n : Int) :
    toString n = (if decide (n < 0) then "-" else "") ++ toString n.natAbs := by
  cases n with
  | ofNat m =>
    have h : ¬ (Int.ofNat m < 0) := by simp
    rw [decide_eq_false h, if_neg Bool.false_ne_true, String.empty_append]
    rfl
  | negSucc m =>
    have h : Int.negSucc m < 0 := Int.negSucc_lt_zero m
    rw [decide_eq_true h, if_pos rfl]
    rfl

/-- **A raw value is spelled like its phrase.** -/
theorem ofValue?_phrase {v : Value} (h : v.isSpelled = true) :
    Fragment.ofValue? v = some v.phrase.fragment := by
  cases v with
  | null | bool _ | text _ => rfl
  | int n => rw [Fragment.ofValue?, phrase, Phrase.fragment, toString_int]
  | float x =>
    have hx : x.isFinite = true := h
    rw [Fragment.ofValue?, if_pos hx, phrase, Phrase.fragment, FloatText.text_of_isFinite hx]
  | _ => cases h

theorem plain_phrase (v : Value) : v.phrase.Plain := by
  cases v with
  | bool b => exact .truth b
  | int n =>
    refine .number ?_
    rw [Nat.toString_eq_ofList_toDigits, String.toList_ofList]
    exact Token.isNumeral_nat _
  | float x => exact .number (Token.isNumeral_float _).1
  | text s => exact .text s
  | _ => exact .null

end Value

/-! ## Expressions -/

namespace Expr

/-- The phrase that an expression says. -/
def phrase : Expr → Phrase
  | value v => v.phrase
  | node (.scalar _) [value v] _ => v.phrase
  | node .column [_, value (.text name), _] _ => .column name
  | node (.binary op) [l, r] _ => .binary op l.phrase r.phrase
  | node .not [e] _ => .not e.phrase
  | _ => .null

/-- Expressions that are written without loss: raw values, typed scalars and columns whose
names are single tokens, under operators with their number of operands. -/
inductive Spelled : Expr → Prop
  | value {v : Value} (h : v.isSpelled = true) : Spelled (value v)
  | scalar {t : ValueType} {v : Value} {c : Categories} (h : v.isSpelled = true) :
    Spelled (node (.scalar t) [value v] c)
  | column {s : Expr} {name : String} {c : Categories} (hs : IsSource s)
    (hn : Token.tokenize name = .ok [.identifier name]) :
    Spelled (node .column [s, value (.text name), value .null] c)
  | binary {op : BinaryOp} {l r : Expr} {c : Categories} (hl : Spelled l) (hr : Spelled r) :
    Spelled (node (.binary op) [l, r] c)
  | not {e : Expr} {c : Categories} (he : Spelled e) : Spelled (node .not [e] c)

/-- What is written without loss says a plain phrase. -/
theorem Spelled.plain {e : Expr} (h : e.Spelled) : e.phrase.Plain := by
  induction h with
  | value h => exact Value.plain_phrase _
  | scalar h => exact Value.plain_phrase _
  | column hs hn => exact .column hn
  | binary _ _ ihl ihr => exact .binary ihl ihr
  | not _ ih => exact .not ih

end Expr

namespace Sql

variable {e l r : Expr} {c : Categories} {op : BinaryOp} {f g : Fragment}

/-! What the rules for queries do with one node, in the terms of `fragment?`. -/

theorem applyFirst_scalar {t : ValueType} {v : Value} (h : Fragment.ofValue? v = some f) :
    applyFirst rules (.node (.scalar t) [.value v] c) = ⟨.value (.fragment f), true⟩ := by
  rw [decided.applyFirst, fragment?, h]
  rfl

theorem applyFirst_binary (hl : operand? l = some f) (hr : operand? r = some g) :
    applyFirst rules (.node (.binary op) [l, r] c) = ⟨.value (.fragment (.binary op f g)), true⟩ := by
  rw [decided.applyFirst, fragment?, hl, hr]
  rfl

theorem applyFirst_not (he : operand? e = some f) :
    applyFirst rules (.node .not [e] c) = ⟨.value (.fragment f.negation), true⟩ := by
  rw [decided.applyFirst, fragment?, he]
  rfl

/-- A source becomes a fragment. -/
theorem sweep_source {s : Expr} (h : s.IsSource) :
    ∃ f, sweep rules s = ⟨.value (.fragment f), true⟩ := by
  induction h with
  | table t =>
    obtain ⟨name, schema, database?, schemaName?⟩ := t
    cases database? <;> cases schemaName? <;> exact ⟨_, rfl⟩
  | project _ h ih =>
    obtain ⟨narrowed, rfl⟩ := project_ok h
    obtain ⟨f, hf⟩ := ih
    rw [make, sweep, sweepAll, hf]
    exact ⟨_, rfl⟩

/-- The fragment that a column becomes. -/
def columnFragment (name : String) : Option String → Fragment
  | some shown => ⟨name ++ " AS " ++ shown, Fragment.listPrecedence⟩
  | none => .atom name

/-- A column becomes its fragment; what its source becomes does not show. -/
theorem sweep_column {s : Expr} (hs : s.IsSource) (name : String) (shown? : Option String) :
    (sweep rules (.node .column [s, .value (.text name), optionalText shown?] c)).expr =
      .value (.fragment (columnFragment name shown?)) := by
  obtain ⟨f, hf⟩ := sweep_source hs
  cases shown? with
  | none =>
    rw [sweep, sweepAll, hf]
    rfl
  | some shown =>
    rw [sweep, sweepAll, hf]
    rfl

/-- **What one sweep of the rules for queries does**: it leaves a value that is spelled like
the phrase of the expression. -/
structure Renders (e : Expr) : Prop where
  value : ∃ v, (sweep rules e).expr = .value v ∧ Fragment.ofValue? v = some e.phrase.fragment
  kept : Keeps rules e

theorem Renders.of_fragment {f : Fragment} (h : (sweep rules e).expr = .value (.fragment f))
    (hf : f = e.phrase.fragment) : Renders e where
  value := ⟨.fragment f, h, by rw [← hf]; rfl⟩
  kept := (rests concludes e).kept

theorem listPrecedence_lt {p : Phrase} (h : p.Plain) :
    Fragment.listPrecedence < p.fragment.precedence := by
  rw [Phrase.fragment_precedence h]
  cases p.level <;> decide

/-- What a sweep leaves is an operand. -/
theorem Renders.operand (h : Renders e) (hp : e.phrase.Plain) :
    operand? (sweep rules e).expr = some e.phrase.fragment := by
  obtain ⟨v, hv, hf⟩ := h.value
  rw [hv, operand?, hf, Option.filter_some, if_pos (decide_eq_true (listPrecedence_lt hp))]

/-- **Every spelled expression is rendered** as its phrase. -/
theorem renders (h : e.Spelled) : Renders e := by
  induction h with
  | value h => exact ⟨⟨_, rfl, Value.ofValue?_phrase h⟩, fun _ => rfl⟩
  | @scalar t v c h =>
    have hs := sweep_expr concludes (.scalar t) [.value v] c
    rw [List.map_singleton, sweep, applyFirst_scalar (Value.ofValue?_phrase h)] at hs
    exact .of_fragment hs rfl
  | @column s name c hs hn => exact .of_fragment (sweep_column hs name none) rfl
  | @binary op l r c hl hr ihl ihr =>
    have hs := sweep_expr concludes (.binary op) [l, r] c
    rw [List.map_cons, List.map_singleton,
      applyFirst_binary (ihl.operand hl.plain) (ihr.operand hr.plain)] at hs
    exact .of_fragment hs rfl
  | @not e c he ih =>
    have hs := sweep_expr concludes .not [e] c
    rw [List.map_singleton, applyFirst_not (ih.operand he.plain)] at hs
    exact .of_fragment hs rfl

/-- **The query text of an expression is that of its phrase.** -/
theorem compile_phrase (h : e.Spelled) {limit : Nat} (hl : 2 ≤ limit) :
    compile (compiler limit) e = .ok e.phrase.fragment.text := by
  obtain ⟨v, hv, hf⟩ := (renders h).value
  exact compile_of_sweep hl hv hf

end Sql

end QueryExpr
