import QueryExpr.Phrase.Elaborate
import QueryExpr.Proofs.Phrase.Reading
import QueryExpr.Proofs.Registry.Standard
import QueryExpr.Proofs.Sql.Rendering
import QueryExpr.Proofs.Token.Scanning

/-!
# Queries are read back

The query text of an expression is read as the same expression, in which literals have the
types that reading gives them: truth values, integers of 64 bits, floating numbers of 64
bits and texts. So the text of what is read is the same text again.

* `Expr.retyped`: the expression with the literals that reading makes.
* `Registry.Operands.retyped`, `joined_retyped`: operators apply as before, to the same categories.
* `elaborate_phrase`: the phrase of an expression stands for the retyped expression.
* `Sql.query_round_trip`: **a query is read back**, whatever it was built of.
-/

namespace QueryExpr

open Registry

/-! ## The expression that is read -/

/-- The literal that reading makes of a value. Null stays a raw value. -/
def Value.literal : Value → Expr
  | .bool b => .bool b
  | .int n => .int64 n
  | .float x => .float64 x
  | .text s => .string s
  | v => .value v

namespace Expr

/-- The expression with the literals that reading makes of its raw values and typed scalars. -/
def retyped : Expr → Expr
  | value v => v.literal
  | node (.scalar _) [value v] _ => v.literal
  | node (.binary op) [l, r] c => node (.binary op) [l.retyped, r.retyped] c
  | node .not [e] c => node .not [e.retyped] c
  | e => e

/-- The floating numbers among the literals. -/
def floats : Expr → List Float
  | value (.float x) => [x]
  | node (.scalar _) [value (.float x)] _ => [x]
  | node (.binary _) [l, r] _ => l.floats ++ r.floats
  | node .not [e] _ => e.floats
  | _ => []

/-- The leaves of a query over a source: typed scalars and raw values that can be spelled,
and columns whose names are single tokens. -/
inductive IsLeaf (s : Expr) : Expr → Prop
  | scalar {t : ValueType} {v : Value} (hv : t.accepts v = true) (h : v.isSpelled = true) :
    IsLeaf s (scalar t v)
  | value {v : Value} (h : v.isSpelled = true) : IsLeaf s (value v)
  | column {name : String} {e : Expr} (h : s.column name = .ok e)
    (hn : Token.tokenize name = .ok [.identifier name]) : IsLeaf s e

end Expr

open QueryExpr.Expr

variable {s e a b x : Expr} {op : BinaryOp} {v : Value} {t : ValueType}

/-! ## Categories and operands stay -/

theorem Expr.IsLeaf.closed (h : IsLeaf s e) : e.categories.closure = e.categories := by
  cases h with
  | scalar hv h => exact Categories.closure_closure _
  | value h => exact Value.closure_categories _
  | column h hn =>
    obtain ⟨_, _, -, -, rfl⟩ := column_ok h
    exact Categories.closure_closure _

theorem literal_categories (v : Value) : v.literal.categories = v.categories := by
  cases v with
  | bool b =>
    exact (by decide : (ValueType.bool.categories .scalar).closure =
      (Categories.ofList [.scalar, .boolean]).closure)
  | int n =>
    exact (by decide : (ValueType.int64.categories .scalar).closure =
      (Categories.ofList [.scalar, .integer]).closure)
  | float x =>
    exact (by decide : (ValueType.float64.categories .scalar).closure =
      (Categories.ofList [.scalar, .floating]).closure)
  | text s =>
    exact (by decide : (ValueType.string.categories .scalar).closure =
      (Categories.ofList [.scalar, .string]).closure)
  | _ => rfl

/-- All the types of scalars that can hold a value have its categories. -/
theorem scalar_categories (hv : t.accepts v = true) (h : v.isSpelled = true) :
    (scalar t v).categories = v.categories := by
  have hs : (scalar t v).categories = (t.categories .scalar).closure := rfl
  cases v with
  | bool b =>
    have hc : (Value.bool b).categories = (Categories.ofList [.scalar, .boolean]).closure := rfl
    rw [hs, hc]
    cases t <;> cases hv
    decide
  | int n =>
    -- the integers of all widths are of one kind
    have hc : (Value.int n).categories = (Categories.ofList [.scalar, .integer]).closure := rfl
    rw [hs, hc]
    cases t <;> first | decide | cases hv
  | float x =>
    have hc : (Value.float x).categories = (Categories.ofList [.scalar, .floating]).closure := rfl
    rw [hs, hc]
    cases t <;> first | decide | cases hv
  | text s =>
    have hc : (Value.text s).categories = (Categories.ofList [.scalar, .string]).closure := rfl
    rw [hs, hc]
    cases t <;> cases hv
    decide
  | null => cases t <;> cases hv
  | _ => cases h

theorem literal_isValue (h : v.isSpelled = true) (hv : v.literal.isValue = true) : v = .null := by
  cases v with
  | null => rfl
  | bool _ | int _ | float _ | text _ => cases hv
  | _ => cases h

/-- Retyping an expression keeps its categories, and leaves no raw value but null. -/
structure Expr.Retypes (e : Expr) : Prop where
  categories : e.retyped.categories = e.categories
  null : e.retyped.isValue = true → e = .value .null

/-- **What is formed of leaves keeps its categories.** -/
theorem Expr.retypes (h : Formed (IsLeaf s) e) : Retypes e := by
  cases h with
  | leaf h =>
    cases h with
    | @scalar t v hv h =>
      refine ⟨(literal_categories v).trans (scalar_categories hv h).symm, fun hval => ?_⟩
      have hnull := literal_isValue h hval
      subst hnull
      cases t <;> cases hv
    | value h => exact ⟨literal_categories _, fun hval => by rw [literal_isValue h hval]⟩
    | column h hn =>
      obtain ⟨_, _, -, -, rfl⟩ := column_ok h
      exact ⟨rfl, nofun⟩
  | joined ha hb h => exact ⟨rfl, nofun⟩
  | negated hx hv hlegal => exact ⟨rfl, nofun⟩

theorem Expr.Retypes.legal (h : Retypes e) (family : Family) :
    isLegalOperand family e.retyped = isLegalOperand family e := by
  by_cases hnull : e = .value .null
  · -- null is legal everywhere, and retyping leaves it as it is
    subst hnull
    rfl
  · have hne : e.retyped ≠ .value .null := fun he => hnull (h.null (by rw [he]; rfl))
    rw [isLegalOperand_of_ne family hne, isLegalOperand_of_ne family hnull, h.categories]

theorem Expr.Retypes.isValue (h : Retypes e) (hv : e.isValue = false) : e.retyped.isValue = false := by
  cases hr : e.retyped.isValue with
  | false => rfl
  | true =>
    rw [h.null hr] at hv
    cases hv

/-- **Retyped operands suit the operator** if the operands do. -/
theorem Registry.Operands.retyped (ha : Retypes a) (hb : Retypes b) (h : Operands op a b) :
    Operands op a.retyped b.retyped where
  left := by rw [ha.legal, h.left]
  right := by rw [hb.legal, h.right]
  chooses := h.chooses.imp ha.isValue fun hc => ⟨hc.1, hb.isValue hc.2⟩

theorem joined_retyped (ha : Retypes a) (hb : Retypes b) :
    joined op a.retyped b.retyped = (joined op a b).retyped := by
  have hc : (standardConstructor (.binary op)).resultCategories [a.retyped, b.retyped] =
      (standardConstructor (.binary op)).resultCategories [a, b] :=
    resultCategories_congr _ (by simp [ha.categories, hb.categories])
  rw [joined, hc]
  rfl

theorem negated_retyped (hx : Retypes x) : negated x.retyped = (negated x).retyped := by
  have hc : (standardConstructor .not).resultCategories [x.retyped] =
      (standardConstructor .not).resultCategories [x] :=
    resultCategories_congr _ (by simp [hx.categories])
  rw [negated, hc]
  rfl

/-! ## Elaborating the phrase -/

theorem ofNumber_int (n : Int64) :
    Phrase.ofNumber (decide (n.toInt < 0)) (toString n.toInt.natAbs) = .ok (.int64 n) := by
  have hlist : (toString n.toInt.natAbs).toList = Nat.toDigits 10 n.toInt.natAbs := by
    rw [Nat.toString_eq_ofList_toDigits, String.toList_ofList]
  have hplain : Phrase.isFloating (toString n.toInt.natAbs) = false := by
    rw [Phrase.isFloating, hlist, List.any_eq_false]
    intro c hc hmark
    have hd : c.isDigit = true := (Token.isDigits_toDigits _).2 c hc
    simp only [Bool.or_eq_true, beq_iff_eq] at hmark
    rcases hmark with (rfl | rfl) | rfl <;> exact absurd hd (by decide)
  have hvalue : (if decide (n.toInt < 0) = true then -(n.toInt.natAbs : Int) else n.toInt.natAbs) =
      n.toInt := by
    by_cases h : n.toInt < 0
    · rw [decide_eq_true h, if_pos rfl]
      omega
    · rw [decide_eq_false h, if_neg Bool.false_ne_true]
      omega
  rw [Phrase.ofNumber, hplain, hlist, Token.digitsValue_toDigits]
  simp only [Bool.false_eq_true, if_false]
  rw [hvalue, Integer.ofInt?_eq_some_iff.mpr rfl]

theorem ofNumber_float {y : Float} (hy : y.isFinite = true)
    (hread : FloatText.read? (FloatText.text y) = some y) :
    Phrase.ofNumber (FloatText.isNegative y) (FloatText.unsignedText y.abs) = .ok (.float64 y) := by
  have hfloating : Phrase.isFloating (FloatText.unsignedText y.abs) = true := by
    obtain ⟨-, c, hc, hmark⟩ := Token.isNumeral_float y.abs
    rw [Phrase.isFloating, List.any_eq_true]
    refine ⟨c, hc, ?_⟩
    rcases hmark with rfl | rfl <;> decide
  have hwritten : (if FloatText.isNegative y then "-" ++ FloatText.unsignedText y.abs
      else FloatText.unsignedText y.abs) = FloatText.text y := by
    rw [FloatText.text_of_isFinite hy]
    cases FloatText.isNegative y with
    | false => rw [if_neg Bool.false_ne_true, if_neg Bool.false_ne_true, String.empty_append]
    | true => rw [if_pos rfl, if_pos rfl]
  rw [Phrase.ofNumber, hwritten, hfloating, if_pos rfl, hread]

/-- The phrase of a value stands for its literal. -/
theorem elaborate_value (r : Registry) (source? : Option Expr) (h : v.isSpelled = true)
    (hf : ∀ y ∈ (Expr.value v).floats, FloatText.read? (FloatText.text y) = some y) :
    v.phrase.elaborate r source? = .ok v.literal := by
  cases v with
  | null | bool _ | text _ => rfl
  | int n => exact ofNumber_int n
  | float y => exact ofNumber_float h (hf y (by simp [floats]))
  | _ => cases h

/-- **The phrase of an expression stands for the retyped expression.** -/
theorem elaborate_phrase (h : Formed (IsLeaf s) e)
    (hf : ∀ y ∈ e.floats, FloatText.read? (FloatText.text y) = some y) :
    e.phrase.elaborate standard (some s) = .ok e.retyped := by
  -- the registry only looks at categories, and those of the operands are as before
  have hclosed : ∀ {e}, Formed (IsLeaf s) e → e.retyped.categories.closure = e.retyped.categories := by
    intro e h
    rw [(retypes h).categories, h.closed fun _ => IsLeaf.closed]
  induction h with
  | leaf h =>
    cases h with
    | @scalar t v hv h =>
      have hfloats : (scalar t v).floats = (value v).floats := by cases v <;> rfl
      rw [hfloats] at hf
      exact elaborate_value standard (some s) h hf
    | value h => exact elaborate_value standard (some s) h hf
    | column h hn =>
      have hc := h
      obtain ⟨_, _, -, -, rfl⟩ := column_ok hc
      exact h
  | joined ha hb h iha ihb =>
    have hla := iha fun y hy => hf y (List.mem_append_left _ hy)
    have hlb := ihb fun y hy => hf y (List.mem_append_right _ hy)
    show (do
      let left ← Phrase.elaborate standard (some s) _
      let right ← Phrase.elaborate standard (some s) _
      standard.applyBinary _ left right) = _
    rw [hla, hlb]
    refine (applyBinary_of_operands (hclosed ha) (hclosed hb) ?_).trans ?_
    · exact h.retyped (retypes ha) (retypes hb)
    · rw [joined_retyped (retypes ha) (retypes hb)]
  | negated hx hv hlegal ih =>
    have hlx := ih hf
    show (do
      let operand ← Phrase.elaborate standard (some s) _
      standard.applyUnary _ operand) = _
    rw [hlx]
    refine (applyUnary_of_operand (hclosed hx) ((retypes hx).isValue hv) ?_).trans ?_
    · rw [(retypes hx).legal, hlegal]
    · rw [negated_retyped (retypes hx)]

/-! ## The round trip -/

/-- What is formed of leaves that are written without loss is written so as well. -/
theorem spelled_of_leaves {leaf : Expr → Prop} (hleaf : ∀ e, leaf e → e.Spelled)
    (h : Formed leaf e) : e.Spelled := by
  induction h with
  | leaf h => exact hleaf _ h
  | joined _ _ _ iha ihb => exact .binary iha ihb
  | negated _ _ _ ih => exact .not ih

theorem Expr.IsLeaf.spelled (hs : s.IsSource) (h : IsLeaf s e) : e.Spelled := by
  cases h with
  | scalar hv h => exact .scalar h
  | value h => exact .value h
  | column h hn =>
    obtain ⟨_, _, -, -, rfl⟩ := column_ok h
    exact .column hs hn

theorem Value.spelled_literal (h : v.isSpelled = true) : v.literal.Spelled := by
  cases v with
  | null => exact .value rfl
  | bool _ | int _ | text _ => exact .scalar rfl
  | float y => exact .scalar h
  | _ => cases h

theorem Value.phrase_literal (v : Value) : v.literal.phrase = v.phrase := by
  cases v <;> rfl

/-- The retyped expression is written without loss as well, and says the same phrase. -/
theorem retyped_phrase (hs : s.IsSource) (h : Formed (IsLeaf s) e) :
    e.retyped.Spelled ∧ e.retyped.phrase = e.phrase := by
  induction h with
  | leaf h =>
    cases h with
    | scalar hv h => exact ⟨Value.spelled_literal h, Value.phrase_literal _⟩
    | value h => exact ⟨Value.spelled_literal h, Value.phrase_literal _⟩
    | column h hn =>
      obtain ⟨_, _, -, -, rfl⟩ := column_ok h
      exact ⟨.column hs hn, rfl⟩
  | joined _ _ _ iha ihb =>
    refine ⟨.binary iha.1 ihb.1, ?_⟩
    show Phrase.binary _ _ _ = Phrase.binary _ _ _
    rw [iha.2, ihb.2]
  | negated _ _ _ ih =>
    refine ⟨.not ih.1, ?_⟩
    show Phrase.not _ = Phrase.not _
    rw [ih.2]

namespace Sql

/-- **A query is read back.** An expression that the standard operators build of spelled
scalars, raw values and the columns of a source has a query text. Against that source the
text is read as the same expression, but for the types of its literals, and what is read has
the same text. -/
theorem query_round_trip (hs : s.IsSource) (he : Built standard (IsLeaf s) e)
    (hf : ∀ y ∈ e.floats, FloatText.read? (FloatText.text y) = some y) {limit : Nat}
    (hl : 2 ≤ limit) :
    ∃ sql, compile (compiler limit) e = .ok sql ∧
      Expr.parse standard (some s) sql = .ok e.retyped ∧
      compile (compiler limit) e.retyped = .ok sql := by
  have hformed := formed_of_built (fun _ => IsLeaf.closed) he
  have hspelled := spelled_of_leaves (fun _ => IsLeaf.spelled hs) hformed
  obtain ⟨hspelled', hphrase⟩ := retyped_phrase hs hformed
  refine ⟨e.phrase.fragment.text, compile_phrase hspelled hl, ?_, ?_⟩
  · rw [Expr.parse, Phrase.tokenize_fragment hspelled.plain]
    show (readPhrase e.phrase.tokens).elaborate standard (some s) = _
    rw [readPhrase_tokens hspelled.plain, elaborate_phrase hformed hf]
  · rw [compile_phrase hspelled' hl, hphrase]

/-- A table with one column of integers. -/
def singleColumn (name : String) (h : name ≠ "") : Table where
  name := "t"
  schema := ⟨[⟨name, .int32, false⟩], by simpa using h, by simp⟩
  database? := none
  schemaName? := none

/-- The negation of `7 < 1.5 - a`, whose comparison is built as its mirror image. -/
theorem query_round_trip_mirrored :
    ∃ s a d m n sql, s = Expr.table (singleColumn "a" (by decide)) ∧ s.column "a" = .ok a ∧
      standard.applyBinary (.binary .subtract) (.value (.float 1.5)) a = .ok d ∧
      standard.applyBinary (.binary .less) (.value (.int 7)) d = .ok m ∧
      standard.applyUnary .not m = .ok n ∧
      compile (compiler Settings.defaultLimit) n = .ok sql ∧
      Expr.parse standard (some s) sql = .ok n.retyped ∧
      compile (compiler Settings.defaultLimit) n.retyped = .ok sql := by
  obtain ⟨a, ha⟩ : ∃ a, (Expr.table (singleColumn "a" (by decide))).column "a" = .ok a := ⟨_, rfl⟩
  have hname : Token.tokenize "a" = .ok [.identifier "a"] := by decide +kernel
  have hd : standard.applyBinary (.binary .subtract) (.value (.float 1.5)) a =
      .ok (joined .subtract (.value (.float 1.5)) a) := by
    cases ha
    rfl
  have hm : standard.applyBinary (.binary .less) (.value (.int 7))
      (joined .subtract (.value (.float 1.5)) a) =
        .ok (joined .greater (joined .subtract (.value (.float 1.5)) a) (.value (.int 7))) := by
    cases ha
    rfl
  have hn := applyUnary_of_operand
    (x := joined .greater (joined .subtract (.value (.float 1.5)) a) (.value (.int 7)))
    (Categories.closure_closure _) rfl (by cases ha; rfl)
  have hvalue : ∀ v : Value, v.isSpelled = true →
      Built standard (IsLeaf (Expr.table (singleColumn "a" (by decide)))) (.value v) :=
    fun v h => .leaf (.value h)
  have hbuilt := Built.unary (.binary (hvalue (.int 7) rfl)
    (.binary (hvalue (.float 1.5) rfl) (.leaf (.column ha hname)) hd) hm) hn
  have hfloat : FloatText.read? (FloatText.text 1.5) = some 1.5 := by decide +kernel
  obtain ⟨sql, h⟩ := query_round_trip (.table _) hbuilt
    (by
      cases ha
      intro y hy
      rw [List.mem_singleton.mp hy]
      exact hfloat)
    (show 2 ≤ Settings.defaultLimit by decide)
  exact ⟨_, a, _, _, _, sql, rfl, ha, hd, hm, hn, h⟩

/-- A name may be a token without being the text of the token: the column named ` a` is
written with its blank, and read as a column `a` that the table does not have. -/
theorem padded_column_not_read_back :
    ∃ s e, s = Expr.table (singleColumn " a" (by decide)) ∧ s.column " a" = .ok e ∧
      Token.tokenize " a" = .ok [.identifier "a"] ∧
      compile (compiler Settings.defaultLimit) e = .ok " a" ∧
      Expr.parse standard (some s) " a" = .error (.unknownColumns "t" ["a"]) := by
  have hname : Token.tokenize " a" = .ok [.identifier "a"] := by decide +kernel
  have hread : readPhrase [.identifier "a"] = .column "a" :=
    readPhrase_tokens (.column (by decide +kernel))
  refine ⟨_, _, rfl, rfl, hname, by cbv, ?_⟩
  rw [Expr.parse, hname]
  show (readPhrase _).elaborate _ _ = _
  rw [hread]
  rfl

end Sql

end QueryExpr
