import QueryExpr.Phrase
import QueryExpr.Proofs.Token.Numeral
import QueryExpr.Sql.Fragment

/-!
# Phrases as queries spell them

The other direction of reading: the fragment of query text and the list of tokens that a
phrase is spelled with. Both have parentheses in the same places, those that the bindings of
the operators ask for.

* `fragment_precedence`: a fragment binds as tightly as the level that reads the phrase.
* `le_of_not_leftNeeds`, `next_le_of_not_rightNeeds`: operands without parentheses bind
  tightly enough for the level on which they are read.
-/

namespace QueryExpr

namespace BinaryOp

/-- The token with which the spelling of an operator begins. -/
def token : BinaryOp → Token
  | power => .sign .doubleStar
  | multiply => .sign .star
  | divide => .sign .slash
  | floorDivide => .sign .doubleSlash
  | modulus => .sign .percent
  | add => .sign .plus
  | subtract => .sign .minus
  | equals => .sign .equal
  | notEquals => .sign .notEqual
  | greaterEqual => .sign .greaterEqual
  | greater => .sign .greater
  | lessEqual => .sign .lessEqual
  | less => .sign .less
  | identical => .keyword .is
  | and => .keyword .and
  | xor => .keyword .xor
  | or => .keyword .or

/-- The tokens after the first one. -/
def moreTokens : BinaryOp → List Token
  | identical => [.keyword .not, .keyword .distinct, .keyword .fromWord]
  | _ => []

/-- The level that reads an operator. -/
def level : BinaryOp → Level
  | power => .power
  | multiply | divide | floorDivide | modulus => .product
  | add | subtract => .sum
  | equals | notEquals | greaterEqual | greater | lessEqual | less | identical => .comparison
  | and => .conjunction
  | xor => .exclusive
  | or => .disjunction

/-- No two operators begin with one token. -/
theorem token_inj {op op' : BinaryOp} (h : op.token = op'.token) : op = op' := by
  have hall : ∀ a ∈ all, ∀ b ∈ all, a.token = b.token → a = b := by decide
  exact hall op (mem_all op) op' (mem_all op') h

end BinaryOp

namespace Level

/-- The next tighter level; there is none after the tightest. -/
def next : Level → Level
  | disjunction => exclusive
  | exclusive => conjunction
  | conjunction => negation
  | negation => comparison
  | comparison => sum
  | sum => product
  | product => signed
  | signed => power
  | power => primary
  | primary => primary

/-- How tightly whatever a level reads binds at least. -/
def strength : Level → Nat
  | disjunction => BinaryOp.or.precedence
  | exclusive => BinaryOp.xor.precedence
  | conjunction => BinaryOp.and.precedence
  | negation => Fragment.notPrecedence
  | comparison => BinaryOp.equals.precedence
  | sum => BinaryOp.add.precedence
  | product => BinaryOp.multiply.precedence
  | signed => Fragment.signPrecedence
  | power => BinaryOp.power.precedence
  | primary => Fragment.atomic

/-- Whatever binds more tightly than a level is read on the next one. -/
theorem strength_next {ℓ m : Level} (h : ℓ.strength < m.strength) : ℓ.next.strength ≤ m.strength := by
  revert h
  cases ℓ <;> cases m <;> decide

theorem strength_inj {ℓ m : Level} (h : ℓ.strength = m.strength) : ℓ = m := by
  revert h
  cases ℓ <;> cases m <;> decide

theorem strength_le_next (ℓ : Level) : ℓ.strength ≤ ℓ.next.strength := by cases ℓ <;> decide

theorem strength_le_primary (ℓ : Level) : ℓ.strength ≤ primary.strength := by cases ℓ <;> decide

theorem disjunction_le_strength (ℓ : Level) : disjunction.strength ≤ ℓ.strength := by
  cases ℓ <;> decide

theorem looseness_next {ℓ : Level} (h : ℓ ≠ primary) : ℓ.next.looseness < ℓ.looseness := by
  revert h
  cases ℓ <;> decide

end Level

theorem BinaryOp.precedence_eq (op : BinaryOp) : op.precedence = op.level.strength := by
  cases op <;> rfl

theorem Fragment.number_text (s : String) : (Fragment.number s).text = s := by
  unfold Fragment.number
  split <;> rfl

namespace Phrase

/-- The fragment of query text for a phrase; phrases that only reading makes have none. -/
def fragment : Phrase → Fragment
  | number negative digits => .number ((if negative then "-" else "") ++ digits)
  | text s => .atom (Fragment.quote s)
  | truth b => .atom (if b then "TRUE" else "FALSE")
  | null => .atom "NULL"
  | column name => .atom name
  | not operand => operand.fragment.negation
  | binary op left right => .binary op left.fragment right.fragment
  | negate _ | fault _ | faultAfter _ _ => .atom ""

/-- Tokens in parentheses if need be. -/
def wrap (inParentheses : Bool) (ts : List Token) : List Token :=
  if inParentheses then .sign .leftParen :: ts ++ [.sign .rightParen] else ts

/-- The tokens of the fragment. -/
def tokens : Phrase → List Token
  | number negative digits => (if negative then [.sign .minus] else []) ++ [.number digits]
  | text s => [.text s]
  | truth b => [.keyword (if b then .trueValue else .falseValue)]
  | null => [.keyword .nullValue]
  | column name => [.identifier name]
  | not operand =>
    .keyword .not ::
      wrap (decide (operand.fragment.precedence < Fragment.notPrecedence)) operand.tokens
  | binary op left right =>
    wrap (Fragment.leftNeedsParentheses op left.fragment) left.tokens ++ op.token :: op.moreTokens
      ++ wrap (Fragment.rightNeedsParentheses op right.fragment) right.tokens
  | negate _ | fault _ | faultAfter _ _ => []

/-- The tightest level that reads the phrase. -/
def level : Phrase → Level
  | number true _ => .signed
  | not _ => .negation
  | binary op _ _ => op.level
  | _ => .primary

/-- Phrases that are spelled: their numbers are numerals, and each name is one token. -/
inductive Plain : Phrase → Prop
  | number {negative : Bool} {digits : String} (h : Token.IsNumeral digits.toList) :
    Plain (.number negative digits)
  | text (s : String) : Plain (.text s)
  | truth (b : Bool) : Plain (.truth b)
  | null : Plain .null
  | column {name : String} (h : Token.tokenize name = .ok [.identifier name]) :
    Plain (.column name)
  | not {operand : Phrase} (h : Plain operand) : Plain (.not operand)
  | binary {op : BinaryOp} {left right : Phrase} (hl : Plain left) (hr : Plain right) :
    Plain (.binary op left right)

theorem startsWithMinus_numeral {digits : String} (h : Token.IsNumeral digits.toList) :
    Fragment.startsWithMinus digits = false := by
  obtain ⟨d, tail, he, hd⟩ := h.isNumber.head
  rw [Fragment.startsWithMinus, he]
  have hne : d ≠ '-' := by
    rintro rfl
    exact absurd hd (by decide)
  simp [hne]

/-- **A fragment binds as tightly as the level that reads the phrase.** -/
theorem fragment_precedence {p : Phrase} (h : p.Plain) : p.fragment.precedence = p.level.strength := by
  cases h with
  | @number negative digits h =>
    cases negative with
    | false =>
      have hm : Fragment.startsWithMinus ("" ++ digits) = false := by
        rw [String.empty_append]
        exact startsWithMinus_numeral h
      simp only [fragment, Fragment.number, Bool.false_eq_true, if_false, hm]
      rfl
    | true =>
      have hm : Fragment.startsWithMinus ("-" ++ digits) = true := by
        simp [Fragment.startsWithMinus, String.toList_append]
      simp only [fragment, Fragment.number, if_true, hm]
      rfl
  | text s => rfl
  | truth b => rfl
  | null => rfl
  | column h => rfl
  | not h => rfl
  | binary hl hr => exact BinaryOp.precedence_eq _

/-! ## Operands without parentheses -/

variable {op : BinaryOp} {p : Phrase}

/-- A left operand without parentheses is read on the level of the operator. -/
theorem le_of_not_leftNeeds (hp : p.Plain)
    (h : Fragment.leftNeedsParentheses op p.fragment = false) :
    op.level.strength ≤ p.level.strength := by
  rw [Fragment.leftNeedsParentheses, Bool.or_eq_false_iff, decide_eq_false_iff_not, Nat.not_lt,
    fragment_precedence hp, op.precedence_eq] at h
  exact h.1

/-- Unless the operator associates to the left, it is read on the next level. -/
theorem next_le_of_not_leftNeeds (hp : p.Plain) (ha : op.associativity ≠ .left)
    (h : Fragment.leftNeedsParentheses op p.fragment = false) :
    op.level.next.strength ≤ p.level.strength := by
  have hle := le_of_not_leftNeeds hp h
  apply Level.strength_next
  rw [Fragment.leftNeedsParentheses, Bool.or_eq_false_iff, fragment_precedence hp,
    op.precedence_eq] at h
  have hne : p.level.strength ≠ op.level.strength := by
    intro he
    simp [he, ha] at h
  omega

/-- A right operand without parentheses is read on the level of the operator. -/
theorem le_of_not_rightNeeds (hp : p.Plain)
    (h : Fragment.rightNeedsParentheses op p.fragment = false) :
    op.level.strength ≤ p.level.strength := by
  rw [Fragment.rightNeedsParentheses, Bool.or_eq_false_iff, Bool.or_eq_false_iff,
    decide_eq_false_iff_not, Nat.not_lt, fragment_precedence hp, op.precedence_eq] at h
  exact h.1.1

/-- Unless the operator associates to the right, it is read on the next level. -/
theorem next_le_of_not_rightNeeds (hp : p.Plain) (ha : op.associativity ≠ .right)
    (h : Fragment.rightNeedsParentheses op p.fragment = false) :
    op.level.next.strength ≤ p.level.strength := by
  have hle := le_of_not_rightNeeds hp h
  apply Level.strength_next
  rw [Fragment.rightNeedsParentheses, Bool.or_eq_false_iff, Bool.or_eq_false_iff,
    fragment_precedence hp, op.precedence_eq] at h
  have hne : p.level.strength ≠ op.level.strength := by
    intro he
    simp [he, ha] at h
  omega

end Phrase

end QueryExpr
