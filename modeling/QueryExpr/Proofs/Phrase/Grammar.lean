import QueryExpr.Phrase.Elaborate
import QueryExpr.Proofs.Phrase.Reading

/-!
# The grammar of expressions

    disjunction  =  exclusive { OR exclusive }
    exclusive    =  conjunction { XOR conjunction }
    conjunction  =  negation { AND negation }
    negation     =  NOT negation  |  comparison
    comparison   =  sum [ ( = | <> | < | <= | > | >= | IS NOT DISTINCT FROM ) sum ]
    sum          =  product { ( + | - ) product }
    product      =  signed { ( * | / | // | % ) signed }
    signed       =  - number  |  - signed  |  power
    power        =  primary [ ** signed ]
    primary      =  number | text | TRUE | FALSE | NULL | identifier | ( disjunction )

A minus sign and a number are one literal exactly if no `**` follows the number.

A derivation is a tree that applies these rules. It spells a list of tokens, and what it stands
for is built from the bottom up.

* `Derivation.elaborate_phrase`: the phrase of a derivation stands for what it builds.
* `Derivation.unique`: **the grammar is unambiguous.** Of two derivations that spell the beginning
  of one list of tokens, and after which nothing goes on, there is only one.
-/

namespace QueryExpr

/-- The levels whose operators are chained from left to right. -/
def Level.isChained : Level → Bool
  | .disjunction | .exclusive | .conjunction | .sum | .product => true
  | _ => false

/-! ## Derivations -/

/-- The expressions of a single token. -/
inductive Atom where
  | number (digits : String)
  | text (s : String)
  | truth (b : Bool)
  | null
  | column (name : String)

mutual

/-- A derivation from the symbol of a level. -/
inductive Derivation : Level → Type
  | atom (a : Atom) : Derivation .primary
  | parentheses (inner : Derivation .disjunction) : Derivation .primary
  | base (operand : Derivation .primary) : Derivation .power
  | power (base : Derivation .primary) (exponent : Derivation .signed) : Derivation .power
  /-- A negative literal. -/
  | negative (digits : String) : Derivation .signed
  | negate (operand : Derivation .signed) : Derivation .signed
  | unsigned (operand : Derivation .power) : Derivation .signed
  | single (operand : Derivation .sum) : Derivation .comparison
  | compare (op : BinaryOp) (h : op.level = .comparison) (left right : Derivation .sum) :
    Derivation .comparison
  | not (operand : Derivation .negation) : Derivation .negation
  | plain (operand : Derivation .comparison) : Derivation .negation
  | chain {ℓ : Level} (h : ℓ.isChained = true) (first : Derivation ℓ.next) (more : Chain ℓ) :
    Derivation ℓ

/-- The operators of a level with their right operands. -/
inductive Chain : Level → Type
  | nil {ℓ : Level} : Chain ℓ
  | cons {ℓ : Level} (op : BinaryOp) (h : op.level = ℓ) (operand : Derivation ℓ.next)
    (more : Chain ℓ) : Chain ℓ

end

namespace Atom

def token : Atom → Token
  | number digits => .number digits
  | text s => .text s
  | truth b => .keyword (if b then .trueValue else .falseValue)
  | null => .keyword .nullValue
  | column name => .identifier name

/-- The expression that a single token stands for. -/
def build (source? : Option Expr) : Atom → Except Error Expr
  | number digits => Phrase.ofNumber false digits
  | text s => .ok (.string s)
  | truth b => .ok (.bool b)
  | null => .ok (.value .null)
  | column name => Phrase.ofColumn source? name

def phrase : Atom → Phrase
  | number digits => .number false digits
  | text s => .text s
  | truth b => .truth b
  | null => .null
  | column name => .column name

theorem atom?_token (a : Atom) : atom? a.token = some a.phrase := by
  cases a with
  | truth b => cases b <;> rfl
  | _ => rfl

theorem token_inj {a b : Atom} (h : a.token = b.token) : a = b := by
  cases a with
  | truth x => cases x <;> cases b with
    | truth y => cases y <;> first | rfl | cases h
    | _ => cases h
  | _ => cases b with
    | truth y => cases y <;> cases h
    | _ => cases h <;> rfl

end Atom

mutual

/-- The tokens that a derivation spells. -/
def Derivation.tokens {ℓ : Level} : Derivation ℓ → List Token
  | .atom a => [a.token]
  | .parentheses inner => .sign .leftParen :: (inner.tokens ++ [.sign .rightParen])
  | .base operand => operand.tokens
  | .power base exponent => base.tokens ++ .sign .doubleStar :: exponent.tokens
  | .negative digits => [.sign .minus, .number digits]
  | .negate operand => .sign .minus :: operand.tokens
  | .unsigned operand => operand.tokens
  | .single operand => operand.tokens
  | .compare op _ left right => left.tokens ++ op.token :: (op.moreTokens ++ right.tokens)
  | .not operand => .keyword .not :: operand.tokens
  | .plain operand => operand.tokens
  | .chain _ first more => first.tokens ++ more.tokens

def Chain.tokens {ℓ : Level} : Chain ℓ → List Token
  | .nil => []
  | .cons op _ operand more => op.token :: (operand.tokens ++ more.tokens)

end

/-- The tokens begin with a number that a power does not follow. -/
def BeginsWithLiteral (ts : List Token) : Prop :=
  ∃ digits tail, ts = .number digits :: tail ∧ tail.head? ≠ some (.sign .doubleStar)

mutual

/-- Before `rest` each minus sign is read as the grammar has it: it makes a number that no power
follows a negative literal, and negates anything else. -/
def Derivation.Fits {ℓ : Level} : Derivation ℓ → (rest : List Token) → Prop
  | .atom _, _ => True
  | .parentheses inner, rest => inner.Fits (.sign .rightParen :: rest)
  | .base operand, rest => operand.Fits rest
  | .power base exponent, rest =>
    base.Fits (.sign .doubleStar :: (exponent.tokens ++ rest)) ∧ exponent.Fits rest
  | .negative _, rest => rest.head? ≠ some (.sign .doubleStar)
  | .negate operand, rest => operand.Fits rest ∧ ¬ BeginsWithLiteral (operand.tokens ++ rest)
  | .unsigned operand, rest => operand.Fits rest
  | .single operand, rest => operand.Fits rest
  | .compare op _ left right, rest =>
    left.Fits (op.token :: (op.moreTokens ++ (right.tokens ++ rest))) ∧ right.Fits rest
  | .not operand, rest => operand.Fits rest
  | .plain operand, rest => operand.Fits rest
  | .chain _ first more, rest => first.Fits (more.tokens ++ rest) ∧ more.Fits rest

def Chain.Fits {ℓ : Level} : Chain ℓ → (rest : List Token) → Prop
  | .nil, _ => True
  | .cons _ _ operand more, rest => operand.Fits (more.tokens ++ rest) ∧ more.Fits rest

end

/-- **The derivation derives a list of tokens**, after which comes the end. -/
def Derivation.Derives {ℓ : Level} (d : Derivation ℓ) (ts : List Token) : Prop :=
  d.tokens = ts ∧ d.Fits []

/-! ## What a derivation stands for -/

section Build

variable (r : Registry) (source? : Option Expr)

mutual

/-- **The expression that a derivation builds** from the bottom up: names become columns of the
source, and operators are applied through the registry. -/
def Derivation.build {ℓ : Level} : Derivation ℓ → Except Error Expr
  | .atom a => a.build source?
  | .parentheses inner => inner.build
  | .base operand => operand.build
  | .power base exponent => do
    let base ← base.build
    let exponent ← exponent.build
    r.applyBinary (.binary .power) base exponent
  | .negative digits => Phrase.ofNumber true digits
  | .negate operand => do
    let operand ← operand.build
    r.applyBinary (.binary .subtract) (.int64 0) operand
  | .unsigned operand => operand.build
  | .single operand => operand.build
  | .compare op _ left right => do
    let left ← left.build
    let right ← right.build
    r.applyBinary (.binary op) left right
  | .not operand => do
    let operand ← operand.build
    r.applyUnary .not operand
  | .plain operand => operand.build
  | .chain _ first more => do
    let first ← first.build
    more.build first

/-- Applies the operators of a chain from left to right, the first of them to `left`. -/
def Chain.build {ℓ : Level} : Chain ℓ → (left : Expr) → Except Error Expr
  | .nil, left => .ok left
  | .cons op _ operand more, left => do
    let right ← operand.build
    let joined ← r.applyBinary (.binary op) left right
    more.build joined

end

end Build

mutual

/-- The phrase that a derivation says. -/
def Derivation.phrase {ℓ : Level} : Derivation ℓ → Phrase
  | .atom a => a.phrase
  | .parentheses inner => inner.phrase
  | .base operand => operand.phrase
  | .power base exponent => .binary .power base.phrase exponent.phrase
  | .negative digits => .number true digits
  | .negate operand => .negate operand.phrase
  | .unsigned operand => operand.phrase
  | .single operand => operand.phrase
  | .compare op _ left right => .binary op left.phrase right.phrase
  | .not operand => .not operand.phrase
  | .plain operand => operand.phrase
  | .chain _ first more => more.phrase first.phrase

def Chain.phrase {ℓ : Level} : Chain ℓ → (left : Phrase) → Phrase
  | .nil, left => left
  | .cons op _ operand more, left => more.phrase (.binary op left operand.phrase)

end

variable {r : Registry} {source? : Option Expr}

theorem Atom.elaborate_phrase (a : Atom) : a.phrase.elaborate r source? = a.build source? := by
  cases a <;> rfl

mutual

/-- **The phrase of a derivation stands for what the derivation builds.** -/
theorem Derivation.elaborate_phrase {ℓ : Level} (d : Derivation ℓ) :
    d.phrase.elaborate r source? = d.build r source? := by
  match d with
  | .atom a => exact a.elaborate_phrase
  | .parentheses inner => exact inner.elaborate_phrase
  | .base operand => exact operand.elaborate_phrase
  | .power base exponent =>
    simp only [Derivation.phrase, Phrase.elaborate, base.elaborate_phrase,
      exponent.elaborate_phrase, Derivation.build]
  | .negative digits => rfl
  | .negate operand =>
    simp only [Derivation.phrase, Phrase.elaborate, operand.elaborate_phrase, Derivation.build]
  | .unsigned operand => exact operand.elaborate_phrase
  | .single operand => exact operand.elaborate_phrase
  | .compare op h left right =>
    simp only [Derivation.phrase, Phrase.elaborate, left.elaborate_phrase,
      right.elaborate_phrase, Derivation.build]
  | .not operand =>
    simp only [Derivation.phrase, Phrase.elaborate, operand.elaborate_phrase, Derivation.build]
  | .plain operand => exact operand.elaborate_phrase
  | .chain h first more =>
    rw [Derivation.phrase, more.elaborate_phrase, first.elaborate_phrase, Derivation.build]

/-- The left operand of a chain is built before the chain goes on. -/
theorem Chain.elaborate_phrase {ℓ : Level} (c : Chain ℓ) (left : Phrase) :
    (c.phrase left).elaborate r source? =
      left.elaborate r source? >>= fun e => c.build r source? e := by
  match c with
  | .nil =>
    rw [Chain.phrase]
    cases left.elaborate r source? <;> rfl
  | .cons op h operand more =>
    rw [Chain.phrase, more.elaborate_phrase, Phrase.elaborate, operand.elaborate_phrase, bind_assoc]
    simp only [bind_assoc, Chain.build]

end

/-! ## One derivation at most -/

/-- A single token is neither a minus sign nor `NOT`. -/
theorem Atom.opens (a : Atom) : Opens .primary [a.token] := by
  refine ⟨_, [], rfl, fun _ h => ?_, fun _ h => ?_⟩
  · cases a <;> cases h
  · cases a with
    | truth b => cases b <;> cases h
    | _ => cases h

/-- Only what a level takes for itself begins with a minus sign or with `NOT`. -/
theorem Derivation.opens {ℓ : Level} (d : Derivation ℓ) : Opens ℓ d.tokens := by
  match d with
  | .atom a => exact a.opens
  | .parentheses inner => exact Opens.paren _ _
  | .base operand => exact operand.opens.mono (by decide)
  | .power b exponent => exact (b.opens.mono (by decide)).append _
  | .negative digits => exact ⟨_, _, rfl, fun h => absurd h (Nat.lt_irrefl _), fun _ => nofun⟩
  | .negate operand => exact ⟨_, _, rfl, fun h => absurd h (Nat.lt_irrefl _), fun _ => nofun⟩
  | .unsigned operand => exact operand.opens.mono (by decide)
  | .single operand => exact operand.opens.mono (by decide)
  | .compare op h left right => exact (left.opens.mono (by decide)).append _
  | .not operand =>
    have hs : ¬ Level.signed.strength < Level.negation.strength := by decide
    exact ⟨_, _, rfl, fun h => absurd h hs, fun h => absurd h (Nat.lt_irrefl _)⟩
  | .plain operand => exact operand.opens.mono (by decide)
  | .chain h first more => exact (first.opens.mono (Level.strength_le_next _)).append _

/-- What a derivation spells does not begin with a minus sign that only a looser level takes. -/
theorem Derivation.ne_minus {ℓ : Level} (d : Derivation ℓ)
    (hℓ : Level.signed.strength < ℓ.strength) (rest tail : List Token) :
    d.tokens ++ rest ≠ .sign .minus :: tail := by
  obtain ⟨t, more, ht, hm, -⟩ := d.opens
  rw [ht, List.cons_append]
  intro h
  exact hm hℓ (List.cons.inj h).1

theorem Derivation.ne_not {ℓ : Level} (d : Derivation ℓ)
    (hℓ : Level.negation.strength < ℓ.strength) (rest tail : List Token) :
    d.tokens ++ rest ≠ .keyword .not :: tail := by
  obtain ⟨t, more, ht, -, hn⟩ := d.opens
  rw [ht, List.cons_append]
  intro h
  exact hn hℓ (List.cons.inj h).1

theorem Stops.ne_operator {ℓ : Level} {op : BinaryOp} {rest : List Token} (hs : Stops ℓ rest)
    (hop : ℓ.strength ≤ op.precedence) (tail : List Token) : rest ≠ op.token :: tail := by
  rintro rfl
  exact hs op hop rfl

theorem Level.strength_lt_next {ℓ : Level} (h : ℓ.isChained = true) :
    ℓ.strength < ℓ.next.strength := by
  revert h
  cases ℓ <;> decide

/-- Whether a chain goes on or not, it stops the operand before it. -/
theorem Chain.stops {ℓ : Level} {rest : List Token} (hℓ : ℓ.isChained = true) (c : Chain ℓ)
    (hs : Stops ℓ rest) : Stops ℓ.next (c.tokens ++ rest) := by
  cases c with
  | nil => exact hs.mono ℓ.strength_le_next
  | cons op h operand more =>
    refine Stops.operator ?_ _
    rw [op.precedence_eq, h]
    exact Level.strength_lt_next hℓ

namespace Derivation

/-! What stands at the top of a derivation, level by level. -/

theorem primary_cases (d : Derivation .primary) :
    (∃ a, d = .atom a) ∨ ∃ inner, d = .parentheses inner := by
  cases d with
  | atom a => exact .inl ⟨a, rfl⟩
  | parentheses inner => exact .inr ⟨inner, rfl⟩
  | chain h first more => cases h

theorem power_cases (d : Derivation .power) :
    (∃ operand, d = .base operand) ∨ ∃ b exponent, d = .power b exponent := by
  cases d with
  | base operand => exact .inl ⟨operand, rfl⟩
  | power b exponent => exact .inr ⟨b, exponent, rfl⟩
  | chain h first more => cases h

theorem signed_cases (d : Derivation .signed) :
    (∃ digits, d = .negative digits) ∨ (∃ operand, d = .negate operand) ∨
      ∃ operand, d = .unsigned operand := by
  cases d with
  | negative digits => exact .inl ⟨digits, rfl⟩
  | negate operand => exact .inr (.inl ⟨operand, rfl⟩)
  | unsigned operand => exact .inr (.inr ⟨operand, rfl⟩)
  | chain h first more => cases h

theorem comparison_cases (d : Derivation .comparison) :
    (∃ operand, d = .single operand) ∨ ∃ op h left right, d = .compare op h left right := by
  cases d with
  | single operand => exact .inl ⟨operand, rfl⟩
  | compare op h left right => exact .inr ⟨op, h, left, right, rfl⟩
  | chain h first more => cases h

theorem negation_cases (d : Derivation .negation) :
    (∃ operand, d = .not operand) ∨ ∃ operand, d = .plain operand := by
  cases d with
  | not operand => exact .inl ⟨operand, rfl⟩
  | plain operand => exact .inr ⟨operand, rfl⟩
  | chain h first more => cases h

theorem chain_cases {ℓ : Level} (hℓ : ℓ.isChained = true) (d : Derivation ℓ) :
    ∃ first more, d = .chain hℓ first more := by
  cases d with
  | chain h first more => exact ⟨first, more, rfl⟩
  | _ => cases hℓ

end Derivation

theorem Atom.token_ne_paren (a : Atom) : a.token ≠ .sign .leftParen := by
  cases a <;> nofun

theorem BinaryOp.strength_le_precedence {op : BinaryOp} {ℓ : Level} (h : op.level = ℓ) :
    ℓ.strength ≤ op.precedence := by
  have heq : ℓ.strength = op.precedence := by rw [op.precedence_eq, h]
  exact Nat.le_of_eq heq

theorem Stops.doubleStar (rest : List Token) : Stops .primary (.sign .doubleStar :: rest) := by
  have h : BinaryOp.power.precedence < Level.primary.strength := by decide
  exact Stops.operator h rest

theorem Stops.ne_doubleStar {rest : List Token} (hs : Stops .power rest) (tail : List Token) :
    rest ≠ .sign .doubleStar :: tail := by
  have h : Level.power.strength ≤ BinaryOp.power.precedence := by decide
  exact hs.ne_operator h tail

mutual

/-- **The grammar is unambiguous**: there is one derivation at most that spells the beginning
of a list of tokens up to where nothing goes on. -/
theorem Derivation.unique {ℓ : Level} (d d' : Derivation ℓ) {rest rest' : List Token}
    (h : d.tokens ++ rest = d'.tokens ++ rest') (hf : d.Fits rest) (hf' : d'.Fits rest')
    (hs : Stops ℓ rest) (hs' : Stops ℓ rest') : d = d' ∧ rest = rest' := by
  match ℓ, d with
  | _, .atom a =>
    obtain ⟨b, rfl⟩ | ⟨inner, rfl⟩ := d'.primary_cases
    · obtain ⟨ht, hr⟩ := List.cons.inj h
      exact ⟨by rw [Atom.token_inj ht], hr⟩
    · exact absurd (List.cons.inj h).1 a.token_ne_paren
  | _, .parentheses inner =>
    obtain ⟨b, rfl⟩ | ⟨inner', rfl⟩ := d'.primary_cases
    · exact absurd (List.cons.inj h).1.symm b.token_ne_paren
    · have htail : inner.tokens ++ .sign .rightParen :: rest =
          inner'.tokens ++ .sign .rightParen :: rest' := by
        simpa [Derivation.tokens] using h
      obtain ⟨rfl, hr⟩ := inner.unique inner' htail hf hf' (Stops.paren _ _) (Stops.paren _ _)
      exact ⟨rfl, (List.cons.inj hr).2⟩
  | _, .base operand =>
    have hstop : Stops .primary rest := hs.mono (by decide)
    obtain ⟨operand', rfl⟩ | ⟨b', exponent', rfl⟩ := d'.power_cases
    · obtain ⟨rfl, hr⟩ := operand.unique operand' h hf hf' hstop (hs'.mono (by decide))
      exact ⟨rfl, hr⟩
    · -- the power sign would go on with the operand
      rw [Derivation.tokens, Derivation.tokens, List.append_assoc, List.cons_append] at h
      obtain ⟨-, hr⟩ := operand.unique b' h hf hf'.1 hstop (Stops.doubleStar _)
      exact absurd hr (hs.ne_doubleStar _)
  | _, .power b exponent =>
    rw [Derivation.tokens, List.append_assoc, List.cons_append] at h
    obtain ⟨operand', rfl⟩ | ⟨b', exponent', rfl⟩ := d'.power_cases
    · obtain ⟨-, hr⟩ := b.unique operand' h hf.1 hf' (Stops.doubleStar _) (hs'.mono (by decide))
      exact absurd hr.symm (hs'.ne_doubleStar _)
    · rw [Derivation.tokens, List.append_assoc, List.cons_append] at h
      obtain ⟨rfl, hr⟩ := b.unique b' h hf.1 hf'.1 (Stops.doubleStar _) (Stops.doubleStar _)
      obtain ⟨rfl, hrest⟩ := exponent.unique exponent' (List.cons.inj hr).2 hf.2 hf'.2 hs.signed
        hs'.signed
      exact ⟨rfl, hrest⟩
  | _, .negative digits =>
    obtain ⟨digits', rfl⟩ | ⟨operand', rfl⟩ | ⟨operand', rfl⟩ := d'.signed_cases
    · simp only [Derivation.tokens, List.cons_append, List.nil_append, List.cons.injEq,
        Token.number.injEq, true_and] at h
      obtain ⟨rfl, hr⟩ := h
      exact ⟨rfl, hr⟩
    · exact absurd ⟨digits, rest, (List.cons.inj h).2.symm, hf⟩ hf'.2
    · exact absurd h.symm (operand'.ne_minus (by decide) _ _)
  | _, .negate operand =>
    obtain ⟨digits', rfl⟩ | ⟨operand', rfl⟩ | ⟨operand', rfl⟩ := d'.signed_cases
    · exact absurd ⟨digits', rest', (List.cons.inj h).2, hf'⟩ hf.2
    · obtain ⟨rfl, hr⟩ := operand.unique operand' (List.cons.inj h).2 hf.1 hf'.1 hs hs'
      exact ⟨rfl, hr⟩
    · exact absurd h.symm (operand'.ne_minus (by decide) _ _)
  | _, .unsigned operand =>
    obtain ⟨digits', rfl⟩ | ⟨operand', rfl⟩ | ⟨operand', rfl⟩ := d'.signed_cases
    · exact absurd h (operand.ne_minus (by decide) _ _)
    · exact absurd h (operand.ne_minus (by decide) _ _)
    · obtain ⟨rfl, hr⟩ := operand.unique operand' h hf hf' (hs.mono (by decide)) (hs'.mono (by decide))
      exact ⟨rfl, hr⟩
  | _, .single operand =>
    have hstop : Stops .sum rest := hs.mono (by decide)
    obtain ⟨operand', rfl⟩ | ⟨op, hop, left', right', rfl⟩ := d'.comparison_cases
    · obtain ⟨rfl, hr⟩ := operand.unique operand' h hf hf' hstop (hs'.mono (by decide))
      exact ⟨rfl, hr⟩
    · rw [Derivation.tokens, Derivation.tokens, List.append_assoc, List.cons_append,
        List.append_assoc] at h
      obtain ⟨-, hr⟩ := operand.unique left' h hf hf'.1 hstop
        (Stops.operator (BinaryOp.precedence_lt_sum hop) _)
      exact absurd hr (hs.ne_operator (BinaryOp.strength_le_precedence hop) _)
  | _, .compare op hop left right =>
    rw [Derivation.tokens, List.append_assoc, List.cons_append, List.append_assoc] at h
    have hstop := fun ts => Stops.operator (BinaryOp.precedence_lt_sum hop) ts
    obtain ⟨operand', rfl⟩ | ⟨op', hop', left', right', rfl⟩ := d'.comparison_cases
    · obtain ⟨-, hr⟩ := left.unique operand' h hf.1 hf' (hstop _) (hs'.mono (by decide))
      exact absurd hr.symm (hs'.ne_operator (BinaryOp.strength_le_precedence hop) _)
    · rw [Derivation.tokens, List.append_assoc, List.cons_append, List.append_assoc] at h
      obtain ⟨rfl, hr⟩ := left.unique left' h hf.1 hf'.1 (hstop _)
        (Stops.operator (BinaryOp.precedence_lt_sum hop') _)
      obtain ⟨ht, htail⟩ := List.cons.inj hr
      obtain rfl := BinaryOp.token_inj ht
      obtain ⟨rfl, hrest⟩ := right.unique right' (List.append_cancel_left htail) hf.2 hf'.2
        (hs.mono (by decide)) (hs'.mono (by decide))
      exact ⟨rfl, hrest⟩
  | _, .not operand =>
    obtain ⟨operand', rfl⟩ | ⟨operand', rfl⟩ := d'.negation_cases
    · obtain ⟨rfl, hr⟩ := operand.unique operand' (List.cons.inj h).2 hf hf' hs hs'
      exact ⟨rfl, hr⟩
    · exact absurd h.symm (operand'.ne_not (by decide) _ _)
  | _, .plain operand =>
    obtain ⟨operand', rfl⟩ | ⟨operand', rfl⟩ := d'.negation_cases
    · exact absurd h (operand.ne_not (by decide) _ _)
    · obtain ⟨rfl, hr⟩ := operand.unique operand' h hf hf' (hs.mono (by decide)) (hs'.mono (by decide))
      exact ⟨rfl, hr⟩
  | ℓ, .chain hℓ first more =>
    obtain ⟨first', more', rfl⟩ := d'.chain_cases hℓ
    rw [Derivation.tokens, Derivation.tokens, List.append_assoc, List.append_assoc] at h
    obtain ⟨rfl, hr⟩ := first.unique first' h hf.1 hf'.1 (more.stops hℓ hs) (more'.stops hℓ hs')
    obtain ⟨rfl, hrest⟩ := Chain.unique hℓ more more' hr hf.2 hf'.2 hs hs'
    exact ⟨rfl, hrest⟩

theorem Chain.unique {ℓ : Level} (hℓ : ℓ.isChained = true) (c c' : Chain ℓ) {rest rest' : List Token}
    (h : c.tokens ++ rest = c'.tokens ++ rest') (hf : c.Fits rest) (hf' : c'.Fits rest')
    (hs : Stops ℓ rest) (hs' : Stops ℓ rest') : c = c' ∧ rest = rest' := by
  match c, c' with
  | .nil, .nil => exact ⟨rfl, h⟩
  | .nil, .cons op hop operand' more' =>
    exact absurd h (hs.ne_operator (BinaryOp.strength_le_precedence hop) _)
  | .cons op hop operand more, .nil =>
    exact absurd h.symm (hs'.ne_operator (BinaryOp.strength_le_precedence hop) _)
  | .cons op hop operand more, .cons op' hop' operand' more' =>
    rw [Chain.tokens, Chain.tokens, List.cons_append, List.cons_append, List.append_assoc,
      List.append_assoc] at h
    obtain ⟨ht, htail⟩ := List.cons.inj h
    obtain rfl := BinaryOp.token_inj ht
    obtain ⟨rfl, hr⟩ := operand.unique operand' htail hf.1 hf'.1 (more.stops hℓ hs) (more'.stops hℓ hs')
    obtain ⟨rfl, hrest⟩ := Chain.unique hℓ more more' hr hf.2 hf'.2 hs hs'
    exact ⟨rfl, hrest⟩

end

end QueryExpr
