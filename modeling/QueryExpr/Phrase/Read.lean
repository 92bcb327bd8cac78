import QueryExpr.Phrase

/-!
# Reading phrases

From the loosest operators to the tightest: `OR`, `XOR`, `AND`, `NOT`, comparisons, sums,
products, the minus sign, powers. Operators of one level are taken from left to right, but
powers from right to left, and comparisons are not taken together at all. A minus sign
directly before a number belongs to it, unless a power follows.

Each reading gives a phrase and the tokens that it leaves, never more than it was given. A
fault leaves none.

* `readPhrase`: the phrase of all the tokens.
-/

namespace QueryExpr

/-- What is left of a list of tokens when at least one is taken. -/
abbrev Shorter (tokens : List Token) := { rest : List Token // rest.length < tokens.length }

/-- A phrase and the tokens after it. -/
structure Reading (tokens : List Token) where
  phrase : Phrase
  rest : List Token
  length_le : rest.length ≤ tokens.length

namespace Reading

/-- The tokens make no sense. -/
def stop {tokens : List Token} (error : SyntaxError) : Reading tokens :=
  ⟨.fault error, [], Nat.zero_le _⟩

/-- The tokens make no sense after a phrase. -/
def stopAfter {tokens : List Token} (phrase : Phrase) (error : SyntaxError) : Reading tokens :=
  ⟨.faultAfter phrase error, [], Nat.zero_le _⟩

/-- A phrase that takes at least one token. -/
def taking {tokens : List Token} (phrase : Phrase) (rest : Shorter tokens) : Reading tokens :=
  ⟨phrase, rest.1, Nat.le_of_lt rest.2⟩

/-- The same reading with another phrase, of a list that is at least as long. -/
def lift {tokens shorter : List Token} (r : Reading shorter) (h : shorter.length ≤ tokens.length)
    (f : Phrase → Phrase) : Reading tokens :=
  ⟨f r.phrase, r.rest, Nat.le_trans r.length_le h⟩

end Reading

/-- The tokens after a given one, if that one comes first. -/
def accept? (t : Token) (tokens : List Token) : Option (Shorter tokens) :=
  match tokens with
  | [] => none
  | found :: rest => if found = t then some ⟨rest, Nat.lt_succ_self _⟩ else none

/-- The comparison that comes first, and the tokens after it. -/
def acceptComparison? (tokens : List Token) : Option (BinaryOp × Shorter tokens) :=
  match tokens with
  | [] => none
  | t :: rest => t.comparison?.map fun op => (op, ⟨rest, Nat.lt_succ_self _⟩)

/-- The operator of a level that comes first, and the tokens after it. -/
def acceptChained? (level : Level) (tokens : List Token) : Option (BinaryOp × Shorter tokens) :=
  match tokens with
  | [] => none
  | t :: rest => (level.chained? t).map fun op => (op, ⟨rest, Nat.lt_succ_self _⟩)

/-- The tokens after the given ones, or the fault at the first that differs. -/
def expect (expected tokens : List Token) :
    Except SyntaxError { rest : List Token // rest.length ≤ tokens.length } :=
  match expected with
  | [] => .ok ⟨tokens, Nat.le_refl _⟩
  | t :: expected =>
    match accept? t tokens with
    | none => .error (.missingToken t tokens.head?)
    | some ⟨rest, h⟩ =>
      match expect expected rest with
      | .ok ⟨after, ha⟩ => .ok ⟨after, Nat.le_trans ha (Nat.le_of_lt h)⟩
      | .error e => .error e

/-- A phrase of a single token. -/
def atom? : Token → Option Phrase
  | .number digits => some (.number false digits)
  | .text s => some (.text s)
  | .keyword .trueValue => some (.truth true)
  | .keyword .falseValue => some (.truth false)
  | .keyword .nullValue => some .null
  | .identifier name => some (.column name)
  | _ => none

/-- A minus sign and a number that no power follows, and the tokens after them. -/
def negativeNumber? (tokens : List Token) : Option (String × Shorter tokens) :=
  match tokens with
  | .sign .minus :: .number digits :: rest =>
    if rest.head? = some (.sign .doubleStar) then none
    else some (digits, ⟨rest, by simp only [List.length_cons]; omega⟩)
  | _ => none

mutual

/-- Reads a phrase of a level. -/
def readLevel (level : Level) (tokens : List Token) : Reading tokens :=
  match level with
  | .primary =>
    match accept? (.sign .leftParen) tokens with
    | some ⟨rest, h⟩ =>
      match readLevel .disjunction rest with
      | ⟨inner, rest', hi⟩ =>
        match accept? (.sign .rightParen) rest' with
        | some ⟨after, ha⟩ => .taking inner ⟨after, by omega⟩
        -- what is wrong inside the parentheses is met before their missing end
        | none => .stopAfter inner (.missingToken (.sign .rightParen) rest'.head?)
    | none =>
      match tokens with
      | [] => .stop (.unexpectedToken none)
      | t :: rest =>
        match atom? t with
        | some phrase => .taking phrase ⟨rest, Nat.lt_succ_self _⟩
        | none => .stop (.unexpectedToken (some t))
  | .power =>
    match readLevel .primary tokens with
    | ⟨base, rest, h⟩ =>
      match accept? (.sign .doubleStar) rest with
      -- the exponent may have a sign of its own, and powers in it go to the right
      | some ⟨after, ha⟩ => (readLevel .signed after).lift (by omega) (.binary .power base)
      | none => ⟨base, rest, h⟩
  | .signed =>
    match negativeNumber? tokens with
    | some (digits, rest) => .taking (.number true digits) rest
    | none =>
      match accept? (.sign .minus) tokens with
      | some ⟨rest, h⟩ => (readLevel .signed rest).lift (Nat.le_of_lt h) .negate
      | none => readLevel .power tokens
  | .comparison =>
    match readLevel .sum tokens with
    | ⟨left, rest, h⟩ =>
      match accept? (.keyword .is) rest with
      | some ⟨rest, hr⟩ =>
        match expect [.keyword .not, .keyword .distinct, .keyword .fromWord] rest with
        | .ok ⟨after, ha⟩ => (readLevel .sum after).lift (by omega) (.binary .identical left)
        | .error e => .stopAfter left e
      | none =>
        match acceptComparison? rest with
        -- a second comparison would be left over
        | some (op, ⟨after, ha⟩) => (readLevel .sum after).lift (by omega) (.binary op left)
        | none => ⟨left, rest, h⟩
  | .negation =>
    match accept? (.keyword .not) tokens with
    | some ⟨rest, h⟩ => (readLevel .negation rest).lift (Nat.le_of_lt h) .not
    | none => readLevel .comparison tokens
  | .disjunction => readChain .disjunction .exclusive rfl tokens
  | .exclusive => readChain .exclusive .conjunction rfl tokens
  | .conjunction => readChain .conjunction .negation rfl tokens
  | .sum => readChain .sum .product rfl tokens
  | .product => readChain .product .signed rfl tokens
termination_by (tokens.length, 2 * level.looseness)
decreasing_by
  all_goals first
    | (apply Prod.Lex.left; omega)
    | (apply Prod.Lex.right; decide)

/-- Reads operands of the tighter level with operators of the level between them. -/
def readChain (level tighter : Level) (_h : level.operandLevel? = some tighter)
    (tokens : List Token) : Reading tokens :=
  match readLevel tighter tokens with
  | ⟨first, rest, hr⟩ => (readMore level tighter first rest).lift hr id
termination_by (tokens.length, 2 * level.looseness - 1)
decreasing_by
  · have := Level.looseness_operandLevel _h
    exact Prod.Lex.right _ (by omega)
  · have := Level.looseness_operandLevel _h
    simp only [Prod.lex_def]
    omega

/-- Reads the operators of a level and their right operands, after a left operand. -/
def readMore (level tighter : Level) (left : Phrase) (tokens : List Token) : Reading tokens :=
  match acceptChained? level tokens with
  | some (op, ⟨rest, h⟩) =>
    match readLevel tighter rest with
    | ⟨right, rest', hr⟩ =>
      (readMore level tighter (.binary op left right) rest').lift (by omega) id
  | none => ⟨left, tokens, Nat.le_refl _⟩
termination_by (tokens.length, 0)
decreasing_by all_goals (apply Prod.Lex.left; omega)

end

/-- The phrase of a list of tokens. -/
def readPhrase (tokens : List Token) : Phrase :=
  match readLevel .disjunction tokens with
  | ⟨phrase, [], _⟩ => phrase
  | ⟨phrase, found :: _, _⟩ => .faultAfter phrase (.trailingToken found)

end QueryExpr
