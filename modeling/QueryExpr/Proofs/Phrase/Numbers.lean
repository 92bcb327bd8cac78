import QueryExpr.Proofs.Phrase.Parsing
import QueryExpr.Proofs.Registry.Application
import QueryExpr.Proofs.Token.Scanning

/-!
# Numbers are never invalid

Every number that is scanned has digits, and a point or a power of ten only with digits after it.
Such a number can be read, after a minus sign or not. The parser reads no other numbers, so it never
refuses a text for a number that it cannot read.

* `FloatText.read?_number`: a scanned number is read.
* `Reads.wellNumbered`: scanned tokens are read as a phrase with scanned numbers.
* `parse_ne_invalidNumber`: **no text is refused for an invalid number.**
-/

namespace QueryExpr

/-! ## Reading a number -/

namespace Decimal

open Token

variable {cs ds : List Char}

theorem readExponent?_unsigned (h : IsDigits ds) : (readExponent? ds).isSome = true := by
  obtain ⟨d, tail, rfl, hd⟩ := h.head
  have hall : (d :: tail).all Char.isDigit = true := List.all_eq_true.mpr h.2
  unfold readExponent?
  split
  next negative digits hsplit =>
  have hdigits : digits = d :: tail := by
    split at hsplit
    · next heq =>
      cases heq
      exact absurd hd (by decide)
    · next heq =>
      cases heq
      exact absurd hd (by decide)
    · cases hsplit
      rfl
  rw [hdigits, hall]
  rfl

theorem readExponent?_signed {sign : Char} (hs : sign = '+' ∨ sign = '-') (h : IsDigits ds) :
    (readExponent? (sign :: ds)).isSome = true := by
  have hall : ds.all Char.isDigit = true := List.all_eq_true.mpr h.2
  have hne : ds.isEmpty = false := List.isEmpty_eq_false_iff.mpr h.1
  rcases hs with rfl | rfl <;> simp only [readExponent?, hall, hne] <;> rfl

/-- Nothing after the digits and the fraction, or a power of ten. -/
theorem readMark?_exponent (h : IsExponent cs) :
    (match cs with
      | [] => some 0
      | mark :: rest => if mark = 'e' ∨ mark = 'E' then readExponent? rest else none).isSome =
      true := by
  cases h with
  | none => rfl
  | unsigned hm h =>
    simp only [if_pos hm]
    exact readExponent?_unsigned h
  | signed hm hs h =>
    simp only [if_pos hm]
    exact readExponent?_signed hs h

/-- **A scanned number is read.** -/
theorem readUnsigned?_number (h : IsNumber cs) : (readUnsigned? cs).isSome = true := by
  obtain ⟨hw, hf, he⟩ := h
  rename_i whole fraction exponent
  have hmark : ∀ c ∈ (exponent ++ []).head?, c.isDigit = false ∧ c ≠ '.' := he.head nofun
  rw [List.append_nil] at hmark
  have hexponent := readMark?_exponent he
  have hne : whole.isEmpty = false := List.isEmpty_eq_false_iff.mpr hw.1
  cases hf with
  | none =>
    obtain ⟨ht, hd⟩ := takeWhile_append hw.2 fun c hc => (hmark c hc).1
    simp only [readUnsigned?, List.append_nil, ht, hd]
    split
    · exact absurd rfl (hmark '.' rfl).2
    · rw [hne, Bool.false_and, if_neg Bool.false_ne_true, Option.isSome_map]
      exact hexponent
  | @point ds hds =>
    have hpoint : ∀ c ∈ ('.' :: (ds ++ exponent)).head?, c.isDigit = false := by
      rintro c ⟨⟩
      decide
    obtain ⟨ht, hd⟩ := takeWhile_append hw.2 hpoint
    obtain ⟨ht', hd'⟩ := takeWhile_append hds.2 fun c hc => (hmark c hc).1
    simp only [readUnsigned?, List.append_assoc, List.cons_append, ht, hd, ht', hd']
    rw [hne, Bool.false_and, if_neg Bool.false_ne_true, Option.isSome_map]
    exact hexponent

end Decimal

namespace FloatText

/-- **A scanned number is read as a floating number**, after a minus sign or not. -/
theorem read?_number {digits : String} (h : Token.IsNumber digits.toList) (negative : Bool) :
    (read? (if negative then "-" ++ digits else digits)).isSome = true := by
  have hunsigned := Decimal.readUnsigned?_number h
  cases negative with
  | true =>
    have hcs : ("-" ++ digits).toList = '-' :: digits.toList := by
      rw [String.toList_append]
      rfl
    simp only [read?, readWith, if_true, hcs, Option.isSome_map]
    split
    · rfl
    · rwa [Option.isSome_map]
  | false =>
    obtain ⟨d, tail, hd, hdigit⟩ := h.head
    rw [if_neg Bool.false_ne_true, read?, readWith]
    split
    next negative cs hsplit =>
    have hcs : cs = digits.toList := by
      rw [hd] at hsplit ⊢
      split at hsplit
      · next heq =>
        cases heq
        exact absurd hdigit (by decide)
      · next heq =>
        cases heq
        exact absurd hdigit (by decide)
      · cases hsplit
        rfl
    rw [hcs, Option.isSome_map]
    split
    · rfl
    · rwa [Option.isSome_map]

end FloatText

namespace Phrase

variable {r : Registry} {source? : Option Expr} {p : Phrase}

/-- **A scanned number is never invalid**, after a minus sign or not. -/
theorem ofNumber_ne_invalidNumber {digits : String} (h : Token.IsNumber digits.toList)
    (negative : Bool) (text : String) :
    ofNumber negative digits ≠ .error (.syntaxError (.invalidNumber text)) := by
  have hread := FloatText.read?_number h negative
  unfold ofNumber
  simp only
  split
  · split
    · nofun
    · next hnone =>
      rw [hnone] at hread
      cases hread
  · split <;> nofun

/-- Each number has the form of one, and no fault is about a number. -/
def WellNumbered : Phrase → Prop
  | number _ digits => Token.IsNumber digits.toList
  | not operand => operand.WellNumbered
  | negate operand => operand.WellNumbered
  | binary _ left right => left.WellNumbered ∧ right.WellNumbered
  | fault error => ∀ text, error ≠ .invalidNumber text
  | faultAfter phrase error => phrase.WellNumbered ∧ ∀ text, error ≠ .invalidNumber text
  | _ => True

end Phrase

theorem Registry.apply_ne_syntaxError (r : Registry) (o : Operator) (operands : List Expr)
    (error : SyntaxError) : r.apply o operands ≠ .error (.syntaxError error) := by
  rw [apply_eq]
  split
  · unfold construct
    split <;> nofun
  · nofun

theorem Expr.column_ne_syntaxError (source : Expr) (name : String) (error : SyntaxError) :
    source.column name ≠ .error (.syntaxError error) := by
  intro h
  obtain hschema | ⟨schema, -, h⟩ := Error.bind_error h
  · unfold requireSchema at hschema
    split at hschema <;> cases hschema
  · split at h <;> cases h

namespace Phrase

variable {r : Registry} {source? : Option Expr} {p : Phrase}

/-- **Such a phrase is not refused for an invalid number.** -/
theorem WellNumbered.elaborate (h : p.WellNumbered) (text : String) :
    p.elaborate r source? ≠ .error (.syntaxError (.invalidNumber text)) := by
  induction p with
  | number negative digits => exact ofNumber_ne_invalidNumber h negative text
  | column name =>
    cases source? with
    | some source => exact source.column_ne_syntaxError name _
    | none => nofun
  | not operand ih =>
    intro he
    obtain he | ⟨a, -, he⟩ := Error.bind_error he
    · exact ih h he
    · exact r.apply_ne_syntaxError .not [a] _ he
  | negate operand ih =>
    intro he
    obtain he | ⟨a, -, he⟩ := Error.bind_error he
    · exact ih h he
    · exact r.apply_ne_syntaxError _ [.int64 0, a] _ he
  | binary op left right ihl ihr =>
    intro he
    obtain he | ⟨a, -, he⟩ := Error.bind_error he
    · exact ihl h.1 he
    · obtain he | ⟨b, -, he⟩ := Error.bind_error he
      · exact ihr h.2 he
      · exact r.apply_ne_syntaxError _ [a, b] _ he
  | fault error =>
    intro he
    cases he
    exact h text rfl
  | faultAfter phrase error ih =>
    intro he
    obtain he | ⟨a, -, he⟩ := Error.bind_error he
    · exact ih h.1 he
    · cases he
      exact h.2 text rfl
  | _ => nofun

end Phrase

/-! ## The numbers of a phrase -/

theorem Atom.wellNumbered {a : Atom} (h : a.token.IsLexical) : a.phrase.WellNumbered := by
  cases a with
  | number digits => exact h
  | _ => trivial

mutual

/-- **Tokens of the right form are read as a phrase with such numbers**, and tokens of this form are
left. The induction is on the tokens, and for one list of tokens from the tight levels to the loose
ones. -/
theorem Reads.wellNumbered {ℓ : Level} {ts rest : List Token} {p : Phrase} (h : Reads ℓ ts p rest)
    (hl : ∀ t ∈ ts, t.IsLexical) : p.WellNumbered ∧ ∀ t ∈ rest, t.IsLexical := by
  by_cases hℓ : ℓ.isChained = true
  · have htighter := Level.looseness_operandLevel (Level.operandLevel?_of_isChained hℓ)
    obtain ⟨first, mid, hfirst, hmore⟩ := h.chain_cases (Level.operandLevel?_of_isChained hℓ)
    have hle := hfirst.length_le
    obtain ⟨hnumbered, hmid⟩ := hfirst.wellNumbered hl
    exact hmore.wellNumbered hnumbered hmid
  · match ℓ, h with
    | .primary, h =>
      obtain ⟨a, hts, rfl⟩ | ⟨us, hts, hinner⟩ | ⟨found, rfl, rfl⟩ |
        ⟨us, inner, mid, hts, hinner, rfl, rfl⟩ := h.primary_outcomes
      · rw [hts, List.forall_mem_cons] at hl
        exact ⟨a.wellNumbered hl.1, hl.2⟩
      · have hlt : us.length < ts.length := by rw [hts]; exact Nat.lt_succ_self _
        rw [hts, List.forall_mem_cons] at hl
        obtain ⟨hnumbered, hrest⟩ := hinner.wellNumbered hl.2
        exact ⟨hnumbered, (List.forall_mem_cons.mp hrest).2⟩
      · exact ⟨nofun, nofun⟩
      · have hlt : us.length < ts.length := by rw [hts]; exact Nat.lt_succ_self _
        rw [hts, List.forall_mem_cons] at hl
        exact ⟨⟨(hinner.wellNumbered hl.2).1, nofun⟩, nofun⟩
    | .power, h =>
      obtain hbase | ⟨b, us, exponent, rfl, hbase, hexponent⟩ := h.power_cases
      · exact hbase.wellNumbered hl
      · -- the base has left the power sign and the exponent
        have hlt : us.length < ts.length := hbase.length_le
        obtain ⟨hb, hmid⟩ := hbase.wellNumbered hl
        obtain ⟨he, hrest⟩ := hexponent.wellNumbered (List.forall_mem_cons.mp hmid).2
        exact ⟨⟨hb, he⟩, hrest⟩
    | .signed, h =>
      obtain ⟨digits, rfl, hts, -⟩ | ⟨us, operand, rfl, hts, -, hoperand⟩ | hpower := h.signed_cases
      · rw [hts, List.forall_mem_cons, List.forall_mem_cons] at hl
        exact hl.2
      · have hlt : us.length < ts.length := by rw [hts]; exact Nat.lt_succ_self _
        rw [hts, List.forall_mem_cons] at hl
        exact hoperand.wellNumbered hl.2
      · exact hpower.wellNumbered hl
    | .comparison, h =>
      obtain hsum | ⟨op, l, us, r, -, rfl, hleft, hright⟩ | ⟨l, mid, t, found, rfl, hleft, rfl⟩ :=
        h.comparison_outcomes
      · exact hsum.wellNumbered hl
      · have hlt : us.length < ts.length := by
          have hle := hleft.length_le
          rw [List.length_cons, List.length_append] at hle
          omega
        obtain ⟨hnumbered, hmid⟩ := hleft.wellNumbered hl
        rw [List.forall_mem_cons, List.forall_mem_append] at hmid
        obtain ⟨hr, hrest⟩ := hright.wellNumbered hmid.2.2
        exact ⟨⟨hnumbered, hr⟩, hrest⟩
      · exact ⟨⟨(hleft.wellNumbered hl).1, nofun⟩, nofun⟩
    | .negation, h =>
      obtain ⟨us, operand, rfl, hts, hoperand⟩ | hcomparison := h.negation_cases
      · have hlt : us.length < ts.length := by rw [hts]; exact Nat.lt_succ_self _
        rw [hts, List.forall_mem_cons] at hl
        exact hoperand.wellNumbered hl.2
      · exact hcomparison.wellNumbered hl
termination_by (ts.length, ℓ.looseness)
decreasing_by
  all_goals first
    | (apply Prod.Lex.left; omega)
    | (apply Prod.Lex.right; decide)
    | (apply Prod.Lex.right; exact htighter)
    | (simp only [Prod.lex_def]; omega)

theorem ReadsMore.wellNumbered {ℓ tighter : Level} {left : Phrase} {ts rest : List Token}
    {p : Phrase} (h : ReadsMore ℓ tighter left ts p rest) (hleft : left.WellNumbered)
    (hl : ∀ t ∈ ts, t.IsLexical) : p.WellNumbered ∧ ∀ t ∈ rest, t.IsLexical := by
  obtain ⟨rfl, rfl⟩ | ⟨op, us, right, mid, -, hts, hright, hmore⟩ := h.cases
  · exact ⟨hleft, hl⟩
  · have hle := hright.length_le
    have hlt : us.length < ts.length := by rw [hts]; exact Nat.lt_succ_self _
    rw [hts, List.forall_mem_cons] at hl
    obtain ⟨hr, hmid⟩ := hright.wellNumbered hl.2
    exact hmore.wellNumbered ⟨hleft, hr⟩ hmid
termination_by (ts.length, 0)
decreasing_by all_goals (apply Prod.Lex.left; omega)

end

theorem readPhrase_wellNumbered {ts : List Token} (h : ∀ t ∈ ts, t.IsLexical) :
    (readPhrase ts).WellNumbered := by
  unfold readPhrase
  split
  · next heq => exact ((Reads.of_eq heq).wellNumbered h).1
  · next heq => exact ⟨((Reads.of_eq heq).wellNumbered h).1, nofun⟩

/-! ## Whole texts -/

namespace Token

theorem scan_ne_invalidNumber (total : Nat) (c : Char) (tail : List Char) (text : String) :
    scan total c tail ≠ .error (.invalidNumber text) := by
  unfold scan
  split
  · split <;> nofun
  · split
    · nofun
    · split
      · nofun
      · split <;> nofun

theorem tokenizeFrom_ne_invalidNumber (total : Nat) (cs : List Char) (text : String) :
    tokenizeFrom total cs ≠ .error (.invalidNumber text) := by
  rw [tokenizeFrom_eq]
  split
  · nofun
  · next c tail hb =>
    split
    · next e hs =>
      rintro ⟨⟩
      exact scan_ne_invalidNumber total c tail text hs
    · next t rest hs =>
      have hlt := length_scan_of_dropWhile hb hs
      have hrest := tokenizeFrom_ne_invalidNumber total rest text
      cases hr : tokenizeFrom total rest with
      | error e =>
        rw [hr] at hrest
        rintro ⟨⟩
        exact hrest rfl
      | ok us => nofun
termination_by cs.length

end Token

/-- **No text is refused for an invalid number**, whatever the registry and the source. -/
theorem Expr.parse_ne_invalidNumber (r : Registry) (source? : Option Expr) (s text : String) :
    Expr.parse r source? s ≠ .error (.syntaxError (.invalidNumber text)) := by
  unfold Expr.parse
  split
  · next e he =>
    rintro ⟨⟩
    exact Token.tokenizeFrom_ne_invalidNumber _ _ text he
  · next ts hts => exact (readPhrase_wellNumbered (Token.isLexical_of_tokenize hts)).elaborate text

end QueryExpr
