import QueryExpr.Proofs.Phrase.Grammar

/-!
# Reading follows the grammar

What a derivation spells is read as the phrase that it says, and a phrase without fault is
read only where there is a derivation that says it. Since a phrase with a fault stands for no
expression, an expression is parsed exactly if some derivation builds it.

* `Derivation.reads`: what a derivation spells is read as its phrase.
* `Reads.derived`: a phrase without fault is said by a derivation of the tokens it took.
* `readPhrase_builds`: **the parser accepts the grammar, and gives what the one derivation
  builds.**
-/

namespace QueryExpr

variable {ℓ tighter : Level} {ts us rest : List Token} {p left : Phrase} {op : BinaryOp}

/-! ## What is derived is read -/

theorem Level.operandLevel?_of_isChained (h : ℓ.isChained = true) :
    ℓ.operandLevel? = some ℓ.next := by
  revert h
  cases ℓ <;> decide

theorem BinaryOp.chained?_token (hop : op.level = ℓ) (h : ℓ.isChained = true) :
    ℓ.chained? op.token = some op := by
  subst hop
  revert h
  cases op <;> decide

theorem negativeNumber?_of_not_literal (h : ¬ BeginsWithLiteral ts) :
    negativeNumber? (.sign .minus :: ts) = none := by
  cases ts with
  | nil => rfl
  | cons t tail =>
    cases t with
    | number digits =>
      have hstar : tail.head? = some (.sign .doubleStar) :=
        Decidable.byContradiction fun hne => h ⟨digits, tail, rfl, hne⟩
      rw [negativeNumber?, if_pos hstar]
    | _ => rfl

theorem Reads.negate (h : Reads .signed ts p rest) (hn : ¬ BeginsWithLiteral ts) :
    Reads .signed (.sign .minus :: ts) (.negate p) rest := by
  obtain ⟨rfl, rfl⟩ := h
  unfold Reads
  conv => lhs; rw [readLevel, negativeNumber?_of_not_literal hn, accept?_self]
  conv => rhs; lhs; rw [readLevel, negativeNumber?_of_not_literal hn, accept?_self]
  exact ⟨rfl, rfl⟩

mutual

/-- **What a derivation spells is read as the phrase that it says**, whatever follows that does
not go on with it. -/
theorem Derivation.reads {ℓ : Level} (d : Derivation ℓ) {rest : List Token} (hf : d.Fits rest)
    (hs : Stops ℓ rest) : Reads ℓ (d.tokens ++ rest) d.phrase rest := by
  match ℓ, d with
  | _, .atom a => exact Reads.atom a.atom?_token rest
  | _, .parentheses inner =>
    have hinner := inner.reads hf (Stops.paren _ rest)
    have hread := Reads.paren hinner
    rw [Derivation.tokens, List.cons_append, List.append_assoc]
    exact hread
  | _, .base operand =>
    -- what stops a level stops the tighter ones
    have hread : Reads Level.power.next _ _ _ := operand.reads hf (hs.mono (by decide))
    exact hread.of_next hs nofun nofun
  | _, .power b exponent =>
    have hbase := b.reads hf.1 (Stops.doubleStar _)
    have hexponent := exponent.reads hf.2 hs.signed
    rw [Derivation.tokens, List.append_assoc]
    exact Reads.power hbase hexponent
  | _, .negative digits => exact Reads.negative digits hf
  | _, .negate operand =>
    have hread := operand.reads hf.1 hs
    exact hread.negate hf.2
  | _, .unsigned operand =>
    have hread : Reads Level.signed.next _ _ _ := operand.reads hf (hs.mono (by decide))
    refine hread.of_next hs (fun _ hminus => ?_) nofun
    obtain ⟨tail, ht⟩ := List.head?_eq_some_iff.mp hminus
    exact operand.ne_minus (by decide) rest tail ht
  | _, .single operand =>
    have hread : Reads Level.comparison.next _ _ _ := operand.reads hf (hs.mono (by decide))
    exact hread.of_next hs nofun nofun
  | _, .compare op hop l r =>
    have hstop := Stops.operator (BinaryOp.precedence_lt_sum hop)
    have hleft := l.reads hf.1 (hstop _)
    have hright := r.reads hf.2 (hs.mono (by decide))
    rw [Derivation.tokens, List.append_assoc, List.cons_append, List.append_assoc]
    -- only this comparison is spelled with more than one token
    by_cases hi : op = .identical
    · subst hi
      exact Reads.identical hleft hright
    · rw [moreTokens_of_ne hi] at hleft ⊢
      exact Reads.comparison (comparison?_token hop hi) hleft hright
  | _, .not operand =>
    have hread := operand.reads hf hs
    exact hread.not
  | _, .plain operand =>
    have hread : Reads Level.negation.next _ _ _ := operand.reads hf (hs.mono (by decide))
    refine hread.of_next hs nofun fun _ hnot => ?_
    obtain ⟨tail, ht⟩ := List.head?_eq_some_iff.mp hnot
    exact operand.ne_not (by decide) rest tail ht
  | ℓ, .chain hℓ first more =>
    have hfirst := first.reads hf.1 (more.stops hℓ hs)
    have hmore := more.reads hℓ first.phrase hf.2 hs
    rw [Derivation.tokens, List.append_assoc]
    exact Reads.chain (Level.operandLevel?_of_isChained hℓ) hfirst hmore

/-- The phrase before a chain becomes the left operand of its first operator. -/
theorem Chain.reads {ℓ : Level} (hℓ : ℓ.isChained = true) (c : Chain ℓ) (left : Phrase)
    {rest : List Token} (hf : c.Fits rest) (hs : Stops ℓ rest) :
    ReadsMore ℓ ℓ.next left (c.tokens ++ rest) (c.phrase left) rest := by
  match c with
  | .nil => exact ReadsMore.stop hs
  | .cons op hop operand more =>
    have hoperand := operand.reads hf.1 (more.stops hℓ hs)
    have hmore := more.reads hℓ (.binary op left operand.phrase) hf.2 hs
    rw [Chain.tokens, List.cons_append, List.append_assoc]
    exact ReadsMore.step (BinaryOp.chained?_token hop hℓ) hoperand hmore

end

/-! ## The only ways to read -/

theorem accept?_some {t : Token} {hlt} (h : accept? t ts = some ⟨us, hlt⟩) : ts = t :: us := by
  unfold accept? at h
  split at h
  · cases h
  · split at h
    · next heq =>
      cases h
      rw [heq]
    · cases h

theorem Reads.length_le (h : Reads ℓ ts p rest) : rest.length ≤ ts.length := by
  obtain ⟨-, rfl⟩ := h
  exact (readLevel ℓ ts).length_le

theorem atom?_some {t : Token} (h : atom? t = some p) : ∃ a : Atom, a.token = t ∧ a.phrase = p := by
  unfold atom? at h
  split at h <;> cases h
  · exact ⟨.number _, rfl, rfl⟩
  · exact ⟨.text _, rfl, rfl⟩
  · exact ⟨.truth true, rfl, rfl⟩
  · exact ⟨.truth false, rfl, rfl⟩
  · exact ⟨.null, rfl, rfl⟩
  · exact ⟨.column _, rfl, rfl⟩

theorem Reads.of_eq {hle} (h : readLevel ℓ ts = ⟨p, rest, hle⟩) : Reads ℓ ts p rest := by
  unfold Reads
  rw [h]
  exact ⟨rfl, rfl⟩

/-- A primary is a single token, or stands in parentheses; or the tokens stop making sense, at once
or after what the parentheses hold. -/
theorem Reads.primary_outcomes (h : Reads .primary ts p rest) :
    (∃ a : Atom, ts = a.token :: rest ∧ a.phrase = p) ∨
      (∃ us, ts = .sign .leftParen :: us ∧ Reads .disjunction us p (.sign .rightParen :: rest)) ∨
      (∃ found, p = .fault (.unexpectedToken found) ∧ rest = []) ∨
      ∃ us inner mid, ts = .sign .leftParen :: us ∧ Reads .disjunction us inner mid ∧
        p = .faultAfter inner (.missingToken (.sign .rightParen) mid.head?) ∧ rest = [] := by
  obtain ⟨hle, he⟩ := h.eq
  cases ts with
  | nil =>
    rw [readLevel, accept?] at he
    cases he
    exact .inr (.inr (.inl ⟨_, rfl, rfl⟩))
  | cons t tail =>
    rw [readLevel] at he
    split at he
    · next us hus hparen =>
      split at he
      next inner mid hmid hinner =>
      have hread := Reads.of_eq hinner
      split at he
      · next after hafter hclose =>
        cases he
        rw [accept?_some hclose] at hread
        exact .inr (.inl ⟨us, accept?_some hparen, hread⟩)
      · cases he
        exact .inr (.inr (.inr ⟨us, inner, mid, accept?_some hparen, hread, rfl, rfl⟩))
    · split at he
      · next q ha =>
        cases he
        obtain ⟨a, rfl, hq⟩ := atom?_some ha
        exact .inl ⟨a, rfl, hq⟩
      · cases he
        exact .inr (.inr (.inl ⟨_, rfl, rfl⟩))

/-- A primary without fault is a single token, or stands in parentheses. -/
theorem Reads.primary_cases (h : Reads .primary ts p rest) (hp : p.isSound = true) :
    (∃ a : Atom, ts = a.token :: rest ∧ a.phrase = p) ∨
      ∃ us, ts = .sign .leftParen :: us ∧ Reads .disjunction us p (.sign .rightParen :: rest) := by
  obtain hatom | hparen | ⟨found, rfl, -⟩ | ⟨us, inner, mid, -, -, rfl, -⟩ := h.primary_outcomes
  · exact .inl hatom
  · exact .inr hparen
  · cases hp
  · cases hp

/-- A primary is a power by itself, or a power sign and a signed follow. -/
theorem Reads.power_cases (h : Reads .power ts p rest) :
    Reads .primary ts p rest ∨
      ∃ b us exponent, p = .binary .power b exponent ∧
        Reads .primary ts b (.sign .doubleStar :: us) ∧ Reads .signed us exponent rest := by
  obtain ⟨hle, he⟩ := h.eq
  rw [readLevel] at he
  split at he
  next b mid hmid hbase =>
  have hread := Reads.of_eq hbase
  split at he
  · next us hus hstar =>
    cases he
    rw [accept?_some hstar] at hread
    exact .inr ⟨b, us, _, rfl, hread, rfl, rfl⟩
  · cases he
    exact .inl hread

theorem negativeNumber?_some {digits : String} {hlt}
    (h : negativeNumber? ts = some (digits, ⟨rest, hlt⟩)) :
    ts = .sign .minus :: .number digits :: rest ∧ rest.head? ≠ some (.sign .doubleStar) := by
  unfold negativeNumber? at h
  split at h
  · split at h
    · cases h
    · next hstar =>
      cases h
      exact ⟨rfl, hstar⟩
  · cases h

theorem not_literal_of_negativeNumber? (h : negativeNumber? (.sign .minus :: ts) = none) :
    ¬ BeginsWithLiteral ts := by
  rintro ⟨digits, tail, rfl, hstar⟩
  rw [negativeNumber?, if_neg hstar] at h
  cases h

/-- A signed is a negative literal, or a minus sign before what does not begin with a number
that is not raised to a power, or has no sign. -/
theorem Reads.signed_cases (h : Reads .signed ts p rest) :
    (∃ digits, p = .number true digits ∧ ts = .sign .minus :: .number digits :: rest ∧
        rest.head? ≠ some (.sign .doubleStar)) ∨
      (∃ us operand, p = .negate operand ∧ ts = .sign .minus :: us ∧ ¬ BeginsWithLiteral us ∧
        Reads .signed us operand rest) ∨
      Reads .power ts p rest := by
  obtain ⟨hle, he⟩ := h.eq
  rw [readLevel] at he
  split at he
  · next digits after hnumber =>
    cases he
    exact .inl ⟨digits, rfl, negativeNumber?_some hnumber⟩
  · next hnumber =>
    split at he
    · next us hus hminus =>
      cases he
      have hts : ts = .sign .minus :: us := accept?_some hminus
      rw [hts] at hnumber
      exact .inr (.inl ⟨us, _, rfl, hts, not_literal_of_negativeNumber? hnumber, rfl, rfl⟩)
    · exact .inr (.inr (Reads.of_eq he))

theorem expect_ok {expected : List Token} {hle} (h : expect expected ts = .ok ⟨rest, hle⟩) :
    ts = expected ++ rest := by
  induction expected generalizing ts rest with
  | nil =>
    cases h
    rfl
  | cons t expected ih =>
    rw [expect] at h
    split at h
    · cases h
    · next us hus haccept =>
      split at h
      · next later hlater hexpect =>
        cases h
        rw [accept?_some haccept, ih hexpect]
        rfl
      · cases h

/-- Where tokens are expected, the fault is that one of them is missing. -/
theorem expect_error {expected : List Token} {error : SyntaxError}
    (h : expect expected ts = .error error) : ∃ t found, error = .missingToken t found := by
  induction expected generalizing ts with
  | nil => cases h
  | cons t expected ih =>
    rw [expect] at h
    split at h
    · cases h
      exact ⟨t, _, rfl⟩
    · split at h
      · cases h
      · next e he =>
        cases h
        exact ih he

theorem acceptComparison?_some {hlt} (h : acceptComparison? ts = some (op, ⟨us, hlt⟩)) :
    ts = op.token :: us ∧ op.level = .comparison ∧ op.moreTokens = [] := by
  unfold acceptComparison? at h
  split at h
  · cases h
  · next t tail =>
    obtain ⟨op', hop', he⟩ := Option.map_eq_some_iff.mp h
    cases he
    obtain ⟨rfl, hprec⟩ := comparison?_some hop'
    rw [op.precedence_eq] at hprec
    refine ⟨rfl, Level.strength_inj hprec, moreTokens_of_ne ?_⟩
    rintro rfl
    cases hop'

/-- A sum is a comparison by itself, or an operator and a second sum follow; or the operator stops
making sense after its first token. -/
theorem Reads.comparison_outcomes (h : Reads .comparison ts p rest) :
    Reads .sum ts p rest ∨
      (∃ op l us r, op.level = .comparison ∧ p = .binary op l r ∧
        Reads .sum ts l (op.token :: (op.moreTokens ++ us)) ∧ Reads .sum us r rest) ∨
      ∃ l mid t found, p = .faultAfter l (.missingToken t found) ∧ Reads .sum ts l mid ∧
        rest = [] := by
  obtain ⟨hle, he⟩ := h.eq
  rw [readLevel] at he
  split at he
  next l mid hmid hleft =>
  have hread := Reads.of_eq hleft
  split at he
  · next us hus his =>
    split at he
    · next after hafter hexpect =>
      cases he
      rw [accept?_some his, expect_ok hexpect] at hread
      exact .inr (.inl ⟨.identical, l, after, _, rfl, rfl, hread, rfl, rfl⟩)
    · next e hexpect =>
      cases he
      obtain ⟨t, found, rfl⟩ := expect_error hexpect
      exact .inr (.inr ⟨l, mid, t, found, rfl, hread, rfl⟩)
  · split at he
    · next op us hus hop =>
      cases he
      obtain ⟨hmid, hlevel, hmore⟩ := acceptComparison?_some hop
      rw [hmid] at hread
      refine .inr (.inl ⟨op, l, us, _, hlevel, rfl, ?_, rfl, rfl⟩)
      rw [hmore]
      exact hread
    · cases he
      exact .inl hread

/-- A comparison without fault is a sum by itself, or an operator and a second sum follow. -/
theorem Reads.comparison_cases (h : Reads .comparison ts p rest) (hp : p.isSound = true) :
    Reads .sum ts p rest ∨
      ∃ op l us r, op.level = .comparison ∧ p = .binary op l r ∧
        Reads .sum ts l (op.token :: (op.moreTokens ++ us)) ∧ Reads .sum us r rest := by
  obtain hsum | hcompare | ⟨l, mid, t, found, rfl, -, -⟩ := h.comparison_outcomes
  · exact .inl hsum
  · exact .inr hcompare
  · cases hp

/-- A negation is `NOT` before a negation, or a comparison. -/
theorem Reads.negation_cases (h : Reads .negation ts p rest) :
    (∃ us operand, p = .not operand ∧ ts = .keyword .not :: us ∧ Reads .negation us operand rest) ∨
      Reads .comparison ts p rest := by
  obtain ⟨hle, he⟩ := h.eq
  rw [readLevel] at he
  split at he
  · next us hus hnot =>
    cases he
    exact .inl ⟨us, _, rfl, accept?_some hnot, rfl, rfl⟩
  · exact .inr (Reads.of_eq he)

theorem readLevel_eq_readChain (hℓ : ℓ.operandLevel? = some tighter) (ts : List Token) :
    readLevel ℓ ts = readChain ℓ tighter hℓ ts := by
  cases ℓ <;> cases hℓ <;> rw [readLevel]

theorem Reads.chain_cases (hℓ : ℓ.operandLevel? = some tighter) (h : Reads ℓ ts p rest) :
    ∃ first mid, Reads tighter ts first mid ∧ ReadsMore ℓ tighter first mid p rest := by
  obtain ⟨hle, he⟩ := h.eq
  rw [readLevel_eq_readChain hℓ, readChain] at he
  split at he
  next first mid hmid hfirst =>
  cases he
  exact ⟨first, mid, Reads.of_eq hfirst, rfl, rfl⟩

theorem acceptChained?_some {hlt} (h : acceptChained? ℓ ts = some (op, ⟨us, hlt⟩)) :
    ts = op.token :: us ∧ op.level = ℓ := by
  unfold acceptChained? at h
  split at h
  · cases h
  · next t tail =>
    obtain ⟨op', hop', he⟩ := Option.map_eq_some_iff.mp h
    cases he
    obtain ⟨rfl, hprec⟩ := chained?_some hop'
    rw [op.precedence_eq] at hprec
    exact ⟨rfl, Level.strength_inj hprec⟩

theorem ReadsMore.eq (h : ReadsMore ℓ tighter left ts p rest) :
    ∃ hle, readMore ℓ tighter left ts = ⟨p, rest, hle⟩ := by
  obtain ⟨rfl, rfl⟩ := h
  exact ⟨_, rfl⟩

/-- After a left operand the chain ends, or an operator of the level and an operand follow. -/
theorem ReadsMore.cases (h : ReadsMore ℓ tighter left ts p rest) :
    (p = left ∧ ts = rest) ∨
      ∃ op us right mid, op.level = ℓ ∧ ts = op.token :: us ∧ Reads tighter us right mid ∧
        ReadsMore ℓ tighter (.binary op left right) mid p rest := by
  obtain ⟨hle, he⟩ := h.eq
  rw [readMore] at he
  split at he
  · next op us hus hop =>
    split at he
    next right mid hmid hright =>
    cases he
    obtain ⟨hts, hlevel⟩ := acceptChained?_some hop
    exact .inr ⟨op, us, right, mid, hlevel, hts, Reads.of_eq hright, rfl, rfl⟩
  · cases he
    exact .inl ⟨rfl, rfl⟩

/-! ## What is read is derived -/

/-- A chain holds no fault only if what stands before it holds none. -/
theorem Chain.isSound_left (c : Chain ℓ) {left : Phrase} (h : (c.phrase left).isSound = true) :
    left.isSound = true := by
  match c with
  | .nil => exact h
  | .cons op hop operand more =>
    have hbinary := more.isSound_left h
    exact ((Phrase.isSound_binary _ _ _).mp hbinary).1

mutual

/-- **A phrase without fault is said by a derivation** of the tokens it took. The induction is on
the tokens, and for one list of tokens from the tight levels to the loose ones. -/
theorem Reads.derived {ℓ : Level} {ts rest : List Token} {p : Phrase} (h : Reads ℓ ts p rest)
    (hp : p.isSound = true) :
    ∃ d : Derivation ℓ, d.tokens ++ rest = ts ∧ d.phrase = p ∧ d.Fits rest := by
  by_cases hℓ : ℓ.isChained = true
  · have htighter := Level.looseness_operandLevel (Level.operandLevel?_of_isChained hℓ)
    obtain ⟨first, mid, hfirst, hmore⟩ := h.chain_cases (Level.operandLevel?_of_isChained hℓ)
    have hle := hfirst.length_le
    -- the chain comes first, since it shows that its first operand holds no fault
    obtain ⟨c, hmid, hc, hcfits⟩ := hmore.derived hp
    have hsound : first.isSound = true := c.isSound_left (by rw [hc]; exact hp)
    obtain ⟨d, hts, hd, hdfits⟩ := hfirst.derived hsound
    subst hmid hts hd hc
    exact ⟨.chain hℓ d c, List.append_assoc _ _ _, rfl, hdfits, hcfits⟩
  · match ℓ, h with
    | .primary, h =>
      obtain ⟨a, rfl, rfl⟩ | ⟨us, hts, hinner⟩ := h.primary_cases hp
      · exact ⟨.atom a, rfl, rfl, trivial⟩
      · have hlt : us.length < ts.length := by rw [hts]; exact Nat.lt_succ_self _
        obtain ⟨d, hus, hd, hfits⟩ := hinner.derived hp
        refine ⟨.parentheses d, ?_, hd, hfits⟩
        rw [hts, ← hus, Derivation.tokens, List.cons_append, List.append_assoc]
        rfl
    | .power, h =>
      obtain hbase | ⟨b, us, exponent, hpower, hbase, hexponent⟩ := h.power_cases
      · obtain ⟨d, hts, hd, hfits⟩ := hbase.derived hp
        exact ⟨.base d, hts, hd, hfits⟩
      · rw [hpower, Phrase.isSound_binary] at hp
        -- the base has left the power sign and the exponent
        have hlt : us.length < ts.length := hbase.length_le
        obtain ⟨d', hus, hd', hfits'⟩ := hexponent.derived hp.2
        obtain ⟨d, hts, hd, hfits⟩ := hbase.derived hp.1
        subst hpower hus hts hd hd'
        exact ⟨.power d d', List.append_assoc _ _ _, rfl, hfits, hfits'⟩
    | .signed, h =>
      obtain ⟨digits, rfl, rfl, hstar⟩ | ⟨us, operand, hnegate, hts, hliteral, hoperand⟩ | hpower :=
        h.signed_cases
      · exact ⟨.negative digits, rfl, rfl, hstar⟩
      · rw [hnegate] at hp
        have hlt : us.length < ts.length := by rw [hts]; exact Nat.lt_succ_self _
        obtain ⟨d, hus, hd, hfits⟩ := hoperand.derived hp
        subst hnegate hts hus hd
        exact ⟨.negate d, rfl, rfl, hfits, hliteral⟩
      · obtain ⟨d, hts, hd, hfits⟩ := hpower.derived hp
        exact ⟨.unsigned d, hts, hd, hfits⟩
    | .comparison, h =>
      obtain hsum | ⟨op, l, us, r, hop, hcompare, hleft, hright⟩ := h.comparison_cases hp
      · obtain ⟨d, hts, hd, hfits⟩ := hsum.derived hp
        exact ⟨.single d, hts, hd, hfits⟩
      · rw [hcompare, Phrase.isSound_binary] at hp
        have hlt : us.length < ts.length := by
          have hle := hleft.length_le
          rw [List.length_cons, List.length_append] at hle
          omega
        obtain ⟨d', hus, hd', hfits'⟩ := hright.derived hp.2
        obtain ⟨d, hts, hd, hfits⟩ := hleft.derived hp.1
        subst hcompare hus hts hd hd'
        refine ⟨.compare op hop d d', ?_, rfl, hfits, hfits'⟩
        rw [Derivation.tokens, List.append_assoc, List.cons_append, List.append_assoc]
    | .negation, h =>
      obtain ⟨us, operand, hnot, hts, hoperand⟩ | hcomparison := h.negation_cases
      · rw [hnot] at hp
        have hlt : us.length < ts.length := by rw [hts]; exact Nat.lt_succ_self _
        obtain ⟨d, hus, hd, hfits⟩ := hoperand.derived hp
        subst hnot hts hus hd
        exact ⟨.not d, rfl, rfl, hfits⟩
      · obtain ⟨d, hts, hd, hfits⟩ := hcomparison.derived hp
        exact ⟨.plain d, hts, hd, hfits⟩
termination_by (ts.length, ℓ.looseness)
decreasing_by
  all_goals first
    | (apply Prod.Lex.left; omega)
    | (apply Prod.Lex.right; decide)
    | (apply Prod.Lex.right; exact htighter)
    | (simp only [Prod.lex_def]; omega)

theorem ReadsMore.derived {ℓ : Level} {left : Phrase} {ts rest : List Token} {p : Phrase}
    (h : ReadsMore ℓ ℓ.next left ts p rest) (hp : p.isSound = true) :
    ∃ c : Chain ℓ, c.tokens ++ rest = ts ∧ c.phrase left = p ∧ c.Fits rest := by
  obtain ⟨rfl, rfl⟩ | ⟨op, us, right, mid, hop, hts, hright, hmore⟩ := h.cases
  · exact ⟨.nil, rfl, rfl, trivial⟩
  · have hle := hright.length_le
    have hlt : us.length < ts.length := by rw [hts]; exact Nat.lt_succ_self _
    obtain ⟨c, hmid, hc, hcfits⟩ := hmore.derived hp
    have hbinary : (Phrase.binary op left right).isSound = true :=
      c.isSound_left (by rw [hc]; exact hp)
    obtain ⟨d, hus, hd, hdfits⟩ := hright.derived ((Phrase.isSound_binary _ _ _).mp hbinary).2
    subst hts hmid hus hd hc
    refine ⟨.cons op hop d c, ?_, rfl, hdfits, hcfits⟩
    rw [Chain.tokens, List.cons_append, List.append_assoc]
termination_by (ts.length, 0)
decreasing_by all_goals (apply Prod.Lex.left; omega)

end

/-- Nothing follows where all the tokens are read, so nothing is left to go on with. -/
theorem readPhrase_of_derives {d : Derivation .disjunction} (h : d.Derives ts) :
    readPhrase ts = d.phrase := by
  obtain ⟨htokens, hfits⟩ := h
  have hread := d.reads hfits (Stops.nil _)
  rw [List.append_nil, htokens] at hread
  obtain ⟨hle, he⟩ := hread.eq
  unfold readPhrase
  rw [he]

theorem exists_derives (h : (readPhrase ts).isSound = true) :
    ∃ d : Derivation .disjunction, d.Derives ts ∧ d.phrase = readPhrase ts := by
  unfold readPhrase at h ⊢
  split at h
  · next p hle he =>
    have hread : Reads .disjunction ts p [] := Reads.of_eq he
    obtain ⟨d, htokens, hd, hfits⟩ := hread.derived h
    rw [List.append_nil] at htokens
    exact ⟨d, ⟨htokens, hfits⟩, hd⟩
  · cases h

/-- Only a phrase without fault stands for an expression. -/
theorem Phrase.isSound_of_elaborate {r : Registry} {source? : Option Expr} {p : Phrase} {e : Expr}
    (h : p.elaborate r source? = .ok e) : p.isSound = true := by
  induction p generalizing e with
  | not operand ih =>
    obtain ⟨a, ha, -⟩ := Error.bind_ok h
    exact ih ha
  | negate operand ih =>
    obtain ⟨a, ha, -⟩ := Error.bind_ok h
    exact ih ha
  | binary op l r ihl ihr =>
    obtain ⟨a, ha, h⟩ := Error.bind_ok h
    obtain ⟨b, hb, -⟩ := Error.bind_ok h
    exact (isSound_binary op l r).mpr ⟨ihl ha, ihr hb⟩
  | fault error => cases h
  | faultAfter p error ih =>
    obtain ⟨a, -, h⟩ := Error.bind_ok h
    cases h
  | _ => rfl

/-- **The parser accepts exactly the grammar, and gives what a derivation builds.** Any list of
tokens has one derivation at most, and stands for an expression exactly if it has a derivation
that builds this expression. -/
theorem readPhrase_builds (r : Registry) (source? : Option Expr) (ts : List Token) :
    (∀ d d' : Derivation .disjunction, d.Derives ts → d'.Derives ts → d = d') ∧
      ∀ e, (readPhrase ts).elaborate r source? = .ok e ↔
        ∃ d : Derivation .disjunction, d.Derives ts ∧ d.build r source? = .ok e := by
  refine ⟨fun d d' h h' => ?_, fun e => ⟨fun he => ?_, ?_⟩⟩
  · have htokens : d.tokens ++ [] = d'.tokens ++ [] := by rw [h.1, h'.1]
    exact (d.unique d' htokens h.2 h'.2 (Stops.nil _) (Stops.nil _)).1
  · obtain ⟨d, hd, hphrase⟩ := exists_derives (Phrase.isSound_of_elaborate he)
    rw [← hphrase, d.elaborate_phrase] at he
    exact ⟨d, hd, he⟩
  · rintro ⟨d, hd, hbuild⟩
    rw [readPhrase_of_derives hd, d.elaborate_phrase]
    exact hbuild

end QueryExpr
