import QueryExpr.Phrase.Read
import QueryExpr.Proofs.Phrase.Spelling

/-!
# Reading what phrases spell

The tokens of a plain phrase are read as that phrase on every level that is as loose as the
phrase binds, up to where its tokens end. What follows them must not go on with the phrase:
an operator there has to bind more loosely than the level.

* `Reads.of_next`: what a level reads is read on the next looser one.
* `Continues`: the operands of a chain are read one after the other, the chain before them
  being its left operand.
* `readPhrase_tokens`: **the tokens of a plain phrase are read as that phrase.**
-/

namespace QueryExpr

variable {ℓ m tighter : Level} {ts us rest mid : List Token} {p q l r : Phrase} {op : BinaryOp}
  {t : Token}

/-- A level reads the tokens as a phrase and leaves the rest. -/
def Reads (ℓ : Level) (ts : List Token) (p : Phrase) (rest : List Token) : Prop :=
  (readLevel ℓ ts).phrase = p ∧ (readLevel ℓ ts).rest = rest

/-- After a left operand the operators of a level and their right operands are read. -/
def ReadsMore (ℓ tighter : Level) (left : Phrase) (ts : List Token) (p : Phrase)
    (rest : List Token) : Prop :=
  (readMore ℓ tighter left ts).phrase = p ∧ (readMore ℓ tighter left ts).rest = rest

/-- No operator comes first that a level would go on with. -/
def Stops (ℓ : Level) (rest : List Token) : Prop :=
  ∀ op : BinaryOp, ℓ.strength ≤ op.precedence → rest.head? ≠ some op.token

theorem Stops.mono (h : Stops ℓ rest) (hle : ℓ.strength ≤ m.strength) : Stops m rest :=
  fun op hop => h op (Nat.le_trans hle hop)

theorem Stops.nil (ℓ : Level) : Stops ℓ [] := nofun

theorem Stops.paren (ℓ : Level) (rest : List Token) : Stops ℓ (.sign .rightParen :: rest) := by
  intro op _ h
  cases op <;> cases h

/-- An operator stops the levels that are tighter than its own. -/
theorem Stops.operator (h : op.precedence < ℓ.strength) (rest : List Token) :
    Stops ℓ (op.token :: rest) := by
  intro op' hop' he
  rw [List.head?_cons, Option.some.injEq] at he
  rw [← BinaryOp.token_inj he] at hop'
  omega

/-- Between the minus sign and the power no operator binds. -/
theorem Stops.signed (hs : Stops .power rest) : Stops .signed rest := by
  intro op hop
  refine hs op ?_
  revert hop
  cases op <;> decide

theorem BinaryOp.precedence_lt_sum (h : op.level = .comparison) :
    op.precedence < Level.sum.strength := by
  rw [op.precedence_eq, h]
  decide

/-! ## Single tokens -/

theorem accept?_self (t : Token) (rest : List Token) :
    accept? t (t :: rest) = some ⟨rest, Nat.lt_succ_self _⟩ := by
  rw [accept?, if_pos rfl]

theorem accept?_of_ne (h : ts.head? ≠ some t) : accept? t ts = none := by
  cases ts with
  | nil => rfl
  | cons found tail =>
    rw [accept?, if_neg]
    rintro rfl
    exact h rfl

theorem chained?_some (h : ℓ.chained? t = some op) : t = op.token ∧ op.precedence = ℓ.strength := by
  unfold Level.chained? at h
  split at h <;> cases h <;> exact ⟨rfl, rfl⟩

theorem comparison?_some (h : t.comparison? = some op) :
    t = op.token ∧ op.precedence = Level.comparison.strength := by
  unfold Token.comparison? at h
  split at h <;> cases h <;> exact ⟨rfl, rfl⟩

theorem acceptChained?_of_stops (h : Stops ℓ rest) : acceptChained? ℓ rest = none := by
  cases rest with
  | nil => rfl
  | cons t tail =>
    rw [acceptChained?, Option.map_eq_none_iff]
    cases hc : ℓ.chained? t with
    | none => rfl
    | some op =>
      obtain ⟨rfl, hp⟩ := chained?_some hc
      exact absurd rfl (h op (Nat.le_of_eq hp.symm))

theorem acceptComparison?_of_stops (h : Stops .comparison rest) : acceptComparison? rest = none := by
  cases rest with
  | nil => rfl
  | cons t tail =>
    rw [acceptComparison?, Option.map_eq_none_iff]
    cases hc : t.comparison? with
    | none => rfl
    | some op =>
      obtain ⟨rfl, hp⟩ := comparison?_some hc
      exact absurd rfl (h op (Nat.le_of_eq hp.symm))

/-! ## The ways to read -/

theorem Reads.eq (h : Reads ℓ ts p rest) : ∃ hle, readLevel ℓ ts = ⟨p, rest, hle⟩ := by
  obtain ⟨rfl, rfl⟩ := h
  exact ⟨_, rfl⟩

theorem Reads.atom (h : atom? t = some p) (rest : List Token) : Reads .primary (t :: rest) p rest := by
  have hne : (t :: rest).head? ≠ some (.sign .leftParen) := by
    rintro he
    cases he
    cases h
  unfold Reads
  rw [readLevel, accept?_of_ne hne]
  simp only [h]
  exact ⟨rfl, rfl⟩

theorem Reads.paren (h : Reads .disjunction ts p (.sign .rightParen :: rest)) :
    Reads .primary (.sign .leftParen :: ts) p rest := by
  obtain ⟨hle, he⟩ := h.eq
  unfold Reads
  rw [readLevel, accept?_self]
  dsimp only
  rw [he]
  dsimp only
  rw [accept?_self]
  exact ⟨rfl, rfl⟩

theorem Reads.power (h : Reads .primary ts l (.sign .doubleStar :: us)) (hr : Reads .signed us r rest) :
    Reads .power ts (.binary .power l r) rest := by
  obtain ⟨hle, he⟩ := h.eq
  obtain ⟨rfl, rfl⟩ := hr
  unfold Reads
  rw [readLevel]
  dsimp only
  rw [he]
  dsimp only
  rw [accept?_self]
  exact ⟨rfl, rfl⟩

theorem Reads.negative (digits : String) (h : rest.head? ≠ some (.sign .doubleStar)) :
    Reads .signed (.sign .minus :: .number digits :: rest) (.number true digits) rest := by
  unfold Reads
  rw [readLevel]
  simp only [negativeNumber?, if_neg h]
  exact ⟨rfl, rfl⟩

theorem Reads.not (h : Reads .negation ts p rest) :
    Reads .negation (.keyword .not :: ts) (.not p) rest := by
  obtain ⟨rfl, rfl⟩ := h
  unfold Reads
  conv => lhs; rw [readLevel, accept?_self]
  conv => rhs; lhs; rw [readLevel, accept?_self]
  exact ⟨rfl, rfl⟩

theorem Reads.comparison (hc : t.comparison? = some op) (h : Reads .sum ts l (t :: us))
    (hr : Reads .sum us r rest) : Reads .comparison ts (.binary op l r) rest := by
  have hne : (t :: us).head? ≠ some (.keyword .is) := by
    intro hi
    cases hi
    cases hc
  obtain ⟨hle, he⟩ := h.eq
  obtain ⟨rfl, rfl⟩ := hr
  unfold Reads
  rw [readLevel]
  dsimp only
  rw [he]
  dsimp only
  rw [accept?_of_ne hne]
  simp only [acceptComparison?, hc, Option.map_some]
  exact ⟨rfl, rfl⟩

theorem Reads.identical
    (h : Reads .sum ts l (.keyword .is :: .keyword .not :: .keyword .distinct :: .keyword .fromWord :: us))
    (hr : Reads .sum us r rest) : Reads .comparison ts (.binary .identical l r) rest := by
  obtain ⟨hle, he⟩ := h.eq
  obtain ⟨rfl, rfl⟩ := hr
  unfold Reads
  rw [readLevel]
  dsimp only
  rw [he]
  dsimp only
  rw [accept?_self]
  exact ⟨rfl, rfl⟩

theorem Reads.chain (hℓ : ℓ.operandLevel? = some tighter) (h : Reads tighter ts l mid)
    (hm : ReadsMore ℓ tighter l mid p rest) : Reads ℓ ts p rest := by
  have hlevel : readLevel ℓ ts = readChain ℓ tighter hℓ ts := by
    cases ℓ <;> cases hℓ <;> rw [readLevel]
  obtain ⟨hle, he⟩ := h.eq
  unfold Reads
  rw [hlevel, readChain]
  dsimp only
  rw [he]
  exact hm

theorem ReadsMore.stop (h : Stops ℓ rest) : ReadsMore ℓ tighter p rest p rest := by
  unfold ReadsMore
  rw [readMore, acceptChained?_of_stops h]
  exact ⟨rfl, rfl⟩

theorem ReadsMore.step (hc : ℓ.chained? t = some op) (hr : Reads tighter us r mid)
    (hm : ReadsMore ℓ tighter (.binary op l r) mid p rest) :
    ReadsMore ℓ tighter l (t :: us) p rest := by
  obtain ⟨hle, he⟩ := hr.eq
  unfold ReadsMore
  rw [readMore, acceptChained?, hc]
  dsimp only [Option.map_some]
  rw [he]
  exact hm

/-! ## From one level to the looser ones -/

theorem negativeNumber?_of_ne (h : ts.head? ≠ some (.sign .minus)) : negativeNumber? ts = none := by
  unfold negativeNumber?
  split
  · exact absurd rfl h
  · rfl

/-- **What a level reads is read on the next looser one** if nothing follows that the looser
level would go on with, and nothing comes first that it would take for itself. -/
theorem Reads.of_next (h : Reads ℓ.next ts p rest) (hs : Stops ℓ rest)
    (hm : ℓ = .signed → ts.head? ≠ some (.sign .minus))
    (hn : ℓ = .negation → ts.head? ≠ some (.keyword .not)) : Reads ℓ ts p rest := by
  cases ℓ with
  | primary => exact h
  | power =>
    have hstar : rest.head? ≠ some (.sign .doubleStar) := hs .power (by decide)
    obtain ⟨hle, he⟩ : ∃ hle, readLevel .primary ts = ⟨p, rest, hle⟩ := h.eq
    unfold Reads
    rw [readLevel]
    dsimp only
    rw [he]
    dsimp only
    rw [accept?_of_ne hstar]
    exact ⟨rfl, rfl⟩
  | signed =>
    unfold Reads
    rw [readLevel, negativeNumber?_of_ne (hm rfl), accept?_of_ne (hm rfl)]
    exact h
  | comparison =>
    have his : rest.head? ≠ some (.keyword .is) := hs .identical (by decide)
    obtain ⟨hle, he⟩ : ∃ hle, readLevel .sum ts = ⟨p, rest, hle⟩ := h.eq
    unfold Reads
    rw [readLevel]
    dsimp only
    rw [he]
    dsimp only
    rw [accept?_of_ne his, acceptComparison?_of_stops hs]
    exact ⟨rfl, rfl⟩
  | negation =>
    unfold Reads
    rw [readLevel, accept?_of_ne (hn rfl)]
    exact h
  | _ => exact Reads.chain rfl h (ReadsMore.stop hs)

/-- The first of the tokens is none that only levels looser than `ℓ` take for themselves. -/
def Opens (ℓ : Level) (ts : List Token) : Prop :=
  ∃ t tail, ts = t :: tail ∧ (Level.signed.strength < ℓ.strength → t ≠ .sign .minus) ∧
    (Level.negation.strength < ℓ.strength → t ≠ .keyword .not)

theorem Opens.mono (h : Opens m ts) (hle : ℓ.strength ≤ m.strength) : Opens ℓ ts := by
  obtain ⟨t, tail, rfl, hm, hn⟩ := h
  exact ⟨t, tail, rfl, fun hlt => hm (by omega), fun hlt => hn (by omega)⟩

theorem Opens.append (h : Opens ℓ ts) (us : List Token) : Opens ℓ (ts ++ us) := by
  obtain ⟨t, tail, rfl, hm, hn⟩ := h
  exact ⟨t, tail ++ us, rfl, hm, hn⟩

theorem Opens.paren (ℓ : Level) (ts : List Token) : Opens ℓ (.sign .leftParen :: ts) :=
  ⟨_, ts, rfl, fun _ => nofun, fun _ => nofun⟩

/-- What a level reads is read on every looser one. -/
theorem Reads.loosen {ℓ : Level} (h : Reads m ts p rest) (ho : Opens m ts) (hle : ℓ.strength ≤ m.strength)
    (hs : Stops ℓ rest) : Reads ℓ ts p rest := by
  by_cases he : ℓ = m
  · rw [he]
    exact h
  · have hlt : ℓ.strength < m.strength := Nat.lt_of_le_of_ne hle fun hst => he (Level.strength_inj hst)
    have hnext := Level.strength_next hlt
    have hloose : ℓ.next.looseness < ℓ.looseness := Level.looseness_next (by
      rintro rfl
      have := m.strength_le_primary
      omega)
    -- down to the next level by induction, and from there to this one
    refine (h.loosen ho hnext (hs.mono ℓ.strength_le_next)).of_next hs ?_ ?_
    · rintro rfl
      obtain ⟨t, tail, rfl, hm, -⟩ := ho
      exact fun hh => hm hlt (Option.some.inj hh)
    · rintro rfl
      obtain ⟨t, tail, rfl, -, hn⟩ := ho
      exact fun hh => hn hlt (Option.some.inj hh)
termination_by ℓ.looseness

/-! ## Operands -/

/-- The tokens are read as the phrase on the level, whatever follows that stops the level. -/
def ReadAt (ℓ : Level) (ts : List Token) (p : Phrase) : Prop :=
  ∀ rest, Stops ℓ rest → Reads ℓ (ts ++ rest) p rest

/-- The tokens are read on the level as the phrase, which becomes the left operand of
whatever operators of the level follow. -/
def Continues (ℓ : Level) (ts : List Token) (p : Phrase) : Prop :=
  ∀ rest q out, Stops ℓ.next rest → ReadsMore ℓ ℓ.next p rest q out → Reads ℓ (ts ++ rest) q out

theorem ReadAt.loosen (h : ReadAt m ts p) (ho : Opens m ts) (hle : ℓ.strength ≤ m.strength) :
    ReadAt ℓ ts p :=
  fun rest hs => (h rest (hs.mono hle)).loosen (ho.append rest) hle hs

/-- Parentheses make a phrase of any level readable on every level. -/
theorem ReadAt.paren (h : ReadAt .disjunction ts p) : ReadAt ℓ (Phrase.wrap true ts) p := by
  have hprimary : ReadAt .primary (Phrase.wrap true ts) p := by
    intro rest _
    have hr := Reads.paren (h (.sign .rightParen :: rest) (Stops.paren _ rest))
    rw [Phrase.wrap, if_pos rfl]
    simpa using hr
  exact hprimary.loosen (Opens.paren _ _) ℓ.strength_le_primary

theorem Continues.of_readAt (hℓ : ℓ.operandLevel? = some ℓ.next) (h : ReadAt ℓ.next ts p) :
    Continues ℓ ts p :=
  fun rest _ _ hs hm => Reads.chain hℓ (h rest hs) hm

/-- **A chain goes on** with an operator of its level and an operand of the next one. -/
theorem Continues.step (hc : ℓ.chained? op.token = some op) (hlt : ℓ.strength < ℓ.next.strength)
    (hl : Continues ℓ ts l) (hr : ReadAt ℓ.next us r) :
    Continues ℓ (ts ++ op.token :: us) (.binary op l r) := by
  intro rest q out hs hm
  rw [List.append_assoc, List.cons_append]
  refine hl _ _ _ (Stops.operator ?_ _) (ReadsMore.step hc (hr rest hs) hm)
  rw [(chained?_some hc).2]
  exact hlt

theorem Continues.readAt (h : Continues ℓ ts p) : ReadAt ℓ ts p :=
  fun rest hs => h rest p rest (hs.mono ℓ.strength_le_next) (ReadsMore.stop hs)

/-- What is known of the tokens of a phrase, to be used where the phrase is an operand. -/
structure Readable (p : Phrase) : Prop where
  readAt : ReadAt p.level p.tokens p
  opens : Opens p.level p.tokens
  continues : p.level.operandLevel? = some p.level.next → Continues p.level p.tokens p

namespace Readable

variable {b : Bool}

theorem readAt_wrap (h : Readable p) (hb : b = false → ℓ.strength ≤ p.level.strength) :
    ReadAt ℓ (Phrase.wrap b p.tokens) p := by
  cases b with
  | false => exact h.readAt.loosen h.opens (hb rfl)
  | true => exact (h.readAt.loosen h.opens p.level.disjunction_le_strength).paren

theorem continues_wrap (h : Readable p) (hℓ : ℓ.operandLevel? = some ℓ.next)
    (hb : b = false → ℓ.strength ≤ p.level.strength) : Continues ℓ (Phrase.wrap b p.tokens) p := by
  -- only a phrase of this very level without parentheses is a chain that may go on
  by_cases hsame : b = false ∧ ℓ = p.level
  · obtain ⟨rfl, rfl⟩ := hsame
    exact h.continues hℓ
  · refine Continues.of_readAt hℓ (h.readAt_wrap fun hf => Level.strength_next ?_)
    exact Nat.lt_of_le_of_ne (hb hf) fun he => hsame ⟨hf, Level.strength_inj he⟩

theorem opens_wrap (h : Readable p) (hb : b = false → ℓ.strength ≤ p.level.strength) :
    Opens ℓ (Phrase.wrap b p.tokens) := by
  cases b with
  | false => exact h.opens.mono (hb rfl)
  | true => exact Opens.paren _ _

end Readable

/-! ## Plain phrases -/

theorem moreTokens_of_ne (h : op ≠ .identical) : op.moreTokens = [] := by
  cases op <;> first | rfl | exact absurd rfl h

theorem comparison?_token (h : op.level = .comparison) (hi : op ≠ .identical) :
    op.token.comparison? = some op := by
  cases op <;> first | rfl | exact absurd rfl hi | cases h

/-- The operator tokens and the right operand, as they follow a left operand. -/
theorem tokens_binary (op : BinaryOp) (l r : Phrase) :
    (Phrase.binary op l r).tokens =
      Phrase.wrap (Fragment.leftNeedsParentheses op l.fragment) l.tokens ++
        op.token :: (op.moreTokens ++
          Phrase.wrap (Fragment.rightNeedsParentheses op r.fragment) r.tokens) := by
  rw [Phrase.tokens, List.append_assoc, List.cons_append]

theorem Readable.of_atom (hp : p.level = .primary) (ht : p.tokens = [t]) (ha : atom? t = some p) :
    Readable p where
  readAt := by
    intro rest _
    rw [hp, ht]
    exact Reads.atom ha rest
  opens := by
    rw [ht]
    refine ⟨t, [], rfl, fun _ => ?_, fun _ => ?_⟩ <;> rintro rfl <;> cases ha
  continues := by
    rw [hp]
    nofun

theorem Readable.negative (digits : String) : Readable (.number true digits) where
  readAt := by
    intro rest hs
    have hs : Stops .signed rest := hs
    exact Reads.negative digits (hs .power (by decide))
  opens := ⟨_, _, rfl, fun h => absurd h (Nat.lt_irrefl _), fun _ => nofun⟩
  continues := nofun

theorem Readable.not (h : Readable p) (hp : p.Plain) : Readable (.not p) where
  readAt := by
    intro rest hs
    refine Reads.not (h.readAt_wrap ?_ rest hs)
    intro hb
    rw [decide_eq_false_iff_not, Nat.not_lt, Phrase.fragment_precedence hp] at hb
    exact hb
  opens := by
    have hs : ¬ Level.signed.strength < Level.negation.strength := by decide
    exact ⟨_, _, rfl, fun h => absurd h hs, fun h => absurd h (Nat.lt_irrefl _)⟩
  continues := nofun

section Binary

variable (hl : Readable l) (hr : Readable r) (hpl : l.Plain) (hpr : r.Plain)

include hl hpl in
theorem opens_binary (op : BinaryOp) (r : Phrase) :
    Opens (Phrase.binary op l r).level (Phrase.binary op l r).tokens := by
  rw [tokens_binary]
  exact (hl.opens_wrap (Phrase.le_of_not_leftNeeds hpl)).append _

include hl hr hpl hpr

/-- An operator that a level chains goes on with the chain of its left operand. -/
theorem continues_binary (hc : op.level.chained? op.token = some op)
    (hop : op.level.operandLevel? = some op.level.next) (ha : op.associativity = .left) :
    Continues op.level (Phrase.binary op l r).tokens (.binary op l r) := by
  have hmore : op.moreTokens = [] := by
    apply moreTokens_of_ne
    rintro rfl
    cases hop
  have hlt : op.level.strength < op.level.next.strength := by
    revert hop
    cases op.level <;> decide
  have hleft : Continues op.level (Phrase.wrap (Fragment.leftNeedsParentheses op l.fragment) l.tokens) l :=
    hl.continues_wrap hop (Phrase.le_of_not_leftNeeds hpl)
  have hright : ReadAt op.level.next
      (Phrase.wrap (Fragment.rightNeedsParentheses op r.fragment) r.tokens) r :=
    hr.readAt_wrap (Phrase.next_le_of_not_rightNeeds hpr (by rw [ha]; decide))
  rw [tokens_binary, hmore]
  exact Continues.step hc hlt hleft hright

theorem Readable.chained (hc : op.level.chained? op.token = some op)
    (hop : op.level.operandLevel? = some op.level.next) (ha : op.associativity = .left) :
    Readable (.binary op l r) :=
  have hcont := continues_binary hl hr hpl hpr hc hop ha
  ⟨hcont.readAt, opens_binary hl hpl op r, fun _ => hcont⟩

/-- The operands of a comparison are sums. -/
theorem Readable.comparison (hop : op.level = .comparison) : Readable (.binary op l r) where
  readAt := by
    have hnext : op.level.next = .sum := by rw [hop]; rfl
    have ha : op.associativity = .neither := by revert hop; cases op <;> decide
    have hleft : ReadAt .sum (Phrase.wrap (Fragment.leftNeedsParentheses op l.fragment) l.tokens) l := by
      rw [← hnext]
      exact hl.readAt_wrap (Phrase.next_le_of_not_leftNeeds hpl (by rw [ha]; decide))
    have hright : ReadAt .sum
        (Phrase.wrap (Fragment.rightNeedsParentheses op r.fragment) r.tokens) r := by
      rw [← hnext]
      exact hr.readAt_wrap (Phrase.next_le_of_not_rightNeeds hpr (by rw [ha]; decide))
    have hlt := BinaryOp.precedence_lt_sum hop
    intro rest hs
    have hs : Stops .comparison rest := hop ▸ hs
    have hsum : Stops .sum rest := hs.mono (by decide)
    show Reads op.level _ _ _
    rw [tokens_binary, hop, List.append_assoc, List.cons_append, List.append_assoc]
    by_cases hi : op = .identical
    · subst hi
      exact Reads.identical (hleft _ (Stops.operator hlt _)) (hright rest hsum)
    · rw [moreTokens_of_ne hi]
      exact Reads.comparison (comparison?_token hop hi) (hleft _ (Stops.operator hlt _))
        (hright rest hsum)
  opens := opens_binary hl hpl op r
  continues := by
    show op.level.operandLevel? = _ → _
    rw [hop]
    nofun

theorem Readable.power : Readable (.binary .power l r) where
  readAt := by
    have hleft : ReadAt .primary
        (Phrase.wrap (Fragment.leftNeedsParentheses .power l.fragment) l.tokens) l :=
      hl.readAt_wrap (Phrase.next_le_of_not_leftNeeds hpl (by decide))
    have hright : ReadAt .signed
        (Phrase.wrap (Fragment.rightNeedsParentheses .power r.fragment) r.tokens) r :=
      hr.readAt_wrap fun hb =>
        Nat.le_trans (Level.strength_le_next .signed) (Phrase.le_of_not_rightNeeds hpr hb)
    intro rest hs
    have hs : Stops .power rest := hs
    rw [tokens_binary, List.append_assoc]
    exact Reads.power (hleft _ (Stops.operator (by decide) _)) (hright rest hs.signed)
  opens := opens_binary hl hpl .power r
  continues := nofun

end Binary

/-- **Every plain phrase is readable**, by induction on it. -/
theorem readable (h : p.Plain) : Readable p := by
  induction h with
  | @number negative digits h =>
    cases negative with
    | false => exact Readable.of_atom rfl rfl rfl
    | true => exact Readable.negative digits
  | text s => exact Readable.of_atom rfl rfl rfl
  | truth b => cases b <;> exact Readable.of_atom rfl rfl rfl
  | null => exact Readable.of_atom rfl rfl rfl
  | column h => exact Readable.of_atom rfl rfl rfl
  | not h ih => exact ih.not h
  | @binary op left right hl hr ihl ihr =>
    cases op with
    | power => exact Readable.power ihl ihr hl hr
    | equals | notEquals | greaterEqual | greater | lessEqual | less | identical =>
      exact Readable.comparison ihl ihr hl hr rfl
    | _ => exact Readable.chained ihl ihr hl hr rfl rfl rfl

/-- **The tokens of a plain phrase are read as that phrase.** -/
theorem readPhrase_tokens (h : p.Plain) : readPhrase p.tokens = p := by
  have hr : ReadAt .disjunction p.tokens p :=
    (readable h).readAt.loosen (readable h).opens p.level.disjunction_le_strength
  have hreads := hr [] (Stops.nil _)
  rw [List.append_nil] at hreads
  obtain ⟨hle, he⟩ := hreads.eq
  unfold readPhrase
  rw [he]

end QueryExpr
