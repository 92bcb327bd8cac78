import QueryExpr.Proofs.Phrase.Numbers

/-!
# Spelling tokens and cutting texts

Tokens that are spelled one after the other, with blanks between them, are cut out of this text
again. All tokens of a text have a spelling, so they can be spelled anew with single spaces, and the
new text has the same tokens.

* `tokenize_of_spells`: spelled tokens are cut out again.
* `spells_respell`: tokens may be joined by any blanks.
* `cutting_inverts_spelling`: **both ways, and no scanned number is invalid.**
-/

namespace QueryExpr

namespace Token

variable {cs gap : List Char} {ts : List Token} {t : Token} {s : String}

/-- The characters spell the tokens one after the other, with any blanks around each. A blank or
nothing follows a token. -/
inductive Spells : List Token → List Char → Prop
  | blanks {gap : List Char} (hgap : ∀ c ∈ gap, Text.isBlank c = true) : Spells [] gap
  | token {gap cs : List Char} {t : Token} {ts : List Token}
    (hgap : ∀ c ∈ gap, Text.isBlank c = true) (hrest : Spells ts cs)
    (hsep : ∀ c ∈ cs.head?, Text.isBlank c = true) : Spells (t :: ts) (gap ++ (t.spelling.toList ++ cs))

/-- The tokens as a text with the same blanks between any two. -/
def respell (gap : String) (ts : List Token) : String := gap.intercalate (ts.map spelling)

/-- Blanks may stand before what spells tokens. -/
theorem Spells.blanks_append (h : Spells ts cs) (hgap : ∀ c ∈ gap, Text.isBlank c = true) :
    Spells ts (gap ++ cs) := by
  cases h with
  | blanks hblank => exact .blanks (List.forall_mem_append.mpr ⟨hgap, hblank⟩)
  | token hblank hrest hsep =>
    rw [← List.append_assoc]
    exact .token (List.forall_mem_append.mpr ⟨hgap, hblank⟩) hrest hsep

/-- **Tokens may be joined by any blanks.** -/
theorem spells_respell {gap : String} (hne : gap ≠ "") (hgap : gap.toList.all Text.isBlank = true)
    (ts : List Token) : Spells ts (respell gap ts).toList := by
  rw [respell, String.toList_intercalate, List.map_map]
  have hblank := List.all_eq_true.mp hgap
  obtain ⟨c, tail, hcons⟩ := List.exists_cons_of_ne_nil (mt String.toList_eq_nil_iff.mp hne)
  induction ts with
  | nil => exact .blanks nofun
  | cons t ts ih =>
    cases ts with
    | nil => exact @Spells.token [] [] t [] nofun (.blanks nofun) nofun
    | cons u ts =>
      rw [List.map_cons, List.map_cons, List.intercalate_cons_cons, List.append_assoc]
      -- the blanks that follow a token are those before the next one
      refine @Spells.token [] _ t (u :: ts) nofun (ih.blanks_append hblank) ?_
      intro d hd
      rw [hcons] at hd
      cases hd
      exact hblank _ (by rw [hcons]; exact List.mem_cons_self)

theorem tokenizeFrom_of_spells {total : Nat} (h : Spells ts cs) (hts : ∀ t ∈ ts, t.IsLexical) :
    tokenizeFrom total cs = .ok ts := by
  induction h with
  | @blanks gap hgap =>
    have hblanks : tokenizeFrom total (gap ++ []) = tokenizeFrom total [] :=
      tokenizeFrom_blanks total hgap
    rwa [List.append_nil, tokenizeFrom_nil] at hblanks
  | token hgap hrest hsep ih =>
    obtain ⟨ht, hts⟩ := List.forall_mem_cons.mp hts
    rw [tokenizeFrom_blanks total hgap, tokenizeFrom_spelling ht (ends_of_isBlank hsep), ih hts]
    rfl

/-- **Spelled tokens are cut out again.** -/
theorem tokenize_of_spells (h : Spells ts s.toList) (hts : ∀ t ∈ ts, t.IsLexical) :
    tokenize s = .ok ts := tokenizeFrom_of_spells h hts

/-- **Cutting a text into tokens inverts spelling.** Tokens of the right form that are spelled with
blanks between them are cut out again. All tokens of a text have this form, and spelled with single
spaces they are the tokens of the new text, too. Each number among them can be read, after a minus
sign or not, and so no text at all is refused for an invalid number. -/
theorem cutting_inverts_spelling :
    (∀ (ts : List Token) (s : String), (∀ t ∈ ts, t.IsLexical) → Spells ts s.toList →
      tokenize s = .ok ts) ∧
    (∀ (s : String) (ts : List Token), tokenize s = .ok ts →
      (∀ t ∈ ts, t.IsLexical) ∧ tokenize (respell " " ts) = .ok ts ∧
        ∀ digits, .number digits ∈ ts → ∀ negative text,
          Phrase.ofNumber negative digits ≠ .error (.syntaxError (.invalidNumber text))) ∧
    ∀ (r : Registry) (source? : Option Expr) (s text : String),
      Expr.parse r source? s ≠ .error (.syntaxError (.invalidNumber text)) := by
  refine ⟨fun ts s hts h => tokenize_of_spells h hts, fun s ts h => ?_, Expr.parse_ne_invalidNumber⟩
  have hts := isLexical_of_tokenize h
  refine ⟨hts, tokenize_of_spells (spells_respell (by decide) (by decide) ts) hts, ?_⟩
  intro digits hdigits negative text
  exact Phrase.ofNumber_ne_invalidNumber (hts _ hdigits) negative text

/-- A comparison with a text, spelled with other blanks and then with single spaces. -/
theorem cutting_inverts_spelling_comparison :
    tokenize "x_1 \t>= \t1.5E+3 \t<> \t'it''s'" =
        .ok [.identifier "x_1", .sign .greaterEqual, .number "1.5E+3", .sign .notEqual, .text "it's"] ∧
      tokenize "x_1 >= 1.5E+3 <> 'it''s'" =
        .ok [.identifier "x_1", .sign .greaterEqual, .number "1.5E+3", .sign .notEqual,
          .text "it's"] := by
  have hname : (identifier "x_1").IsLexical :=
    ⟨⟨'x', ['_', '1'], rfl, by decide, List.all_eq_true.mp (by decide)⟩, by decide⟩
  have hnumber : (number "1.5E+3").IsLexical := by
    have hwhole : IsDigits ['1'] := isDigits_of_all (List.cons_ne_nil _ _) (by decide)
    have hfraction : IsFraction ['.', '5'] := .point (isDigits_of_all (List.cons_ne_nil _ _) (by decide))
    have hexponent : IsExponent ['E', '+', '3'] :=
      .signed (.inr rfl) (.inl rfl) (isDigits_of_all (List.cons_ne_nil _ _) (by decide))
    exact .intro hwhole hfraction hexponent
  have hlexical : ∀ t ∈ [identifier "x_1", .sign .greaterEqual, .number "1.5E+3", .sign .notEqual,
      .text "it's"], t.IsLexical := by
    simp only [List.forall_mem_cons]
    exact ⟨hname, trivial, hnumber, trivial, trivial, List.forall_mem_nil _⟩
  have hspells := spells_respell (by decide : " \t" ≠ "") (by decide) [identifier "x_1",
    .sign .greaterEqual, .number "1.5E+3", .sign .notEqual, .text "it's"]
  have hfirst := cutting_inverts_spelling.1 _ _ hlexical hspells
  exact ⟨hfirst, (cutting_inverts_spelling.2.1 _ _ hfirst).2.1⟩

end Token

end QueryExpr
