import Mathlib.Data.List.TakeWhile
import QueryExpr.Proofs.Token.Numeral
import QueryExpr.Sql.Fragment

/-!
# Spellings of tokens

A name and a number are spelled as they are, a keyword in capitals, a text between quotes with each
quote doubled, and a sign with its own characters. Names and numbers have a form. A token of this
form is scanned from its spelling wherever nothing follows that could go on with it, as a blank
cannot, and every token that is scanned has this form.

* `not_continuesWord_of_isBlank`: a blank ends every word.
* `scan_spelling`: **a token is scanned from its spelling.**
* `isLexical_of_scan`: **what is scanned has the form of a token.**
-/

namespace QueryExpr

/-- The characters of a sign. -/
def Sign.symbol : Sign → String
  | plus => "+"
  | minus => "-"
  | star => "*"
  | doubleStar => "**"
  | slash => "/"
  | doubleSlash => "//"
  | percent => "%"
  | equal => "="
  | notEqual => "<>"
  | less => "<"
  | greater => ">"
  | lessEqual => "<="
  | greaterEqual => ">="
  | leftParen => "("
  | rightParen => ")"

namespace Token

variable {cs rest tail : List Char} {t : Token} {c : Char} {total : Nat}

/-- The token as a text. -/
def spelling : Token → String
  | identifier name => name
  | number digits => digits
  | text s => Fragment.quote s
  | keyword k => k.spelling
  | sign s => s.symbol

/-- A letter or underscore, and then letters, digits and underscores. -/
def IsWord (cs : List Char) : Prop :=
  ∃ c tail, cs = c :: tail ∧ startsWord c = true ∧ ∀ d ∈ tail, continuesWord d = true

/-- A name is a word and no keyword, and a number has the form of one; other tokens are free. -/
def IsLexical : Token → Prop
  | identifier name => IsWord name.toList ∧ Keyword.ofWord? name.toList = none
  | number digits => IsNumber digits.toList
  | _ => True

/-! ## Where tokens end -/

/-- No blank is a letter or a numeral of any script. -/
theorem blankRanges_disjoint :
    (∀ r ∈ Text.blankRanges, ∀ s ∈ Text.alphabeticRanges.toList, r.2 < s.1 ∨ s.2 < r.1) ∧
      ∀ r ∈ Text.blankRanges, ∀ s ∈ Text.numericRanges.toList, r.2 < s.1 ∨ s.2 < r.1 := by
  constructor <;> decide +kernel

theorem not_any_of_disjoint {ranges : Array (Nat × Nat)}
    (h : ∀ r ∈ Text.blankRanges, ∀ s ∈ ranges.toList, r.2 < s.1 ∨ s.2 < r.1)
    (hc : Text.isBlank c = true) :
    (ranges.any fun r => r.1 ≤ c.toNat && c.toNat ≤ r.2) = false := by
  obtain ⟨r, hr, hin⟩ := List.any_eq_true.mp hc
  simp only [Bool.and_eq_true, decide_eq_true_eq] at hin
  rw [← Array.any_toList, List.any_eq_false]
  intro s hs
  have hdisjoint := h r hr s hs
  simp only [Bool.and_eq_true, decide_eq_true_eq]
  omega

/-- **A blank ends every word.** -/
theorem not_continuesWord_of_isBlank (h : Text.isBlank c = true) : continuesWord c = false := by
  by_cases hc : c.val < 0x80
  · have hall : ∀ n < 0x80, Text.isBlank (Char.ofNat n) = true →
        continuesWord (Char.ofNat n) = false := by decide
    have := hall c.toNat hc
    rw [Char.ofNat_toNat] at this
    exact this h
  · have hunderscore : c ≠ '_' := by
      rintro rfl
      exact absurd h (by decide)
    rw [continuesWord, Text.isAlphabetic, Text.isNumeric, if_neg hc, if_neg hc,
      not_any_of_disjoint blankRanges_disjoint.1 h, not_any_of_disjoint blankRanges_disjoint.2 h,
      beq_eq_false_iff_ne.mpr hunderscore]
    rfl

/-- Nothing follows that could go on with a token. -/
def Ends (rest : List Char) : Prop :=
  ∀ c ∈ rest.head?, continuesWord c = false ∧ c ∉ ['\'', '.', '*', '/', '=', '>']

theorem ends_of_isBlank (h : ∀ c ∈ rest.head?, Text.isBlank c = true) : Ends rest := by
  intro c hc
  have hblank := h c hc
  refine ⟨not_continuesWord_of_isBlank hblank, fun hmem => ?_⟩
  simp only [List.mem_cons, List.not_mem_nil, or_false] at hmem
  rcases hmem with rfl | rfl | rfl | rfl | rfl | rfl <;> exact absurd hblank (by decide)

theorem Follows.ends (h : Follows rest) : Ends rest := by
  intro c hc
  rcases h c hc with rfl | rfl <;> decide

/-- A digit begins no word, but goes on with one. -/
theorem word_of_isDigit (h : c.isDigit = true) : startsWord c = false ∧ continuesWord c = true := by
  -- the digits are among the first 58 characters
  have hall : ∀ n < 58, (Char.ofNat n).isDigit = true →
      startsWord (Char.ofNat n) = false ∧ continuesWord (Char.ofNat n) = true := by decide
  have hlt : c.toNat < 58 := by
    rw [Char.isDigit, Bool.and_eq_true, decide_eq_true_eq, decide_eq_true_eq] at h
    exact Nat.lt_succ_of_le h.2
  have := hall c.toNat hlt
  rw [Char.ofNat_toNat] at this
  exact this h

theorem Ends.not_continuesWord (h : Ends rest) : ∀ c ∈ rest.head?, continuesWord c = false :=
  fun c hc => (h c hc).1

theorem Ends.stopsNumber (h : Ends rest) : StopsNumber rest := by
  intro c hc
  obtain ⟨hword, hother⟩ := h c hc
  refine ⟨?_, ?_, ?_⟩
  · rw [← Bool.not_eq_true]
    intro hdigit
    exact Bool.false_ne_true (hword.symm.trans (word_of_isDigit hdigit).2)
  · rintro rfl
    exact hother (by decide)
  · rintro (rfl | rfl) <;> exact absurd hword (by decide)

/-! ## Scanning a spelling -/

theorem not_isBlank_of_continuesWord (h : continuesWord c = true) : Text.isBlank c = false := by
  rw [← Bool.not_eq_true]
  intro hb
  exact Bool.false_ne_true ((not_continuesWord_of_isBlank hb).symm.trans h)

theorem continuesWord_of_startsWord (h : startsWord c = true) : continuesWord c = true := by
  rw [startsWord, Bool.or_eq_true] at h
  rw [continuesWord, Bool.or_eq_true, Bool.or_eq_true]
  exact h.imp_left .inl

/-- The token begins with a character that is no blank, and is scanned from there. -/
def Scanned (cs : List Char) (t : Token) : Prop :=
  ∃ c tail, cs = c :: tail ∧ Text.isBlank c = false ∧
    ∀ total rest, Ends rest → scan total c (tail ++ rest) = .ok (t, rest)

theorem scanned_word (h : IsWord cs) : Scanned cs (ofWord cs) := by
  obtain ⟨c, tail, rfl, hc, htail⟩ := h
  refine ⟨c, tail, rfl, not_isBlank_of_continuesWord (continuesWord_of_startsWord hc), ?_⟩
  intro total rest hrest
  have hquote : c ≠ '\'' := by
    rintro rfl
    exact absurd hc (by decide)
  obtain ⟨ht, hd⟩ := takeWhile_append htail hrest.not_continuesWord
  rw [scan, if_neg hquote, if_pos hc, ht, hd]

theorem scanned_number (h : IsNumber cs) : Scanned cs (.number (String.ofList cs)) := by
  obtain ⟨c, tail, rfl, hdigit⟩ := h.head
  obtain ⟨hstart, hcontinue⟩ := word_of_isDigit hdigit
  refine ⟨c, tail, rfl, not_isBlank_of_continuesWord hcontinue, ?_⟩
  intro total rest hrest
  have hquote : c ≠ '\'' := by
    rintro rfl
    exact absurd hdigit (by decide)
  have hscan : scanNumber (c :: (tail ++ rest)) = (c :: tail, rest) :=
    scanNumber_append h hrest.stopsNumber
  rw [scan, if_neg hquote, hstart, if_neg Bool.false_ne_true, if_pos hdigit, hscan]

/-- The characters of a text with each quote doubled. -/
def doubled (cs : List Char) : List Char := cs.flatMap fun c => if c = '\'' then ['\'', '\''] else [c]

theorem scanText_doubled (cs : List Char) (hrest : rest.head? ≠ some '\'') :
    scanText (doubled cs ++ '\'' :: rest) = some (cs, rest) := by
  induction cs with
  | nil =>
    cases rest with
    | nil => rfl
    | cons c tail =>
      have hc : c ≠ '\'' := fun he => hrest (congrArg some he)
      rw [doubled, List.flatMap_nil, List.nil_append, scanText]
      rintro _ he
      exact hc (List.cons.inj he).1
  | cons c cs ih =>
    by_cases hc : c = '\''
    · subst hc
      have hd : doubled ('\'' :: cs) = '\'' :: '\'' :: doubled cs := rfl
      rw [hd, List.cons_append, List.cons_append, scanText, ih]
      rfl
    · have hd : doubled (c :: cs) = c :: doubled cs := by
        rw [doubled, List.flatMap_cons, if_neg hc]
        rfl
      rw [hd, List.cons_append, scanText, ih]
      · rfl
      · intro _ he
        exact absurd he hc
      · exact hc

theorem toList_quote (s : String) :
    (Fragment.quote s).toList = '\'' :: (doubled s.toList ++ ['\'']) := by
  simp only [Fragment.quote, String.toList_append, String.toList_ofList]
  rfl

theorem scanned_quote (s : String) : Scanned (Fragment.quote s).toList (.text s) := by
  refine ⟨'\'', _, toList_quote s, by decide, fun total rest hrest => ?_⟩
  have hhead : rest.head? ≠ some '\'' := fun he => (hrest _ he).2 (by decide)
  have hscan : scanText (doubled s.toList ++ ['\''] ++ rest) = some (s.toList, rest) := by
    rw [List.append_assoc]
    exact scanText_doubled s.toList hhead
  rw [scan, if_pos rfl, hscan]
  simp only [String.ofList_toList]

theorem scanSign?_symbol (s : Sign) (hrest : Ends rest) :
    scanSign? (s.symbol.toList ++ rest) = some (s, rest) := by
  cases rest with
  | nil => cases s <;> rfl
  | cons c tail =>
    have hother := (hrest c rfl).2
    simp only [List.mem_cons, List.not_mem_nil, or_false, not_or] at hother
    cases s <;> simp [Sign.symbol, scanSign?, hother]

theorem scanned_sign (s : Sign) : Scanned s.symbol.toList (.sign s) := by
  have hhead : ∃ c tail, s.symbol.toList = c :: tail ∧ Text.isBlank c = false ∧ c ≠ '\'' ∧
      startsWord c = false ∧ c.isDigit = false := by
    cases s <;> exact ⟨_, _, rfl, by decide, by decide, by decide, by decide⟩
  obtain ⟨c, tail, hs, hblank, hquote, hword, hdigit⟩ := hhead
  refine ⟨c, tail, hs, hblank, fun total rest hrest => ?_⟩
  have hscan : scanSign? (c :: (tail ++ rest)) = some (s, rest) := by
    rw [← List.cons_append, ← hs, scanSign?_symbol s hrest]
  rw [scan, if_neg hquote, hword, if_neg Bool.false_ne_true, hdigit, if_neg Bool.false_ne_true,
    hscan]

theorem isWord_keyword (k : Keyword) : IsWord k.spelling.toList := by
  have h : ∃ c tail, k.spelling.toList = c :: tail ∧ startsWord c = true ∧
      tail.all continuesWord = true := by
    cases k <;> exact ⟨_, _, rfl, rfl, rfl⟩
  obtain ⟨c, tail, hk, hc, htail⟩ := h
  exact ⟨c, tail, hk, hc, List.all_eq_true.mp htail⟩

/-- **A token is scanned from its spelling**, if it has the form of one. -/
theorem scan_spelling (h : t.IsLexical) : Scanned t.spelling.toList t := by
  cases t with
  | identifier name =>
    obtain ⟨hword, hkeyword⟩ := h
    have hscanned := scanned_word hword
    rwa [ofWord, hkeyword, String.ofList_toList] at hscanned
  | number digits =>
    have hscanned := scanned_number h
    rwa [String.ofList_toList] at hscanned
  | text s => exact scanned_quote s
  | keyword k =>
    have hscanned := scanned_word (isWord_keyword k)
    rwa [ofWord, Keyword.ofWord?_spelling] at hscanned
  | sign s => exact scanned_sign s

/-! ## What is scanned -/

theorem isLexical_ofWord (h : IsWord cs) : (ofWord cs).IsLexical := by
  unfold ofWord
  split
  · trivial
  · next hkeyword =>
    rw [IsLexical, String.toList_ofList]
    exact ⟨h, hkeyword⟩

/-- **What is scanned has the form of a token.** -/
theorem isLexical_of_scan (h : scan total c tail = .ok (t, rest)) : t.IsLexical := by
  unfold scan at h
  split at h
  · split at h
    · cases h
      trivial
    · cases h
  · split at h
    · next hc =>
      cases h
      exact isLexical_ofWord ⟨c, _, rfl, hc, List.all_eq_true.mp List.all_takeWhile⟩
    · split at h
      · next hdigit =>
        cases h
        rw [IsLexical, String.toList_ofList]
        exact isNumber_scanNumber hdigit
      · split at h
        · cases h
          trivial
        · cases h

end Token

end QueryExpr
