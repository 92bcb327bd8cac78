import QueryExpr.Proofs.Phrase.Spelling
import QueryExpr.Proofs.Token.Spelling

/-!
# Cutting spelled texts into tokens

A piece of text is cut into the same tokens wherever it stands, as long as nothing, a space
or a closing parenthesis follows it. Such pieces can be put together with spaces between
them and with parentheses around them.

* `isLexical_of_tokenize`: the tokens of a text have the form of tokens.
* `Scans.space`, `Scans.paren`: pieces put together.
* `scans_spelling`, `scans_symbol`: the pieces there are.
* `tokenize_of_scans`: a whole text made of such pieces.
-/

namespace QueryExpr

namespace Token

variable {cs ds rest tail : List Char} {ts us : List Token} {t : Token} {c : Char} {total : Nat}

/-- The characters are cut into the tokens, whatever may follow them. -/
def Scans (cs : List Char) (ts : List Token) : Prop :=
  ∀ total rest, Follows rest →
    tokenizeFrom total (cs ++ rest) = (tokenizeFrom total rest).map (ts ++ ·)

/-- One step of cutting: blanks are skipped, and a token comes before the others. -/
theorem tokenizeFrom_eq (total : Nat) (cs : List Char) :
    tokenizeFrom total cs =
      match cs.dropWhile Text.isBlank with
      | [] => .ok []
      | c :: tail =>
        match scan total c tail with
        | .error e => .error e
        | .ok (t, rest) => (tokenizeFrom total rest).map (t :: ·) := by
  rw [tokenizeFrom]
  split
  · next hb =>
    conv => rhs; rw [hb]
  · next c tail hb =>
    conv => rhs; rw [hb]
    simp only
    split
    · next e he => simp only [he]
    · next t rest hs =>
      simp only [hs]
      cases tokenizeFrom total rest <;> rfl

theorem tokenizeFrom_nil (total : Nat) : tokenizeFrom total [] = .ok [] := by
  rw [tokenizeFrom_eq, List.dropWhile_nil]

theorem tokenizeFrom_blanks (total : Nat) (h : ∀ c ∈ cs, Text.isBlank c = true) :
    tokenizeFrom total (cs ++ ds) = tokenizeFrom total ds := by
  rw [tokenizeFrom_eq, List.dropWhile_append_of_pos h, ← tokenizeFrom_eq]

theorem tokenizeFrom_space (total : Nat) (cs : List Char) :
    tokenizeFrom total (' ' :: cs) = tokenizeFrom total cs := by
  have hspace : ∀ c ∈ [' '], Text.isBlank c = true := List.forall_mem_singleton.mpr (by decide)
  exact tokenizeFrom_blanks total hspace

theorem tokenizeFrom_token (hb : Text.isBlank c = false) (hs : scan total c tail = .ok (t, rest)) :
    tokenizeFrom total (c :: tail) = (tokenizeFrom total rest).map (t :: ·) := by
  have hdrop : (c :: tail).dropWhile Text.isBlank = c :: tail := by
    rw [List.dropWhile_cons, hb, if_neg Bool.false_ne_true]
  rw [tokenizeFrom_eq, hdrop]
  simp only [hs]

theorem map_append {ε : Type} (x : Except ε (List Token)) (ts us : List Token) :
    (x.map (us ++ ·)).map (ts ++ ·) = x.map (ts ++ us ++ ·) := by
  cases x with
  | error e => rfl
  | ok vs => simp [Except.map]

/-- A token comes before the others where it is spelled and ends. -/
theorem tokenizeFrom_spelling (h : t.IsLexical) (hrest : Ends rest) :
    tokenizeFrom total (t.spelling.toList ++ rest) = (tokenizeFrom total rest).map (t :: ·) := by
  obtain ⟨c, tail, hcs, hb, hs⟩ := scan_spelling h
  rw [hcs, List.cons_append, tokenizeFrom_token hb (hs total rest hrest)]

/-- The tokens of a text have the form of tokens. The induction is on what is left of the text. -/
theorem isLexical_of_tokenizeFrom {cs : List Char} {ts : List Token}
    (h : tokenizeFrom total cs = .ok ts) : ∀ t ∈ ts, t.IsLexical := by
  rw [tokenizeFrom_eq] at h
  split at h
  · cases h
    nofun
  · next c tail hb =>
    split at h
    · cases h
    · next t rest hs =>
      have hlt := length_scan_of_dropWhile hb hs
      cases hr : tokenizeFrom total rest with
      | error e => rw [hr] at h; cases h
      | ok us =>
        rw [hr] at h
        cases h
        exact List.forall_mem_cons.mpr ⟨isLexical_of_scan hs, isLexical_of_tokenizeFrom hr⟩
termination_by cs.length

/-- **The tokens of a text have the form of tokens.** -/
theorem isLexical_of_tokenize {s : String} (h : tokenize s = .ok ts) : ∀ t ∈ ts, t.IsLexical :=
  isLexical_of_tokenizeFrom h

/-! ## Putting pieces together -/

/-- **Two pieces with a space between them.** -/
theorem Scans.space (hc : Scans cs ts) (hd : Scans ds us) : Scans (cs ++ ' ' :: ds) (ts ++ us) := by
  intro total rest hrest
  rw [List.append_assoc, List.cons_append, hc total _ (Follows.space _), tokenizeFrom_space,
    hd total rest hrest, map_append]

/-- A minus sign directly before a piece. -/
theorem Scans.minus (h : Scans cs ts) : Scans ('-' :: cs) (.sign .minus :: ts) := by
  intro total rest hrest
  have hs : scan total '-' (cs ++ rest) = .ok (.sign .minus, cs ++ rest) := rfl
  rw [List.cons_append, tokenizeFrom_token (by decide) hs, h total rest hrest]
  exact map_append _ [.sign .minus] ts

/-- **A piece in parentheses.** -/
theorem Scans.paren (h : Scans cs ts) :
    Scans ('(' :: cs ++ [')']) (.sign .leftParen :: ts ++ [.sign .rightParen]) := by
  intro total rest hrest
  have hopen : scan total '(' (cs ++ (')' :: rest)) = .ok (.sign .leftParen, cs ++ (')' :: rest)) := rfl
  have hclose : scan total ')' rest = .ok (.sign .rightParen, rest) := rfl
  rw [List.append_assoc, List.cons_append, List.singleton_append,
    tokenizeFrom_token (by decide) hopen, h total _ (Follows.paren rest),
    tokenizeFrom_token (by decide) hclose]
  have h1 := map_append (tokenizeFrom total rest) (.sign .leftParen :: ts) [.sign .rightParen]
  have h2 := map_append ((tokenizeFrom total rest).map ([.sign .rightParen] ++ ·))
    [.sign .leftParen] ts
  exact h2.trans h1

/-- A text made of such pieces is cut into their tokens. -/
theorem tokenize_of_scans {s : String} (h : Scans s.toList ts) : tokenize s = .ok ts := by
  have hs := h s.toList.length [] Follows.nil
  rw [List.append_nil, tokenizeFrom_nil] at hs
  rw [tokenize, hs, Except.map, List.append_nil]

/-! ## The pieces -/

/-- **The spelling of a token is cut into this token.** -/
theorem scans_spelling (h : t.IsLexical) : Scans t.spelling.toList [t] :=
  fun _ _ hrest => tokenizeFrom_spelling h hrest.ends

theorem scans_keyword (k : Keyword) : Scans k.spelling.toList [.keyword k] :=
  scans_spelling (t := .keyword k) trivial

/-- **The spelling of an operator is cut into its tokens.** -/
theorem scans_symbol (op : BinaryOp) : Scans op.symbol.toList (op.token :: op.moreTokens) := by
  by_cases hi : op = .identical
  · rw [hi]
    exact (scans_keyword .is).space ((scans_keyword .not).space
      ((scans_keyword .distinct).space (scans_keyword .fromWord)))
  · have hop : op.symbol = op.token.spelling ∧ op.token.IsLexical ∧ op.moreTokens = [] := by
      cases op <;> first | exact absurd rfl hi | exact ⟨rfl, trivial, rfl⟩
    obtain ⟨hsymbol, hlexical, hmore⟩ := hop
    rw [hsymbol, hmore]
    exact scans_spelling hlexical

end Token

namespace Phrase

open Token

variable {p : Phrase} {f : Fragment} {ts : List Token}

theorem scans_wrap (b : Bool) (h : Scans f.text.toList ts) : Scans (f.wrap b).toList (wrap b ts) := by
  cases b with
  | false => exact h
  | true =>
    have hw : (f.wrap true).toList = '(' :: f.text.toList ++ [')'] := by
      simp only [Fragment.wrap, if_true, String.toList_append]
      rfl
    rw [hw]
    exact h.paren

/-- **The fragment of a plain phrase is cut into its tokens**, wherever it stands. -/
theorem scans_fragment (h : p.Plain) : Scans p.fragment.text.toList p.tokens := by
  induction h with
  | @number negative digits h =>
    have hn : Scans digits.toList [.number digits] := scans_spelling (t := .number _) h.isNumber
    rw [fragment, Fragment.number_text]
    cases negative with
    | false =>
      rw [if_neg Bool.false_ne_true, String.empty_append]
      exact hn
    | true =>
      rw [if_pos rfl, String.toList_append]
      exact hn.minus
  | text s => exact scans_spelling (t := .text s) trivial
  | truth b =>
    cases b with
    | false => exact scans_keyword .falseValue
    | true => exact scans_keyword .trueValue
  | null => exact scans_keyword .nullValue
  | column h => exact scans_spelling (isLexical_of_tokenize h _ List.mem_cons_self)
  | @not operand h ih =>
    have ht : (Phrase.not operand).fragment.text.toList = Keyword.not.spelling.toList ++ ' ' ::
        (operand.fragment.wrap
          (decide (operand.fragment.precedence < Fragment.notPrecedence))).toList := by
      simp only [fragment, Fragment.negation, String.toList_append]
      rfl
    rw [ht]
    exact (scans_keyword .not).space (scans_wrap _ ih)
  | @binary op left right hl hr ihl ihr =>
    have ht : (binary op left right).fragment.text.toList =
        (left.fragment.wrap (Fragment.leftNeedsParentheses op left.fragment)).toList ++ ' ' ::
          (op.symbol.toList ++ ' ' ::
            (right.fragment.wrap (Fragment.rightNeedsParentheses op right.fragment)).toList) := by
      simp only [fragment, Fragment.binary, String.toList_append, List.append_assoc]
      rfl
    rw [ht, tokens, List.append_assoc]
    exact (scans_wrap _ ihl).space ((scans_symbol op).space (scans_wrap _ ihr))

/-- The text of a plain phrase is cut into its tokens. -/
theorem tokenize_fragment (h : p.Plain) : tokenize p.fragment.text = .ok p.tokens :=
  tokenize_of_scans (scans_fragment h)

end Phrase

end QueryExpr
