import Mathlib.Data.List.Chain
import Mathlib.Data.List.Forall2
import QueryExpr.Proofs.Sql.Rendering
import QueryExpr.Proofs.Token.Scanning

/-!
# The strings of a query

A query is read from left to right: a quote opens a string, in which a doubled quote is one
quote, and a single one closes it. What the pieces of a query are made of is told by this
reading wherever they stand, as long as no quote follows them at once.

* `dissect`: the text outside of the strings of a query, and what the strings hold.
* `Clean`: a piece of query text with given strings, which neither begins a comment nor ends
  a statement.
* `Clean.glue`: **two pieces with a harmless character between them.**
* `clean_value`: a value is spelled cleanly, and only its own text stands in quotes.
-/

namespace QueryExpr

/-- The text of a value that stands in quotes. -/
def Value.quotation? : Value → Option String
  | text s => some s
  | date d => some d.text
  | time t => some t.text
  | timestamp t => some t.text
  | _ => none

namespace Sql

variable {cs ds out : List Char} {ts us : List String} {x : Char} {f g : Fragment} {s : String}
  {v : Value} {n : Int} {op : BinaryOp}

/-- **The text outside of strings, and the contents of the strings** in their order, if the last
string is closed. Each string leaves one quote behind in the text outside. -/
def dissect : List Char → Option (List Char × List String)
  | [] => some ([], [])
  | c :: cs =>
    if c = '\'' then
      match h : Token.scanText cs with
      | some (s, rest) => (dissect rest).map fun p => ('\'' :: p.1, String.ofList s :: p.2)
      | none => none
    else (dissect cs).map fun p => (c :: p.1, p.2)
termination_by cs => cs.length
decreasing_by
  · have := Token.length_scanText h
    simp only [List.length_cons]
    omega
  · simp

theorem dissect_cons (hx : x ≠ '\'') (cs : List Char) :
    dissect (x :: cs) = (dissect cs).map fun p => (x :: p.1, p.2) := by
  rw [dissect, if_neg hx]

/-- A quoted text is one string. -/
theorem dissect_quote (s : String) {rest : List Char} (hrest : rest.head? ≠ some '\'') :
    dissect ((Fragment.quote s).toList ++ rest) =
      (dissect rest).map fun p => ('\'' :: p.1, s :: p.2) := by
  have hscan := Token.scanText_doubled s.toList hrest
  have hquote : (Fragment.quote s).toList ++ rest =
      '\'' :: (Token.doubled s.toList ++ '\'' :: rest) := by
    simp only [Fragment.quote, String.toList_append, String.toList_ofList, List.append_assoc]
    rfl
  rw [hquote, dissect, if_pos rfl]
  split
  · next s' rest' h =>
    rw [hscan] at h
    cases h
    rw [String.ofList_toList]
  · next h =>
    rw [hscan] at h
    cases h

/-! ## Pieces of a query -/

/-- The piece has a text outside of its strings, and these strings, whatever follows it. -/
def Dissects (cs out : List Char) (ts : List String) : Prop :=
  ∀ rest : List Char, rest.head? ≠ some '\'' →
    dissect (cs ++ rest) = (dissect rest).map fun p => (out ++ p.1, ts ++ p.2)

/-- Two characters that do not begin a comment. -/
def Harmless (c d : Char) : Prop := ¬ (c = '-' ∧ d = '-') ∧ ¬ (c = '/' ∧ d = '*')

instance (c d : Char) : Decidable (Harmless c d) := inferInstanceAs (Decidable (¬ _ ∧ ¬ _))

/-- The text neither begins a comment nor ends a statement. -/
def Safe (out : List Char) : Prop := out.IsChain Harmless ∧ ';' ∉ out

instance (out : List Char) : Decidable (Safe out) := inferInstanceAs (Decidable (_ ∧ _))

theorem Safe.no_comment (h : Safe out) :
    ¬ ['-', '-'] <:+: out ∧ ¬ ['/', '*'] <:+: out ∧ ';' ∉ out := by
  have hpair : ∀ {c d : Char}, [c, d] <:+: out → Harmless c d := by
    rintro c d ⟨before, after, hout⟩
    have hchain := h.1
    rw [← hout, List.isChain_append, List.isChain_append, List.isChain_cons_cons] at hchain
    exact hchain.1.2.1.1
  exact ⟨fun hin => (hpair hin).1 ⟨rfl, rfl⟩, fun hin => (hpair hin).2 ⟨rfl, rfl⟩, h.2⟩

/-- **A clean piece of a query** with the given strings. -/
def Clean (cs : List Char) (ts : List String) : Prop := ∃ out, Safe out ∧ Dissects cs out ts

/-- What strings, comments and the end of a statement are marked by. -/
def marks : List Char := ['\'', '-', '/', '*', ';']

/-- A character that marks nothing. -/
def isNeutral (c : Char) : Bool := !marks.contains c

theorem ne_of_isNeutral (hx : isNeutral x = true) :
    x ≠ '\'' ∧ x ≠ '-' ∧ x ≠ '/' ∧ x ≠ '*' ∧ x ≠ ';' := by
  simpa [isNeutral, marks] using hx

/-- Characters of a class that has no marks in it are neutral. -/
theorem isNeutral_of {p : Char → Bool} (hp : marks.all (fun c => !p c) = true) (h : p x = true) :
    isNeutral x = true := by
  by_contra hx
  have hmark : x ∈ marks := by simpa [isNeutral] using hx
  have hnot := List.all_eq_true.1 hp x hmark
  rw [h] at hnot
  cases hnot

/-- Text of neutral characters. -/
def Neutral (cs : List Char) : Prop := ∀ c ∈ cs, isNeutral c = true

instance (cs : List Char) : Decidable (Neutral cs) :=
  decidable_of_iff (cs.all isNeutral = true) List.all_eq_true

theorem Neutral.append (hc : Neutral cs) (hd : Neutral ds) : Neutral (cs ++ ds) :=
  List.forall_mem_append.2 ⟨hc, hd⟩

theorem Clean.nil : Clean [] [] :=
  ⟨[], ⟨.nil, List.not_mem_nil⟩, fun rest _ => by simp⟩

/-- The strings of a clean query. -/
theorem Clean.dissect (h : Clean cs ts) : ∃ out, Safe out ∧ dissect cs = some (out, ts) := by
  obtain ⟨out, hsafe, hdissects⟩ := h
  refine ⟨out, hsafe, ?_⟩
  have hall := hdissects [] nofun
  rw [List.append_nil] at hall
  rw [hall, Sql.dissect]
  simp

/-- **Clean pieces with a neutral character between them are clean.** -/
theorem Clean.glue (hc : Clean cs ts) (hx : isNeutral x = true) (hd : Clean ds us) :
    Clean (cs ++ x :: ds) (ts ++ us) := by
  obtain ⟨out, hsafe, hout⟩ := hc
  obtain ⟨out', hsafe', hout'⟩ := hd
  obtain ⟨hquote, hminus, hslash, hstar, hend⟩ := ne_of_isNeutral hx
  refine ⟨out ++ x :: out', ⟨?_, ?_⟩, fun rest hrest => ?_⟩
  · -- no comment begins across the character between the pieces
    rw [List.isChain_append, List.isChain_cons]
    refine ⟨hsafe.1, ⟨fun y _ => ⟨fun h => hminus h.1, fun h => hslash h.1⟩, hsafe'.1⟩, ?_⟩
    intro y _ z hz
    rw [List.head?_cons, Option.mem_some_iff] at hz
    subst hz
    exact ⟨fun h => hminus h.2, fun h => hstar h.2⟩
  · rw [List.mem_append, List.mem_cons]
    rintro (h | h | h)
    · exact hsafe.2 h
    · exact hend h.symm
    · exact hsafe'.2 h
  · -- it is no quote, so the first piece ends where it would end alone
    have hhead : (x :: (ds ++ rest)).head? ≠ some '\'' := fun h => hquote (Option.some.inj h)
    rw [List.append_assoc, List.cons_append, hout _ hhead, dissect_cons hquote, hout' rest hrest,
      Option.map_map, Option.map_map]
    refine Option.map_congr fun p _ => ?_
    simp

/-- Neutral text may stand before a clean piece. -/
theorem Clean.prepend (hc : Neutral cs) (hd : Clean ds us) : Clean (cs ++ ds) us := by
  induction cs with
  | nil => exact hd
  | cons c cs ih =>
    rw [Neutral, List.forall_mem_cons] at hc
    exact Clean.nil.glue hc.1 (ih hc.2)

/-- Neutral text is clean. -/
theorem Clean.of_neutral (hc : Neutral cs) : Clean cs [] := by
  have h := Clean.nil.prepend hc
  rwa [List.append_nil] at h

theorem clean_quote (s : String) : Clean (Fragment.quote s).toList [s] := by
  refine ⟨['\''], ⟨.singleton _, by decide⟩, fun rest hrest => ?_⟩
  rw [dissect_quote s hrest]
  rfl

/-- Without quotes a piece is all outside of strings. -/
theorem Clean.plain (hquote : '\'' ∉ cs) (hsafe : Safe cs) : Clean cs [] := by
  refine ⟨cs, hsafe, fun rest _ => ?_⟩
  clear hsafe
  induction cs with
  | nil => simp
  | cons c cs ih =>
    rw [List.mem_cons, not_or] at hquote
    rw [List.cons_append, dissect_cons (Ne.symm hquote.1), ih hquote.2, Option.map_map]
    rfl

/-- A sign may stand before neutral text that goes on cleanly. -/
theorem Clean.signed (hcs : cs ≠ []) (hc : Neutral cs) (hd : Clean ds us) :
    Clean ('-' :: (cs ++ ds)) us := by
  obtain ⟨c, tail, rfl⟩ := List.exists_cons_of_ne_nil hcs
  rw [Neutral, List.forall_mem_cons] at hc
  have hminus : Clean ['-'] [] := .plain (by decide) (by decide)
  exact hminus.glue hc.1 (hd.prepend hc.2)

/-- **Pieces in a list** with neutral text between them. -/
theorem Clean.intercalate {sep : List Char} (hsep : Neutral sep) (hne : sep ≠ [])
    {css : List (List Char)} {tss : List (List String)} (h : List.Forall₂ Clean css tss) :
    Clean (sep.intercalate css) tss.flatten := by
  obtain ⟨c, tail, rfl⟩ := List.exists_cons_of_ne_nil hne
  rw [Neutral, List.forall_mem_cons] at hsep
  induction h with
  | nil => exact .nil
  | @cons cs ts css tss hc hrest ih =>
    cases hrest with
    | nil => simpa [List.intercalate] using hc
    | cons hd hmore =>
      rw [List.intercalate_cons_cons, List.flatten_cons, List.append_assoc, List.cons_append]
      exact hc.glue hsep.1 (ih.prepend hsep.2)

/-! ## Words and numbers -/

/-- The text consists of letters, digits and underscores. -/
def IsWord (s : String) : Prop := ∀ c ∈ s.toList, Token.continuesWord c = true

theorem clean_word (h : IsWord s) : Clean s.toList [] :=
  .of_neutral fun c hc => isNeutral_of (by decide) (h c hc)

/-- A number without its sign: it begins with neutral text and goes on cleanly. -/
structure Unsigned (cs : List Char) : Prop where
  split : ∃ as bs, cs = as ++ bs ∧ as ≠ [] ∧ Neutral as ∧ Clean bs []

theorem Unsigned.of_neutral (hne : cs ≠ []) (hcs : Neutral cs) : Unsigned cs :=
  ⟨cs, [], (List.append_nil cs).symm, hne, hcs, .nil⟩

theorem Unsigned.clean (h : Unsigned cs) : Clean cs [] := by
  obtain ⟨as, bs, rfl, -, has, hbs⟩ := h
  exact hbs.prepend has

/-- Numbers are clean with a sign and without one. -/
theorem Unsigned.number (h : Unsigned s.toList) (negative : Prop) [Decidable negative] :
    Clean ((if negative then "-" else "") ++ s).toList [] := by
  rw [String.toList_append]
  by_cases hn : negative
  · rw [if_pos hn]
    obtain ⟨as, bs, has, hne, hneutral, hbs⟩ := h
    rw [has]
    show Clean ('-' :: (as ++ bs)) []
    exact hbs.signed hne hneutral
  · rw [if_neg hn]
    exact h.clean

theorem neutral_digits (h : ∀ c ∈ cs, c.isDigit = true) : Neutral cs :=
  fun c hc => isNeutral_of (by decide) (h c hc)

theorem neutral_toDigits (n : Nat) : Neutral (Nat.toDigits 10 n) :=
  neutral_digits (Token.isDigits_toDigits n).2

theorem unsigned_nat (n : Nat) : Unsigned (toString n).toList := by
  rw [Nat.toString_eq_ofList_toDigits, String.toList_ofList]
  exact .of_neutral Nat.toDigits_ne_nil (neutral_toDigits n)

theorem clean_int (n : Int) : Clean (toString n).toList [] := by
  rw [Value.toString_int]
  exact (unsigned_nat _).number _

theorem neutral_zeros (n : Nat) : Neutral (Decimal.zeros n).toList :=
  neutral_digits fun _ hc => Token.isDigit_of_mem_zeros hc

theorem Neutral.take (h : Neutral cs) (n : Nat) : Neutral (cs.take n) :=
  fun c hc => h c (List.mem_of_mem_take hc)

theorem Neutral.drop (h : Neutral cs) (n : Nat) : Neutral (cs.drop n) :=
  fun c hc => h c (List.mem_of_mem_drop hc)

/-- Digits with a point before some of them, or with zeros after them. -/
theorem neutral_plainDigits (hne : ds ≠ []) (hds : Neutral ds) (scale : Int) :
    (Decimal.plainDigits ds scale).toList ≠ [] ∧ Neutral (Decimal.plainDigits ds scale).toList := by
  have hpoint : Neutral ".".toList := by decide
  have hzero : Neutral "0.".toList := by decide
  unfold Decimal.plainDigits
  by_cases hs : scale ≤ 0
  · rw [if_pos hs, String.toList_append, String.toList_ofList]
    exact ⟨by simp [hne], hds.append (neutral_zeros _)⟩
  · rw [if_neg hs]
    dsimp only
    split
    · simp only [String.toList_append, String.toList_ofList]
      exact ⟨by simp, ((hds.take _).append hpoint).append (hds.drop _)⟩
    · simp only [String.toList_append, String.toList_ofList]
      exact ⟨by simp, (hzero.append (neutral_zeros _)).append hds⟩

/-- A power of ten may have a sign, which stands after its mark. -/
theorem unsigned_scientificDigits {mark : String} (hmark : Neutral mark.toList) (hne : ds ≠ [])
    (hds : Neutral ds) (scale : Int) :
    Unsigned (Decimal.scientificDigits mark ds scale).toList := by
  obtain ⟨d, tail, rfl⟩ := List.exists_cons_of_ne_nil hne
  have hrest : Neutral (if (d :: tail).length ≤ 1 then ""
      else "." ++ String.ofList ((d :: tail).drop 1)).toList := by
    split
    · exact nofun
    · have hpoint : Neutral ".".toList := by decide
      simp only [String.toList_append, String.toList_ofList]
      exact hpoint.append (hds.drop 1)
  unfold Decimal.scientificDigits
  dsimp only
  rw [String.toList_append]
  refine ⟨_, _, rfl, by simp, ?_, clean_int _⟩
  simp only [String.toList_append, String.toList_ofList]
  exact ((hds.take 1).append hrest).append hmark

theorem unsigned_decimal (coefficient : Nat) (scale : Int) :
    Unsigned (Decimal.unsignedText coefficient scale).toList := by
  have hne : Nat.toDigits 10 coefficient ≠ [] := Nat.toDigits_ne_nil
  have hdigits := neutral_toDigits coefficient
  unfold Decimal.unsignedText
  dsimp only
  split
  · exact .of_neutral (by decide) (by decide)
  · split
    · exact unsigned_scientificDigits (by decide) hne hdigits scale
    · split
      · rw [String.toList_append, String.toList_append, String.toList_ofList]
        have hmark : Neutral "e+".toList := by decide
        exact ⟨_, _, rfl, by simp, hdigits.append hmark, clean_int _⟩
      · obtain ⟨hplain, hneutral⟩ := neutral_plainDigits hne hdigits scale
        exact .of_neutral hplain hneutral

theorem unsigned_float (y : Float) : Unsigned (FloatText.unsignedText y).toList := by
  have hne : Nat.toDigits 10 (Decimal.shortest y).coefficient.natAbs ≠ [] := Nat.toDigits_ne_nil
  have hdigits := neutral_toDigits (Decimal.shortest y).coefficient.natAbs
  obtain ⟨hplain, hneutral⟩ := neutral_plainDigits hne hdigits (Decimal.shortest y).scale
  unfold FloatText.unsignedText
  dsimp only
  split
  · exact .of_neutral (by decide) (by decide)
  · split
    · exact unsigned_scientificDigits (by decide) hne hdigits _
    · split
      · rw [String.toList_append]
        have hpoint : Neutral ".0".toList := by decide
        exact .of_neutral (by simp) (hneutral.append hpoint)
      · exact .of_neutral hplain hneutral

/-! ## Values -/

/-- **A value is spelled cleanly**, and only its own text stands in quotes. -/
theorem clean_value (hv : ∀ f, v ≠ .fragment f) (h : Fragment.ofValue? v = some f) :
    Clean f.text.toList v.quotation?.toList := by
  have hnumber : ∀ {s : String}, Clean s.toList [] → Clean (Fragment.number s).text.toList [] := by
    intro s hs
    rwa [Fragment.number_text]
  have hquoted : ∀ {kind : String} (s : String), Neutral kind.toList →
      Clean (kind ++ Fragment.quote s).toList [s] := by
    intro kind s hkind
    rw [String.toList_append]
    exact (clean_quote s).prepend hkind
  cases v with
  | fragment g => exact absurd rfl (hv g)
  | null =>
    cases h
    exact .of_neutral (by decide)
  | bool b =>
    cases h
    cases b <;> exact .of_neutral (by decide)
  | int n =>
    cases h
    exact hnumber (clean_int _)
  | float y =>
    rw [Fragment.ofValue?] at h
    split at h
    · next hfinite =>
      cases h
      rw [FloatText.text_of_isFinite hfinite]
      exact hnumber ((unsigned_float _).number _)
    · cases h
  | decimal d =>
    cases h
    exact hnumber ((unsigned_decimal _ _).number _)
  | text s =>
    cases h
    exact clean_quote s
  | date d =>
    cases h
    exact hquoted d.text (by decide)
  | time t =>
    cases h
    exact hquoted t.text (by decide)
  | timestamp t =>
    cases h
    exact hquoted t.text (by decide)
  | list items => cases h
  | schema schema => cases h

/-! ## Operators -/

/-- Parentheses change nothing. -/
theorem clean_wrap (h : Clean f.text.toList ts) (inParentheses : Bool) :
    Clean (f.wrap inParentheses).toList ts := by
  cases inParentheses with
  | false => exact h
  | true =>
    have hw : (f.wrap true).toList = [] ++ '(' :: (f.text.toList ++ ')' :: []) := by
      simp only [Fragment.wrap, if_true, String.toList_append]
      simp
    have hclosed := h.glue (show isNeutral ')' = true from rfl) .nil
    rw [List.append_nil] at hclosed
    rw [hw]
    exact Clean.nil.glue (show isNeutral '(' = true from rfl) hclosed

/-- No operator begins a comment by itself. -/
theorem clean_symbol (op : BinaryOp) : Clean op.symbol.toList [] := by
  cases op <;> exact .plain (by decide) (by decide)

/-- **An operator stands between spaces**, so that nothing begins a comment with its sign. -/
theorem clean_binary (hf : Clean f.text.toList ts) (hg : Clean g.text.toList us) (op : BinaryOp) :
    Clean (Fragment.binary op f g).text.toList (ts ++ us) := by
  have hspace : isNeutral ' ' = true := rfl
  have hright := (clean_symbol op).glue hspace
    (clean_wrap hg (Fragment.rightNeedsParentheses op g))
  have hboth := (clean_wrap hf (Fragment.leftNeedsParentheses op f)).glue hspace hright
  have hs : " ".toList = [' '] := rfl
  simp only [Fragment.binary, String.toList_append, hs, List.append_assoc, List.singleton_append]
  exact hboth

theorem clean_negation (h : Clean f.text.toList ts) : Clean f.negation.text.toList ts := by
  rw [Fragment.negation, String.toList_append]
  exact (clean_wrap h _).prepend (by decide)

theorem clean_call {name : String} (hname : IsWord name) {fs : List Fragment}
    {tss : List (List String)} (h : List.Forall₂ (fun f ts => Clean f.text.toList ts) fs tss) :
    Clean (Fragment.call name fs).text.toList tss.flatten := by
  have hargs : Clean (", ".intercalate (fs.map Fragment.text)).toList tss.flatten := by
    rw [String.toList_intercalate, List.map_map]
    exact Clean.intercalate (by decide) (by decide) (List.forall₂_map_left_iff.2 h)
  have hclosed := hargs.glue (show isNeutral ')' = true from rfl) .nil
  have hcall := (clean_word hname).glue (show isNeutral '(' = true from rfl) hclosed
  have hopen : "(".toList = ['('] := rfl
  have hclose : ")".toList = [')'] := rfl
  rw [List.append_nil, List.nil_append] at hcall
  simp only [Fragment.call, Fragment.atom, String.toList_append, hopen, hclose, List.append_assoc,
    List.singleton_append]
  exact hcall

end Sql

end QueryExpr
