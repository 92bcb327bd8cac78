import QueryExpr.Text.Alphabetic
import QueryExpr.Text.Blank
import QueryExpr.Text.Numeric
import QueryExpr.Token

/-!
# From text to tokens

A text is cut into tokens from left to right: blanks are skipped, and each token takes as
many characters as it can. A number is digits, then perhaps a point with digits, then
perhaps a power of ten; a point or a mark without digits after it is not part of it. Two
quotes inside a quoted text stand for one.

* `length_scan`: a token takes at least one character, so the cutting ends.
-/

namespace QueryExpr

namespace Token

/-- Whether a character can begin a name or keyword. -/
def startsWord (c : Char) : Bool := Text.isAlphabetic c || c == '_'

/-- Whether a character can go on a name or keyword. -/
def continuesWord (c : Char) : Bool := Text.isAlphabetic c || Text.isNumeric c || c == '_'

/-- The name or keyword that a word writes. -/
def ofWord (word : List Char) : Token :=
  match Keyword.ofWord? word with
  | some k => keyword k
  | none => identifier (String.ofList word)

/-- A quoted text after its opening quote, and what follows the closing one. -/
def scanText : List Char → Option (List Char × List Char)
  | [] => none
  | '\'' :: '\'' :: rest => (scanText rest).map fun (s, rest) => ('\'' :: s, rest)
  | '\'' :: rest => some ([], rest)
  | c :: rest => (scanText rest).map fun (s, rest) => (c :: s, rest)

/-- Whether a list of characters begins with a digit. -/
def startsWithDigit (cs : List Char) : Bool := cs.head?.any Char.isDigit

/-- The digits that begin a list of characters, and the rest. -/
def scanDigits (cs : List Char) : List Char × List Char :=
  (cs.takeWhile Char.isDigit, cs.dropWhile Char.isDigit)

/-- The point and digits that begin a list of characters, if any, and the rest. -/
def scanFraction : List Char → List Char × List Char
  | '.' :: rest =>
    if startsWithDigit rest then ('.' :: (scanDigits rest).1, (scanDigits rest).2)
    else ([], '.' :: rest)
  | cs => ([], cs)

/-- The power of ten that begins a list of characters, if any, and the rest. -/
def scanExponent : List Char → List Char × List Char
  | mark :: rest =>
    if mark = 'e' ∨ mark = 'E' then
      match rest with
      | first :: digits =>
        if first = '+' ∨ first = '-' then
          if startsWithDigit digits then
            (mark :: first :: (scanDigits digits).1, (scanDigits digits).2)
          else ([], mark :: rest)
        else if startsWithDigit rest then (mark :: (scanDigits rest).1, (scanDigits rest).2)
        else ([], mark :: rest)
      | [] => ([], mark :: rest)
    else ([], mark :: rest)
  | [] => ([], [])

/-- The number that begins a list of characters, and the rest. -/
def scanNumber (cs : List Char) : List Char × List Char :=
  let (whole, rest) := scanDigits cs
  let (fraction, rest) := scanFraction rest
  let (exponent, rest) := scanExponent rest
  (whole ++ fraction ++ exponent, rest)

/-- The sign that begins a list of characters, and the rest; the longest one wins. -/
def scanSign? : List Char → Option (Sign × List Char)
  | '+' :: rest => some (.plus, rest)
  | '-' :: rest => some (.minus, rest)
  | '%' :: rest => some (.percent, rest)
  | '(' :: rest => some (.leftParen, rest)
  | ')' :: rest => some (.rightParen, rest)
  | '*' :: '*' :: rest => some (.doubleStar, rest)
  | '*' :: rest => some (.star, rest)
  | '/' :: '/' :: rest => some (.doubleSlash, rest)
  | '/' :: rest => some (.slash, rest)
  | '=' :: '=' :: rest => some (.equal, rest)
  | '=' :: rest => some (.equal, rest)
  | '<' :: '=' :: rest => some (.lessEqual, rest)
  | '<' :: '>' :: rest => some (.notEqual, rest)
  | '<' :: rest => some (.less, rest)
  | '>' :: '=' :: rest => some (.greaterEqual, rest)
  | '>' :: rest => some (.greater, rest)
  | '!' :: '=' :: rest => some (.notEqual, rest)
  | _ => none

/-- The token that begins with `c`, which is not blank, and the characters after it. The
place of `c` in a text of `total` characters follows from how many are left. -/
def scan (total : Nat) (c : Char) (rest : List Char) : Except SyntaxError (Token × List Char) :=
  if c = '\'' then
    match scanText rest with
    | some (s, rest) => .ok (text (String.ofList s), rest)
    | none => .error (.unterminatedText (total - (rest.length + 1)))
  else if startsWord c then
    .ok (ofWord (c :: rest.takeWhile continuesWord), rest.dropWhile continuesWord)
  else if c.isDigit then
    let (digits, rest) := scanNumber (c :: rest)
    .ok (number (String.ofList digits), rest)
  else
    match scanSign? (c :: rest) with
    | some (s, rest) => .ok (sign s, rest)
    | none => .error (.unexpectedCharacter c (total - (rest.length + 1)))

theorem length_dropWhile_le (p : Char → Bool) (cs : List Char) :
    (cs.dropWhile p).length ≤ cs.length := (List.dropWhile_sublist p).length_le

theorem length_scanText {cs s rest : List Char} (h : scanText cs = some (s, rest)) :
    rest.length < cs.length := by
  fun_induction scanText cs generalizing s rest with
  | case1 => simp at h
  | case2 cs ih =>
    obtain ⟨⟨s', r⟩, hs, he⟩ := Option.map_eq_some_iff.1 h
    cases he
    have := ih hs
    simp only [List.length_cons]
    omega
  | case3 cs _ => cases h; simp
  | case4 c cs _ _ ih =>
    obtain ⟨⟨s', r⟩, hs, he⟩ := Option.map_eq_some_iff.1 h
    cases he
    have := ih hs
    simp only [List.length_cons]
    omega

theorem length_scanFraction (cs : List Char) : (scanFraction cs).2.length ≤ cs.length := by
  unfold scanFraction
  split
  · next rest =>
    split
    · have := length_dropWhile_le Char.isDigit rest
      simp only [scanDigits, List.length_cons]
      omega
    · simp
  · simp

theorem length_scanExponent (cs : List Char) : (scanExponent cs).2.length ≤ cs.length := by
  unfold scanExponent
  split
  · split
    · split
      · next digits =>
        split
        · split
          · have := length_dropWhile_le Char.isDigit digits
            simp only [scanDigits, List.length_cons]
            omega
          · simp
        · split
          · have := length_dropWhile_le Char.isDigit
            simp only [scanDigits, List.length_cons]
            exact Nat.le_succ_of_le (this _)
          · simp
      · simp
    · simp
  · simp

theorem length_scanNumber {c : Char} {cs : List Char} (h : c.isDigit = true) :
    (scanNumber (c :: cs)).2.length < (c :: cs).length := by
  have h1 := length_dropWhile_le Char.isDigit cs
  have h2 := length_scanFraction (cs.dropWhile Char.isDigit)
  have h3 := length_scanExponent (scanFraction (cs.dropWhile Char.isDigit)).2
  simp only [scanNumber, scanDigits, List.dropWhile_cons, h, if_true, List.length_cons]
  omega

theorem length_scanSign? {cs rest : List Char} {s : Sign} (h : scanSign? cs = some (s, rest)) :
    rest.length < cs.length := by
  unfold scanSign? at h
  split at h <;> first | (cases h; simp only [List.length_cons]; omega) | cases h

/-- A token takes at least one character. -/
theorem length_scan {total : Nat} {c : Char} {cs rest : List Char} {t : Token}
    (h : scan total c cs = .ok (t, rest)) : rest.length < (c :: cs).length := by
  unfold scan at h
  split at h
  · split at h
    · next hs =>
      cases h
      have := length_scanText hs
      simp only [List.length_cons]
      omega
    · cases h
  · split at h
    · cases h
      have := length_dropWhile_le continuesWord cs
      simp only [List.length_cons]
      omega
    · split at h
      · next hd =>
        cases h
        exact length_scanNumber hd
      · split at h
        · next hs =>
          cases h
          exact length_scanSign? hs
        · cases h

/-- A token takes at least one of the characters that follow the blanks before it. -/
theorem length_scan_of_dropWhile {total : Nat} {c : Char} {cs tail rest : List Char} {t : Token}
    (hb : cs.dropWhile Text.isBlank = c :: tail) (h : scan total c tail = .ok (t, rest)) :
    rest.length < cs.length := by
  have h1 := length_scan h
  have h2 := length_dropWhile_le Text.isBlank cs
  rw [hb] at h2
  omega

/-- The tokens of the last characters of a text of `total` characters. -/
def tokenizeFrom (total : Nat) (cs : List Char) : Except SyntaxError (List Token) :=
  match hb : cs.dropWhile Text.isBlank with
  | [] => .ok []
  | c :: tail =>
    match h : scan total c tail with
    | .error e => .error e
    | .ok (t, rest) =>
      have : rest.length < cs.length := length_scan_of_dropWhile hb h
      match tokenizeFrom total rest with
      | .error e => .error e
      | .ok ts => .ok (t :: ts)
termination_by cs.length

/-- The tokens of a text. -/
def tokenize (s : String) : Except SyntaxError (List Token) :=
  tokenizeFrom s.toList.length s.toList

end Token

end QueryExpr
