import QueryExpr.Text.Invisible

/-!
# Quoted texts

A text between double quotes in which every character can be seen: quotes and backslashes
take a backslash, the common controls their letter, and whatever else does not show on its
own its number in hexadecimal.
-/

namespace QueryExpr.Text

/-- The escape of a character by number, such as `\u` and `200b` in braces. -/
def numberEscape (c : Char) : String :=
  "\\u\x7b" ++ String.ofList (Nat.toDigits 16 c.toNat) ++ "\x7d"

/-- What is written for one character of a quoted text. -/
def escape (c : Char) : String :=
  if c = '\x00' then "\\0"
  else if c = '\t' then "\\t"
  else if c = '\r' then "\\r"
  else if c = '\n' then "\\n"
  else if c = '"' then "\\\""
  else if c = '\\' then "\\\\"
  else if isInvisible c then numberEscape c
  else c.toString

/-- A text between double quotes. -/
def quoted (s : String) : String :=
  "\"" ++ String.join (s.toList.map escape) ++ "\""

end QueryExpr.Text
