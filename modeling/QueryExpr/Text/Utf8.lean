/-!
# Faults in UTF-8 text

Where a list of bytes first stops being UTF-8, and for how long: the bytes up to the one
that cannot follow are at fault together, and a text that ends inside a character is
incomplete.

* `decode?_encode`: what is written for a text is read back as that text.
-/

namespace QueryExpr.Text

/-- The UTF-8 bytes of a text. -/
def encode (s : String) : List UInt8 := s.toUTF8.data.toList

/-- The text of UTF-8 bytes. -/
def decode? (bytes : List UInt8) : Option String := String.fromUTF8? ⟨bytes.toArray⟩

theorem decode?_encode (s : String) : decode? (encode s) = some s := by
  simp only [decode?, encode, Array.toArray_toList]
  show String.fromUTF8? s.toByteArray = some s
  simp [String.fromUTF8?, s.isValidUTF8, String.fromUTF8]

/-- The first place at which bytes are not UTF-8. -/
structure Utf8Fault where
  index : Nat
  /-- How many bytes are at fault; none when the text ends inside a character. -/
  length? : Option Nat
  deriving DecidableEq, Repr

namespace Utf8Fault

def message (f : Utf8Fault) : String :=
  match f.length? with
  | some n => "invalid utf-8 sequence of " ++ toString n ++ " bytes from index " ++ toString f.index
  | none => "incomplete utf-8 byte sequence from index " ++ toString f.index

/-- Whether a byte continues a character. -/
def isTail (b : UInt8) : Bool := 0x80 ≤ b && b ≤ 0xBF

/-- Whether `b` may follow the first byte `a` of a character of three or four bytes. -/
def isSecond (a b : UInt8) : Bool :=
  if a = 0xE0 then 0xA0 ≤ b && b ≤ 0xBF
  else if a = 0xED then 0x80 ≤ b && b ≤ 0x9F
  else if a = 0xF0 then 0x90 ≤ b && b ≤ 0xBF
  else if a = 0xF4 then 0x80 ≤ b && b ≤ 0x8F
  else isTail b

/-- How many bytes a character that starts with `a` has; none if no character does. -/
def width? (a : UInt8) : Option Nat :=
  if a < 0x80 then some 1
  else if 0xC2 ≤ a && a ≤ 0xDF then some 2
  else if 0xE0 ≤ a && a ≤ 0xEF then some 3
  else if 0xF0 ≤ a && a ≤ 0xF4 then some 4
  else none

/-- The outcome for the first `done` bytes of a character of which `expected` more have to
follow: `done` of them are at fault when the next one does not belong, and the text is
incomplete when it ends. -/
def ofTail : (done expected : Nat) → (accepts : UInt8 → Bool) → List UInt8 → Option (Option Nat)
  | _, 0, _, _ => none
  | _, _ + 1, _, [] => some none
  | done, expected + 1, accepts, b :: rest =>
    if accepts b then ofTail (done + 1) expected isTail rest else some (some done)

/-- What is wrong with the character that starts a list of bytes; its width if it is sound. -/
def ofFirst (a : UInt8) (rest : List UInt8) : Except (Option Nat) Nat :=
  match width? a with
  | none => .error (some 1)
  | some n =>
    match ofTail 1 (n - 1) (isSecond a) rest with
    | some length? => .error length?
    | none => .ok n

/-- Looks for the first fault, where `index` bytes went before and the next `skip` bytes
belong to a character that is known to be sound. -/
def find? (index skip : Nat) : List UInt8 → Option Utf8Fault
  | [] => none
  | a :: rest =>
    match skip with
    | skip + 1 => find? (index + 1) skip rest
    | 0 =>
      match ofFirst a rest with
      | .error length? => some ⟨index, length?⟩
      | .ok width => find? (index + 1) (width - 1) rest

end Utf8Fault

end QueryExpr.Text
