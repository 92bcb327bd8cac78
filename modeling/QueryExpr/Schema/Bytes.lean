import QueryExpr.Schema
import QueryExpr.Text.Utf8

/-!
# The binary form of a schema

The number of columns, then for each column the length of its name, the name in UTF-8, the
number of its type, and a byte that is one when the column is nullable. Lengths take eight
bytes and type numbers four, the lowest byte first. Bytes after the last column do not count.

* `readNumber_littleEndian`: a number that fits is read back.
-/

namespace QueryExpr

-- Powers are taken by the definition of the core library, whatever else is imported.
attribute [local instance (2000)] instPowNat

/-- Why bytes are no schema. -/
inductive DecodeError where
  /-- A length, a type number or a nullable byte is cut short. -/
  | unexpectedEnd
  /-- A name is cut short. -/
  | cutName
  | badText (fault : Text.Utf8Fault)
  | unknownType (number : Nat)
  | badFlag (byte : Nat)
  deriving DecidableEq, Repr

namespace DecodeError

def message : DecodeError → String
  | unexpectedEnd => "io error: unexpected end of file"
  | cutName => "io error: "
  | badText fault => "string is not valid utf8: " ++ fault.message
  | unknownType number =>
    "invalid value: integer `" ++ toString number ++ "`, expected variant index 0 <= i < "
      ++ toString ValueType.all.length
  | badFlag byte => "invalid u8 while decoding bool, expected 0 or 1, found " ++ toString byte

end DecodeError

/-- Why a schema cannot be loaded. -/
inductive LoadError where
  | undecodable (error : DecodeError)
  | unsound (defect : SchemaDefect)
  deriving DecidableEq, Repr

namespace Schema

/-- A number in `width` bytes, the lowest first. -/
def littleEndian : (width n : Nat) → List UInt8
  | 0, _ => []
  | width + 1, n => UInt8.ofNat (n % 256) :: littleEndian width (n / 256)

/-- The number that bytes write, the lowest first. -/
def ofLittleEndian (bytes : List UInt8) : Nat := bytes.foldr (fun b n => b.toNat + 256 * n) 0

/-- The bytes of a length. -/
def lengthWidth : Nat := 8

/-- The bytes of a type number. -/
def typeWidth : Nat := 4

/-- The bytes of one column. -/
def columnBytes (c : Column) : List UInt8 :=
  let name := Text.encode c.name
  littleEndian lengthWidth name.length ++ name ++ littleEndian typeWidth c.type.index
    ++ [if c.nullable then 1 else 0]

/-- The binary form of a schema. -/
def toBytes (s : Schema) : List UInt8 :=
  littleEndian lengthWidth s.columns.length ++ s.columns.flatMap columnBytes

/-- The first `n` bytes and the rest, or the given error when there are fewer. -/
def takeBytes (error : DecodeError) (n : Nat) (bytes : List UInt8) :
    Except DecodeError (List UInt8 × List UInt8) :=
  if bytes.length < n then .error error else .ok (bytes.take n, bytes.drop n)

def readNumber (width : Nat) (bytes : List UInt8) : Except DecodeError (Nat × List UInt8) := do
  let (digits, rest) ← takeBytes .unexpectedEnd width bytes
  return (ofLittleEndian digits, rest)

def readName (bytes : List UInt8) : Except DecodeError (String × List UInt8) := do
  let (length, rest) ← readNumber lengthWidth bytes
  let (name, rest) ← takeBytes .cutName length rest
  match Text.decode? name with
  | some name => return (name, rest)
  -- text that cannot be decoded has a fault, so the default is never taken
  | none => throw (.badText ((Text.Utf8Fault.find? 0 0 name).getD ⟨0, none⟩))

def readType (bytes : List UInt8) : Except DecodeError (ValueType × List UInt8) := do
  let (number, rest) ← readNumber typeWidth bytes
  match ValueType.all[number]? with
  | some type => return (type, rest)
  | none => throw (.unknownType number)

def readFlag : List UInt8 → Except DecodeError (Bool × List UInt8)
  | [] => throw .unexpectedEnd
  | byte :: rest =>
    if byte = 0 then return (false, rest)
    else if byte = 1 then return (true, rest)
    else throw (.badFlag byte.toNat)

def readColumn (bytes : List UInt8) : Except DecodeError (Column × List UInt8) := do
  let (name, rest) ← readName bytes
  let (type, rest) ← readType rest
  let (nullable, rest) ← readFlag rest
  return (⟨name, type, nullable⟩, rest)

/-- Reads a given number of columns; too great a number runs into the end of the bytes. -/
def readColumns : (count : Nat) → List UInt8 → Except DecodeError (List Column × List UInt8)
  | 0, bytes => return ([], bytes)
  | count + 1, bytes => do
    let (column, rest) ← readColumn bytes
    let (columns, rest) ← readColumns count rest
    return (column :: columns, rest)

/-- The columns that bytes write, sound or not. -/
def decodeColumns (bytes : List UInt8) : Except DecodeError (List Column) := do
  let (count, rest) ← readNumber lengthWidth bytes
  let (columns, _) ← readColumns count rest
  return columns

/-- The schema that bytes write. Names are looked at only after all columns are read. -/
def ofBytes (bytes : List UInt8) : Except LoadError Schema :=
  match decodeColumns bytes with
  | .error e => .error (.undecodable e)
  | .ok columns => (ofColumns columns).mapError .unsound

theorem length_littleEndian (width n : Nat) : (littleEndian width n).length = width := by
  induction width generalizing n with
  | zero => rfl
  | succ width ih => simp [littleEndian, ih]

theorem ofLittleEndian_littleEndian (width n : Nat) (h : n < 256 ^ width) :
    ofLittleEndian (littleEndian width n) = n := by
  induction width generalizing n with
  | zero => simp at h; simp [littleEndian, ofLittleEndian, h]
  | succ width ih =>
    have hq : n / 256 < 256 ^ width := by
      rw [Nat.pow_succ] at h
      exact Nat.div_lt_of_lt_mul (by omega)
    have := ih (n / 256) hq
    simp only [littleEndian, ofLittleEndian, List.foldr_cons] at this ⊢
    rw [this]
    simp
    omega

theorem readNumber_littleEndian (width n : Nat) (rest : List UInt8) (h : n < 256 ^ width) :
    readNumber width (littleEndian width n ++ rest) = .ok (n, rest) := by
  have hl := length_littleEndian width n
  have hlen : ¬ (littleEndian width n ++ rest).length < width := by simp [hl]
  have htake : (littleEndian width n ++ rest).take width = littleEndian width n := by
    rw [List.take_append_of_le_length (by omega), List.take_of_length_le (by omega)]
  have hdrop : (littleEndian width n ++ rest).drop width = rest := by
    rw [List.drop_append_of_le_length (by omega), List.drop_of_length_le (by omega)]
    rfl
  simp only [readNumber, takeBytes, if_neg hlen, htake, hdrop]
  show Except.ok (ofLittleEndian (littleEndian width n), rest) = _
  rw [ofLittleEndian_littleEndian width n h]

end Schema

end QueryExpr
