/-!
# Dates and times of day

A calendar date, a time of day to the nanosecond, and the two together. A leap second is
the last second of a minute that lasts on: its nanoseconds run past a thousand million.
Dates and times are ordered from the widest part to the narrowest.
-/

namespace QueryExpr

/-- A day of the proleptic calendar. -/
structure Date where
  year : Int
  month : Nat
  day : Nat
  deriving DecidableEq, Repr

/-- A time of day. -/
structure Time where
  hour : Nat
  minute : Nat
  second : Nat
  nanosecond : Nat
  deriving DecidableEq, Repr

/-- A date with a time of day. -/
structure Timestamp where
  date : Date
  time : Time
  deriving DecidableEq, Repr

/-- A number with zeros before it, to the given width at least. -/
def padded (width n : Nat) : String :=
  let digits := Nat.toDigits 10 n
  String.ofList (List.replicate (width - digits.length) '0' ++ digits)

namespace Date

def compare (a b : Date) : Ordering :=
  (Ord.compare a.year b.year).then ((Ord.compare a.month b.month).then (Ord.compare a.day b.day))

/-- A year of four digits; with a sign when it lies outside 0 to 9999. -/
def yearText (year : Int) : String :=
  if year < 0 then "-" ++ padded 4 year.natAbs
  else if 9999 < year then "+" ++ padded 4 year.natAbs
  else padded 4 year.natAbs

/-- Year, month and day with hyphens between them. -/
def text (d : Date) : String := yearText d.year ++ "-" ++ padded 2 d.month ++ "-" ++ padded 2 d.day

end Date

namespace Time

def compare (a b : Time) : Ordering :=
  (Ord.compare a.hour b.hour).then ((Ord.compare a.minute b.minute).then
    ((Ord.compare a.second b.second).then (Ord.compare a.nanosecond b.nanosecond)))

/-- The nanoseconds of a whole second. -/
def perSecond : Nat := 1000000000

/-- The part of a second after the point: in thousandths, millionths or less, whichever
is the coarsest that is exact. -/
def fractionText (nanoseconds : Nat) : String :=
  if nanoseconds = 0 then ""
  else if nanoseconds % 1000000 = 0 then "." ++ padded 3 (nanoseconds / 1000000)
  else if nanoseconds % 1000 = 0 then "." ++ padded 6 (nanoseconds / 1000)
  else "." ++ padded 9 nanoseconds

/-- Hour, minute and second with colons between them; a leap second counts as one more. -/
def text (t : Time) : String :=
  padded 2 t.hour ++ ":" ++ padded 2 t.minute ++ ":"
    ++ padded 2 (t.second + t.nanosecond / perSecond) ++ fractionText (t.nanosecond % perSecond)

end Time

namespace Timestamp

def compare (a b : Timestamp) : Ordering := (a.date.compare b.date).then (a.time.compare b.time)

def text (t : Timestamp) : String := t.date.text ++ " " ++ t.time.text

end Timestamp

end QueryExpr
