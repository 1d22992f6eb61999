/-!
# Instants

An `Instant` is a point in universal time: seconds since 1970, counted down before it, and
nanoseconds after the second. Its text is a date and a time of day in the proleptic Gregorian
calendar, `2023-11-14T22:13:20.123Z`.
-/

namespace SqlAssembly

/-- A point in universal time. Nanoseconds of a billion and more belong to a leap second. -/
structure Instant where
  /-- The seconds since the first of January 1970, rounded down. -/
  seconds : Int
  /-- The nanoseconds after that second. -/
  nanos : Nat
deriving DecidableEq, Repr

/-- A day of the Gregorian calendar. -/
structure CivilDate where
  /-- The year; the year before 1 is 0. -/
  year : Int
  month : Nat
  day : Nat
deriving DecidableEq, Repr

namespace CivilDate

/-- The date that lies the given number of days after the first of January 1970. Years are counted
from March, so that a leap day is the last day of its year: an era of 400 such years has 146097
days, a century of it 36524, four years 1461 and a year 365, and within a year the months of 31, 30,
31, 30, 31 days repeat every 153 days. -/
def ofDays (days : Int) : CivilDate :=
  let shifted := days + 719468
  let era := shifted.fdiv 146097
  let dayOfEra := (shifted - era * 146097).toNat
  let yearOfEra := (dayOfEra - dayOfEra / 1460 + dayOfEra / 36524 - dayOfEra / 146096) / 365
  let dayOfYear := dayOfEra - (365 * yearOfEra + yearOfEra / 4 - yearOfEra / 100)
  let fromMarch := (5 * dayOfYear + 2) / 153
  let month := if fromMarch < 10 then fromMarch + 3 else fromMarch - 9
  { year := yearOfEra + era * 400 + (if month ≤ 2 then 1 else 0)
    month := month
    day := dayOfYear - (153 * fromMarch + 2) / 5 + 1 }

example : ofDays 0 = ⟨1970, 1, 1⟩ := by decide

example : ofDays 19675 = ⟨2023, 11, 14⟩ := by decide

end CivilDate

namespace Instant

/-- The digits of `n`, with zeros in front up to the given width. -/
def padded (width n : Nat) : String :=
  let ds := Nat.toDigits 10 n
  String.ofList (List.replicate (width - ds.length) '0' ++ ds)

/-- The year in four digits; beyond 9999 and before 0 with a sign. -/
def yearText (year : Int) : String :=
  if year < 0 then "-" ++ padded 4 year.natAbs
  else if 9999 < year then "+" ++ padded 5 year.natAbs
  else padded 4 year.natAbs

/-- The part of the second, in as many groups of three digits as it needs. -/
def fractionText (nanos : Nat) : String :=
  if nanos = 0 then ""
  else if nanos % 1000000 = 0 then "." ++ padded 3 (nanos / 1000000)
  else if nanos % 1000 = 0 then "." ++ padded 6 (nanos / 1000)
  else "." ++ padded 9 nanos

/-- The instant as text. A leap second is the second after the 59th. -/
def toText (t : Instant) : String :=
  let date := CivilDate.ofDays (t.seconds.fdiv 86400)
  let ofDay := (t.seconds.fmod 86400).toNat
  let leap := if 1000000000 ≤ t.nanos then 1 else 0
  yearText date.year ++ "-" ++ padded 2 date.month ++ "-" ++ padded 2 date.day ++ "T" ++
    padded 2 (ofDay / 3600) ++ ":" ++ padded 2 (ofDay / 60 % 60) ++ ":" ++
    padded 2 (ofDay % 60 + leap) ++ fractionText (t.nanos - leap * 1000000000) ++ "Z"

/-- The microseconds since the first of January 2000, rounded toward zero. -/
def microsSince2000 (t : Instant) : Int :=
  ((t.seconds - 946684800) * 1000000000 + t.nanos).tdiv 1000

end Instant

end SqlAssembly
