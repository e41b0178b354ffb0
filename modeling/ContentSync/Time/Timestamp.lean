/-!
# Points in time

A point in time is a number of seconds since the start of 1970 and a number of nanoseconds. In the
last second of a minute the nanoseconds may reach into a leap second.

* `civil` — the date of a day number, in the proleptic Gregorian calendar;
* `Timestamp.text` — date, time with three, six or nine decimals as needed, and a zone mark.
-/

set_option autoImplicit false

namespace ContentSync

/-- A point in time. From `1000000000` nanoseconds on it lies in a leap second. -/
structure Timestamp where
  seconds : Int
  nanoseconds : Nat
  deriving DecidableEq, Repr

namespace Timestamp

/-- A calendar date. -/
structure Date where
  year : Int
  month : Nat
  day : Nat
  deriving DecidableEq, Repr

/-- The date of a number of days since the start of 1970. Years are counted from March, in eras of
400 years that have 146097 days. -/
def civil (days : Int) : Date :=
  let shifted := days + 719468
  let era := shifted / 146097
  let dayOfEra := (shifted % 146097).toNat
  let yearOfEra := (dayOfEra - dayOfEra / 1460 + dayOfEra / 36524 - dayOfEra / 146096) / 365
  let dayOfYear := dayOfEra - (365 * yearOfEra + yearOfEra / 4 - yearOfEra / 100)
  let marchMonth := (5 * dayOfYear + 2) / 153
  let day := dayOfYear - (153 * marchMonth + 2) / 5 + 1
  let month := if marchMonth < 10 then marchMonth + 3 else marchMonth - 9
  let year := (yearOfEra : Int) + era * 400
  ⟨if month ≤ 2 then year + 1 else year, month, day⟩

/-- A number with at least the given count of digits. -/
def padded (width n : Nat) : String :=
  let digits := (toString n).toList
  String.ofList (List.replicate (width - digits.length) '0' ++ digits)

/-- Years of four digits stand as they are; any other year carries a sign. -/
def yearText (year : Int) : String :=
  if 0 ≤ year ∧ year ≤ 9999 then padded 4 year.toNat
  else (if year < 0 then "-" else "+") ++ padded 4 year.natAbs

def dateText (d : Date) : String :=
  yearText d.year ++ "-" ++ padded 2 d.month ++ "-" ++ padded 2 d.day

/-- The fraction of a second, with as many groups of three digits as it needs. -/
def fractionText (nanoseconds : Nat) : String :=
  if nanoseconds = 0 then ""
  else if nanoseconds % 1000000 = 0 then "." ++ padded 3 (nanoseconds / 1000000)
  else if nanoseconds % 1000 = 0 then "." ++ padded 6 (nanoseconds / 1000)
  else "." ++ padded 9 nanoseconds

def secondsPerDay : Int := 86400

/-- The largest and the smallest day number that has a date. -/
def firstDay : Int := -96465292

def lastDay : Int := 95026236

/-- Whether the point exists: its day has a date, and only the last second of a minute is long. -/
def valid (t : Timestamp) : Bool :=
  let day := t.seconds / secondsPerDay
  firstDay ≤ day && day ≤ lastDay &&
    (t.nanoseconds < 1000000000 || (t.nanoseconds < 2000000000 && t.seconds % 60 == 59))

/-- The text of a point in time, with the given mark for the zone. -/
def text (zone : String) (t : Timestamp) : String :=
  let second := (t.seconds % secondsPerDay).toNat
  let leap := t.nanoseconds / 1000000000
  dateText (civil (t.seconds / secondsPerDay)) ++ "T" ++ padded 2 (second / 3600) ++ ":"
    ++ padded 2 (second / 60 % 60) ++ ":" ++ padded 2 (second % 60 + leap)
    ++ fractionText (t.nanoseconds % 1000000000) ++ zone

/-- The text inside records. -/
def recordText (t : Timestamp) : String := t.text "Z"

/-- The text inside messages. -/
def messageText (t : Timestamp) : String := t.text "+00:00"

end Timestamp

end ContentSync
