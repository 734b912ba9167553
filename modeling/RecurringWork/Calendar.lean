/-!
# RecurringWork.Calendar

**The proleptic Gregorian calendar.** A `Date` counts years astronomically (the year
0 is a leap year), months and days from 1. Dates and days since 1970-01-01 convert
into each other by counting the days before a year and before a month of it:

* `Date.toDays` adds the three counts;
* `Date.ofDays` estimates the year from its mean length, which is at most one off,
  and walks the months of that year.

A `Civil` is a date with a time of day, the face of a clock. It says nothing about
an instant until an offset from universal time is given.
-/

namespace RecurringWork

/-- A year, a month of it and a day of that. -/
structure Date where
  year : Int
  month : Nat
  day : Nat
  deriving DecidableEq, Repr

namespace Date

/-- Every fourth year is a leap year, of the full centuries only every fourth. -/
def isLeap (year : Int) : Bool :=
  year % 4 == 0 && (year % 100 != 0 || year % 400 == 0)

/-- The lengths of the twelve months. -/
def monthLengths (leap : Bool) : List Nat :=
  [31, if leap then 29 else 28, 31, 30, 31, 30, 31, 31, 30, 31, 30, 31]

/-- The length of a month, 0 for a month there is none of. -/
def monthLength (year : Int) (month : Nat) : Nat :=
  if month = 0 then 0 else ((monthLengths (isLeap year))[month - 1]?).getD 0

/-- The date exists. -/
def isReal (d : Date) : Bool := 1 ≤ d.day && d.day ≤ monthLength d.year d.month

/-- Days from 1970-01-01 to the first day of a year. -/
def daysBeforeYear (year : Int) : Int :=
  let before := year - 1
  365 * before + before / 4 - before / 100 + before / 400 - 719162

/-- Days from the first day of a year to the first day of a month. -/
def daysBeforeMonth (year : Int) (month : Nat) : Nat :=
  ((monthLengths (isLeap year)).take (month - 1)).foldr (· + ·) 0

/-- Days since 1970-01-01. -/
def toDays (d : Date) : Int :=
  daysBeforeYear d.year + daysBeforeMonth d.year d.month + (d.day : Int) - 1

/-- The year that a day falls in: the estimate by the mean length of a year, put
right by one where the estimate misses. -/
def yearOfDays (days : Int) : Int :=
  let guess := (days + 719162) * 400 / 146097 + 1
  if days < daysBeforeYear guess then guess - 1
  else if daysBeforeYear (guess + 1) ≤ days then guess + 1
  else guess

/-- The month and day, both from 1, that lie `rest` days behind the start of month
`month`, of which the lengths are given with those of the months after it. -/
def walkMonths : List Nat → Nat → Nat → Nat × Nat
  | [], month, rest => (month, rest + 1)
  | length :: lengths, month, rest =>
      if rest < length then (month, rest + 1) else walkMonths lengths (month + 1) (rest - length)

/-- The date `days` after 1970-01-01. -/
def ofDays (days : Int) : Date :=
  let year := yearOfDays days
  let (month, day) := walkMonths (monthLengths (isLeap year)) 1 (days - daysBeforeYear year).toNat
  ⟨year, month, day⟩

/-- The day of the week, from 1 for Sunday to 7 for Saturday. 1970-01-01 was a
Thursday. -/
def weekday (d : Date) : Nat := ((d.toDays + 4) % 7).toNat + 1

end Date

/-- The face of a clock that shows the date. -/
structure Civil where
  date : Date
  hour : Nat
  minute : Nat
  second : Nat
  deriving DecidableEq, Repr

namespace Civil

def secondsPerDay : Int := 86400

/-- Seconds from the start of 1970 on this clock. -/
def toSeconds (c : Civil) : Int :=
  c.date.toDays * secondsPerDay + (c.hour * 3600 + c.minute * 60 + c.second : Nat)

/-- The face that the clock shows `seconds` after the start of 1970. -/
def ofSeconds (seconds : Int) : Civil :=
  let ofDay := (seconds % secondsPerDay).toNat
  ⟨Date.ofDays (seconds / secondsPerDay), ofDay / 3600, ofDay / 60 % 60, ofDay % 60⟩

/-- The first second that the calendar covers. -/
def firstSecond : Int := toSeconds ⟨⟨-262143, 1, 1⟩, 0, 0, 0⟩

/-- The last second that the calendar covers. -/
def lastSecond : Int := toSeconds ⟨⟨262142, 12, 31⟩, 23, 59, 59⟩

end Civil

/-- A point in time inside the range of the calendar, split into whole seconds and
the nanoseconds beyond them. -/
structure Timestamp where
  seconds : Int
  nanos : Nat
  deriving DecidableEq, Repr

namespace Timestamp

/-- The timestamp of an instant in milliseconds, the nearest one if the calendar does
not reach it. -/
def ofInstant (ms : Int) : Timestamp :=
  if ms < Civil.firstSecond * 1000 then ⟨Civil.firstSecond, 0⟩
  else if (Civil.lastSecond + 1) * 1000 ≤ ms then ⟨Civil.lastSecond, 999999999⟩
  else ⟨ms / 1000, (ms % 1000).toNat * 1000000⟩

/-- The instant, fractions of a millisecond discarded. -/
def toInstant (t : Timestamp) : Int := t.seconds * 1000 + (t.nanos / 1000000 : Nat)

/-- The face of a clock in universal time. -/
def civil (t : Timestamp) : Civil := .ofSeconds t.seconds

end Timestamp

end RecurringWork
