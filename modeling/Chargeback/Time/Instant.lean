import Chargeback.Time.Span

/-!
# Instants

An instant counts seconds from the start of 1970, in universal time without leap seconds, and
nanoseconds within the second. Nanoseconds of a thousand million and more mark a leap second,
which follows the second counted.

Dates are those of the Gregorian calendar carried back without end, with a year zero; the
calendar module counts days in eras of four hundred years that begin with March.
-/

namespace Chargeback

/-- A date of the calendar. -/
structure Date where
  year : Int
  month : Nat
  day : Nat
  deriving DecidableEq, Repr, Inhabited

namespace Date

/-- A year with a twenty-ninth of February. -/
def isLeapYear (y : Int) : Bool := y % 4 == 0 && (y % 100 != 0 || y % 400 == 0)

/-- The number of days of a month, zero for what is no month. -/
def daysInMonth (y : Int) (m : Nat) : Nat :=
  if m = 2 then (if isLeapYear y then 29 else 28)
  else if [4, 6, 9, 11].contains m then 30
  else if 1 ≤ m && m ≤ 12 then 31
  else 0

/-- The years that instants may have. -/
def yearInRange (y : Int) : Bool := -262143 ≤ y && y ≤ 262142

/-- The date exists and is in the range of instants. -/
def isValid (d : Date) : Bool :=
  yearInRange d.year && 1 ≤ d.day && d.day ≤ daysInMonth d.year d.month

/-- The days from the start of 1970 to a date. -/
def toDays (d : Date) : Int :=
  let y := if d.month ≤ 2 then d.year - 1 else d.year
  let era := y / 400
  let yearOfEra := y - era * 400
  let month := (d.month + 9) % 12
  let dayOfYear : Int := (153 * month + 2) / 5 + d.day - 1
  let dayOfEra := yearOfEra * 365 + yearOfEra / 4 - yearOfEra / 100 + dayOfYear
  era * 146097 + dayOfEra - 719468

/-- The date so many days after the start of 1970. -/
def ofDays (n : Int) : Date :=
  let z := n + 719468
  let era := z / 146097
  let dayOfEra := (z - era * 146097).toNat
  let yearOfEra := (dayOfEra - dayOfEra / 1460 + dayOfEra / 36524 - dayOfEra / 146096) / 365
  let dayOfYear := dayOfEra - (365 * yearOfEra + yearOfEra / 4 - yearOfEra / 100)
  let month := (5 * dayOfYear + 2) / 153
  let day := dayOfYear - (153 * month + 2) / 5 + 1
  let m := if month < 10 then month + 3 else month - 9
  { year := era * 400 + yearOfEra + (if m ≤ 2 then 1 else 0), month := m, day }

end Date

/-- A point in time. -/
structure Instant where
  seconds : Int
  nanos : Nat
  deriving DecidableEq, Repr, Inhabited

namespace Instant

/-- Seconds in a day. -/
def perDay : Int := 86400

/-- The date of an instant. -/
def date (t : Instant) : Date := Date.ofDays (t.seconds / perDay)

/-- The second of the day, leaving out a leap second. -/
def secondOfDay (t : Instant) : Nat := (t.seconds % perDay).toNat

/-- An instant from a count of seconds and nanoseconds, if it is in range. A leap second is the
sixtieth of its minute. -/
def ofUnix? (seconds : Int) (nanos : Nat) : Option Instant :=
  let t : Instant := ⟨seconds, nanos⟩
  if Date.yearInRange t.date.year && nanos < 2 * Span.perSecond &&
      (nanos < Span.perSecond || seconds % 60 == 59) then some t
  else none

/-- The nanoseconds from one instant to another. A leap second between them counts. -/
def nanosSince (t s : Instant) : Int :=
  let days := t.seconds / perDay - s.seconds / perDay
  let a := t.secondOfDay
  let b := s.secondOfDay
  let leap : Int :=
    if b < a && Span.perSecond ≤ s.nanos then 1
    else if a < b && Span.perSecond ≤ t.nanos then -1
    else 0
  (days * perDay + ((a : Int) - b + leap)) * Span.perSecond + ((t.nanos : Int) - s.nanos)

/-- The instant some nanoseconds later. -/
def later (t : Instant) (nanos : Nat) : Instant :=
  let total := t.nanos + nanos
  ⟨t.seconds + (total / Span.perSecond : Nat), total % Span.perSecond⟩

end Instant

end Chargeback
