import Chargeback.Time.Instant

/-!
# Instants as text

The text of an instant is RFC 3339 in universal time. A year beyond four digits or before the
year zero carries its sign, a leap second shows as second sixty, and the fraction has no, three,
six or nine places, the fewest that are exact.

Reading is more liberal: blanks may stand before each number and around the hyphens and colons,
numbers may be short, a year may have a sign and any number of digits, the date may be set off
by `t` or a blank, a fraction beyond nine places is cut, and the offset may be written without
a colon.
-/

namespace Chargeback.Instant

open Text

/-! ## Writing -/

/-- Digits with zeros in front up to a width. -/
def padded (width n : Nat) : String :=
  let ds := Nat.toDigits 10 n
  String.ofList (List.replicate (width - ds.length) '0' ++ ds)

/-- A year in at least four digits, with a sign where it is not one of four digits. -/
def yearText (y : Int) : String :=
  if 0 ≤ y && y ≤ 9999 then padded 4 y.toNat
  else (if y < 0 then "-" else "+") ++ padded 4 y.natAbs

/-- Year, month and day. -/
def dateText (d : Date) : String :=
  yearText d.year ++ "-" ++ padded 2 d.month ++ "-" ++ padded 2 d.day

/-- Hour, minute and second; a leap second is second sixty. -/
def clockText (t : Instant) : String :=
  let s := t.secondOfDay
  padded 2 (s / 3600) ++ ":" ++ padded 2 (s / 60 % 60) ++ ":" ++
    padded 2 (s % 60 + t.nanos / Span.perSecond)

/-- The fraction of a second in the fewest of no, three, six or nine places. -/
def fractionText (nanos : Nat) : String :=
  if nanos = 0 then ""
  else if nanos % 10 ^ 6 = 0 then "." ++ padded 3 (nanos / 10 ^ 6)
  else if nanos % 10 ^ 3 = 0 then "." ++ padded 6 (nanos / 10 ^ 3)
  else "." ++ padded 9 nanos

/-- The text of an instant. -/
def toText (t : Instant) : String :=
  dateText t.date ++ "T" ++ clockText t ++ fractionText (t.nanos % Span.perSecond) ++ "Z"

/-- Date and time with three places and no zone, as the columns of a warehouse hold them. -/
def toMillisText (t : Instant) : String :=
  dateText t.date ++ " " ++ clockText t ++ "." ++ padded 3 (t.nanos % Span.perSecond / 10 ^ 6)

/-! ## Reading -/

/-- A number of one to `width` digits. -/
def number? (width : Nat) (s : List Char) : Option (Nat × List Char) :=
  let ds := (s.take width).takeWhile isDigit
  if ds.isEmpty then none else some (digitsValue ds, s.drop ds.length)

/-- A number of one to two digits after any blanks. -/
def shortNumber? (s : List Char) : Option (Nat × List Char) := number? 2 (trimStart s)

/-- A year after any blanks: up to four digits, or any number of them after a sign. -/
def year? (s : List Char) : Option (Int × List Char) :=
  match trimStart s with
  | '-' :: r => (number? r.length r).map fun (n, r) => (-(n : Int), r)
  | '+' :: r => (number? r.length r).map fun (n, r) => ((n : Int), r)
  | r => (number? 4 r).map fun (n, r) => ((n : Int), r)

/-- A separator after any blanks. -/
def separator? (c : Char) (s : List Char) : Option (List Char) :=
  match trimStart s with
  | d :: r => if d = c then some r else none
  | [] => none

/-- The nanoseconds of a fraction after the second: none, or a point and at least one digit, of
which nine count. -/
def fraction? : List Char → Option (Nat × List Char)
  | '.' :: r => do
    let ds := (r.takeWhile isDigit).take 9
    if ds.isEmpty then none
    else
      return (digitsValue ds * 10 ^ (9 - ds.length), r.dropWhile isDigit)
  | r => some (0, r)

/-- Two digits, in values. -/
def twoDigits? : List Char → Option (Nat × Nat × List Char)
  | a :: b :: r =>
    if isDigit a && isDigit b then some (digitValue a, digitValue b, r) else none
  | _ => none

/-- The offset from universal time in seconds: a letter or the word for none, or a sign and
hours and minutes of two digits each, with colons or blanks between them. -/
def offset? (s : List Char) : Option (Int × List Char) :=
  if (s.take 3).map lowerAscii == ['u', 't', 'c'] then some (0, s.drop 3)
  else match s with
    | [] => none
    | c :: r =>
      if c == 'Z' || c == 'z' then some (0, r)
      else if c == '+' || c == '-' || c == '\u2212' then do
        let (h1, h2, r) ← twoDigits? r
        let (m1, m2, r) ← twoDigits? (r.dropWhile fun c => c == ':' || isBlank c)
        if 6 ≤ m1 then none
        else
          let seconds : Int := (10 * h1 + h2) * 3600 + (10 * m1 + m2) * 60
          return (if c == '+' then seconds else -seconds, r)
      else none

/-- Reads an instant. -/
def read? (s : List Char) : Option Instant := do
  let (year, s) ← year? s
  let s ← separator? '-' s
  let (month, s) ← shortNumber? s
  let s ← separator? '-' s
  let (day, s) ← shortNumber? s
  let s ← match s with
    | c :: r => if c == 'T' || c == 't' || c == ' ' then some r else none
    | [] => none
  let (hour, s) ← shortNumber? s
  let s ← separator? ':' s
  let (minute, s) ← shortNumber? s
  let s ← separator? ':' s
  let (second, s) ← shortNumber? s
  let (nanos, s) ← fraction? s
  let (offset, s) ← offset? (trimStart s)
  let date : Date := { year, month, day }
  if (trimStart s).isEmpty && date.isValid && hour < 24 && minute < 60 && second ≤ 60 &&
      offset.natAbs < 86400 then
    let leap := second == 60
    let clock : Int := hour * 3600 + minute * 60 + (if leap then 59 else second : Nat)
    let t : Instant := {
      seconds := date.toDays * perDay + clock - offset
      nanos := nanos + (if leap then Span.perSecond else 0) }
    if Date.yearInRange t.date.year then some t else none
  else none

end Chargeback.Instant
