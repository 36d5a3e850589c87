import Chargeback.Number.Binary64
import Chargeback.Text.Blank

/-!
# Spans of time

A span is a whole number of nanoseconds. It is written by people as numbers with units, such as
`1h 30m` or `1.5s`, and shown in the largest of the units s, ms, µs and ns that it reaches.
-/

namespace Chargeback

open Text

/-- A length of time in nanoseconds. -/
structure Span where
  nanos : Nat
  deriving DecidableEq, Repr, Inhabited

namespace Span

/-- Nanoseconds in a second. -/
def perSecond : Nat := 10 ^ 9

/-- A span of whole seconds. -/
def ofSeconds (n : Nat) : Span := ⟨n * perSecond⟩

/-- A span of whole milliseconds. -/
def ofMillis (n : Nat) : Span := ⟨n * 10 ^ 6⟩

/-- The whole seconds of a span. -/
def seconds (s : Span) : Nat := s.nanos / perSecond

/-- The nanoseconds beyond the whole seconds. -/
def subsecond (s : Span) : Nat := s.nanos % perSecond

/-- The whole milliseconds of a span. -/
def millis (s : Span) : Nat := s.nanos / 10 ^ 6

/-- The span of no length. -/
def isZero (s : Span) : Bool := s.nanos == 0

/-! ## Reading -/

/-- The units in which spans are written. -/
inductive SpanUnit where
  | nanosecond
  | microsecond
  | millisecond
  | second
  | minute
  | hour
  | day
  | week
  | month
  | year
  deriving DecidableEq, Repr

/-- The unit that a word names. -/
def unit? (word : String) : Option SpanUnit :=
  if ["nanos", "nsec", "ns"].contains word then some .nanosecond
  else if ["usec", "us", "µs"].contains word then some .microsecond
  else if ["millis", "msec", "ms"].contains word then some .millisecond
  else if ["seconds", "second", "secs", "sec", "s"].contains word then some .second
  else if ["minutes", "minute", "min", "mins", "m"].contains word then some .minute
  else if ["hours", "hour", "hr", "hrs", "h"].contains word then some .hour
  else if ["days", "day", "d"].contains word then some .day
  else if ["weeks", "week", "wk", "wks", "w"].contains word then some .week
  else if ["months", "month", "M"].contains word then some .month
  else if ["years", "year", "yr", "yrs", "y"].contains word then some .year
  else none

/-- The number of seconds or, for units below the second, of nanoseconds in a unit. A month is
30.44 days and a year 365.25 days. -/
def SpanUnit.factor : SpanUnit → Nat
  | .nanosecond => 1
  | .microsecond => 10 ^ 3
  | .millisecond => 10 ^ 6
  | .second => 1
  | .minute => 60
  | .hour => 3600
  | .day => 86400
  | .week => 604800
  | .month => 2630016
  | .year => 31557600

/-- The unit is shorter than a second. -/
def SpanUnit.isSubsecond : SpanUnit → Bool
  | .nanosecond => true
  | .microsecond => true
  | .millisecond => true
  | _ => false

/-- The number, if it fits into sixty-four bits. -/
def fit? (n : Nat) : Option Nat := if n < 2 ^ 64 then some n else none

/-- A span with some seconds and nanoseconds more, if its seconds fit into sixty-four bits. -/
def extend? (s : Span) (secs nanos : Nat) : Option Span := do
  let nanos ← fit? (s.subsecond + nanos)
  let secs ← fit? (s.seconds + secs + nanos / perSecond)
  return ⟨secs * perSecond + nanos % perSecond⟩

/-- One item of a written span: a whole number, the fraction after its point as a numerator and
a denominator, and the word for the unit. -/
structure Part where
  whole : Nat
  fraction : Option (Nat × Nat)
  word : String
  deriving Repr

/-- The quotient, if there is no remainder and the numerator fits into sixty-four bits. -/
def exactly? (n d : Nat) : Option Nat := do
  let n ← fit? n
  if n % d = 0 then return n / d else none

/-- The span with one item more. The fraction of an hour or a longer unit has to be a whole number
of seconds, that of a shorter unit a whole number of nanoseconds. -/
def addPart? (s : Span) (p : Part) : Option Span := do
  let u ← unit? p.word
  let amount ← fit? (p.whole * u.factor)
  let s ← if u.isSubsecond then s.extend? 0 amount else s.extend? amount 0
  match p.fraction with
  | none => return s
  | some (n, d) =>
    if u.isSubsecond then s.extend? 0 (← exactly? (n * u.factor) d)
    else if u == .second || u == .minute then
      s.extend? 0 (← exactly? (n * (u.factor * perSecond)) d)
    else s.extend? (← exactly? (n * u.factor) d) 0

/-- A letter that may stand in the word for a unit. -/
def isUnitLetter (c : Char) : Bool := isLetter c || c == 'µ'

/-- The characters of the fraction after a point, up to the unit: digits and blanks. -/
def splitFraction? (s : List Char) : Option ((Nat × Nat) × List Char) :=
  let part := s.takeWhile fun c => isDigit c || isBlank c
  let digits := part.filter isDigit
  let rest := s.drop part.length
  let stops := match rest with
    | [] => true
    | c :: _ => isUnitLetter c
  if stops && !digits.isEmpty then do
    let denominator ← fit? (10 ^ digits.length)
    let numerator ← fit? (digitsValue digits)
    return ((numerator, denominator), rest)
  else none

/-- The item at the front of a text that begins with a digit. -/
def splitPart? (s : List Char) : Option (Part × List Char) := do
  let number := s.takeWhile fun c => isDigit c || isBlank c
  let rest := s.drop number.length
  let whole ← fit? (digitsValue (number.filter isDigit))
  let (fraction, rest) ← match rest with
    | [] => some (none, [])
    | '.' :: r => (splitFraction? r).map fun (f, r) => (some f, r)
    | c :: r => if isUnitLetter c then some (none, c :: r) else none
  let word := rest.takeWhile isUnitLetter
  let rest := rest.drop word.length
  match rest with
  | [] => return ({ whole, fraction, word := String.ofList word }, [])
  | c :: r =>
    if isDigit c then return ({ whole, fraction, word := String.ofList word }, c :: r)
    else if isBlank c then return ({ whole, fraction, word := String.ofList word }, r)
    else none

/-- The items of a text added to a span, with at most `fuel` items. -/
def readParts? : Nat → Span → List Char → Option Span
  | 0, _, _ => none
  | fuel + 1, s, text =>
    match text.dropWhile isBlank with
    | [] => some s
    | c :: r =>
      if isDigit c then do
        let (part, rest) ← splitPart? (c :: r)
        readParts? fuel (← s.addPart? part) rest
      else none

/-- Reads a span: items of a number and a unit, at least one, or a zero alone. -/
def read? (text : List Char) : Option Span :=
  if text == ['0'] then some ⟨0⟩
  else if text.all isBlank then none
  else readParts? (text.length + 1) ⟨0⟩ text

/-! ## Showing -/

/-- A whole part and a fraction of so many places, without zeros at its end. -/
def decimalText (whole fraction places : Nat) : String :=
  let digits := (Nat.toDigits 10 (10 ^ places + fraction)).drop 1
  let kept := (digits.reverse.dropWhile (· == '0')).reverse
  if kept.isEmpty then toString whole
  else toString whole ++ "." ++ String.ofList kept

/-- The span in the largest of four units that it reaches. -/
def display (s : Span) : String :=
  if perSecond ≤ s.nanos then decimalText s.seconds s.subsecond 9 ++ "s"
  else if 10 ^ 6 ≤ s.nanos then decimalText (s.nanos / 10 ^ 6) (s.nanos % 10 ^ 6) 6 ++ "ms"
  else if 10 ^ 3 ≤ s.nanos then decimalText (s.nanos / 10 ^ 3) (s.nanos % 10 ^ 3) 3 ++ "µs"
  else decimalText s.nanos 0 0 ++ "ns"

end Span

end Chargeback
