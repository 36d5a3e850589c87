import Chargeback.Number.Binary64
import Chargeback.Text.Blank

/-!
# Decimal notation of doubles

Reading: `Decimal.read?` accepts an optional sign and either digits with an optional point and
an optional exponent, or one of the words for infinity and for no number, in any case. The
digits denote an exact decimal number and the result is the double nearest to it.

Writing: `shortest` selects the fewest decimal digits that lie in the interval of numbers which
round back to the double, and of two such decimals the nearer. Which way an exact tie goes is
the choice of the format, and so is the layout of the digits chosen: `plain` never uses an
exponent, `scientific` uses one for very large and very small numbers.
-/

namespace Chargeback

open Text

/-! ## Exact decimals -/

/-- The number `digits * 10 ^ exponent`. -/
structure Decimal where
  digits : Nat
  exponent : Int
  deriving DecidableEq, Repr

namespace Decimal

/-- How many decimal digits a number has; zero has none. -/
def digitCount (n : Nat) : Nat := if n = 0 then 0 else (Nat.toDigits 10 n).length

/-- The double nearest to a decimal number with a sign. Exponents so large or so small that
the result is settled without them are not multiplied out. -/
def toBinary64 (neg : Bool) (d : Decimal) : Binary64 :=
  let top := d.exponent + digitCount d.digits
  if d.digits = 0 || top < -400 then .finite neg 0
  else if 400 < top then .infinite neg
  else if 0 ≤ d.exponent then
    Binary64.round neg (d.digits * 10 ^ d.exponent.toNat * Binary64.unitsPerOne) 1
  else Binary64.round neg (d.digits * Binary64.unitsPerOne) (10 ^ (-d.exponent).toNat)

/-! ## Reading -/

/-- An optional sign: whether it is a minus, and the rest. -/
def splitSign : List Char → Bool × List Char
  | '-' :: r => (true, r)
  | '+' :: r => (false, r)
  | r => (false, r)

/-- The exponent part: nothing, or a letter `e`, an optional sign and at least one digit. -/
def exponentPart? : List Char → Option Int
  | [] => some 0
  | c :: r =>
    if c = 'e' ∨ c = 'E' then
      let (neg, ds) := splitSign r
      if ds.isEmpty || !ds.all isDigit then none
      else some (if neg then -(digitsValue ds : Int) else digitsValue ds)
    else none

/-- Digits with an optional point and an optional exponent; at least one digit stands before
the exponent. -/
def unsigned? (s : List Char) : Option Decimal :=
  let whole := s.takeWhile isDigit
  let rest := s.dropWhile isDigit
  let (fraction, tail) := match rest with
    | '.' :: r => (r.takeWhile isDigit, r.dropWhile isDigit)
    | r => ([], r)
  if whole.isEmpty && fraction.isEmpty then none
  else (exponentPart? tail).map fun e =>
    { digits := digitsValue (whole ++ fraction), exponent := e - fraction.length }

/-- Reads a double. -/
def read? (s : List Char) : Option Binary64 :=
  let (neg, r) := splitSign s
  let word := String.ofList (r.map lowerAscii)
  if word == "inf" || word == "infinity" then some (.infinite neg)
  else if word == "nan" then some .nan
  else (unsigned? r).map (toBinary64 neg)

/-- Reads an integer: an optional sign and at least one digit. -/
def readInt? (s : List Char) : Option Int :=
  let (neg, ds) := splitSign s
  if ds.isEmpty || !ds.all isDigit then none
  else some (if neg then -(digitsValue ds : Int) else digitsValue ds)

/-! ## Selecting the fewest digits -/

/-- Where an exact tie between two shortest decimals goes. -/
inductive Tie where
  | up
  | even
  deriving DecidableEq, Repr

/-- The exponent `k` with `10 ^ k ≤ num / den < 10 ^ (k + 1)`, for positive `num` and `den`. -/
def magnitude (num den : Nat) : Int :=
  let q := num / den
  if 0 < q then (digitCount q : Int) - 1
  else
    -- the least `j` whose power of ten reaches `den / num`
    -(digitCount ((den + num - 1) / num - 1) : Int)

/-- Whether `candidate` lies in the interval from `lo` to `hi`, with the ends if `closed`. -/
def within (closed : Bool) (lo hi candidate : Nat) : Bool :=
  if closed then lo ≤ candidate && candidate ≤ hi else lo < candidate && candidate < hi

/-- The decimal with `n` digits in the rounding interval of a positive magnitude, if there is
one; of two the nearer, and in a tie as `tie` says. -/
def shortestOf? (tie : Tie) (units n : Nat) : Option Decimal :=
  let step := Binary64.spacing units
  let below := if units = 2 ^ 52 * step && 1 < step then step else 2 * step
  let closed := units / step % 2 == 0
  let e := magnitude units Binary64.unitsPerOne - n + 1
  -- in quarters of units, times the powers of ten that make the grid whole
  let up := 10 ^ (-e).toNat
  let value := 4 * units * up
  let lo := (4 * units - below) * up
  let hi := (4 * units + 2 * step) * up
  let grid := 4 * Binary64.unitsPerOne * 10 ^ e.toNat
  let d := value / grid
  let dIn := within closed lo hi (d * grid)
  let uIn := within closed lo hi ((d + 1) * grid)
  let r := value % grid
  match dIn, uIn with
  | false, false => none
  | true, false => some ⟨d, e⟩
  | false, true => some ⟨d + 1, e⟩
  | true, true =>
    if 2 * r < grid then some ⟨d, e⟩
    else if grid < 2 * r then some ⟨d + 1, e⟩
    else match tie with
      | .up => some ⟨d + 1, e⟩
      | .even => if d % 2 = 0 then some ⟨d, e⟩ else some ⟨d + 1, e⟩

/-- The shortest decimal that rounds to a positive magnitude: seventeen digits always suffice. -/
def shortest (tie : Tie) (units : Nat) : Decimal :=
  ((List.range 17).findSome? fun i => shortestOf? tie units (i + 1)).getD ⟨0, 0⟩

/-! ## Layouts -/

/-- Digits with the point set `exponent` places from their end, and no exponent. -/
def positional (ds : List Char) (exponent : Int) : List Char :=
  if 0 ≤ exponent then ds ++ List.replicate exponent.toNat '0'
  else
    let places := (-exponent).toNat
    if places < ds.length then
      ds.take (ds.length - places) ++ '.' :: ds.drop (ds.length - places)
    else '0' :: '.' :: (List.replicate (places - ds.length) '0' ++ ds)

/-- The digits of a decimal without the zeros at its end, which go to the exponent. -/
def significant (d : Decimal) : List Char × Int :=
  let ds := Nat.toDigits 10 d.digits
  let zeros := (ds.reverse.takeWhile (· == '0')).length
  if zeros < ds.length then (ds.take (ds.length - zeros), d.exponent + zeros) else (['0'], 0)

/-- Plain notation: the shortest digits, a tie going up, never an exponent, and no point after
a whole number. -/
def plain : Binary64 → String
  | .nan => "NaN"
  | .infinite neg => if neg then "-inf" else "inf"
  | .finite neg u =>
    let body :=
      if u = 0 then ['0']
      else let (ds, e) := significant (shortest .up u); positional ds e
    String.ofList (if neg then '-' :: body else body)

/-- Interchange notation of a finite double: a whole number keeps one zero after the point, and
an exponent is used where the point would stand more than sixteen digits after the first digit
or more than four zeros before it. The text for a number that is not finite is `null`. -/
def scientific : Binary64 → String
  | .nan => "null"
  | .infinite _ => "null"
  | .finite neg u =>
    let body :=
      if u = 0 then ['0', '.', '0']
      else
        let (ds, e) := significant (shortest .even u)
        let point := (ds.length : Int) + e
        if 0 ≤ e && point ≤ 16 then positional ds e ++ ['.', '0']
        else if -5 < point && point ≤ 16 then positional ds e
        else
          let exp := (toString (point - 1)).toList
          match ds with
          | [d] => d :: 'e' :: exp
          | d :: r => d :: '.' :: (r ++ 'e' :: exp)
          | [] => []
    String.ofList (if neg then '-' :: body else body)

end Decimal

end Chargeback
