import Chargeback.Number.Amount
import Chargeback.Number.Decimal
import Chargeback.Text.Quoted

/-!
# Quantities of resources

A quantity is kept as the text in which it was written, such as `500m`, `32Mi` or `2`, and only
read where it is used. Its text, without blanks at the ends, is a number and an optional suffix:
a power of two (`Ki` to `Ei`) or a power of ten (`n` to `E`).

Whole numbers are scaled EXACTLY, within the range of signed 128-bit integers. A number with a
point or an exponent, or beyond that range, is scaled as a double. Both are rounded up to whole
thousandths.
-/

namespace Chargeback

open Text

/-- A quantity as it was written. -/
structure Quantity where
  text : String
  deriving DecidableEq, Repr, Inhabited

/-- Why a quantity has no value. -/
inductive QuantityError where
  | empty
  | invalid (text : String)
  | outOfRange (text : String)
  deriving DecidableEq, Repr

namespace QuantityError

/-- What is said about the fault. -/
def message : QuantityError → String
  | .empty => "empty quantity"
  | .invalid text => "invalid quantity " ++ quoted text
  | .outOfRange text => "quantity " ++ quoted text ++ " out of range"

end QuantityError

namespace Quantity

/-! ## Suffixes -/

/-- The factor that a suffix stands for, as a fraction. -/
structure Scale where
  num : Nat
  den : Nat
  deriving DecidableEq, Repr

/-- The exponent of two for the first letter of a binary suffix. -/
def binaryExponent? : Char → Option Nat
  | 'K' => some 10
  | 'M' => some 20
  | 'G' => some 30
  | 'T' => some 40
  | 'P' => some 50
  | 'E' => some 60
  | _ => none

/-- The factor of a decimal suffix. -/
def decimalScale? : Char → Option Scale
  | 'n' => some ⟨1, 10 ^ 9⟩
  | 'u' => some ⟨1, 10 ^ 6⟩
  | 'm' => some ⟨1, 10 ^ 3⟩
  | 'k' => some ⟨10 ^ 3, 1⟩
  | 'M' => some ⟨10 ^ 6, 1⟩
  | 'G' => some ⟨10 ^ 9, 1⟩
  | 'T' => some ⟨10 ^ 12, 1⟩
  | 'P' => some ⟨10 ^ 15, 1⟩
  | 'E' => some ⟨10 ^ 18, 1⟩
  | _ => none

/-- Splits a decimal suffix off a text given backwards. -/
def splitDecimal : List Char → List Char × Scale
  | [] => ([], ⟨1, 1⟩)
  | c :: r =>
    match decimalScale? c with
    | some s => (r.reverse, s)
    | none => ((c :: r).reverse, ⟨1, 1⟩)

/-- The number in front of the suffix, and the factor of the suffix. -/
def splitSuffix (s : List Char) : List Char × Scale :=
  match s.reverse with
  | 'i' :: c :: r =>
    match binaryExponent? c with
    | some e => (r.reverse, ⟨2 ^ e, 1⟩)
    | none => splitDecimal ('i' :: c :: r)
  | r => splitDecimal r

/-! ## Scaling -/

/-- The integer is within the signed 128-bit range. -/
def fitsWide (i : Int) : Bool := -2 ^ 127 ≤ i && i < 2 ^ 127

/-- The quotient by a positive number, rounded up. -/
def ceilDiv (n : Int) (d : Nat) : Int := -((-n) / d)

/-- Thousandths of a whole number, if all steps stay in range. -/
def wholeMilli? (i : Int) (s : Scale) : Option Int :=
  if fitsWide (i * s.num) && fitsWide (i * s.num * 1000) then
    some (ceilDiv (i * s.num * 1000) s.den)
  else none

/-- Thousandths of a double, if the result is within the signed 64-bit range. -/
def doubleMilli? (x : Binary64) (s : Scale) : Option Int :=
  let scaled :=
    (x * Binary64.ofNat s.num * Binary64.ofNat 1000 / Binary64.ofNat s.den).ceil
  if (Binary64.ofInt Amount.greatest).lt scaled.abs then none else scaled.truncate?

/-- The quantity in thousandths of its unit, rounded up. -/
def milli (q : Quantity) : Except QuantityError Int :=
  let raw := trim q.text.toList
  let written := String.ofList raw
  if raw.isEmpty then .error .empty
  else
    let (number, scale) := splitSuffix raw
    if number.isEmpty then .error (.invalid written)
    else
      let inRange (m : Option Int) : Except QuantityError Int := match m with
        | some m => if Amount.InRange m then .ok m else .error (.outOfRange written)
        | none => .error (.outOfRange written)
      match (Decimal.readInt? number).filter fitsWide with
      | some i => inRange (wholeMilli? i scale)
      | none =>
        match Decimal.read? number with
        | some x => if x.isFinite then inRange (doubleMilli? x scale) else .error (.invalid written)
        | none => .error (.invalid written)

/-- The quantity in whole units, rounded up. -/
def value (q : Quantity) : Except QuantityError Int :=
  q.milli.map fun m => ceilDiv m 1000

end Quantity

end Chargeback
