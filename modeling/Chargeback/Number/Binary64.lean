import Chargeback.Number.Power

/-!
# Double-precision numbers as exact integers

Every finite double is a whole number of UNITS of `2 ^ (-1074)`, the distance between the
smallest doubles. A finite number is therefore a sign and a natural number of units, two
finite doubles compare as these integers do, and each operation is one exact integer or
rational result followed by ONE rounding, `Binary64.round`. Nothing here uses the hardware
type, so every result is open to proof.

The rounding goes to the nearest double and, of two equally near ones, to the one whose last
place is even; a magnitude that would need a larger exponent becomes an infinity.
-/

namespace Chargeback

/-- A double-precision number: a signed whole number of units of `2 ^ (-1074)`, one of the two
infinities, or no number at all. Both zeros exist: `finite false 0` and `finite true 0`. -/
inductive Binary64 where
  | finite (neg : Bool) (units : Nat)
  | infinite (neg : Bool)
  | nan
  deriving DecidableEq, Repr, Inhabited

namespace Binary64

/-! ## Rounding -/

/-- How many units make up the number one. -/
def unitsPerOne : Nat := 2 ^ 1074

/-- The first magnitude, in units, that no finite double reaches. -/
def overflowUnits : Nat := 2 ^ 2098

/-- The whole number nearest to `num / den`; a tie goes to the even neighbour. -/
def nearest (num den : Nat) : Nat :=
  let q := num / den
  let r := num % den
  if 2 * r < den ∨ (2 * r = den ∧ q % 2 = 0) then q else q + 1

/-- The distance, in units, between neighbouring doubles around the magnitude `units`:
fifty-three binary places are kept. -/
def spacing (units : Nat) : Nat := 2 ^ (units.log2 - 52)

/-- The double nearest to `num / den` units with the sign given. -/
def round (neg : Bool) (num den : Nat) : Binary64 :=
  let step := spacing (num / den)
  let units := nearest num (den * step) * step
  if units < overflowUnits then .finite neg units else .infinite neg

/-! ## Conversions between integers and doubles -/

/-- The positive zero. -/
def zero : Binary64 := .finite false 0

/-- The double nearest to an integer. -/
def ofInt (i : Int) : Binary64 := round (i < 0) (i.natAbs * unitsPerOne) 1

/-- The double nearest to a natural number. -/
def ofNat (n : Nat) : Binary64 := ofInt n

/-- The integer part, cut toward zero, of a finite double. -/
def truncate? : Binary64 → Option Int
  | .finite neg u =>
    let q := u / unitsPerOne
    some (if neg then -(q : Int) else q)
  | _ => none

/-- The integer a finite double stands for, if its value is whole. -/
def toInt? : Binary64 → Option Int
  | .finite neg u =>
    if u % unitsPerOne = 0 then
      let q := u / unitsPerOne
      some (if neg then -(q : Int) else q)
    else none
  | _ => none

/-! ## Classification and order -/

/-- True for every double but the infinities and `nan`. -/
def isFinite : Binary64 → Bool
  | .finite _ _ => true
  | _ => false

/-- True for `nan` only. -/
def isNaN : Binary64 → Bool
  | .nan => true
  | _ => false

/-- The magnitude with a positive sign. -/
def abs : Binary64 → Binary64
  | .finite _ u => .finite false u
  | .infinite _ => .infinite false
  | .nan => .nan

/-- The opposite sign, also of a zero. -/
def negate : Binary64 → Binary64
  | .finite s u => .finite (!s) u
  | .infinite s => .infinite (!s)
  | .nan => .nan

/-- The signed number of units of a finite double. -/
def signedUnits (neg : Bool) (units : Nat) : Int := if neg then -(units : Int) else units

/-- Strictly below; nothing is below or above `nan`. -/
def lt : Binary64 → Binary64 → Bool
  | .nan, _ => false
  | _, .nan => false
  | .infinite a, .infinite b => a && !b
  | .infinite a, .finite _ _ => a
  | .finite _ _, .infinite b => !b
  | .finite a m, .finite b n => signedUnits a m < signedUnits b n

/-- Equal as numbers: the two zeros are equal, and `nan` equals nothing. -/
def same : Binary64 → Binary64 → Bool
  | .infinite a, .infinite b => a == b
  | .finite a m, .finite b n => signedUnits a m == signedUnits b n
  | _, _ => false

/-- Below or equal as numbers. -/
def le (x y : Binary64) : Bool := lt x y || same x y

/-! ## Arithmetic -/

/-- The rounded sum. -/
def add : Binary64 → Binary64 → Binary64
  | .nan, _ => .nan
  | _, .nan => .nan
  | .infinite a, .infinite b => if a == b then .infinite a else .nan
  | .infinite a, .finite _ _ => .infinite a
  | .finite _ _, .infinite b => .infinite b
  | .finite a m, .finite b n =>
    if a == b then round a (m + n) 1
    else if n < m then round a (m - n) 1
    else if m < n then round b (n - m) 1
    else zero

/-- The rounded product. -/
def mul : Binary64 → Binary64 → Binary64
  | .nan, _ => .nan
  | _, .nan => .nan
  | .infinite a, .infinite b => .infinite (a != b)
  | .infinite a, .finite b n => if n = 0 then .nan else .infinite (a != b)
  | .finite a m, .infinite b => if m = 0 then .nan else .infinite (a != b)
  | .finite a m, .finite b n => round (a != b) (m * n) unitsPerOne

/-- The rounded quotient. -/
def div : Binary64 → Binary64 → Binary64
  | .nan, _ => .nan
  | _, .nan => .nan
  | .infinite _, .infinite _ => .nan
  | .infinite a, .finite b _ => .infinite (a != b)
  | .finite a _, .infinite b => .finite (a != b) 0
  | .finite a m, .finite b n =>
    if n = 0 then (if m = 0 then .nan else .infinite (a != b))
    else round (a != b) (m * unitsPerOne) n

/-- The least whole number not below; a negative fraction goes to the negative zero. -/
def ceil : Binary64 → Binary64
  | .finite true u => .finite true (u / unitsPerOne * unitsPerOne)
  | .finite false u => .finite false ((u + unitsPerOne - 1) / unitsPerOne * unitsPerOne)
  | x => x

instance : Add Binary64 := ⟨add⟩
instance : Mul Binary64 := ⟨mul⟩
instance : Div Binary64 := ⟨div⟩

/-! ## Interchange words -/

/-- The sixty-four bits of the interchange format, as a number; `nan` is the quiet one. -/
def toBits : Binary64 → Nat
  | .finite neg u =>
    let sign := if neg then 2 ^ 63 else 0
    if u < 2 ^ 52 then sign + u
    else
      let e := u.log2 - 52
      sign + (e + 1) * 2 ^ 52 + (u / 2 ^ e - 2 ^ 52)
  | .infinite neg => (if neg then 2 ^ 63 else 0) + 2047 * 2 ^ 52
  | .nan => 2047 * 2 ^ 52 + 2 ^ 51

/-- The double a sixty-four bit word stands for. -/
def ofBits (word : Nat) : Binary64 :=
  let neg := word / 2 ^ 63 % 2 == 1
  let e := word / 2 ^ 52 % 2 ^ 11
  let f := word % 2 ^ 52
  if e = 2047 then (if f = 0 then .infinite neg else .nan)
  else if e = 0 then .finite neg f
  else .finite neg ((2 ^ 52 + f) * 2 ^ (e - 1))

end Binary64

end Chargeback
