import Chargeback.Datum

/-!
# Numerals of JSON

A numeral without fraction and exponent is an integer if it fits into sixty-four bits, signed
or unsigned; `-0` is not one of them, as the integers have one zero. Every other numeral is a
double: its digits are collected in a significand of sixty-four bits, digits that no longer fit
only move the exponent or are dropped, and the ROUNDED significand is then scaled by powers of
ten. The result can differ in the last place from the double nearest to the numeral. A numeral
beyond the finite doubles has no value.
-/

namespace Chargeback.Json

/-- A numeral in its parts; the lists hold digit values. -/
structure Numeral where
  neg : Bool
  whole : List Nat
  fraction : Option (List Nat)
  exponent : Option (Bool × List Nat)
  deriving Repr

namespace Numeral

/-- Appends digits to a significand as long as it stays below `2 ^ 64`; what does not fit is
left over. -/
def absorb (sig : Nat) : List Nat → Nat × List Nat
  | [] => (sig, [])
  | d :: ds => if 10 * sig + d < 2 ^ 64 then absorb (10 * sig + d) ds else (sig, d :: ds)

/-- The double nearest to a power of ten. -/
def powerOfTen (n : Nat) : Binary64 := Binary64.ofNat (10 ^ n)

/-- Divides by `10 ^ n`, in steps of at most `10 ^ 308`; once the result is zero it stays so. -/
def divideByPower : Nat → Binary64 → Nat → Binary64
  | 0, x, _ => x
  | steps + 1, x, n =>
    if n ≤ 308 then x / powerOfTen n
    else if x.same Binary64.zero then x
    else divideByPower steps (x / powerOfTen 308) (n - 308)

/-- A significand scaled by a power of ten, unless the result is beyond the finite doubles. -/
def scaled? (sig : Nat) (exponent : Int) : Option Binary64 :=
  let x := Binary64.ofNat sig
  if 0 ≤ exponent then
    if exponent ≤ 308 then
      let y := x * powerOfTen exponent.toNat
      if y.isFinite then some y else none
    else if sig = 0 then some x else none
  else some (divideByPower 4 x (-exponent).toNat)

/-- The greatest exponent that is told apart from larger ones. -/
def exponentLimit : Nat := 2 ^ 31 - 1

/-- The double of a numeral, without its sign. -/
def magnitude? (n : Numeral) : Option Binary64 :=
  let (sig, skipped) := absorb 0 n.whole
  let fraction := n.fraction.getD []
  let (sig, dropped) := absorb sig fraction
  let start : Int := skipped.length - (fraction.length - dropped.length : Nat)
  match n.exponent with
  | none => scaled? sig start
  | some (negative, ds) =>
    let e : Nat := ds.foldl (fun a d => 10 * a + d) 0
    if exponentLimit < e then
      if sig ≠ 0 && !negative then none else some Binary64.zero
    else scaled? sig (if negative then start - (e : Int) else start + (e : Int))

/-- What a numeral denotes. -/
def value (n : Numeral) : Datum :=
  let double := match magnitude? n with
    | some x => Datum.real (if n.neg then x.negate else x)
    | none => .unreadable
  match n.fraction, n.exponent with
  | none, none =>
    let i : Nat := n.whole.foldl (fun a d => 10 * a + d) 0
    if n.neg then
      if 0 < i && i ≤ 2 ^ 63 then .integer (-(i : Int)) else double
    else if i < 2 ^ 64 then .integer i
    else double
  | _, _ => double

end Numeral

end Chargeback.Json
