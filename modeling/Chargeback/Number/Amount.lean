import Chargeback.Number.Binary64

/-!
# Amounts — the range of signed sixty-four bit integers

An amount is an integer of core held inside the range `-2 ^ 63 … 2 ^ 63 - 1`. Sums that would
leave the range STOP at its ends, and a conversion from a wider number stops there too
(`clamp`, `ofBinary64`).
-/

namespace Chargeback.Amount

/-- The least amount. -/
def least : Int := -2 ^ 63

/-- The greatest amount. -/
def greatest : Int := 2 ^ 63 - 1

/-- The integer is an amount. -/
def InRange (i : Int) : Prop := least ≤ i ∧ i ≤ greatest

instance (i : Int) : Decidable (InRange i) := inferInstanceAs (Decidable (_ ∧ _))

/-- The nearest amount. -/
def clamp (i : Int) : Int := max least (min i greatest)

/-- A sum that stops at the ends of the range. -/
def add (a b : Int) : Int := clamp (a + b)

/-- Cut toward zero and stopped at the ends of the range; no number at all counts as zero. -/
def ofBinary64 : Binary64 → Int
  | .nan => 0
  | .infinite neg => if neg then least else greatest
  | .finite neg u =>
    let q : Int := (u / Binary64.unitsPerOne : Nat)
    clamp (if neg then -q else q)

theorem clamp_of_inRange {i : Int} (h : InRange i) : clamp i = i := by
  unfold InRange at h; unfold clamp; omega

theorem inRange_clamp (i : Int) : InRange (clamp i) := by
  unfold InRange clamp least greatest; omega

theorem clamp_nonneg {i : Int} (h : 0 ≤ i) : 0 ≤ clamp i := by
  unfold clamp least greatest; omega

end Chargeback.Amount
