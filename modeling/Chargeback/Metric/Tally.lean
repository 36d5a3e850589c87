import Chargeback.Assoc
import Chargeback.Number.Binary64

/-!
# Tallies — numbers under one label

A tally keeps one number for every value of a label. A label value enters the tally when it is
first touched, be it with a zero.
-/

namespace Chargeback

/-- Numbers by the value of one label. -/
abbrev Tally := Assoc Binary64

namespace Tally

/-- The number under a label value; one that was never touched counts as zero. -/
def read (label : String) (t : Tally) : Binary64 := (t.get? label).getD .zero

/-- Adds to the number under a label value. -/
def add (label : String) (x : Binary64) (t : Tally) : Tally := t.put label (t.read label + x)

/-- Adds a count. -/
def addCount (label : String) (n : Nat) (t : Tally) : Tally := t.add label (Binary64.ofNat n)

/-- Enters a label value without changing its number. -/
def touch (label : String) (t : Tally) : Tally := t.put label (t.read label)

/-- Replaces the number under a label value. -/
def set (label : String) (x : Binary64) (t : Tally) : Tally := t.put label x

end Tally

end Chargeback
