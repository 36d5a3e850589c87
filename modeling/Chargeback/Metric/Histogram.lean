import Chargeback.Number.Binary64

/-!
# Histograms

A histogram counts observations by the first of its increasing bounds that they do not exceed;
an observation above every bound, or one that is no number at all, enters only the total.
-/

namespace Chargeback

/-- A bound and the number of observations for which it is the first that they do not exceed. -/
structure Bucket where
  bound : Binary64
  count : Nat
  deriving DecidableEq, Repr

/-- Observations counted by size. -/
structure Histogram where
  buckets : List Bucket
  total : Nat
  sum : Binary64
  deriving DecidableEq, Repr

namespace Histogram

/-- Counts one observation in the first bucket whose bound it does not exceed. -/
def countIn (x : Binary64) : List Bucket → List Bucket
  | [] => []
  | b :: bs => if x.le b.bound then { b with count := b.count + 1 } :: bs else b :: countIn x bs

/-- The histogram without observations. -/
def ofBounds (bounds : List Binary64) : Histogram :=
  { buckets := bounds.map fun b => ⟨b, 0⟩, total := 0, sum := .zero }

/-- One more observation. -/
def observe (x : Binary64) (h : Histogram) : Histogram :=
  { buckets := countIn x h.buckets, total := h.total + 1, sum := h.sum + x }

/-- Running totals of the buckets: the bound and how many observations do not exceed it. -/
def cumulative (n : Nat) : List Bucket → List (Binary64 × Nat)
  | [] => []
  | b :: bs => (b.bound, n + b.count) :: cumulative (n + b.count) bs

@[simp] theorem total_observe (x : Binary64) (h : Histogram) :
    (h.observe x).total = h.total + 1 := rfl

end Histogram

end Chargeback
