import Chargeback.Assoc
import Chargeback.Number.Amount
import Chargeback.Time.Span

/-!
# Pricing tables

A pricing entry holds hourly rates, in millionths of a cent, for the nodes that carry all of
its labels. A table is an ordered list of entries and the FIRST entry that fits a node counts,
even where a later one has more labels.
-/

namespace Chargeback

/-- Every pair of the selector occurs in the labels; the empty selector fits everything. -/
def Labels.fits (selector labels : Labels) : Bool :=
  selector.entries.all fun e => labels.get? e.1 == some e.2

/-- Why nothing could be priced. -/
inductive PricingError where
  | noEntry
  | senselessInterval
  deriving DecidableEq, Repr

/-- What is said about the fault. -/
def PricingError.message : PricingError → String
  | .noEntry => "could not find an appropriate cost entry"
  | .senselessInterval => "senseless interval since last calculation"

/-- Hourly rates for one class of nodes: per milli-CPU, per byte of memory and per GPU. -/
structure PricingEntry where
  labels : Labels := .empty
  cpuRate : Binary64 := .zero
  memoryRate : Binary64 := .zero
  gpuRate : Binary64 := .zero
  deriving DecidableEq, Repr, Inhabited

/-- The cost of a quantity held for a span at an hourly rate, cut toward zero to a whole amount.
The span counts as a fraction of an hour, and the three steps are rounded in this order. -/
def costOf (quantity : Binary64) (span : Span) (rate : Binary64) : Int :=
  let hours := Binary64.ofNat span.nanos / Binary64.ofNat (3600 * Span.perSecond)
  Amount.ofBinary64 (quantity * hours * rate)

namespace PricingEntry

/-- The entry is for nodes with these labels. -/
def fits (e : PricingEntry) (labels : Labels) : Bool := Labels.fits e.labels labels

/-- The cost of milli-CPU. -/
def cpuCost (e : PricingEntry) (milli : Binary64) (span : Span) : Int := costOf milli span e.cpuRate

/-- The cost of bytes of memory. -/
def memoryCost (e : PricingEntry) (bytes : Binary64) (span : Span) : Int :=
  costOf bytes span e.memoryRate

/-- The cost of whole GPUs. -/
def gpuCost (e : PricingEntry) (gpus : Binary64) (span : Span) : Int := costOf gpus span e.gpuRate

/-- The three rates with the names under which they are configured. -/
def namedRates (e : PricingEntry) : List (String × Binary64) :=
  [("hourlyMilliCPUCostMicroCents", e.cpuRate), ("hourlyMemoryByteCostMicroCents", e.memoryRate),
    ("hourlyGPUCostMicroCents", e.gpuRate)]

end PricingEntry

/-- An ordered list of pricing entries. -/
structure PricingTable where
  entries : List PricingEntry := []
  deriving DecidableEq, Repr, Inhabited

namespace PricingTable

/-- The first entry for nodes with these labels. -/
def find (t : PricingTable) (labels : Labels) : Except PricingError PricingEntry :=
  match t.entries.find? (·.fits labels) with
  | some e => .ok e
  | none => .error .noEntry

/-- The number of entries for all nodes. -/
def fallbackCount (t : PricingTable) : Nat := t.entries.countP (·.labels.isEmpty)

end PricingTable

end Chargeback
