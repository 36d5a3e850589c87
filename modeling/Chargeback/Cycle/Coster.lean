import Chargeback.Config.Settings
import Chargeback.Dimension.View
import Chargeback.Metric.Metrics

/-!
# Costing cycles

A cycle lists the inventory, prices it for the time since the last cycle and turns every item
into a record. The first cycle covers one configured interval. A cycle fails if the inventory
cannot be listed, or if no time has passed since the last one that succeeded; then it leaves
nothing behind but the count of failures.
-/

namespace Chargeback

/-- What a coster is doing. -/
inductive CyclePhase where
  | idle
  | calculating
  | exporting
  deriving DecidableEq, Repr

/-- The word for the phase. -/
def CyclePhase.name : CyclePhase → String
  | .idle => "Idle"
  | .calculating => "Calculating"
  | .exporting => "Exporting"

/-- Prices the inventory again and again. -/
structure Coster where
  interval : Span
  table : PricingTable
  mapping : Mapping
  strategies : List Strategy
  filters : List WorkloadFilter
  phase : CyclePhase := .idle
  /-- The time of the last cycle that succeeded. -/
  lastRun : Option Instant := none
  deriving DecidableEq, Repr

/-- Why a cycle failed. -/
inductive CycleFault where
  | listingWorkloads (cause : String)
  | listingNodes (cause : String)
  | senselessInterval
  deriving DecidableEq, Repr

/-- What is said about the fault. -/
def CycleFault.message : CycleFault → String
  | .listingWorkloads cause => "listing workloads: " ++ cause
  | .listingNodes cause => "listing nodes: " ++ cause
  | .senselessInterval => PricingError.senselessInterval.message

/-- What a cycle is given: its time, what the inventory answered, and how many seconds the cycle
takes by the clock. -/
structure CycleInput where
  now : Instant
  workloads : Except String (List Workload)
  nodes : Except String (List Node)
  took : Binary64 := .zero
  deriving Repr

namespace Coster

/-- A coster as configured. -/
def ofSettings (s : Settings) : Coster where
  interval := s.interval
  table := s.pricing
  mapping := s.mapping
  strategies := s.strategies
  filters := s.inventory.filters

/-! ## Time -/

/-- The time that a cycle covers. -/
def elapsed (c : Coster) (now : Instant) : Except CycleFault Span :=
  match c.lastRun with
  | none => .ok c.interval
  | some last =>
    let nanos := now.nanosSince last
    if nanos ≤ 0 then .error .senselessInterval else .ok ⟨nanos.toNat⟩

/-- The residue of an integer in the range of signed sixty-four bit words. -/
def wrap (i : Int) : Int := i.bmod (2 ^ 64)

/-- By how many milliseconds a span differs from the configured interval, in sixty-four bits. -/
def lagBehind (interval elapsed : Span) : Int := wrap (wrap elapsed.millis - wrap interval.millis)

/-- The lag of a cycle; the first has none. -/
def lag? (c : Coster) (elapsed : Span) : Option Int :=
  c.lastRun.map fun _ => lagBehind c.interval elapsed

/-! ## One cycle -/

/-- The record of an item. -/
def toRecord (c : Coster) (now : Instant) (i : CostItem) : CostRecord where
  kind := i.kind
  strategy := i.strategy
  value := i.value
  dimensions := c.mapping.apply i.view
  endTime := now

/-- What a cycle that succeeds brings about. -/
structure Priced where
  elapsed : Span
  items : List CostItem
  records : List CostRecord

/-- Prices the inventory, unless the cycle fails. -/
def price (c : Coster) (input : CycleInput) : Except CycleFault Priced := do
  let workloads ← input.workloads.mapError .listingWorkloads
  let nodes ← input.nodes.mapError .listingNodes
  let elapsed ← c.elapsed input.now
  let items := calculate c.strategies c.table elapsed (WorkloadFilter.keep c.filters workloads) nodes
  return { elapsed, items, records := items.map (c.toRecord input.now) }

/-- The metrics after an inventory was priced. -/
def publish (c : Coster) (p : Priced) (m : Metrics) : Metrics :=
  let m := match c.lag? p.elapsed with
    | some lag => m.lagMeasured lag
    | none => m
  p.items.foldl (fun m i => m.itemPriced i.strategy) m

/-- One cycle: the records for the exporters, or why it failed. -/
def cycle (c : Coster) (input : CycleInput) (m : Metrics) :
    Except CycleFault (List CostRecord) × Coster × Metrics :=
  match { c with phase := .calculating }.price input with
  | .error fault => (.error fault, { c with phase := .idle }, m.cycleEnded false input.took)
  | .ok p =>
    (.ok p.records, { c with phase := .idle, lastRun := some input.now },
      (c.publish p m).cycleEnded true input.took)

end Coster

end Chargeback
