import Chargeback.Dimension.Mapping
import Chargeback.Metric.Exposition
import Chargeback.Metric.Tally
import Chargeback.Record.Basic

/-!
# The metrics of a process

One value holds every number that a process publishes about itself, and, once a cost counter
was registered, the cost attributed so far. Each happening that is counted has an operation
here; whoever counts applies it, and nothing else changes the numbers.

Three families have no label and are always published. A family with labels is published once
one of its label values was touched.
-/

namespace Chargeback

/-- The cost attributed so far, by kind, strategy and the values of the dimensions named. -/
structure CostCounter where
  dimensions : List String
  series : List (List String × Binary64)
  deriving DecidableEq, Repr

namespace CostCounter

/-- The names of all labels in the order of the label values. -/
def labelNames (c : CostCounter) : List String := "kind" :: "strategy" :: c.dimensions

/-- The label values of a record: a dimension that it lacks is the empty text. -/
def labelValues (c : CostCounter) (r : CostRecord) : List String :=
  r.kind.name :: r.strategy :: c.dimensions.map fun d => (r.dimensions.get? d).getD ""

/-- Adds to the series with the label values given. -/
def bump (values : List String) (x : Binary64) :
    List (List String × Binary64) → List (List String × Binary64)
  | [] => [(values, Binary64.zero + x)]
  | s :: r => if s.1 = values then (values, s.2 + x) :: r else s :: bump values x r

/-- Adds a record that is not negative. -/
def add (c : CostCounter) (r : CostRecord) : CostCounter :=
  { c with series := bump (c.labelValues r) (Binary64.ofInt r.value) c.series }

/-- Label names must be plain identifiers and differ from one another. -/
def namesAreSound (names : List String) : Bool :=
  names.all isIdentifier && decide names.Nodup

end CostCounter

/-- Everything a process publishes about itself. -/
structure Metrics where
  cycles : Tally
  lag : Binary64
  cycleDuration : Histogram
  costItems : Tally
  exportErrors : Tally
  bufferedRecords : Tally
  bufferFlushes : Binary64
  batchDuration : Assoc Histogram
  syncErrors : Tally
  objects : Tally
  consumed : Tally
  costs : Option CostCounter
  deriving DecidableEq, Repr

namespace Metrics

/-! ## Nothing counted yet -/

/-- The number of milliseconds given, in seconds. -/
def thousandths (n : Nat) : Binary64 := Binary64.ofNat n / Binary64.ofNat 1000

/-- The bounds for the duration of a cycle. -/
def cycleBounds : List Binary64 :=
  [1, 5, 10, 50, 100, 250, 500, 1000, 2500, 5000].map thousandths

/-- The bounds for the duration of one batch write. -/
def batchBounds : List Binary64 :=
  [5, 10, 50, 100, 250, 500, 1000, 2500, 5000, 10000].map thousandths

/-- The metrics of a process that has done nothing yet. -/
def fresh : Metrics where
  cycles := .empty
  lag := .zero
  cycleDuration := .ofBounds cycleBounds
  costItems := .empty
  exportErrors := .empty
  bufferedRecords := .empty
  bufferFlushes := .zero
  batchDuration := .empty
  syncErrors := .empty
  objects := .empty
  consumed := .empty
  costs := none

instance : Inhabited Metrics := ⟨fresh⟩

/-! ## Happenings -/

/-- A cycle ended after some number of seconds. -/
def cycleEnded (succeeded : Bool) (took : Binary64) (m : Metrics) : Metrics :=
  { m with
    cycles := m.cycles.addCount (if succeeded then "succeeded" else "failed") 1
    cycleDuration := m.cycleDuration.observe took }

/-- A strategy gave an item. -/
def itemPriced (strategy : String) (m : Metrics) : Metrics :=
  { m with costItems := m.costItems.addCount strategy 1 }

/-- The lag of a cycle behind its schedule was measured. -/
def lagMeasured (millis : Int) (m : Metrics) : Metrics := { m with lag := Binary64.ofInt millis }

/-- An exporter gave up records. -/
def recordsLost (exporter : String) (n : Nat) (m : Metrics) : Metrics :=
  { m with exportErrors := m.exportErrors.addCount exporter n }

/-- The buffer in front of an exporter has a new size. -/
def buffered (exporter : String) (n : Nat) (m : Metrics) : Metrics :=
  { m with bufferedRecords := m.bufferedRecords.set exporter (Binary64.ofNat n) }

/-- A buffer was flushed. -/
def bufferFlushed (m : Metrics) : Metrics :=
  { m with bufferFlushes := m.bufferFlushes + Binary64.ofNat 1 }

/-- An exporter wrote one batch, in some number of seconds. -/
def batchWritten (exporter : String) (took : Binary64) (m : Metrics) : Metrics :=
  let h := (m.batchDuration.get? exporter).getD (.ofBounds batchBounds)
  { m with batchDuration := m.batchDuration.put exporter (h.observe took) }

/-- A snapshot was loaded with some number of objects. -/
def snapshotLoaded (source : String) (n : Nat) (m : Metrics) : Metrics :=
  { m with objects := m.objects.set source (Binary64.ofNat n) }

/-- Loading a snapshot again failed. -/
def snapshotFailed (source : String) (m : Metrics) : Metrics :=
  { m with syncErrors := m.syncErrors.addCount source 1 }

/-- Records received over the wire met some end. -/
def consumedAs (status : String) (n : Nat) (m : Metrics) : Metrics :=
  { m with consumed := m.consumed.addCount status n }

/-- Cost was attributed; a negative amount cannot be counted and is an error of the exporter. -/
def costAttributed (exporter : String) (r : CostRecord) (m : Metrics) : Metrics :=
  if r.value < 0 then m.recordsLost exporter 1
  else { m with costs := m.costs.map (·.add r) }

/-- Why a cost counter was not registered. -/
inductive RegistrationError where
  | unsoundLabels
  | alreadyRegistered
  deriving DecidableEq, Repr

/-- What is said about the fault. -/
def RegistrationError.message : RegistrationError → String
  | .unsoundLabels => "creating cost counter"
  | .alreadyRegistered => "registering cost counter"

/-- Registers the cost counter with one label for every dimension. -/
def registerCosts (dimensions : List String) (m : Metrics) : Except RegistrationError Metrics :=
  if !CostCounter.namesAreSound ("kind" :: "strategy" :: dimensions) then .error .unsoundLabels
  else if m.costs.isSome then .error .alreadyRegistered
  else .ok { m with costs := some ⟨dimensions, []⟩ }

/-! ## Publication -/

/-- The full name of a family. -/
def familyName (name : String) : String := "costmeter_" ++ name

/-- The series of a tally. -/
def tallySeries (label : String) (t : Tally) : List (Labels × Reading) :=
  t.entries.map fun (v, x) => (Assoc.empty.put label v, .number x)

/-- A series without labels. -/
def alone (r : Reading) : List (Labels × Reading) := [(Assoc.empty, r)]

/-- The order of the series of one family: by the values of the labels, which are the same
labels for all of them. -/
def inOrder (a b : Labels × Reading) : Bool :=
  let values (l : Labels) : List String := l.entries.map (·.2)
  !decide (values b.1 < values a.1)

/-- The series of the cost counter. -/
def costSeries (c : CostCounter) : List (Labels × Reading) :=
  (c.series.map fun (vs, x) => (Assoc.ofList (c.labelNames.zip vs), .number x)).mergeSort inOrder

/-- The families with a reading, in the order of their names. -/
def families (m : Metrics) : List Family :=
  let family (name help : String) (kind : MetricKind) (series : List (Labels × Reading)) : Family :=
    { name := familyName name, help, kind, series }
  let all := [
    family "aggregate_consumed_total" "Cost records ingested in aggregate mode by status." .counter
      (tallySeries "status" m.consumed),
    family "buffer_flushes_total" "Total buffering exporter flushes." .counter
      (alone (.number m.bufferFlushes)),
    family "buffered_records" "Merged cost records waiting for the next flush." .gauge
      (tallySeries "exporter" m.bufferedRecords),
    family "cost_items_total" "Cost items generated by strategy." .counter
      (tallySeries "strategy" m.costItems),
    family "cost_microcents_total" "Attributed cost in micro-cents." .counter
      ((m.costs.map costSeries).getD []),
    family "cycle_duration_seconds" "Duration of one calculation cycle including export."
      .histogram (alone (.histogram m.cycleDuration)),
    family "cycles_total" "Cost calculation cycles by status." .counter
      (tallySeries "status" m.cycles),
    family "export_batch_duration_seconds" "Duration of one downstream batch write." .histogram
      (m.batchDuration.entries.map fun (v, h) => (Assoc.empty.put "exporter" v, .histogram h)),
    family "export_errors_total" "Cost records dropped due to exporter errors." .counter
      (tallySeries "exporter" m.exportErrors),
    family "inventory_objects" "Objects cached per inventory source." .gauge
      (tallySeries "source" m.objects),
    family "inventory_sync_errors_total" "Failed inventory snapshot reloads by source." .counter
      (tallySeries "source" m.syncErrors),
    family "lag_milliseconds" "Lag between the configured and actual calculation interval." .gauge
      (alone (.number m.lag))]
  all.filter fun f => !f.series.isEmpty

/-- The published text. -/
def render (m : Metrics) : String := Exposition.render m.families

end Metrics

end Chargeback
