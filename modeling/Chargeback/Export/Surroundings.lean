import Chargeback.Causes
import Chargeback.Export.Database
import Chargeback.Export.Post
import Chargeback.Metric.Metrics

/-!
# What exporters work with

The metrics of the process, the database and the collector that records go to, the clock, and the
memory that there is.
-/

namespace Chargeback

/-- What exporters work with. -/
structure Surroundings where
  metrics : Metrics
  database : Database
  collector : Collector
  /-- Nanoseconds since the process began. -/
  now : Nat
  /-- The most records that memory can be set aside for at once. -/
  room : Nat := 2 ^ 40
  deriving DecidableEq, Repr

namespace Surroundings

/-- Sends a batch to the collector. -/
def deliver [Codec.Codecs] (settings : HttpSettings) (rs : List CostRecord) (s : Surroundings) :
    Bool × Surroundings :=
  let (accepted, collector) := s.collector.deliver settings rs
  (accepted, { s with collector })

/-- Executes a statement in the database. -/
def execute (statement : String) (s : Surroundings) : Bool × Surroundings :=
  let (succeeded, database) := s.database.execute statement
  (succeeded, { s with database })

end Surroundings

/-- The most permits of a semaphore. A queue has one for every place in it. -/
def permitLimit : Nat := 2 ^ 61 - 1

/-- Why an exporter could not be started, stopped or used. -/
inductive ExporterFault where
  | queueSize
  | workerCount
  /-- A semaphore with more permits than there can be is a panic, which ends the caller, too. -/
  | tooManyPermits
  | joiningDelivery
  | connecting (endpoint : String)
  | creatingTable (table : String)
  | alreadyInserting
  | notInserting
  | sendingBatch
  | joiningInsertion
  | alreadyBuffering
  | downstream (e : ExporterFault)
  | joiningBuffering
  deriving DecidableEq, Repr

/-- What led to the fault. -/
def ExporterFault.causes : ExporterFault → Causes
  | .queueSize => ["http max_queue_size must be positive"]
  | .workerCount => ["http workers must be positive"]
  | .tooManyPermits =>
    ["a semaphore may not have more than MAX_PERMITS permits (" ++ toString permitLimit ++ ")"]
  | .joiningDelivery => ["joining HTTP exporter task"]
  | .connecting endpoint => ["connecting to ClickHouse at " ++ endpoint]
  | .creatingTable table => ["creating table " ++ table]
  | .alreadyInserting => ["ClickHouse exporter already started"]
  | .notInserting => ["ClickHouse exporter not started"]
  | .sendingBatch => ["sending cost batch"]
  | .joiningInsertion => ["joining ClickHouse exporter task"]
  | .alreadyBuffering => ["buffering exporter already started"]
  | .downstream e => "starting downstream exporter" :: e.causes
  | .joiningBuffering => ["joining buffering exporter task"]

/-- What is said about the fault. -/
def ExporterFault.message (fault : ExporterFault) : String := fault.causes.text

/-- How starting, stopping or using an exporter ended. -/
abbrev ExporterOutcome := Except ExporterFault Unit

end Chargeback
