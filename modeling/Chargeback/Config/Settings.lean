import Chargeback.Dimension.Mapping
import Chargeback.Pricing.Filter
import Chargeback.Pricing.Strategy
import Chargeback.Pricing.Table
import Chargeback.Time.Span

/-!
# Settings

Everything that can be configured, with the value that each setting has when it is not
mentioned.
-/

namespace Chargeback

/-- Where the health endpoints listen. -/
structure HealthSettings where
  addr : String := ":5000"
  deriving DecidableEq, Repr, Inhabited

/-- Where the inventory comes from. -/
structure InventorySettings where
  podsPath : String := ""
  nodesPath : String := ""
  resyncInterval : Span := .ofSeconds 30
  runningOnly : Bool := true
  deriving DecidableEq, Repr, Inhabited

/-- The filters that workloads must pass. -/
def InventorySettings.filters (s : InventorySettings) : List WorkloadFilter :=
  if s.runningOnly then [.running] else []

/-- Delivery of records to a collector over HTTP. -/
structure HttpSettings where
  enabled : Bool := false
  address : String := ""
  headers : Labels := .empty
  compression : String := "gzip"
  batchSize : Nat := 512
  batchTimeout : Span := .ofSeconds 5
  exportTimeout : Span := .ofSeconds 30
  maxQueueSize : Nat := 8192
  workers : Nat := 1
  keepAlive : Bool := true
  deriving DecidableEq, Repr, Inhabited

/-- Storage of records in a ClickHouse table. -/
structure ClickHouseSettings where
  enabled : Bool := false
  endpoint : String := ""
  database : String := "default"
  table : String := "costs"
  username : String := ""
  password : String := ""
  createTable : Bool := true
  batchSize : Nat := 1000
  flushInterval : Span := .ofSeconds 1
  maxQueueSize : Nat := 8192
  deriving DecidableEq, Repr, Inhabited

/-- The table's name with that of its database. -/
def ClickHouseSettings.qualifiedTable (s : ClickHouseSettings) : String :=
  s.database ++ "." ++ s.table

/-- Where cost records go. -/
structure ExporterSettings where
  stats : Bool := true
  bufferInterval : Span := .ofSeconds 300
  http : HttpSettings := default
  clickhouse : ClickHouseSettings := default
  deriving DecidableEq, Repr, Inhabited

/-- Everything that can be configured. -/
structure Settings where
  logLevel : String := "info"
  interval : Span := .ofSeconds 10
  health : HealthSettings := default
  inventory : InventorySettings := default
  strategies : List Strategy := Strategy.all
  pricing : PricingTable := default
  mapping : Mapping := default
  exporters : ExporterSettings := default
  /-- The largest body accepted from a collector, before and after decompression. -/
  maxBodyBytes : Nat := 16 * 1024 * 1024
  deriving DecidableEq, Repr, Inhabited

end Chargeback
