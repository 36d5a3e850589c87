import Chargeback.Causes
import Chargeback.Codec.Compression
import Chargeback.Config.Settings

/-!
# Validation of settings

A list of rules is checked in order, and the first that is broken is reported. Some rules hold
for every use of the settings, others for one mode of operation only.
-/

namespace Chargeback

/-- A rule about settings that is broken. -/
inductive SettingsFault where
  | interval
  | bufferInterval
  | severalFallbacks
  | rate (entry : Nat) (name : String)
  | mapping (e : MappingError)
  | httpAddress
  | httpQueue
  | httpBatch
  | httpWorkers
  | compression (name : String)
  | clickhouseEndpoint
  | clickhouseBatch
  | clickhouseQueue
  | clickhouseNames
  | podsPath
  | nodesPath
  | resyncInterval
  | noStrategy
  | noPricing
  | noClickhouse
  | maxBodyBytes
  deriving DecidableEq, Repr

/-- What is said about a broken rule in itself. -/
def SettingsFault.wording : SettingsFault → String
  | .interval => "interval must be positive"
  | .bufferInterval => "exporters.buffer.flush_interval must be positive"
  | .severalFallbacks => "pricing.entries may contain at most one entry without labels"
  | .rate i name => "pricing.entries[" ++ toString i ++ "]." ++ name ++
    " must be a non-negative number"
  | .mapping e => e.message
  | .httpAddress => "http address is required when enabled"
  | .httpQueue => "http max_queue_size must be positive when enabled"
  | .httpBatch => "http batch_size must be positive when enabled"
  | .httpWorkers => "http workers must be positive when enabled"
  | .compression name => "invalid compression type: " ++ name
  | .clickhouseEndpoint => "clickhouse endpoint is required when enabled"
  | .clickhouseBatch => "clickhouse batch_size must be positive when enabled"
  | .clickhouseQueue => "clickhouse max_queue_size must be positive when enabled"
  | .clickhouseNames => "clickhouse database and table must be plain identifiers"
  | .podsPath => "inventory.pods_path is required"
  | .nodesPath => "inventory.nodes_path is required"
  | .resyncInterval => "inventory.resync_interval must be positive"
  | .noStrategy => "at least one strategy is required"
  | .noPricing => "pricing.entries must not be empty"
  | .noClickhouse => "exporters.clickhouse must be enabled in aggregate mode"
  | .maxBodyBytes => "aggregate.max_body_bytes must be positive"

/-- What led to the fault; one in the mapping is found while that is checked as a whole. -/
def SettingsFault.causes (fault : SettingsFault) : Causes :=
  match fault with
  | .mapping _ => ["validating mapping.entries", fault.wording]
  | _ => [fault.wording]

/-- What is said about the fault. -/
def SettingsFault.message (fault : SettingsFault) : String := fault.causes.text

namespace Settings

/-- The fault, unless the condition holds. -/
def demand (holds : Bool) (fault : SettingsFault) : Except SettingsFault Unit :=
  if holds then .ok () else .error fault

/-- A rate at which something can be priced: finite and not below zero. -/
def isRate (x : Binary64) : Bool := x.isFinite && !x.lt .zero

/-- Every rate of every entry can be used. -/
def checkRates (t : PricingTable) : Except SettingsFault Unit :=
  t.entries.zipIdx.forM fun (e, i) =>
    e.namedRates.forM fun (name, rate) => demand (isRate rate) (.rate i name)

/-- The rules for delivery over HTTP. -/
def checkHttp (s : HttpSettings) : Except SettingsFault Unit := do
  demand (!s.address.isEmpty) .httpAddress
  demand (0 < s.maxQueueSize) .httpQueue
  demand (0 < s.batchSize) .httpBatch
  demand (0 < s.workers) .httpWorkers
  demand ((Codec.Compression.all.map (·.name)).contains s.compression) (.compression s.compression)

/-- The rules for storage in ClickHouse. -/
def checkClickHouse (s : ClickHouseSettings) : Except SettingsFault Unit := do
  demand (!s.endpoint.isEmpty) .clickhouseEndpoint
  demand (0 < s.batchSize) .clickhouseBatch
  demand (0 < s.maxQueueSize) .clickhouseQueue
  demand (isIdentifier s.database && isIdentifier s.table) .clickhouseNames

/-- The rules for every use. -/
def validate (s : Settings) : Except SettingsFault Unit := do
  demand (!s.interval.isZero) .interval
  demand (!s.exporters.bufferInterval.isZero) .bufferInterval
  demand (s.pricing.fallbackCount ≤ 1) .severalFallbacks
  checkRates s.pricing
  s.mapping.validate.mapError .mapping
  if s.exporters.http.enabled then checkHttp s.exporters.http
  if s.exporters.clickhouse.enabled then checkClickHouse s.exporters.clickhouse

/-- The further rules for collecting. -/
def validateCollect (s : Settings) : Except SettingsFault Unit := do
  demand (!s.inventory.podsPath.isEmpty) .podsPath
  demand (!s.inventory.nodesPath.isEmpty) .nodesPath
  demand (!s.inventory.resyncInterval.isZero) .resyncInterval
  demand (!s.strategies.isEmpty) .noStrategy
  demand (!s.pricing.entries.isEmpty) .noPricing

/-- The further rules for aggregating. -/
def validateAggregate (s : Settings) : Except SettingsFault Unit := do
  demand s.exporters.clickhouse.enabled .noClickhouse
  demand (0 < s.maxBodyBytes) .maxBodyBytes

end Settings

end Chargeback
