import Chargeback.Config.Validation
import Chargeback.Yaml.Decode

/-!
# The configuration document

Settings are written as a YAML document. Every section and every setting may be left out, and
names that are not known are ignored; a setting with a value of the wrong shape makes the whole
document unreadable.
-/

namespace Chargeback

open Yaml (Tree)
open Yaml.Tree (fields? text? bool? count? real? span? word? listOf? assocOf?)

/-- The section about health. -/
def HealthSettings.ofTree? (n : Tree) : Option HealthSettings := do
  let f ← fields? ["addr"] n
  let d : HealthSettings := default
  return { addr := ← f.optional? "addr" d.addr text? }

/-- The section about the inventory. -/
def InventorySettings.ofTree? (n : Tree) : Option InventorySettings := do
  let f ← fields? ["pods_path", "nodes_path", "resync_interval", "running_only"] n
  let d : InventorySettings := default
  return { podsPath := ← f.optional? "pods_path" d.podsPath text?
           nodesPath := ← f.optional? "nodes_path" d.nodesPath text?
           resyncInterval := ← f.optional? "resync_interval" d.resyncInterval span?
           runningOnly := ← f.optional? "running_only" d.runningOnly bool? }

/-- An entry of the pricing table. -/
def PricingEntry.ofTree? (n : Tree) : Option PricingEntry := do
  let cpu := "hourlyMilliCPUCostMicroCents"
  let memory := "hourlyMemoryByteCostMicroCents"
  let gpu := "hourlyGPUCostMicroCents"
  let f ← fields? ["labels", cpu, memory, gpu] n
  return { labels := ← f.optional? "labels" .empty (assocOf? text?)
           cpuRate := ← f.optional? cpu .zero real?
           memoryRate := ← f.optional? memory .zero real?
           gpuRate := ← f.optional? gpu .zero real? }

/-- The pricing table. -/
def PricingTable.ofTree? (n : Tree) : Option PricingTable := do
  let f ← fields? ["entries"] n
  return { entries := ← f.optional? "entries" [] (listOf? PricingEntry.ofTree?) }

/-- A rule of the mapping. -/
def MappingRule.ofTree? (n : Tree) : Option MappingRule := do
  let f ← fields? ["source", "destination", "default"] n
  return { source := ← f.required? "source" (word? fun s => (Path.read s).toOption)
           destination := ← f.required? "destination" text?
           default := ← f.optional? "default" "" text? }

/-- The mapping to dimensions. -/
def Mapping.ofTree? (n : Tree) : Option Mapping := do
  let f ← fields? ["entries"] n
  return { rules := ← f.optional? "entries" [] (listOf? MappingRule.ofTree?) }

/-- The section about delivery over HTTP. -/
def HttpSettings.ofTree? (n : Tree) : Option HttpSettings := do
  let f ← fields? ["enabled", "address", "headers", "compression", "batch_size", "batch_timeout",
    "export_timeout", "max_queue_size", "workers", "keep_alive"] n
  let d : HttpSettings := default
  return { enabled := ← f.optional? "enabled" d.enabled bool?
           address := ← f.optional? "address" d.address text?
           headers := ← f.optional? "headers" d.headers (assocOf? text?)
           compression := ← f.optional? "compression" d.compression text?
           batchSize := ← f.optional? "batch_size" d.batchSize count?
           batchTimeout := ← f.optional? "batch_timeout" d.batchTimeout span?
           exportTimeout := ← f.optional? "export_timeout" d.exportTimeout span?
           maxQueueSize := ← f.optional? "max_queue_size" d.maxQueueSize count?
           workers := ← f.optional? "workers" d.workers count?
           keepAlive := ← f.optional? "keep_alive" d.keepAlive bool? }

/-- The section about storage in ClickHouse. -/
def ClickHouseSettings.ofTree? (n : Tree) : Option ClickHouseSettings := do
  let f ← fields? ["enabled", "endpoint", "database", "table", "username", "password",
    "create_table", "batch_size", "flush_interval", "max_queue_size"] n
  let d : ClickHouseSettings := default
  return { enabled := ← f.optional? "enabled" d.enabled bool?
           endpoint := ← f.optional? "endpoint" d.endpoint text?
           database := ← f.optional? "database" d.database text?
           table := ← f.optional? "table" d.table text?
           username := ← f.optional? "username" d.username text?
           password := ← f.optional? "password" d.password text?
           createTable := ← f.optional? "create_table" d.createTable bool?
           batchSize := ← f.optional? "batch_size" d.batchSize count?
           flushInterval := ← f.optional? "flush_interval" d.flushInterval span?
           maxQueueSize := ← f.optional? "max_queue_size" d.maxQueueSize count? }

/-- A record with one field. -/
def oneField? {α : Type} (name : String) (missing : α) (decode : Tree → Option α) (n : Tree) :
    Option α := do
  let f ← fields? [name] n
  f.optional? name missing decode

/-- The section about exporters. -/
def ExporterSettings.ofTree? (n : Tree) : Option ExporterSettings := do
  let f ← fields? ["stats", "buffer", "http", "clickhouse"] n
  let d : ExporterSettings := default
  return { stats := ← f.optional? "stats" d.stats (oneField? "enabled" d.stats bool?)
           bufferInterval := ← f.optional? "buffer" d.bufferInterval
             (oneField? "flush_interval" d.bufferInterval span?)
           http := ← f.optional? "http" d.http HttpSettings.ofTree?
           clickhouse := ← f.optional? "clickhouse" d.clickhouse ClickHouseSettings.ofTree? }

namespace Settings

/-- The settings that a document stands for. -/
def ofTree? (n : Tree) : Option Settings := do
  let f ← fields? ["log_level", "interval", "health", "inventory", "strategies", "pricing",
    "mapping", "exporters", "aggregate"] n
  let d : Settings := default
  return { logLevel := ← f.optional? "log_level" d.logLevel text?
           interval := ← f.optional? "interval" d.interval span?
           health := ← f.optional? "health" d.health HealthSettings.ofTree?
           inventory := ← f.optional? "inventory" d.inventory InventorySettings.ofTree?
           strategies := ← f.optional? "strategies" d.strategies
             (listOf? (word? Strategy.ofName?))
           pricing := ← f.optional? "pricing" d.pricing PricingTable.ofTree?
           mapping := ← f.optional? "mapping" d.mapping Mapping.ofTree?
           exporters := ← f.optional? "exporters" d.exporters ExporterSettings.ofTree?
           maxBodyBytes := ← f.optional? "aggregate" d.maxBodyBytes
             (oneField? "max_body_bytes" d.maxBodyBytes count?) }

end Settings

/-- Why a configuration file cannot be used. -/
inductive ConfigError where
  /-- There is no such file, or it does not hold a text. -/
  | reading (path : String)
  /-- The text is not a document of settings. -/
  | parsing (path : String)
  /-- A rule is broken. -/
  | invalid (fault : SettingsFault)
  deriving DecidableEq, Repr

/-- What led to the error. -/
def ConfigError.causes : ConfigError → Causes
  | .reading path => ["reading config file " ++ path]
  | .parsing path => ["parsing config file " ++ path]
  | .invalid fault => fault.causes

/-- What is said about the error. -/
def ConfigError.message (e : ConfigError) : String := e.causes.text

namespace Settings

/-- The settings in a file with the content given; `none` stands for a file that is missing or
does not hold a text. -/
def load [Yaml.Reader] (path : String) (content : Option String) : Except ConfigError Settings :=
  match content with
  | none => .error (.reading path)
  | some text => match (Yaml.Reader.read? text).bind ofTree? with
    | none => .error (.parsing path)
    | some s => match s.validate with
      | .error fault => .error (.invalid fault)
      | .ok () => .ok s

end Settings

end Chargeback
