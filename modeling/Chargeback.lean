import Chargeback.Agent.Aggregating
import Chargeback.Agent.Collecting
import Chargeback.Agent.Process
import Chargeback.Agent.TaskGroup
import Chargeback.Assoc
import Chargeback.Causes
import Chargeback.Codec.Bytes
import Chargeback.Codec.Compression
import Chargeback.Codec.Deflate
import Chargeback.Codec.Entropy
import Chargeback.Codec.Gzip
import Chargeback.Codec.Snappy
import Chargeback.Codec.Standard
import Chargeback.Codec.Zstd
import Chargeback.CommandLine.Invocation
import Chargeback.CommandLine.Program
import Chargeback.Config.Document
import Chargeback.Config.Settings
import Chargeback.Config.Validation
import Chargeback.Cycle.Coster
import Chargeback.Cycle.Emission
import Chargeback.Datum
import Chargeback.Datum.Decode
import Chargeback.Dimension.Mapping
import Chargeback.Dimension.Path
import Chargeback.Dimension.View
import Chargeback.Export.Buffering
import Chargeback.Export.ClickHouse
import Chargeback.Export.Database
import Chargeback.Export.Delivery
import Chargeback.Export.Exporter
import Chargeback.Export.Http
import Chargeback.Export.Insertion
import Chargeback.Export.MergeBuffer
import Chargeback.Export.Post
import Chargeback.Export.Sql
import Chargeback.Export.Surroundings
import Chargeback.Inventory.Basic
import Chargeback.Inventory.Manifest
import Chargeback.Inventory.Quantity
import Chargeback.Inventory.Snapshot
import Chargeback.Json.Document
import Chargeback.Json.Numeral
import Chargeback.Json.Printed
import Chargeback.Json.Token
import Chargeback.Log.Entry
import Chargeback.Log.Filter
import Chargeback.Main
import Chargeback.Metric.Exposition
import Chargeback.Metric.Histogram
import Chargeback.Metric.Metrics
import Chargeback.Metric.Tally
import Chargeback.Net.Bind
import Chargeback.Net.Url
import Chargeback.Number.Amount
import Chargeback.Number.Binary64
import Chargeback.Number.Decimal
import Chargeback.Number.Power
import Chargeback.Pricing.Allocation
import Chargeback.Pricing.Filter
import Chargeback.Pricing.Strategy
import Chargeback.Pricing.Table
import Chargeback.Proofs.AllocationTable
import Chargeback.Proofs.BatchLines
import Chargeback.Proofs.BilledTime
import Chargeback.Proofs.BufferedCosts
import Chargeback.Proofs.CalendarDays
import Chargeback.Proofs.Calls
import Chargeback.Proofs.CodecRoundTrip
import Chargeback.Proofs.Conservation
import Chargeback.Proofs.CostSeries
import Chargeback.Proofs.CostSigns
import Chargeback.Proofs.Counting
import Chargeback.Proofs.CycleLag
import Chargeback.Proofs.CycleOutcome
import Chargeback.Proofs.DatabaseLogin
import Chargeback.Proofs.DeliveryBacklog
import Chargeback.Proofs.DeliveryFlow
import Chargeback.Proofs.DeliveryHistory
import Chargeback.Proofs.DigitText
import Chargeback.Proofs.DimensionSchema
import Chargeback.Proofs.ExporterService
import Chargeback.Proofs.GroupOutcome
import Chargeback.Proofs.HttpDelivery
import Chargeback.Proofs.IngestLedger
import Chargeback.Proofs.InsertionFlow
import Chargeback.Proofs.InsertionHistory
import Chargeback.Proofs.InstantText
import Chargeback.Proofs.InventoryOrder
import Chargeback.Proofs.JsonReading
import Chargeback.Proofs.KeyedSum
import Chargeback.Proofs.LastEntries
import Chargeback.Proofs.MergeLaw
import Chargeback.Proofs.MetadataPaths
import Chargeback.Proofs.NodeAccount
import Chargeback.Proofs.NodeShares
import Chargeback.Proofs.NodeTenancy
import Chargeback.Proofs.PathCuts
import Chargeback.Proofs.PathFaults
import Chargeback.Proofs.PathGrammar
import Chargeback.Proofs.Pipeline
import Chargeback.Proofs.PricedInventory
import Chargeback.Proofs.QuantityExactness
import Chargeback.Proofs.QuantityNotation
import Chargeback.Proofs.QuantityScaling
import Chargeback.Proofs.RequestUnits
import Chargeback.Proofs.RoundingError
import Chargeback.Proofs.RunHistory
import Chargeback.Proofs.SnapshotHistory
import Chargeback.Proofs.StageShutdown
import Chargeback.Proofs.StatementColumns
import Chargeback.Proofs.StatementReading
import Chargeback.Proofs.TableInsertion
import Chargeback.Proofs.TextBytes
import Chargeback.Proofs.TextSpan
import Chargeback.Proofs.ValidatedSettings
import Chargeback.Proofs.WireRoundTrip
import Chargeback.Record.Basic
import Chargeback.Record.Listing
import Chargeback.Record.Ndjson
import Chargeback.Serve.Ingest
import Chargeback.Serve.Service
import Chargeback.Text.Blank
import Chargeback.Text.Quoted
import Chargeback.Text.Utf8
import Chargeback.Text.Visible
import Chargeback.Time.Instant
import Chargeback.Time.Rfc3339
import Chargeback.Time.Span
import Chargeback.Yaml.Cursor
import Chargeback.Yaml.Decode
import Chargeback.Yaml.Reading
import Chargeback.Yaml.Scalar
import Chargeback.Yaml.Token
import Chargeback.Yaml.Tree
import Chargeback.Yaml.Value
