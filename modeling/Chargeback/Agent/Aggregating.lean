import Chargeback.Agent.Process

/-!
# Aggregating

A process that aggregates receives records and stores them in ClickHouse, past any buffer, until
it is told to shut down.
-/

namespace Chargeback.Aggregating

/-- Starts the exporter, serves requests until the shutdown, and stops the exporter. -/
def run [Codec.Codecs] (shutdown : Shutdown) (s : Settings) : Work Unit := do
  Work.expect .settings s.validateAggregate
  let exporter := Exporter.clickhouse (.fresh s.exporters.clickhouse s.mapping.destinations)
  let exporter ← Work.startOr [] "ClickHouse" exporter
  let server ← Work.listen "server" s.health.addr
  if server.waits then Work.hear shutdown
  Work.shutDown [exporter]
  Work.say ["agent"] "aggregator stopped"
  Work.conclude [server]

end Chargeback.Aggregating
