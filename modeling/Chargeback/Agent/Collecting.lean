import Chargeback.Agent.Process
import Chargeback.Inventory.Snapshot

/-!
# Collecting

A process that collects keeps the inventory up to date, prices it once in every interval and
hands the records to the exporters configured, until it is told to shut down. It ends at once if
the inventory cannot be loaded for the first time, or if its address cannot be listened on; the
records that are buffered then are exported all the same.
-/

namespace Chargeback

/-- A process that collects. -/
structure Collecting where
  coster : Coster
  exporters : List Exporter
  pods : SnapshotCache Workload
  nodes : SnapshotCache Node
  /-- The tasks, of which each waits for the shutdown unless it has failed. -/
  tasks : List Task

namespace Collecting

variable [Codec.Codecs] [Yaml.Reader]

/-- Loads a snapshot for the first time, and the task that keeps it up to date. -/
def loadFirst {α : Type} (kind : SnapshotKind α) (path : String) :
    Work (SnapshotCache α × Task) := do
  let content := (← get).files path
  let (result, cache) ← Work.inAround fun s =>
    let (result, cache, metrics) :=
      (SnapshotCache.fresh kind.source).sync kind path content s.metrics
    ((result, cache), { s with metrics })
  match result with
  | .ok _ =>
    Work.say ["inventory", "snapshot"] "inventory cache synced"
    return (cache, { name := kind.source, waits := true, ends := .ok })
  | .error fault =>
    return (cache, { name := kind.source, waits := false,
                     ends := .failed (SnapshotCache.firstCauses kind.source fault) })

/-- Loads a snapshot once more. -/
def loadAgain {α : Type} (kind : SnapshotKind α) (path : String) (cache : SnapshotCache α) :
    Work (SnapshotCache α) := do
  let content := (← get).files path
  Work.inAround fun s =>
    let (_, cache, metrics) := cache.resync kind path content s.metrics
    (cache, { s with metrics })

/-- Starts the exporters and all tasks. -/
def begin (s : Settings) : Work Collecting := do
  Work.expect .settings s.validateCollect
  let (exporters, metrics) ← Work.expect .registering
    (Exporter.configured s.exporters s.mapping.destinations (← get).around.metrics)
  modify fun m => { m with around := { m.around with metrics } }
  let exporters ← Work.startAll [] exporters
  Work.say ["agent"] "collector configured"
  let (pods, podsTask) ← loadFirst .pods s.inventory.podsPath
  let (nodes, nodesTask) ← loadFirst .nodes s.inventory.nodesPath
  let health ← Work.listen "health" s.health.addr
  Work.say ["coster"] "Starting cost calculation loop"
  let loop : Task := { name := "coster", waits := true, ends := .ok }
  return { coster := .ofSettings s, exporters, pods, nodes,
           tasks := [podsTask, nodesTask, health, loop] }

/-- Brings the inventory up to date. -/
def reload (s : Settings) (c : Collecting) : Work Collecting := do
  let pods ← loadAgain .pods s.inventory.podsPath c.pods
  let nodes ← loadAgain .nodes s.inventory.nodesPath c.nodes
  return { c with pods, nodes }

/-- Nothing ends the process but a shutdown. -/
def isSteady (c : Collecting) : Bool := c.tasks.all (·.waits)

/-- Waits for the next cycle and prices the inventory. -/
def cycle (c : Collecting) : Work Collecting := do
  let exporters ← Work.sleep c.coster.interval c.exporters
  let m ← get
  let input : CycleInput :=
    { now := m.began.later m.around.now, workloads := c.pods.list, nodes := c.nodes.list }
  Work.inAround fun s =>
    let (_, coster, exporters, s) := c.coster.emit input exporters s
    ({ c with coster, exporters }, s)

/-- Waits for some number of cycles. -/
def cycles : Nat → Collecting → Work Collecting
  | 0, c => pure c
  | n + 1, c => do cycles n (← c.cycle)

/-- Shuts down: tasks end, and the exporters are stopped when all of them have ended. -/
def shutDown (c : Collecting) : Work Unit := do
  Work.shutDown c.exporters
  Work.say ["agent"] "collector stopped"
  Work.conclude c.tasks

/-- Collects until a shutdown after some number of cycles. -/
def run (n : Nat) (shutdown : Shutdown) (s : Settings) : Work Unit := do
  let c ← begin s
  if c.isSteady then
    let c ← cycles n c
    Work.hear shutdown
    c.shutDown
  else c.shutDown

end Collecting

end Chargeback
