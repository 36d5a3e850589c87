import Chargeback.Export.Insertion
import Chargeback.Export.Surroundings

/-!
# The ClickHouse exporter

An exporter that inserts records into a table: it owns a run of the insertion from its start on,
and executes its statements in the database. It can be started once only.

A batch may also be inserted past the queue, by a caller who wants to know the outcome.
-/

namespace Chargeback

/-- An exporter to a table. -/
structure ClickHouseExporter where
  settings : ClickHouseSettings
  /-- The dimensions with a column of their own. -/
  destinations : List String
  /-- The run; there is one from the start on. -/
  run : Option Insertion
  /-- Stopping has to wait for the run. -/
  isHeld : Bool
  /-- When the flush timer ticks next. -/
  nextTick : Nat
  deriving DecidableEq, Repr

namespace ClickHouseExporter

/-- An exporter that was not started. -/
def fresh (settings : ClickHouseSettings) (destinations : List String) : ClickHouseExporter :=
  { settings, destinations, run := none, isHeld := false, nextTick := 0 }

/-- The sizes configured. -/
def limits (e : ClickHouseExporter) : InsertionLimits :=
  { queue := e.settings.maxQueueSize, batch := e.settings.batchSize }

/-- What the batcher needs can be set up: a timer with time between its ticks, and memory for a
batch. -/
def fits (settings : ClickHouseSettings) (room : Nat) : Bool :=
  !settings.flushInterval.isZero && max settings.batchSize 1 ≤ room

/-- The batcher takes records from the queue. -/
def isRunning (e : ClickHouseExporter) : Bool := e.run.any (·.batcher == .running)

/-- Executes the statement for some records. -/
def insert (rs : List CostRecord) (e : ClickHouseExporter) (s : Surroundings) :
    Bool × Surroundings :=
  s.execute (Sql.insert e.settings.qualifiedTable e.destinations rs)

/-! ## Steps of the run -/

/-- Lets an event happen to the run, if it can. -/
def perform? (event : InsertionEvent) (e : ClickHouseExporter) (s : Surroundings) :
    Option (ClickHouseExporter × Surroundings) :=
  match e.run with
  | none => none
  | some i => (Insertion.step? e.limits event (i, s.metrics)).map fun (i, metrics) =>
      ({ e with run := some i }, { s with metrics })

/-- Lets an event happen to the run; one that cannot happen changes nothing. -/
def perform (event : InsertionEvent) (e : ClickHouseExporter) (s : Surroundings) :
    ClickHouseExporter × Surroundings :=
  (e.perform? event s).getD (e, s)

/-- Lets the database answer the statement of the run. -/
def complete? (e : ClickHouseExporter) (s : Surroundings) :
    Option (ClickHouseExporter × Surroundings) :=
  match e.run.map (·.inserting) with
  | none => none
  | some [] => none
  | some rs =>
    let (succeeded, s) := e.insert rs s
    e.perform? (.complete succeeded .zero) s

/-- One step of the run left to itself. -/
def advance? (e : ClickHouseExporter) (s : Surroundings) :
    Option (ClickHouseExporter × Surroundings) :=
  e.perform? .breakDown s <|> e.perform? .enter s <|> e.perform? .gather s <|>
    e.perform? .finish s <|> e.complete? s

/-- At most `n` steps of the run left to itself. -/
def advance : Nat → ClickHouseExporter → Surroundings → ClickHouseExporter × Surroundings
  | 0, e, s => (e, s)
  | n + 1, e, s => match e.advance? s with
    | none => (e, s)
    | some (e, s) => advance n e s

/-- More steps than a run can make by itself: a record enters, is gathered and is inserted. -/
def stepBound (i : Insertion) : Nat :=
  3 * (i.waiting.length + i.queue.length + i.batch.length + i.inserting.length) + 4

/-- Leaves the run to itself until nothing more happens. -/
def settle (e : ClickHouseExporter) (s : Surroundings) : ClickHouseExporter × Surroundings :=
  match e.run with
  | none => (e, s)
  | some i => advance (stepBound i) e s

/-! ## Starting and stopping -/

/-- Connects, creates the table if that is configured, and starts a run. -/
def start (e : ClickHouseExporter) (s : Surroundings) :
    ExporterOutcome × ClickHouseExporter × Surroundings :=
  if e.run.isSome then (.error .alreadyInserting, e, s)
  else match s.database.connect? e.settings.dsn with
    | none => (.error (.connecting e.settings.endpoint), e, s)
    | some database =>
      let s := { s with database }
      let table := e.settings.qualifiedTable
      let (created, s) :=
        if e.settings.createTable then s.execute (Sql.createTable table e.destinations)
        else (true, s)
      if !created then (.error (.creatingTable table), e, s)
      else if permitLimit < e.settings.maxQueueSize then (.error .tooManyPermits, e, s)
      else
        (.ok (), { e with run := some (.start (fits e.settings s.room)), isHeld := true,
                          nextTick := s.now + e.settings.flushInterval.nanos }, s)

/-- Closes the queue and waits until everything accepted was inserted. -/
def stop (e : ClickHouseExporter) (s : Surroundings) :
    ExporterOutcome × ClickHouseExporter × Surroundings :=
  let (e, s) := e.perform .close s
  let (e, s) := e.settle s
  let failed := e.isHeld && e.run.any (·.batcher == .failed)
  (if failed then .error .joiningInsertion else .ok (), { e with isHeld := false }, s)

/-! ## Records -/

/-- Lets the run go on until there is room in the queue: it gathers as long as it can, and only
then waits for the database. -/
def makeRoom : Nat → ClickHouseExporter → Surroundings → ClickHouseExporter × Surroundings
  | 0, e, s => (e, s)
  | n + 1, e, s => match e.perform? .gather s with
    | some (e, s) => makeRoom n e s
    | none =>
      if e.run.any fun i => i.queue.length < e.limits.fullQueue then (e, s)
      else match e.complete? s with
        | some (e, s) => makeRoom n e s
        | none => (e, s)

/-- A caller hands over a record, and waits for room in the queue if there is none. A record for an
exporter that is not running is lost. -/
def accept (r : CostRecord) (e : ClickHouseExporter) (s : Surroundings) :
    ClickHouseExporter × Surroundings :=
  match e.run with
  | none => (e, { s with metrics := s.metrics.recordsLost Insertion.exporterName 1 })
  | some i =>
    let (e, s) := e.perform (.offer r) s
    match e.perform? .enter s with
    | some done => done
    | none =>
      let (e, s) := e.perform .breakDown s
      let (e, s) := makeRoom (stepBound i) e s
      e.perform .enter s

/-- A caller hands over records, one after the other. -/
def acceptAll (rs : List CostRecord) (e : ClickHouseExporter) (s : Surroundings) :
    ClickHouseExporter × Surroundings :=
  rs.foldl (fun (e, s) r => e.accept r s) (e, s)

/-- Inserts records at once, past the queue. -/
def insertNow (rs : List CostRecord) (e : ClickHouseExporter) (s : Surroundings) :
    ExporterOutcome × Surroundings :=
  if e.run.isNone then (.error .notInserting, s)
  else if rs.isEmpty then (.ok (), s)
  else
    let (succeeded, s) := e.insert rs s
    (if succeeded then .ok () else .error .sendingBatch,
      { s with metrics := Insertion.answered rs succeeded .zero s.metrics })

/-! ## Time -/

/-- When the flush timer ticks next, if it runs. -/
def deadline? (e : ClickHouseExporter) : Option Nat :=
  if e.isRunning then some e.nextTick else none

/-- Ticks if it is time. -/
def fire (e : ClickHouseExporter) (s : Surroundings) : ClickHouseExporter × Surroundings :=
  if e.deadline?.any (· ≤ s.now) then
    let (e, s) := e.perform .tick s
    ({ e with nextTick := e.nextTick + e.settings.flushInterval.nanos }, s)
  else (e, s)

end ClickHouseExporter

end Chargeback
