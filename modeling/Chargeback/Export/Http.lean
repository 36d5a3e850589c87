import Chargeback.Export.Delivery
import Chargeback.Export.Surroundings

/-!
# The HTTP exporter

An exporter that delivers records to a collector: it owns a run of the delivery from its start
on, and asks the collector for the outcome of every batch.

A run left to itself makes one step after the other until none is possible. An accumulator that is
doomed breaks down before anything else happens. Then callers come first, then the accumulator, then
the workers, each in order; other orders lead to the same batches as long as the batch timer does
not tick in between.
-/

namespace Chargeback

/-- An exporter to a collector. -/
structure HttpExporter where
  settings : HttpSettings
  /-- The run begun by the last start. -/
  run : Option Delivery
  /-- Stopping has to wait for the run. -/
  isHeld : Bool
  /-- When the batch timer ticks next. -/
  nextTick : Nat
  deriving DecidableEq, Repr

namespace HttpExporter

/-- An exporter that was not started. -/
def fresh (settings : HttpSettings) : HttpExporter :=
  { settings, run := none, isHeld := false, nextTick := 0 }

/-- The sizes configured. -/
def limits (e : HttpExporter) : DeliveryLimits :=
  { queue := e.settings.maxQueueSize, batch := e.settings.batchSize, workers := e.settings.workers }

/-- What the accumulator needs can be set up: a timer with time between its ticks, and memory for a
batch. -/
def fits (settings : HttpSettings) (room : Nat) : Bool :=
  !settings.batchTimeout.isZero && max settings.batchSize 1 ≤ room

/-- The accumulator takes records from the queue. -/
def isRunning (e : HttpExporter) : Bool := e.run.any (·.accumulator == .running)

/-! ## Steps of the run -/

/-- Lets an event happen to the run, if it can. -/
def perform? (event : DeliveryEvent) (e : HttpExporter) (s : Surroundings) :
    Option (HttpExporter × Surroundings) :=
  match e.run with
  | none => none
  | some d => (Delivery.step? e.limits event (d, s.metrics)).map fun (d, metrics) =>
      ({ e with run := some d }, { s with metrics })

/-- Lets an event happen to the run; one that cannot happen changes nothing. -/
def perform (event : DeliveryEvent) (e : HttpExporter) (s : Surroundings) :
    HttpExporter × Surroundings :=
  (e.perform? event s).getD (e, s)

section Answers

variable [Codec.Codecs]

/-- Completes the batch that has been in delivery longest. -/
def completeFirst? (e : HttpExporter) (s : Surroundings) : Option (HttpExporter × Surroundings) :=
  match e.run.bind (·.sending.head?) with
  | none => none
  | some b =>
    let (accepted, s) := s.deliver e.settings b
    e.perform? (.complete 0 accepted .zero) s

/-- One step of the run left to itself. -/
def advance? (e : HttpExporter) (s : Surroundings) : Option (HttpExporter × Surroundings) :=
  e.perform? .breakDown s <|> e.perform? .enter s <|> e.perform? .gather s <|> e.perform? .finish s <|>
    e.perform? .begin s <|> e.completeFirst? s

/-- At most `n` steps of the run left to itself. -/
def advance : Nat → HttpExporter → Surroundings → HttpExporter × Surroundings
  | 0, e, s => (e, s)
  | n + 1, e, s => match e.advance? s with
    | none => (e, s)
    | some (e, s) => advance n e s

/-- More steps than a run can make by itself: a record enters and is gathered, and a batch begins
and is completed; and the accumulator breaks down or finishes. -/
def stepBound (d : Delivery) : Nat :=
  let records := d.waiting.length + d.queue.length + d.batch.length + d.backlog.flatten.length +
    d.sending.flatten.length
  4 * records + d.backlog.length + d.sending.length + 2

/-- Leaves the run to itself until nothing more happens. -/
def settle (e : HttpExporter) (s : Surroundings) : HttpExporter × Surroundings :=
  match e.run with
  | none => (e, s)
  | some d => advance (stepBound d) e s

/-! ## Starting and stopping -/

/-- Closes the queue of the run. -/
def close (e : HttpExporter) (s : Surroundings) : HttpExporter × Surroundings := e.perform .close s

/-- Starts a run. A run that was begun before is closed and left to itself. -/
def start (e : HttpExporter) (s : Surroundings) : ExporterOutcome × HttpExporter × Surroundings :=
  if e.settings.maxQueueSize = 0 then (.error .queueSize, e, s)
  else if e.settings.workers = 0 then (.error .workerCount, e, s)
  else if permitLimit < e.settings.maxQueueSize || permitLimit < e.settings.workers then
    (.error .tooManyPermits, e, s)
  else
    let (e, s) := e.close s
    let (e, s) := e.settle s
    (.ok (), { e with run := some (.start (fits e.settings s.room)), isHeld := true,
                      nextTick := s.now + e.settings.batchTimeout.nanos }, s)

/-- Closes the queue and waits until everything accepted was attempted. -/
def stop (e : HttpExporter) (s : Surroundings) : ExporterOutcome × HttpExporter × Surroundings :=
  let (e, s) := e.close s
  let (e, s) := e.settle s
  let failed := e.isHeld && e.run.any (·.accumulator == .failed)
  (if failed then .error .joiningDelivery else .ok (), { e with isHeld := false }, s)

end Answers

/-! ## Records -/

/-- Gathers until the queue is empty. -/
def gatherAll : Nat → HttpExporter → Surroundings → HttpExporter × Surroundings
  | 0, e, s => (e, s)
  | n + 1, e, s => match e.perform? .gather s with
    | none => (e, s)
    | some (e, s) => gatherAll n e s

/-- A caller hands over a record, and waits for room in the queue if there is none. A record for an
exporter that is not running is lost. -/
def accept (r : CostRecord) (e : HttpExporter) (s : Surroundings) : HttpExporter × Surroundings :=
  match e.run with
  | none => (e, { s with metrics := s.metrics.recordsLost Delivery.exporterName 1 })
  | some d =>
    let (e, s) := e.perform (.offer r) s
    match e.perform? .enter s with
    | some done => done
    | none =>
      let (e, s) := e.perform .breakDown s
      let (e, s) := gatherAll (d.queue.length + 1) e s
      e.perform .enter s

/-- A caller hands over records, one after the other. -/
def acceptAll (rs : List CostRecord) (e : HttpExporter) (s : Surroundings) :
    HttpExporter × Surroundings :=
  rs.foldl (fun (e, s) r => e.accept r s) (e, s)

/-! ## Time -/

/-- When the batch timer ticks next, if it runs. -/
def deadline? (e : HttpExporter) : Option Nat :=
  if e.isRunning then some e.nextTick else none

/-- Ticks if it is time. -/
def fire (e : HttpExporter) (s : Surroundings) : HttpExporter × Surroundings :=
  if e.deadline?.any (· ≤ s.now) then
    let (e, s) := e.perform .tick s
    ({ e with nextTick := e.nextTick + e.settings.batchTimeout.nanos }, s)
  else (e, s)

end HttpExporter

end Chargeback
