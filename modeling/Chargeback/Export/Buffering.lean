import Chargeback.Export.MergeBuffer
import Chargeback.Metric.Metrics

/-!
# Buffering in front of an exporter

A buffering stage merges what it receives and hands it on when it is flushed: by its flush task
at regular times, by the task once more when its token is cancelled, by a caller, and when the
stage is stopped. Every event is atomic: the buffer is taken as a whole and what was taken is
handed on afterwards, so a record that arrives in the meantime waits for the next flush.

Stopping relies on the flush task for the last flush as long as the task was not joined before,
WHETHER OR NOT the task still runs; only a stage without a task flushes by itself.
-/

namespace Chargeback

/-- The flush task of a stage. -/
inductive Flusher where
  /-- None was started, or it was joined. -/
  | absent
  /-- It flushes at regular times. -/
  | running
  /-- Its token was cancelled and it made its last flush. -/
  | ended
  /-- It broke down. -/
  | failed
  deriving DecidableEq, Repr

/-- A buffering stage. -/
structure Buffering where
  /-- The exporter behind the stage. -/
  target : String
  interval : Span
  buffer : MergeBuffer
  flusher : Flusher
  deriving DecidableEq, Repr

/-- One atomic step of a stage. -/
inductive BufferingEvent where
  /-- A record is received. -/
  | push (r : CostRecord)
  /-- The buffer is flushed by the task at its time or by a caller. -/
  | flush
  /-- The token that the flush task was started with is cancelled. -/
  | cancel
  /-- The stage is stopped. -/
  | stop
  deriving DecidableEq, Repr

namespace Buffering

/-- A stage that was not started. -/
def fresh (target : String) (interval : Span) : Buffering :=
  { target, interval, buffer := .empty, flusher := .absent }

/-- The name of the stage. -/
def name (b : Buffering) : String := "buffering(" ++ b.target ++ ")"

/-- A stage whose flush task is alive cannot be started again. -/
def canStart (b : Buffering) : Bool := b.flusher != .running

/-- Starts the flush task. A task without time between its flushes breaks down at once. -/
def start (b : Buffering) : Buffering :=
  { b with flusher := if b.interval.isZero then .failed else .running }

/-- Takes everything out of the buffer. -/
def drain (b : Buffering) (m : Metrics) : List CostRecord × Buffering × Metrics :=
  let (records, buffer) := b.buffer.drain
  (records, { b with buffer }, m.buffered b.target 0)

/-- Takes everything out of the buffer in order to hand it on. -/
def flush (b : Buffering) (m : Metrics) : List CostRecord × Buffering × Metrics :=
  let (records, b, m) := b.drain m
  (records, b, m.bufferFlushed)

/-- What an event makes of a stage, and the records that it hands on to the exporter behind. -/
def step : BufferingEvent → Buffering × Metrics → List CostRecord × Buffering × Metrics
  | .push r, (b, m) =>
    let buffer := b.buffer.push r
    ([], { b with buffer }, m.buffered b.target buffer.size)
  | .flush, (b, m) => b.flush m
  | .cancel, (b, m) => match b.flusher with
    | .running => { b with flusher := .ended }.flush m
    | _ => ([], b, m)
  | .stop, (b, m) => match b.flusher with
    | .running | .absent => { b with flusher := .absent }.flush m
    | .ended | .failed => ([], { b with flusher := .absent }, m)

/-- Receives records, one after the other. -/
def pushAll (rs : List CostRecord) (s : Buffering × Metrics) : Buffering × Metrics :=
  rs.foldl (fun s r => (step (.push r) s).2) s

/-- What a list of events makes of a stage, and the records handed on by each of them. -/
def run : List BufferingEvent → Buffering × Metrics → List (List CostRecord) × Buffering × Metrics
  | [], s => ([], s)
  | e :: es, s =>
    let (out, s) := step e s
    let (outs, s) := run es s
    (out :: outs, s)

end Buffering

end Chargeback
