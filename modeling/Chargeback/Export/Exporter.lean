import Chargeback.Export.Buffering
import Chargeback.Export.ClickHouse
import Chargeback.Export.Http

/-!
# Exporters

A record may be published as a metric, delivered to a collector or inserted into a table, and
any of these may stand behind a buffering stage. All exporters work with the same surroundings.

A call on an exporter is followed through to where it ends or has to wait; `settle` then leaves
the tasks in the background to themselves, and `sleep` does so while the clock runs.
-/

namespace Chargeback

/-- A destination of records. -/
inductive Exporter where
  /-- Publishes costs as metrics. -/
  | stats
  /-- Delivers records to a collector. -/
  | http (e : HttpExporter)
  /-- Inserts records into a table. -/
  | clickhouse (e : ClickHouseExporter)
  /-- Merges records for the exporter behind. -/
  | buffering (stage : Buffering) (nextFlush : Nat) (next : Exporter)
  deriving DecidableEq, Repr

namespace Exporter

/-- The name of the exporter of costs as metrics. -/
def statsName : String := "stats"

/-- The name of an exporter. -/
def name : Exporter → String
  | .stats => statsName
  | .http _ => Delivery.exporterName
  | .clickhouse _ => Insertion.exporterName
  | .buffering stage _ _ => stage.name

/-- A buffering stage in front of an exporter. -/
def behindBuffer (next : Exporter) (interval : Span) : Exporter :=
  .buffering (.fresh next.name interval) 0 next

/-- The exporter publishes costs as metrics in the end. -/
def publishes : Exporter → Bool
  | .stats => true
  | .http _ => false
  | .clickhouse _ => false
  | .buffering _ _ next => next.publishes

/-- The name in parentheses after the word for a buffering stage. -/
def innerName? (name : String) : Option String :=
  let s := name.toList
  let before := "buffering(".toList
  if before.isPrefixOf s && s.getLast? == some ')' then
    some (String.ofList (s.drop before.length).dropLast)
  else none

/-- The exporter of a name that was not started, behind at most `n` buffering stages. -/
def ofNameWithin? (settings : ExporterSettings) (destinations : List String) :
    Nat → String → Option Exporter
  | 0, _ => none
  | n + 1, name =>
    if name == statsName then some .stats
    else if name == Delivery.exporterName then some (.http (.fresh settings.http))
    else if name == Insertion.exporterName then
      some (.clickhouse (.fresh settings.clickhouse destinations))
    else (innerName? name).bind fun inner =>
      (ofNameWithin? settings destinations n inner).map (·.behindBuffer settings.bufferInterval)

/-- The exporter of a name, with the settings given. -/
def ofName? (settings : ExporterSettings) (destinations : List String) (name : String) :
    Option Exporter :=
  ofNameWithin? settings destinations (name.length + 1) name

/-! ## Records -/

/-- Publishes the costs of records as metrics. -/
def attributeAll (rs : List CostRecord) (s : Surroundings) : Surroundings :=
  { s with metrics := rs.foldl (fun m r => m.costAttributed statsName r) s.metrics }

/-- Hands records to an exporter, one after the other. -/
def acceptAll (rs : List CostRecord) : Exporter → Surroundings → Exporter × Surroundings
  | .stats, s => (.stats, attributeAll rs s)
  | .http e, s => let (e, s) := e.acceptAll rs s; (.http e, s)
  | .clickhouse e, s => let (e, s) := e.acceptAll rs s; (.clickhouse e, s)
  | .buffering stage t next, s =>
    let (stage, metrics) := Buffering.pushAll rs (stage, s.metrics)
    (.buffering stage t next, { s with metrics })

/-- Hands one record to an exporter. -/
def accept (r : CostRecord) (e : Exporter) (s : Surroundings) : Exporter × Surroundings :=
  e.acceptAll [r] s

/-- Hands over records whose fate the caller wants to know. -/
def acceptBatch (rs : List CostRecord) : Exporter → Surroundings →
    ExporterOutcome × Exporter × Surroundings
  | .clickhouse e, s => let (outcome, s) := e.insertNow rs s; (outcome, .clickhouse e, s)
  | e, s => (.ok (), e.acceptAll rs s)

/-- Takes the records out of a buffering stage. -/
def drain? : Exporter → Surroundings → Option (List CostRecord × Exporter × Surroundings)
  | .buffering stage t next, s =>
    let (records, stage, metrics) := stage.drain s.metrics
    some (records, .buffering stage t next, { s with metrics })
  | _, _ => none

/-- Flushes a buffering stage. -/
def flush? : Exporter → Surroundings → Option (Exporter × Surroundings)
  | .buffering stage t next, s =>
    let (records, stage, metrics) := stage.flush s.metrics
    let (next, s) := next.acceptAll records { s with metrics }
    some (.buffering stage t next, s)
  | _, _ => none

/-! ## Tasks in the background -/

/-- Leaves the tasks of an exporter to themselves until nothing more happens. -/
def settle [Codec.Codecs] : Exporter → Surroundings → Exporter × Surroundings
  | .stats, s => (.stats, s)
  | .http e, s => let (e, s) := e.settle s; (.http e, s)
  | .clickhouse e, s => let (e, s) := e.settle s; (.clickhouse e, s)
  | .buffering stage t next, s => let (next, s) := next.settle s; (.buffering stage t next, s)

/-- An event of a stage that has just received records, and what comes out of the stage. -/
def passThrough (event : BufferingEvent) (rs : List CostRecord) (stage : Buffering)
    (s : Surroundings) : List CostRecord × Buffering × Surroundings :=
  let (out, stage, metrics) := Buffering.step event (Buffering.pushAll rs (stage, s.metrics))
  (out, stage, { s with metrics })

/-- Cancels the token that the exporter was started with, after it received records. -/
def cancelAfter (rs : List CostRecord) : Exporter → Surroundings → Exporter × Surroundings
  | .buffering stage t next, s =>
    let (out, stage, s) := passThrough .cancel rs stage s
    let (next, s) := cancelAfter out next s
    (.buffering stage t next, s)
  | e, s => e.acceptAll rs s

/-- Cancels the token that the exporter was started with. -/
def cancel (e : Exporter) (s : Surroundings) : Exporter × Surroundings := e.cancelAfter [] s

/-! ## Starting and stopping -/

/-- Starts an exporter, those behind it first. -/
def start [Codec.Codecs] : Exporter → Surroundings → ExporterOutcome × Exporter × Surroundings
  | .stats, s => (.ok (), .stats, s)
  | .http e, s => let (outcome, e, s) := e.start s; (outcome, .http e, s)
  | .clickhouse e, s => let (outcome, e, s) := e.start s; (outcome, .clickhouse e, s)
  | .buffering stage t next, s =>
    if !stage.canStart then (.error .alreadyBuffering, .buffering stage t next, s)
    else match next.start s with
      | (.error fault, next, s) => (.error (.downstream fault), .buffering stage t next, s)
      | (.ok (), next, s) =>
        (.ok (), .buffering stage.start (s.now + stage.interval.nanos) next, s)

/-- Stops an exporter, those behind it last, after it received records. -/
def stopAfter [Codec.Codecs] (rs : List CostRecord) : Exporter → Surroundings →
    ExporterOutcome × Exporter × Surroundings
  | .stats, s => (.ok (), .stats, attributeAll rs s)
  | .http e, s =>
    let (e, s) := e.acceptAll rs s
    let (outcome, e, s) := e.stop s
    (outcome, .http e, s)
  | .clickhouse e, s =>
    let (e, s) := e.acceptAll rs s
    let (outcome, e, s) := e.stop s
    (outcome, .clickhouse e, s)
  | .buffering stage t next, s =>
    let failed := stage.flusher == .failed
    let (out, stage, s) := passThrough .stop rs stage s
    if failed then (.error .joiningBuffering, .buffering stage t next, s)
    else
      let (outcome, next, s) := stopAfter out next s
      (outcome, .buffering stage t next, s)

/-- Stops an exporter, those behind it last. -/
def stop [Codec.Codecs] (e : Exporter) (s : Surroundings) :
    ExporterOutcome × Exporter × Surroundings :=
  e.stopAfter [] s

/-! ## Time -/

/-- The earlier of two times, if there is one. -/
def earlier : Option Nat → Option Nat → Option Nat
  | some a, some b => some (min a b)
  | some a, none => some a
  | none, b => b

/-- When the next timer of an exporter goes off. -/
def deadline? : Exporter → Option Nat
  | .stats => none
  | .http e => e.deadline?
  | .clickhouse e => e.deadline?
  | .buffering stage t next =>
    earlier (if stage.flusher == .running then some t else none) next.deadline?

/-- Lets every timer go off whose time has come, after the exporter received records. -/
def fireAfter (rs : List CostRecord) : Exporter → Surroundings → Exporter × Surroundings
  | .stats, s => (.stats, attributeAll rs s)
  | .http e, s =>
    let (e, s) := e.acceptAll rs s
    let (e, s) := e.fire s
    (.http e, s)
  | .clickhouse e, s =>
    let (e, s) := e.acceptAll rs s
    let (e, s) := e.fire s
    (.clickhouse e, s)
  | .buffering stage t next, s =>
    if stage.flusher == .running && t ≤ s.now then
      let (out, stage, s) := passThrough .flush rs stage s
      let (next, s) := fireAfter out next s
      (.buffering stage (t + stage.interval.nanos) next, s)
    else
      let (stage, metrics) := Buffering.pushAll rs (stage, s.metrics)
      let (next, s) := fireAfter [] next { s with metrics }
      (.buffering stage t next, s)

/-- Lets at most `n` timers go off until some time, one after the other. -/
def sleepUntil [Codec.Codecs] (time : Nat) : Nat → Exporter → Surroundings → Exporter × Surroundings
  | 0, e, s => (e, { s with now := time })
  | n + 1, e, s =>
    let (e, s) := e.settle s
    match e.deadline? with
    | some t =>
      if t ≤ time then
        let (e, s) := e.fireAfter [] { s with now := max s.now t }
        sleepUntil time n e s
      else (e, { s with now := time })
    | none => (e, { s with now := time })

/-- The number of timers in an exporter. -/
def timers : Exporter → Nat
  | .stats => 0
  | .buffering _ _ next => next.timers + 1
  | _ => 1

/-- Lets the clock run. -/
def sleep [Codec.Codecs] (span : Span) (e : Exporter) (s : Surroundings) :
    Exporter × Surroundings :=
  let (e, s) := sleepUntil (s.now + span.nanos) (e.timers * (span.nanos + 1) + 1) e s
  e.settle s

/-! ## The exporters configured -/

/-- The exporters configured. The one for metrics sees every record as it is produced; those
that keep records stand behind a buffering stage of their own. -/
def configured (settings : ExporterSettings) (destinations : List String) (m : Metrics) :
    Except Metrics.RegistrationError (List Exporter × Metrics) := do
  let m ← if settings.stats then m.registerCosts destinations else pure m
  let delivered := Exporter.http (.fresh settings.http)
  let inserted := Exporter.clickhouse (.fresh settings.clickhouse destinations)
  let durable := (if settings.http.enabled then [delivered] else []) ++
    if settings.clickhouse.enabled then [inserted] else []
  return ((if settings.stats then [.stats] else []) ++
    durable.map (·.behindBuffer settings.bufferInterval), m)

end Exporter

end Chargeback
