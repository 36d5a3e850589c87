import Chargeback.Export.Delivery

/-!
# Insertion in batches

Records offered for insertion wait for room in a queue of bounded length. A batcher takes them
from the queue in order and inserts a batch with one statement when it is full, when the flush
timer ticks, and when the queue was closed and is empty. While a statement is being executed
the batcher does nothing else, so statements never overlap.

As for deliveries, every interleaving of the callers, the batcher, the timer and the database
is a list of events.
-/

namespace Chargeback

/-- The sizes that bound an insertion; a limit of zero counts as one. -/
structure InsertionLimits where
  /-- Records that the queue holds. -/
  queue : Nat
  /-- Records in a full batch. -/
  batch : Nat
  deriving DecidableEq, Repr

/-- The number of records that fill the queue. -/
def InsertionLimits.fullQueue (l : InsertionLimits) : Nat := max l.queue 1

/-- The number of records that make a batch full. -/
def InsertionLimits.fullBatch (l : InsertionLimits) : Nat := max l.batch 1

/-- A run of the insertion, from its start to its end. -/
structure Insertion where
  /-- The queue takes offers. -/
  isOpen : Bool
  batcher : Accumulator
  /-- Callers that wait for room, in order, each with its record. -/
  waiting : List CostRecord
  /-- Records accepted and not yet gathered. -/
  queue : List CostRecord
  /-- The batch being gathered. -/
  batch : List CostRecord
  /-- The batch of the statement being executed; empty if there is none. -/
  inserting : List CostRecord
  /-- The batches of the statements executed, and whether they succeeded. -/
  inserted : List (List CostRecord × Bool)
  deriving DecidableEq, Repr

/-- One atomic step of an insertion. -/
inductive InsertionEvent where
  /-- A caller offers a record. -/
  | offer (r : CostRecord)
  /-- The caller that waited longest gets its record into the queue. -/
  | enter
  /-- The batcher gets to run for the first time, and breaks down. -/
  | breakDown
  /-- The batcher takes a record from the queue. -/
  | gather
  /-- The flush timer ticks. -/
  | tick
  /-- The batcher finds the queue closed and empty. -/
  | finish
  /-- The database answers the statement. -/
  | complete (succeeded : Bool) (took : Binary64)
  /-- The queue is closed for further offers. -/
  | close
  deriving DecidableEq, Repr

namespace Insertion

/-- The exporter that insertions are counted for. -/
def exporterName : String := "clickhouse"

/-- An insertion that was just started. Its batcher is doomed if what it needs cannot be set up. -/
def start (fits : Bool) : Insertion where
  isOpen := true
  batcher := if fits then .running else .doomed
  waiting := []
  queue := []
  batch := []
  inserting := []
  inserted := []

/-- The batcher runs and does not wait for the database. -/
def isIdle (i : Insertion) : Bool := i.batcher == .running && i.inserting.isEmpty

/-- Begins the statement for the gathered batch, unless it is empty. -/
def flush (i : Insertion) : Insertion := { i with batch := [], inserting := i.batch }

/-- A statement for some records was answered: failures are counted. -/
def answered (rs : List CostRecord) (succeeded : Bool) (took : Binary64) (m : Metrics) : Metrics :=
  let m := m.batchWritten exporterName took
  if succeeded then m else m.recordsLost exporterName rs.length

/-- The queue was closed and everything accepted was inserted, as far as statements succeeded. -/
def isFinished (i : Insertion) : Bool := i.batcher == .finished

/-- What an event makes of an insertion; `none` if it cannot happen. -/
def step? (l : InsertionLimits) :
    InsertionEvent → Insertion × Metrics → Option (Insertion × Metrics)
  | .offer r, (i, m) =>
    if i.isOpen && !i.batcher.isDeaf then some ({ i with waiting := i.waiting ++ [r] }, m)
    else some (i, m.recordsLost exporterName 1)
  | .enter, (i, m) => match i.waiting with
    | r :: rest =>
      if i.batcher.isDeaf then
        some ({ i with waiting := rest }, m.recordsLost exporterName 1)
      else if i.queue.length < l.fullQueue then
        some ({ i with waiting := rest, queue := i.queue ++ [r] }, m)
      else none
    | [] => none
  | .breakDown, (i, m) =>
    if i.batcher == .doomed then some ({ i with batcher := .failed, queue := [] }, m) else none
  | .gather, (i, m) => match i.isIdle, i.queue with
    | true, r :: rest =>
      let i := { i with queue := rest, batch := i.batch ++ [r] }
      some (if l.fullBatch ≤ i.batch.length then i.flush else i, m)
    | _, _ => none
  | .tick, (i, m) => if i.isIdle then some (i.flush, m) else none
  | .finish, (i, m) =>
    if i.isIdle && !i.isOpen && i.waiting.isEmpty && i.queue.isEmpty then
      some (if i.batch.isEmpty then { i with batcher := .finished } else i.flush, m)
    else none
  | .complete succeeded took, (i, m) =>
    if i.inserting.isEmpty then none
    else some ({ i with inserting := [], inserted := i.inserted ++ [(i.inserting, succeeded)] },
      answered i.inserting succeeded took m)
  | .close, (i, m) => some ({ i with isOpen := false }, m)

/-- What a list of events makes of an insertion; `none` if one of them cannot happen. -/
def run? (l : InsertionLimits) (es : List InsertionEvent) (s : Insertion × Metrics) :
    Option (Insertion × Metrics) :=
  es.foldlM (fun s e => step? l e s) s

end Insertion

end Chargeback
