import Chargeback.Metric.Metrics

/-!
# Delivery in batches by workers

Records offered for delivery wait for room in a queue of bounded length. An accumulator takes
them from the queue in order and gathers them into batches; a batch is dispatched when it is
full, when the batch timer ticks, and when the queue was closed and is empty. Dispatched batches
wait for one of a fixed number of workers, in no binding order, and a worker attempts the delivery
of its batch once.

The delivery is a state and the events that change it. Each event stands for one atomic step of
a caller, of the accumulator, of the timer or of a worker, so that every interleaving of theirs
is a list of events; `step?` is `none` for an event that cannot happen in a state.
-/

namespace Chargeback

/-- The sizes that bound a delivery. -/
structure DeliveryLimits where
  /-- Records that the queue holds. -/
  queue : Nat
  /-- Records in a full batch; a limit of zero counts as one. -/
  batch : Nat
  /-- Batches in delivery at a time. -/
  workers : Nat
  deriving DecidableEq, Repr

/-- The number of records that make a batch full. -/
def DeliveryLimits.fullBatch (l : DeliveryLimits) : Nat := max l.batch 1

/-- What the accumulator is doing. -/
inductive Accumulator where
  /-- It takes records from the queue. -/
  | running
  /-- The queue was closed and everything in it was dispatched. -/
  | finished
  /-- It will break down as soon as it gets to run; till then the queue fills up. -/
  | doomed
  /-- It broke down, and the queue with what was in it is gone. -/
  | failed
  deriving DecidableEq, Repr

/-- The queue is gone, and a record offered is lost. -/
def Accumulator.isDeaf : Accumulator → Bool
  | .running | .doomed => false
  | .finished | .failed => true

/-- It broke down, or will. -/
def Accumulator.isHopeless : Accumulator → Bool
  | .running | .finished => false
  | .doomed | .failed => true

/-- A run of the delivery, from its start to its end. -/
structure Delivery where
  /-- The queue takes offers. -/
  isOpen : Bool
  accumulator : Accumulator
  /-- Callers that wait for room, in order, each with its record. -/
  waiting : List CostRecord
  /-- Records accepted and not yet gathered. -/
  queue : List CostRecord
  /-- The batch being gathered. -/
  batch : List CostRecord
  /-- Batches that wait for a worker. -/
  backlog : List (List CostRecord)
  /-- Batches in delivery, one for every busy worker. -/
  sending : List (List CostRecord)
  /-- Batches whose delivery was attempted, and whether the receiver accepted them. -/
  attempted : List (List CostRecord × Bool)
  deriving DecidableEq, Repr

/-- One atomic step of a delivery. -/
inductive DeliveryEvent where
  /-- A caller offers a record. -/
  | offer (r : CostRecord)
  /-- The caller that waited longest gets its record into the queue. -/
  | enter
  /-- The accumulator gets to run for the first time, and breaks down. -/
  | breakDown
  /-- The accumulator takes a record from the queue. -/
  | gather
  /-- The batch timer ticks. -/
  | tick
  /-- The accumulator finds the queue closed and empty. -/
  | finish
  /-- A worker takes the batch that waited longest. -/
  | begin
  /-- A worker takes the batch at a place behind the first, ahead of those before it. -/
  | overtake (place : Nat)
  /-- The delivery of the batch at a place among those in delivery ends. -/
  | complete (place : Nat) (accepted : Bool) (took : Binary64)
  /-- The queue is closed for further offers. -/
  | close
  deriving DecidableEq, Repr

namespace Delivery

/-- The exporter that deliveries are counted for. -/
def exporterName : String := "http"

/-- A delivery that was just started. Its accumulator is doomed if what it needs cannot be set
up. -/
def start (fits : Bool) : Delivery where
  isOpen := true
  accumulator := if fits then .running else .doomed
  waiting := []
  queue := []
  batch := []
  backlog := []
  sending := []
  attempted := []

/-- Hands the gathered batch over to the workers, unless it is empty. -/
def dispatch (d : Delivery) : Delivery :=
  if d.batch.isEmpty then d else { d with batch := [], backlog := d.backlog ++ [d.batch] }

/-- The queue is gone, and a record offered is lost. -/
def isDeaf (d : Delivery) : Bool := d.accumulator.isDeaf

/-- The queue was closed and everything accepted was attempted. -/
def isFinished (d : Delivery) : Bool :=
  d.accumulator == .finished && d.backlog.isEmpty && d.sending.isEmpty

/-- What an event makes of a delivery; `none` if it cannot happen. -/
def step? (l : DeliveryLimits) : DeliveryEvent → Delivery × Metrics → Option (Delivery × Metrics)
  | .offer r, (d, m) =>
    if d.isOpen && !d.isDeaf then some ({ d with waiting := d.waiting ++ [r] }, m)
    else some (d, m.recordsLost exporterName 1)
  | .enter, (d, m) => match d.waiting with
    | r :: rest =>
      if d.isDeaf then some ({ d with waiting := rest }, m.recordsLost exporterName 1)
      else if d.queue.length < l.queue then
        some ({ d with waiting := rest, queue := d.queue ++ [r] }, m)
      else none
    | [] => none
  | .breakDown, (d, m) =>
    if d.accumulator == .doomed then some ({ d with accumulator := .failed, queue := [] }, m)
    else none
  | .gather, (d, m) => match d.accumulator, d.queue with
    | .running, r :: rest =>
      let d := { d with queue := rest, batch := d.batch ++ [r] }
      some (if l.fullBatch ≤ d.batch.length then d.dispatch else d, m)
    | _, _ => none
  | .tick, (d, m) => if d.accumulator == .running then some (d.dispatch, m) else none
  | .finish, (d, m) =>
    if d.accumulator == .running && !d.isOpen && d.waiting.isEmpty && d.queue.isEmpty then
      some ({ d.dispatch with accumulator := .finished }, m)
    else none
  | .begin, (d, m) => match d.backlog with
    | b :: rest =>
      if d.sending.length < l.workers then
        some ({ d with backlog := rest, sending := d.sending ++ [b] }, m)
      else none
    | [] => none
  | .overtake place, (d, m) => match d.backlog[place + 1]? with
    | some b =>
      if d.sending.length < l.workers then
        some ({ d with backlog := d.backlog.eraseIdx (place + 1), sending := d.sending ++ [b] }, m)
      else none
    | none => none
  | .complete place accepted took, (d, m) => match d.sending[place]? with
    | some b =>
      let m := m.batchWritten exporterName took
      some ({ d with sending := d.sending.eraseIdx place, attempted := d.attempted ++ [(b, accepted)] },
        if accepted then m else m.recordsLost exporterName b.length)
    | none => none
  | .close, (d, m) => some ({ d with isOpen := false }, m)

/-- What a list of events makes of a delivery; `none` if one of them cannot happen. -/
def run? (l : DeliveryLimits) (es : List DeliveryEvent) (s : Delivery × Metrics) :
    Option (Delivery × Metrics) :=
  es.foldlM (fun s e => step? l e s) s

end Delivery

end Chargeback
