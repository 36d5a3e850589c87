import Chargeback.Cycle.Coster
import Chargeback.Export.Exporter
import Chargeback.Proofs.HttpDelivery
import Chargeback.Proofs.MergeLaw

/-!
# From cycles to the collector

A coster whose records go to a buffering stage in front of an HTTP exporter, with the collector at
its end. A cycle's records are received one by one; flushes take the buffer and hand what they took
on, record by record, and several may be under way; the delivery makes its steps; and the collector
answers the batches of the workers in any order. A flush may hand on what it took in any order. Every
interleaving of these is a list of events.

Stopping is two events: the last flush, which waits for the cycle in progress, and closing the
queue, which waits until every flush has handed on all it took. A record that is offered while an
earlier one of the same flush still waits for room is an order of steps that the program does not
have; here it is one more.
-/

namespace Chargeback

/-- What it means that a stage in front of an HTTP exporter was started. -/
theorem Exporter.start_behindBuffer [Codec.Codecs] {settings : HttpSettings} {interval : Span}
    {s s' : Surroundings} {x : Exporter}
    (h : ((Exporter.http (.fresh settings)).behindBuffer interval).start s = (.ok (), x, s')) :
    ∃ e, (HttpExporter.fresh settings).start s = (.ok (), e, s') ∧
      x = .buffering (Buffering.fresh Delivery.exporterName interval).start
        (s'.now + interval.nanos) (.http e) := by
  have hcan : (Buffering.fresh Delivery.exporterName interval).canStart = true := rfl
  simp only [behindBuffer, name, start, hcan] at h
  cases hstart : (HttpExporter.fresh settings).start s with
  | mk outcome started =>
      obtain ⟨e, s₁⟩ := started
      cases outcome with
      | error fault => simp [hstart] at h
      | ok _ =>
          obtain ⟨rfl, rfl⟩ : _ = x ∧ s₁ = s' := by simpa [hstart] using h
          exact ⟨e, rfl, rfl⟩

/-- A coster, the stage and the exporter behind it, with the history of what they did. -/
structure Pipeline where
  coster : Coster
  /-- Records of the last cycle that the stage has not received yet. -/
  emitting : List CostRecord
  stage : Buffering
  /-- What each flush has still to hand on. -/
  forwarding : List (List CostRecord)
  exporter : HttpExporter
  surroundings : Surroundings
  /-- Every record of every cycle that succeeded. -/
  produced : List CostRecord
  /-- What the stage received, divided where its buffer was taken. -/
  intake : Intake
  /-- What each flush took. -/
  flushed : List (List CostRecord)
  /-- What was offered to the exporter behind the stage. -/
  handed : List CostRecord

/-- One atomic step of a pipeline. -/
inductive PipelineEvent where
  /-- The coster is called. -/
  | cycle (input : CycleInput)
  /-- The stage receives the next record of the cycle. -/
  | receive
  /-- The buffer is flushed by the task at its time or by a caller. -/
  | flush
  /-- The stage is stopped and flushed for the last time. -/
  | stop
  /-- A flush offers the record at a place among those that it has still to hand on. -/
  | offer (flush place : Nat)
  /-- The delivery makes a step of its own. -/
  | move (event : DeliveryEvent)
  /-- The collector answers the batch at a place among those in delivery. -/
  | answer (place : Nat) (took : Binary64)
  /-- The exporter behind the stage is stopped. -/
  | close

/-- A step that needs neither a call from outside nor a timer. -/
def PipelineEvent.isOwn : PipelineEvent → Bool
  | .cycle _ | .flush | .move .tick => false
  | _ => true

/-- The records of a cycle; one that fails has none. -/
def Coster.produces (c : Coster) (input : CycleInput) : List CostRecord :=
  (c.cycle input .fresh).1.toOption.getD []

/-- The records of one cycle after the other. -/
def Coster.producesAll : List CycleInput → Coster → List CostRecord
  | [], _ => []
  | input :: inputs, c =>
    c.produces input ++ producesAll inputs (c.cycle input .fresh).2.1

namespace Pipeline

/-- A pipeline that was just started. -/
def start (coster : Coster) (stage : Buffering) (exporter : HttpExporter)
    (surroundings : Surroundings) : Pipeline :=
  { coster, emitting := [], stage, forwarding := [], exporter, surroundings,
    produced := [], intake := {}, flushed := [], handed := [] }

/-! ## Steps -/

/-- The stage has a flush task. -/
def isFlushing (p : Pipeline) : Bool := p.stage.flusher == .running

/-- Everything that a flush took was handed on. -/
def isForwarded (p : Pipeline) : Bool := p.forwarding.flatten.isEmpty

/-- The delivery has ended. -/
def isStopped (p : Pipeline) : Bool := p.exporter.run.any (·.isFinished)

/-- An event takes the buffer of the stage, and what it took is to be handed on. -/
def take (event : BufferingEvent) (p : Pipeline) : Pipeline :=
  let (out, stage, metrics) := Buffering.step event (p.stage, p.surroundings.metrics)
  { p with stage, forwarding := p.forwarding ++ [out], intake := p.intake.cut,
           flushed := p.flushed ++ [out], surroundings := { p.surroundings with metrics } }

/-- Lets an event happen to the delivery, if it can. -/
def perform? (event : DeliveryEvent) (p : Pipeline) : Option Pipeline :=
  (p.exporter.perform? event p.surroundings).map fun (exporter, surroundings) =>
    { p with exporter, surroundings }

/-- What an event makes of a pipeline; none if it cannot happen. -/
def step? [Codec.Codecs] : PipelineEvent → Pipeline → Option Pipeline
  | .cycle input, p =>
    if p.isFlushing && p.emitting.isEmpty then
      let (result, coster, metrics) := p.coster.cycle input p.surroundings.metrics
      let records := result.toOption.getD []
      some { p with coster, emitting := records, produced := p.produced ++ records,
                    surroundings := { p.surroundings with metrics } }
    else none
  | .receive, p => match p.emitting with
    | [] => none
    | r :: rest =>
      let (_, stage, metrics) := Buffering.step (.push r) (p.stage, p.surroundings.metrics)
      some { p with stage, emitting := rest, intake := p.intake.receive r,
                    surroundings := { p.surroundings with metrics } }
  | .flush, p => if p.isFlushing then some (p.take .flush) else none
  | .stop, p => if p.isFlushing && p.emitting.isEmpty then some (p.take .stop) else none
  | .offer flush place, p => match p.forwarding[flush]? with
    | none => none
    | some rs => match rs[place]? with
      | none => none
      | some r =>
        { p with forwarding := p.forwarding.set flush (rs.eraseIdx place),
                 handed := p.handed ++ [r] }.perform? (.offer r)
  | .move event, p => if event.isInternal then p.perform? event else none
  | .answer place took, p => match p.exporter.run.bind (·.sending[place]?) with
    | none => none
    | some b =>
      let (accepted, surroundings) := p.surroundings.deliver p.exporter.settings b
      { p with surroundings }.perform? (.complete place accepted took)
  | .close, p =>
    if !p.isFlushing && p.isForwarded && p.exporter.run.any (fun d => d.isOpen && d.waiting.isEmpty)
    then p.perform? .close
    else none

/-- What a list of events makes of a pipeline; none if one of them cannot happen. -/
def run? [Codec.Codecs] (es : List PipelineEvent) (p : Pipeline) : Option Pipeline :=
  es.foldlM (fun p e => step? e p) p

/-! ## What a step can do -/

/-- The ways in which an event changes a pipeline. The metrics are left open where a cycle or the
stage sets them: nothing that a pipeline does depends on them. -/
inductive Moves [Codec.Codecs] (p : Pipeline) : PipelineEvent → Pipeline → Prop
  | cycle {input : CycleInput} (hflusher : p.stage.flusher = .running) (hidle : p.emitting = [])
      (m : Metrics) :
      Moves p (.cycle input)
        { p with coster := (p.coster.cycle input .fresh).2.1, emitting := p.coster.produces input,
                 produced := p.produced ++ p.coster.produces input,
                 surroundings := { p.surroundings with metrics := m } }
  | receive {r : CostRecord} {rest : List CostRecord} (hemitting : p.emitting = r :: rest)
      (m : Metrics) :
      Moves p .receive
        { p with stage := { p.stage with buffer := p.stage.buffer.push r }, emitting := rest,
                 intake := p.intake.receive r,
                 surroundings := { p.surroundings with metrics := m } }
  | flush (hflusher : p.stage.flusher = .running) (m : Metrics) :
      Moves p .flush
        { p with stage := { p.stage with buffer := .empty },
                 forwarding := p.forwarding ++ [p.stage.buffer.records], intake := p.intake.cut,
                 flushed := p.flushed ++ [p.stage.buffer.records],
                 surroundings := { p.surroundings with metrics := m } }
  | stop (hflusher : p.stage.flusher = .running) (hidle : p.emitting = []) (m : Metrics) :
      Moves p .stop
        { p with stage := { p.stage with buffer := .empty, flusher := .absent },
                 forwarding := p.forwarding ++ [p.stage.buffer.records], intake := p.intake.cut,
                 flushed := p.flushed ++ [p.stage.buffer.records],
                 surroundings := { p.surroundings with metrics := m } }
  | offer {flush place : Nat} {rs : List CostRecord} {r : CostRecord} {exporter : HttpExporter}
      {surroundings : Surroundings} (hforwarding : p.forwarding[flush]? = some rs)
      (hplace : rs[place]? = some r)
      (hstep : p.exporter.perform? (.offer r) p.surroundings = some (exporter, surroundings)) :
      Moves p (.offer flush place)
        { p with forwarding := p.forwarding.set flush (rs.eraseIdx place),
                 handed := p.handed ++ [r], exporter, surroundings }
  | move {event : DeliveryEvent} {exporter : HttpExporter} {surroundings : Surroundings}
      (hinternal : event.isInternal = true)
      (hstep : p.exporter.perform? event p.surroundings = some (exporter, surroundings)) :
      Moves p (.move event) { p with exporter, surroundings }
  | answer {place : Nat} {took : Binary64} {b : List CostRecord} {exporter : HttpExporter}
      {surroundings : Surroundings}
      (hsending : p.exporter.run.bind (·.sending[place]?) = some b)
      (hstep : p.exporter.perform?
        (.complete place (p.surroundings.deliver p.exporter.settings b).1 took)
        (p.surroundings.deliver p.exporter.settings b).2 = some (exporter, surroundings)) :
      Moves p (.answer place took) { p with exporter, surroundings }
  | close {exporter : HttpExporter} {surroundings : Surroundings}
      (hflusher : p.stage.flusher ≠ .running) (hforwarded : p.forwarding.flatten = [])
      (hopen : p.exporter.run.any (fun d => d.isOpen && d.waiting.isEmpty) = true)
      (hstep : p.exporter.perform? .close p.surroundings = some (exporter, surroundings)) :
      Moves p .close { p with exporter, surroundings }

/-- The metrics have no part in a cycle. -/
theorem cycle_fresh (c : Coster) (input : CycleInput) (m : Metrics) :
    (c.cycle input m).1 = (c.cycle input .fresh).1 ∧
      (c.cycle input m).2.1 = (c.cycle input .fresh).2.1 := by
  unfold Coster.cycle
  split <;> exact ⟨rfl, rfl⟩

theorem perform?_eq_some {p q : Pipeline} {event : DeliveryEvent} :
    p.perform? event = some q ↔ ∃ exporter surroundings,
      p.exporter.perform? event p.surroundings = some (exporter, surroundings) ∧
        { p with exporter, surroundings } = q := by
  simp [perform?]

theorem moves_of_step? [Codec.Codecs] {p q : Pipeline} {e : PipelineEvent} (h : step? e p = some q) :
    Moves p e q := by
  cases e with
  | cycle input =>
      obtain ⟨hresult, hcoster⟩ := cycle_fresh p.coster input p.surroundings.metrics
      simp only [step?] at h
      split at h
      · next hready =>
          obtain ⟨hflusher, hidle⟩ : p.stage.flusher = .running ∧ p.emitting = [] := by
            simpa [isFlushing] using hready
          simp only [hresult, hcoster, Option.some.injEq] at h
          exact h ▸ .cycle hflusher hidle _
      · cases h
  | receive =>
      simp only [step?] at h
      split at h
      · cases h
      · next r rest hemitting =>
          simp only [Buffering.step, Option.some.injEq] at h
          exact h ▸ .receive hemitting _
  | flush =>
      simp only [step?] at h
      split at h
      · next hready =>
          have hflusher : p.stage.flusher = .running := by simpa [isFlushing] using hready
          simp only [take, Buffering.step, Option.some.injEq] at h
          exact h ▸ .flush hflusher _
      · cases h
  | stop =>
      simp only [step?] at h
      split at h
      · next hready =>
          obtain ⟨hflusher, hidle⟩ : p.stage.flusher = .running ∧ p.emitting = [] := by
            simpa [isFlushing] using hready
          simp only [take, Buffering.step, hflusher, Option.some.injEq] at h
          exact h ▸ .stop hflusher hidle _
      · cases h
  | offer flush place =>
      simp only [step?] at h
      split at h
      · cases h
      · next rs hforwarding =>
          split at h
          · cases h
          · next r hplace =>
              obtain ⟨exporter, surroundings, hstep, rfl⟩ := perform?_eq_some.1 h
              exact .offer hforwarding hplace hstep
  | move event =>
      simp only [step?] at h
      split at h
      · next hinternal =>
          obtain ⟨exporter, surroundings, hstep, rfl⟩ := perform?_eq_some.1 h
          exact .move hinternal hstep
      · cases h
  | answer place took =>
      simp only [step?] at h
      split at h
      · cases h
      · next b hsending =>
          obtain ⟨exporter, surroundings, hstep, rfl⟩ := perform?_eq_some.1 h
          exact .answer hsending hstep
  | close =>
      simp only [step?] at h
      split at h
      · next hready =>
          obtain ⟨⟨hflusher, hforwarded⟩, hopen⟩ :
              (p.stage.flusher ≠ .running ∧ p.forwarding.flatten = []) ∧
                p.exporter.run.any (fun d => d.isOpen && d.waiting.isEmpty) = true := by
            simpa [isFlushing, isForwarded] using hready
          obtain ⟨exporter, surroundings, hstep, rfl⟩ := perform?_eq_some.1 h
          exact .close hflusher hforwarded hopen hstep
      · cases h

end Pipeline

end Chargeback
