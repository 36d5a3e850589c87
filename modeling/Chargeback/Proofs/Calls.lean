import Chargeback.Cycle.Emission
import Chargeback.Proofs.Conservation
import Chargeback.Proofs.StageShutdown

/-!
# Conservation for the calls of the program

The program follows a call through to where it ends, lets the tasks in the background make all
their steps, and lets timers go off one after the other. These are some of the orders of steps of a
pipeline, and the program decides on them, so it can be said that stopping succeeds and what has
arrived by then.

The invariant is that of a pipeline between two calls, when nothing is being emitted or handed on.
-/

namespace Chargeback

theorem HttpExporter.Holds.of_collector [Codec.Codecs] {settings : HttpSettings}
    {base : Collector} {accepted : List CostRecord} {isOpen : Bool} {e : HttpExporter}
    {s s' : Surroundings} (h : e.Holds settings base accepted isOpen s) (hcollector : s'.collector = s.collector) :
    e.Holds settings base accepted isOpen s' := by
  obtain ⟨d, hopen, hd⟩ := h
  exact ⟨d, hopen, hd.of_collector hcollector⟩

theorem MergeAccount.pushAll {i : Intake} {taken : List (List CostRecord)} {s : Buffering × Metrics}
    (h : MergeAccount i taken s.1.buffer) (rs : List CostRecord) :
    MergeAccount (rs.foldl (fun i r => i.receive r) i) taken (Buffering.pushAll rs s).1.buffer := by
  induction rs generalizing i s with
  | nil => exact h
  | cons r rs ih => exact ih (s := (Buffering.step (.push r) s).2) (h.push r)

theorem Intake.all_receiveAll (i : Intake) (rs : List CostRecord) :
    (rs.foldl (fun i r => i.receive r) i).all = i.all ++ rs := by
  induction rs generalizing i with
  | nil => simp
  | cons r rs ih => simp [ih]

namespace Exporter

variable {settings : HttpSettings} {base : Collector} {produced : List CostRecord}
  {x : Exporter} {s s' : Surroundings}

/-! ## One record after the other -/

theorem acceptAll_nil (x : Exporter) (s : Surroundings) : x.acceptAll [] s = (x, s) := by
  cases x <;> rfl

/-- The first of some records is handed over before the others. -/
theorem acceptAll_cons (r : CostRecord) (rs : List CostRecord) (x : Exporter) (s : Surroundings) :
    x.acceptAll (r :: rs) s = (x.accept r s).1.acceptAll rs (x.accept r s).2 := by
  cases x <;> rfl

/-- A single exporter gets the records one after the other. -/
theorem acceptByEach_singleton (rs : List CostRecord) (x : Exporter) (s : Surroundings) :
    acceptByEach rs [x] s = ([(x.acceptAll rs s).1], (x.acceptAll rs s).2) := by
  induction rs generalizing x s with
  | nil => simp [acceptByEach, acceptAll_nil]
  | cons r rs ih =>
      rw [acceptAll_cons, ← ih]
      rfl

/-! ## Between two calls -/

/-- A running stage in front of an HTTP exporter, with an account of all that was produced, where
the exporter carries all that was flushed. -/
structure InBalance [Codec.Codecs] (settings : HttpSettings) (base : Collector)
    (produced : List CostRecord) (stage : Buffering) (e : HttpExporter) (s : Surroundings) : Prop where
  running : stage.flusher = .running
  books : ∃ i flushed, i.all = produced ∧ MergeAccount i flushed stage.buffer ∧
    e.Holds settings base flushed.flatten true s

/-- The exporter is a stage in front of an HTTP exporter, in balance. -/
def Conserves [Codec.Codecs] (settings : HttpSettings) (base : Collector)
    (produced : List CostRecord) (x : Exporter) (s : Surroundings) : Prop :=
  ∃ stage t e, x = .buffering stage t (.http e) ∧ InBalance settings base produced stage e s

variable [Codec.Codecs] {stage : Buffering} {e : HttpExporter}

theorem InBalance.pushAll (h : InBalance settings base produced stage e s)
    (rs : List CostRecord) :
    InBalance settings base (produced ++ rs) (Buffering.pushAll rs (stage, s.metrics)).1 e
      { s with metrics := (Buffering.pushAll rs (stage, s.metrics)).2 } := by
  obtain ⟨hrunning, i, flushed, hall, hmerged, hholds⟩ := h
  refine ⟨?_, _, flushed, ?_, hmerged.pushAll (s := (stage, s.metrics)) rs, hholds.of_collector rfl⟩
  · rw [Buffering.flusher_pushAll]
    exact hrunning
  · rw [Intake.all_receiveAll, hall]

/-- What a flush takes is accepted by the exporter behind the stage. -/
theorem InBalance.flush (h : InBalance settings base produced stage e s) (m : Metrics) :
    InBalance settings base produced { stage with buffer := .empty }
      (e.acceptAll stage.buffer.records { s with metrics := m }).1
      (e.acceptAll stage.buffer.records { s with metrics := m }).2 := by
  obtain ⟨hrunning, i, flushed, hall, hmerged, hholds⟩ := h
  have hcounted : e.Holds settings base flushed.flatten true { s with metrics := m } :=
    hholds.of_collector rfl
  have haccepted := hcounted.acceptAll stage.buffer.records
  refine ⟨hrunning, i.cut, flushed ++ [stage.buffer.records], by simpa using hall, hmerged.drain,
    ?_⟩
  simpa using haccepted

theorem Conserves.acceptAll (h : Conserves settings base produced x s) (rs : List CostRecord) :
    Conserves settings base (produced ++ rs) (x.acceptAll rs s).1 (x.acceptAll rs s).2 := by
  obtain ⟨stage, t, e, rfl, hbalance⟩ := h
  exact ⟨_, t, e, rfl, hbalance.pushAll rs⟩

theorem Conserves.flush? (h : Conserves settings base produced x s)
    {next : Exporter × Surroundings} (hflush : x.flush? s = some next) :
    Conserves settings base produced next.1 next.2 := by
  obtain ⟨stage, t, e, rfl, hbalance⟩ := h
  cases hflush
  exact ⟨_, t, _, rfl, hbalance.flush _⟩

theorem Conserves.settle (h : Conserves settings base produced x s) :
    Conserves settings base produced (x.settle s).1 (x.settle s).2 := by
  obtain ⟨stage, t, e, rfl, hrunning, i, flushed, hall, hmerged, hholds⟩ := h
  exact ⟨stage, t, _, rfl, hrunning, i, flushed, hall, hmerged, hholds.settle⟩

/-- Timers flush the stage, or not, and tick. -/
theorem Conserves.fire (h : Conserves settings base produced x s) :
    Conserves settings base produced (x.fireAfter [] s).1 (x.fireAfter [] s).2 := by
  obtain ⟨stage, t, e, rfl, hbalance⟩ := h
  unfold fireAfter
  split
  · obtain ⟨hrunning, i, flushed, hall, hmerged, hholds⟩ := hbalance.flush _
    exact ⟨_, _, _, rfl, hrunning, i, flushed, hall, hmerged, hholds.fire⟩
  · obtain ⟨hrunning, i, flushed, hall, hmerged, hholds⟩ := hbalance
    exact ⟨_, t, _, rfl, hrunning, i, flushed, hall, hmerged, (hholds.of_collector rfl).fire⟩

theorem Conserves.of_collector (h : Conserves settings base produced x s)
    (hcollector : s'.collector = s.collector) : Conserves settings base produced x s' := by
  obtain ⟨stage, t, e, rfl, hrunning, i, flushed, hall, hmerged, hholds⟩ := h
  exact ⟨stage, t, e, rfl, hrunning, i, flushed, hall, hmerged, hholds.of_collector hcollector⟩

theorem Conserves.sleepUntil (h : Conserves settings base produced x s) (time n : Nat) :
    Conserves settings base produced (x.sleepUntil time n s).1 (x.sleepUntil time n s).2 := by
  induction n generalizing x s with
  | zero => exact h.of_collector rfl
  | succ n ih =>
      -- The tasks come to rest before the earliest timer goes off.
      have hsettled := h.settle
      unfold Exporter.sleepUntil
      simp only
      split
      · split
        · next due _ _ =>
            have hwoken : Conserves settings base produced (x.settle s).1
                { (x.settle s).2 with now := max (x.settle s).2.now due } :=
              hsettled.of_collector rfl
            exact ih hwoken.fire
        · exact hsettled.of_collector rfl
      · exact hsettled.of_collector rfl

theorem Conserves.sleep (h : Conserves settings base produced x s) (span : Span) :
    Conserves settings base produced (x.sleep span s).1 (x.sleep span s).2 := by
  exact (h.sleepUntil (s.now + span.nanos) (x.timers * (span.nanos + 1) + 1)).settle

/-! ## Calls -/

/-- The exporter was just started, behind its stage. -/
theorem Conserves.start {interval : Span} {next : Exporter}
    (h : ((Exporter.http (.fresh settings)).behindBuffer interval).start s = (.ok (), next, s'))
    (hinterval : interval.isZero = false) (hfits : HttpExporter.fits settings s.room = true) :
    Conserves settings s.collector [] next s' := by
  obtain ⟨e, hhttp, rfl⟩ := start_behindBuffer h
  refine ⟨_, _, e, rfl, ?_, {}, [], rfl, .empty, _, rfl, .start hfits hhttp⟩
  simp [Buffering.start, Buffering.fresh, hinterval]

/-- A cycle hands its records to the stage; one that fails hands over nothing. -/
theorem Conserves.emit (h : Conserves settings base produced x s) (c : Coster)
    (input : CycleInput) :
    Conserves settings base (produced ++ c.produces input)
      ((c.emit input [x] s).2.2.1.headD x) (c.emit input [x] s).2.2.2 ∧
      (c.emit input [x] s).2.1 = (c.cycle input .fresh).2.1 := by
  obtain ⟨hresult, hcoster⟩ := Pipeline.cycle_fresh c input s.metrics
  cases hcycle : c.cycle input s.metrics with
  | mk result after =>
      obtain ⟨c', m⟩ := after
      rw [hcycle] at hresult hcoster
      cases result with
      | error fault =>
          have hproduces : c.produces input = [] := by
            simp [Coster.produces, ← hresult, Except.toOption]
          have hemit : c.emit input [x] s = (.error fault, c', [x], { s with metrics := m }) := by
            simp [Coster.emit, hcycle]
          rw [hemit, hproduces, List.append_nil]
          exact ⟨h.of_collector rfl, hcoster⟩
      | ok records =>
          have hproduces : c.produces input = records := by
            simp [Coster.produces, ← hresult, Except.toOption]
          have hemit : c.emit input [x] s = (.ok records.length, c',
              [(x.acceptAll records { s with metrics := m }).1],
              (x.acceptAll records { s with metrics := m }).2) := by
            simp [Coster.emit, hcycle, acceptByEach_singleton]
          have hcounted : Conserves settings base produced x { s with metrics := m } :=
            h.of_collector rfl
          rw [hemit, hproduces]
          exact ⟨hcounted.acceptAll records, hcoster⟩

/-- What may be done with a coster and its only exporter before it is stopped. -/
inductive Call where
  /-- The coster is called. -/
  | emit (input : CycleInput)
  /-- The stage is flushed by a caller. -/
  | flush
  /-- The tasks in the background are left to themselves. -/
  | settle
  /-- The clock runs, and timers go off. -/
  | sleep (span : Span)

/-- Makes a call. -/
def make : Call → Coster × Exporter × Surroundings → Coster × Exporter × Surroundings
  | .emit input, (c, x, s) =>
    let (_, c, xs, s) := c.emit input [x] s
    (c, xs.headD x, s)
  | .flush, (c, x, s) => (c, (x.flush? s).getD (x, s))
  | .settle, (c, x, s) => (c, x.settle s)
  | .sleep span, (c, x, s) => (c, x.sleep span s)

/-- Makes one call after the other. -/
def makeAll (calls : List Call) (start : Coster × Exporter × Surroundings) :
    Coster × Exporter × Surroundings :=
  calls.foldl (fun state call => make call state) start

/-- The inputs of the cycles among some calls. -/
def inputs (calls : List Call) : List CycleInput :=
  calls.filterMap fun
    | .emit input => some input
    | _ => none

/-- Whatever the calls, all that was produced is conserved. -/
theorem Conserves.makeAll (h : Conserves settings base produced x s) (calls : List Call)
    (c : Coster) :
    Conserves settings base (produced ++ c.producesAll (inputs calls))
      (makeAll calls (c, x, s)).2.1 (makeAll calls (c, x, s)).2.2 := by
  induction calls generalizing produced x s c with
  | nil =>
      rw [inputs, List.filterMap_nil, Coster.producesAll, List.append_nil]
      exact h
  | cons call calls ih =>
      cases call with
      | emit input =>
          obtain ⟨hnext, hcoster⟩ := h.emit c input
          have hrest := ih hnext (c.emit input [x] s).2.1
          have hproduces : c.producesAll (inputs (.emit input :: calls)) =
              c.produces input ++ (c.emit input [x] s).2.1.producesAll (inputs calls) := by
            rw [hcoster]
            rfl
          rw [hproduces, ← List.append_assoc]
          exact hrest
      | flush =>
          have hnext : Conserves settings base produced ((x.flush? s).getD (x, s)).1
              ((x.flush? s).getD (x, s)).2 := by
            cases hflush : x.flush? s with
            | none => exact h
            | some next => exact h.flush? hflush
          exact ih hnext c
      | settle => exact ih h.settle c
      | sleep span => exact ih (h.sleep span) c

/-- **Stopping conserves cost.** Whatever calls are made on a coster whose only exporter is a
started stage in front of an HTTP exporter with room for a batch, with a collector that accepts every
batch: stopping the exporter succeeds, and then the collector has received the records of the
flushes, each with one record for every key at most, with the keys of what the cycles produced and,
as long as no sum stopped at an end of the range, the same sums. -/
theorem stop_conserves (c : Coster) {interval : Span} {next : Exporter}
    (hstart :
      ((Exporter.http (.fresh settings)).behindBuffer interval).start s = (.ok (), next, s'))
    (hinterval : interval.isZero = false) (htimeout : settings.batchTimeout.isZero = false)
    (hroom : max settings.batchSize 1 ≤ s.room) (haccepts : s.collector.Accepts settings)
    (calls : List Call) :
    let before := makeAll calls (c, next, s')
    let stopped := before.2.1.stop before.2.2
    stopped.1 = .ok () ∧
      ∃ (i : Intake) (flushed batches : List (List CostRecord)) (posts : List Post),
        i.all = c.producesAll (inputs calls) ∧
        stopped.2.2.collector.received = s.collector.received ++ posts ∧
        Posted settings batches posts ∧ batches.flatten.Perm flushed.flatten ∧
        (∀ out ∈ flushed, (out.map CostRecord.key).Nodup) ∧
        ∀ k : CostKey,
          (k ∈ batches.flatten.map CostRecord.key ↔
            k ∈ (c.producesAll (inputs calls)).map CostRecord.key) ∧
          (i.Exact k → k.sumOf batches.flatten = k.sumOf (c.producesAll (inputs calls))) := by
  intro before stopped
  obtain ⟨stage, t, e, hbefore, hrunning, i, flushed, hall, hmerged, hholds⟩ :=
    (Conserves.start hstart hinterval (HttpExporter.fits_eq_true_iff.2 ⟨htimeout, hroom⟩)).makeAll
      calls c
  obtain ⟨_, hhttp, -⟩ := start_behindBuffer hstart
  obtain ⟨⟨⟨hqueue, hworkers⟩, -⟩, -⟩ := HttpExporter.start_fresh hhttp
  -- The last flush takes the buffer, and the exporter accepts that before it is stopped.
  let counted : Surroundings :=
    { before.2.2 with
      metrics := ({ stage with flusher := .absent }.flush before.2.2.metrics).2.2 }
  let last := e.acceptAll stage.buffer.records counted
  have hcounted : e.Holds settings s.collector flushed.flatten true counted :=
    hholds.of_collector rfl
  obtain ⟨hok, batches, posts, hreceived, hposted, hperm⟩ :=
    (hcounted.acceptAll stage.buffer.records).stop_delivers haccepts hqueue hworkers
  have hstop : stopped.1 = (last.1.stop last.2).1 ∧ stopped.2.2 = (last.1.stop last.2).2.2 := by
    have hfailed : stage.flusher ≠ .failed := by simp [hrunning]
    rw [show stopped = before.2.1.stop before.2.2 from rfl, hbefore, stop_buffering hfailed]
    simp only [Buffering.step, hrunning]
    exact ⟨rfl, rfl⟩
  have hdrained := hmerged.drain
  have hbatches : batches.flatten.Perm (flushed ++ [stage.buffer.records]).flatten := by
    simpa using hperm.symm
  refine ⟨hstop.1.trans hok, i.cut, _, batches, posts, by simpa using hall, hstop.2 ▸ hreceived,
    hposted, hbatches, MergeOf.nodup_keys hdrained.taken, fun k => ?_⟩
  have hconserved := hdrained.conserves rfl hbatches k
  rw [Intake.all_cut, hall, List.nil_append] at hconserved
  exact hconserved

end Exporter

end Chargeback
