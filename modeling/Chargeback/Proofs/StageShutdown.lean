import Chargeback.Codec.Standard
import Chargeback.Export.Exporter
import Chargeback.Proofs.MergeLaw

/-!
# What a buffering stage leaves behind when it is stopped

Records are received, the flush task flushes at its times, the token that it was started with may
be cancelled, and in the end the stage is stopped. The cancellation of the token is the moment at
which the task has noticed it: the task flushes and ends. Stopping relies on the flush task for the
last flush, ALSO WHEN THE TASK HAS ENDED: a record received after the task's own last flush is never
handed on, unless some caller flushes (`leftBehind`).

The main statement says exactly what remains: the records received in a run are handed on, merged
in consecutive parts, up to those left behind, which are merged in the buffer when the stage has
stopped. So the buffer is empty and everything was handed on if and only if nothing is left behind.
-/

namespace Chargeback

/-- The flush task after an event. -/
def Flusher.after : BufferingEvent → Flusher → Flusher
  | .cancel, .running => .ended
  | .stop, _ => .absent
  | _, f => f

namespace Buffering

/-! ## The records of a run -/

/-- The record that an event brings, if any. -/
def pushed? : BufferingEvent → Option CostRecord
  | .push r => some r
  | _ => none

/-- The records received by a list of events. -/
def pushed (es : List BufferingEvent) : List CostRecord := es.filterMap pushed?

/-- What is still to be flushed after one more event that is no end of the flush task. -/
def unflushed (rs : List CostRecord) : BufferingEvent → List CostRecord
  | .push r => rs ++ [r]
  | .flush => []
  | _ => rs

/-- The records that a stage, started and then stopped after some events, leaves in its buffer.
The task of a stage without time between its flushes never runs. Any other ends when its token is
cancelled, and then nobody but a caller flushes. -/
def leftBehind (interval : Span) (es : List BufferingEvent) : List CostRecord :=
  if interval.isZero then es.foldl unflushed []
  else match es.dropWhile (· ≠ .cancel) with
    | [] => []
    | _ :: late => late.foldl unflushed []

/-- Records were handed on in consecutive parts, each merged by key. -/
def Forwarded (rs : List CostRecord) (outs : List (List CostRecord)) : Prop :=
  ∃ parts, parts.flatten = rs ∧ List.Forall₂ MergeOf parts outs

/-! ## One event -/

/-- The event takes the whole buffer of a stage with a flush task in the state given. -/
def takes (f : Flusher) : BufferingEvent → Bool
  | .push _ => false
  | .flush => true
  | .cancel => f == .running
  | .stop => f == .running || f == .absent

/-- What is still to be flushed after one more event. -/
def pending (f : Flusher) (rs : List CostRecord) (e : BufferingEvent) : List CostRecord :=
  if takes f e then [] else rs ++ (pushed? e).toList

theorem flusher_step (e : BufferingEvent) (s : Buffering × Metrics) :
    (step e s).2.1.flusher = s.1.flusher.after e := by
  obtain ⟨b, m⟩ := s
  cases e with
  | push r => rfl
  | flush => rfl
  | cancel => cases h : b.flusher <;> simp [step, h, Flusher.after, flush, drain]
  | stop => cases h : b.flusher <;> simp [step, h, Flusher.after, flush, drain]

/-- An event that takes the buffer hands all of it on. -/
theorem step_of_takes {e : BufferingEvent} {s : Buffering × Metrics}
    (h : takes s.1.flusher e) :
    (step e s).1 = s.1.buffer.records ∧ (step e s).2.1.buffer = .empty := by
  obtain ⟨b, m⟩ := s
  cases e with
  | push r => simp [takes] at h
  | flush => exact ⟨rfl, rfl⟩
  | cancel =>
      have hf : b.flusher = .running := by simpa [takes] using h
      simp only [step, hf]
      exact ⟨rfl, rfl⟩
  | stop =>
      have hf : b.flusher = .running ∨ b.flusher = .absent := by simpa [takes] using h
      rcases hf with hf | hf <;> simp only [step, hf] <;> exact ⟨rfl, rfl⟩

/-- Any other event hands nothing on, and the buffer receives the record that the event brings. -/
theorem step_of_not_takes {e : BufferingEvent} {s : Buffering × Metrics}
    (h : ¬takes s.1.flusher e) :
    (step e s).1 = [] ∧
      (step e s).2.1.buffer = ((pushed? e).elim s.1.buffer fun r => s.1.buffer.push r) := by
  obtain ⟨b, m⟩ := s
  cases e with
  | push r => exact ⟨rfl, rfl⟩
  | flush => simp [takes] at h
  | cancel =>
      cases hf : b.flusher with
      | running => simp [takes, hf] at h
      | absent | ended | failed => simp [step, hf, pushed?]
  | stop =>
      cases hf : b.flusher with
      | running | absent => simp [takes, hf] at h
      | ended | failed => simp [step, hf, pushed?]

theorem pushed?_of_takes {f : Flusher} {e : BufferingEvent} (h : takes f e) :
    pushed? e = none := by
  cases e with
  | push r => simp [takes] at h
  | flush | cancel | stop => rfl

/-- One event hands on a part of what was to be flushed, merged, and keeps the rest merged in the
buffer. -/
theorem step_merges (e : BufferingEvent) {s : Buffering × Metrics} {rs : List CostRecord}
    (h : MergeOf rs s.1.buffer.records) :
    ∃ part, part ++ pending s.1.flusher rs e = rs ++ (pushed? e).toList ∧
      MergeOf part (step e s).1 ∧
      MergeOf (pending s.1.flusher rs e) (step e s).2.1.buffer.records := by
  by_cases ht : takes s.1.flusher e
  · obtain ⟨hout, hbuffer⟩ := step_of_takes ht
    rw [pending, if_pos ht, hout, hbuffer, pushed?_of_takes ht]
    exact ⟨rs, rfl, h, .nil⟩
  · obtain ⟨hout, hbuffer⟩ := step_of_not_takes ht
    rw [pending, if_neg ht, hout, hbuffer]
    refine ⟨[], rfl, .nil, ?_⟩
    cases pushed? e with
    | none => simpa using h
    | some r => exact h.receive r

/-! ## A run -/

/-- What is still to be flushed after a list of events. -/
def pendingAll (f : Flusher) (rs : List CostRecord) : List BufferingEvent → List CostRecord
  | [] => rs
  | e :: es => pendingAll (f.after e) (pending f rs e) es

/-- A run hands on the records that were to be flushed and those received, in consecutive parts,
up to the ones that are still to be flushed. -/
theorem run_merges (es : List BufferingEvent) {s : Buffering × Metrics} {rs : List CostRecord}
    (h : MergeOf rs s.1.buffer.records) :
    ∃ kept, kept ++ pendingAll s.1.flusher rs es = rs ++ pushed es ∧ Forwarded kept (run es s).1 ∧
      MergeOf (pendingAll s.1.flusher rs es) (run es s).2.1.buffer.records := by
  induction es generalizing s rs with
  | nil => exact ⟨[], by simp [pendingAll, pushed], ⟨[], rfl, .nil⟩, h⟩
  | cons e es ih =>
      obtain ⟨part, hpart, hout, hheld⟩ := step_merges e h
      obtain ⟨kept, hkept, ⟨parts, hparts, houts⟩, hend⟩ := ih hheld
      rw [flusher_step] at hkept hend
      refine ⟨part ++ kept, ?_, ⟨part :: parts, by simp [hparts], .cons hout houts⟩, hend⟩
      have hpushed : pushed (e :: es) = (pushed? e).toList ++ pushed es := by
        cases h : pushed? e <;> simp [pushed, h]
      rw [List.append_assoc, hpushed, ← List.append_assoc rs, ← hpart, List.append_assoc]
      exact congrArg (part ++ ·) hkept

/-! ## What is left behind -/

/-- Once no flush task runs that could end, only flushes take the buffer. -/
theorem pendingAll_of_dead {f : Flusher} (hf : f = .ended ∨ f = .failed)
    {es : List BufferingEvent} (hes : .stop ∉ es) (rs : List CostRecord) :
    pendingAll f rs (es ++ [.stop]) = es.foldl unflushed rs := by
  induction es generalizing rs with
  | nil => rcases hf with rfl | rfl <;> simp [pendingAll, pending, takes, pushed?]
  | cons e es ih =>
      have hstay : f.after e = f := by
        cases e with
        | push r | flush => rfl
        | cancel => rcases hf with rfl | rfl <;> rfl
        | stop => simp at hes
      have hnext : pending f rs e = unflushed rs e := by
        cases e with
        | push r => simp [pending, takes, pushed?, unflushed]
        | flush => simp [pending, takes, unflushed]
        | cancel => rcases hf with rfl | rfl <;> simp [pending, takes, pushed?, unflushed]
        | stop => simp at hes
      rw [List.cons_append, pendingAll, hstay, hnext, List.foldl_cons]
      exact ih (fun h => hes (List.mem_cons_of_mem _ h)) _

/-- While the flush task runs, the first cancellation decides what is left behind. -/
theorem pendingAll_of_running {es : List BufferingEvent} (hes : .stop ∉ es)
    (rs : List CostRecord) :
    pendingAll .running rs (es ++ [.stop]) =
      match es.dropWhile (· ≠ .cancel) with
      | [] => []
      | _ :: late => late.foldl unflushed [] := by
  induction es generalizing rs with
  | nil => simp [pendingAll, pending, takes]
  | cons e es ih =>
      have hrest : .stop ∉ es := fun h => hes (List.mem_cons_of_mem _ h)
      cases e with
      | push r | flush => simpa [pendingAll, Flusher.after] using ih hrest _
      | cancel =>
          -- The task ends here, and what comes later is no longer flushed by it.
          simpa [pendingAll, Flusher.after, pending, takes] using
            pendingAll_of_dead (.inl rfl) hrest []
      | stop => simp at hes

theorem pendingAll_start (target : String) (interval : Span) {es : List BufferingEvent}
    (hes : .stop ∉ es) :
    pendingAll (fresh target interval).start.flusher [] (es ++ [.stop]) =
      leftBehind interval es := by
  by_cases hzero : interval.isZero
  · rw [leftBehind, if_pos hzero, ← pendingAll_of_dead (.inr rfl) hes]
    simp [start, fresh, hzero]
  · rw [leftBehind, if_neg hzero, ← pendingAll_of_running hes []]
    simp [start, fresh, hzero]

end Buffering

/-! ## The exporter behind the stage -/

namespace Buffering

@[simp] theorem pushAll_nil (s : Buffering × Metrics) : pushAll [] s = s := rfl

theorem flusher_pushAll (rs : List CostRecord) (s : Buffering × Metrics) :
    (pushAll rs s).1.flusher = s.1.flusher := by
  induction rs generalizing s with
  | nil => rfl
  | cons r rs ih => exact ih _

end Buffering

namespace Exporter

variable [Codec.Codecs]

/-- Records that come with a stop are accepted before it. -/
theorem stopAfter_eq (rs : List CostRecord) (e : Exporter) (s : Surroundings) :
    e.stopAfter rs s = (e.acceptAll rs s).1.stop (e.acceptAll rs s).2 := by
  cases e with
  | stats | http _ | clickhouse _ => rfl
  | buffering stage t next =>
      have hflusher := Buffering.flusher_pushAll rs (stage, s.metrics)
      simp only [stop, stopAfter, acceptAll, passThrough, Buffering.pushAll_nil, hflusher]

/-- Stopping a stage hands what its last flush took to the exporter behind, and stops that one
afterwards. -/
theorem stop_buffering {stage : Buffering} (h : stage.flusher ≠ .failed) (t : Nat)
    (next : Exporter) (s : Surroundings) :
    (Exporter.buffering stage t next).stop s =
      let (out, stage, metrics) := Buffering.step .stop (stage, s.metrics)
      let (next, s) := next.acceptAll out { s with metrics }
      let (outcome, next, s) := next.stop s
      (outcome, .buffering stage t next, s) := by
  have hflusher : (stage.flusher == .failed) = false := by simpa using h
  simp only [stop, stopAfter, passThrough, Buffering.pushAll_nil, hflusher, Bool.false_eq_true,
    if_false]
  rw [stopAfter_eq]
  rfl

end Exporter

namespace Buffering

/-! ## Stopping -/

theorem run_cons (e : BufferingEvent) (es : List BufferingEvent) (s : Buffering × Metrics) :
    run (e :: es) s = ((step e s).1 :: (run es (step e s).2).1, (run es (step e s).2).2) := rfl

/-- The last event of a run hands on what it takes after everything else. -/
theorem run_concat (es : List BufferingEvent) (e : BufferingEvent) (s : Buffering × Metrics) :
    run (es ++ [e]) s =
      ((run es s).1 ++ [(step e (run es s).2).1], (step e (run es s).2).2) := by
  induction es generalizing s with
  | nil => rfl
  | cons f es ih =>
      rw [List.cons_append, run_cons, ih, run_cons]
      rfl

theorem flusher_run_ne_failed (es : List BufferingEvent) {s : Buffering × Metrics}
    (h : s.1.flusher ≠ .failed) : (run es s).2.1.flusher ≠ .failed := by
  induction es generalizing s with
  | nil => exact h
  | cons e es ih =>
      have hnext : (step e s).2.1.flusher ≠ .failed := by
        rw [flusher_step]
        cases e with
        | push r | flush => exact h
        | cancel => cases hf : s.1.flusher <;> simp [Flusher.after, hf] at h ⊢
        | stop => simp [Flusher.after]
      exact ih hnext

/-- **What stopping leaves.** In a run of a started stage, whatever the order of the records, the
flushes and the cancellation of its token, everything received is handed on, merged in
consecutive parts, up to the records left behind, and these are merged in the buffer when the
stage has stopped. So nothing is lost if and only if nothing is left behind. What stopping takes is
accepted by the exporter behind the stage before that one is stopped. -/
theorem stopped_empty_iff [Codec.Codecs] (target : String) (interval : Span) (m : Metrics)
    (es : List BufferingEvent) (hes : .stop ∉ es) :
    let before := run es ((fresh target interval).start, m)
    let stopped := run (es ++ [.stop]) ((fresh target interval).start, m)
    (stopped.2.1.buffer = .empty ∧ Forwarded (pushed es) stopped.1 ↔ leftBehind interval es = []) ∧
      (∃ kept, kept ++ leftBehind interval es = pushed es ∧ Forwarded kept stopped.1 ∧
        MergeOf (leftBehind interval es) stopped.2.1.buffer.records) ∧
      (interval.isZero = false → ∃ last, stopped.1 = before.1 ++ [last] ∧
        ∀ (t : Nat) (next : Exporter) (s : Surroundings),
          let handed := next.acceptAll last { s with metrics := stopped.2.2 }
          let (outcome, behind, after) := handed.1.stop handed.2
          (Exporter.buffering before.2.1 t next).stop { s with metrics := before.2.2 } =
            (outcome, .buffering stopped.2.1 t behind, after)) := by
  intro before stopped
  have hfresh : MergeOf [] (fresh target interval).start.buffer.records := .nil
  obtain ⟨kept, hkept, hout, hheld⟩ := run_merges (es ++ [.stop])
    (s := ((fresh target interval).start, m)) hfresh
  rw [pendingAll_start target interval hes] at hkept hheld
  have hall : kept ++ leftBehind interval es = pushed es := by
    simpa [pushed, List.filterMap_cons, pushed?] using hkept
  refine ⟨⟨fun ⟨hempty, _⟩ => ?_, fun hnone => ?_⟩, ⟨kept, hall, hout, hheld⟩, fun hinterval => ?_⟩
  · rw [hempty] at hheld
    exact hheld.eq_nil
  · rw [hnone] at hall hheld
    rw [List.append_nil] at hall
    exact ⟨MergeBuffer.eq_empty hheld.out_eq_nil, hall ▸ hout⟩
  · have hbegun : (fresh target interval).start.flusher ≠ .failed := by
      simp [start, fresh, hinterval]
    have hlive : before.2.1.flusher ≠ .failed :=
      flusher_run_ne_failed es (s := ((fresh target interval).start, m)) hbegun
    have hrun : stopped = (before.1 ++ [(step .stop before.2).1], (step .stop before.2).2) :=
      run_concat es .stop _
    refine ⟨(step .stop before.2).1, by rw [hrun], fun t next s => ?_⟩
    rw [Exporter.stop_buffering hlive, hrun]

/-- A record is received, the flush task flushes and ends, and the stage is stopped: nothing is
left behind. -/
theorem stopped_empty_after_cancel :
    let es : List BufferingEvent := [.push (cpuRecord 5 100), .cancel]
    .stop ∉ es ∧ leftBehind (.ofSeconds 300) es = [] ∧
      (run (es ++ [.stop]) ((fresh "stats" (.ofSeconds 300)).start, .fresh)).2.1.buffer =
        .empty := by
  intro es
  have hes : .stop ∉ es := by decide
  have hnone : leftBehind (.ofSeconds 300) es = [] := by decide
  exact ⟨hes, hnone, ((stopped_empty_iff "stats" _ .fresh es hes).1.2 hnone).1⟩

/-- A record that is received after the flush task ended is still in the buffer when the stage has
stopped, and was never handed on. -/
theorem stopped_holds_late_record :
    let late := cpuRecord 7 100
    let stopped := run [.cancel, .push late, .stop]
      ((fresh "stats" (.ofSeconds 300)).start, .fresh)
    stopped.1.flatten = [] ∧ stopped.2.1.buffer.records = [late] := by decide

end Buffering

end Chargeback
