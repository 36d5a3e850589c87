import Chargeback.Proofs.BilledTime
import Chargeback.Proofs.Counting
import Chargeback.Proofs.InstantText

/-!
# What a cycle leaves behind

A cycle fails at one of three points: the workloads cannot be listed, the nodes cannot be listed, or
no time has passed since the last cycle that succeeded. Wherever it fails, it leaves NOTHING but one
more failed cycle and one more observation of a duration. A cycle that succeeds hands its records
to every exporter, all of them, once each and in order (`emit_all_or_nothing`).

Whether time has passed is measured, and not read off the order of the instants. The two agree for
all instants but some at a midnight. A leap second counts if it lies between two instants of one day;
one that ends a day runs on into the first second of the next day, and an instant in it may be
measured as later than one in that second (`emit_succeeds_before_last`).
-/

namespace Chargeback

/-! ## Measured time and the order of instants -/

namespace Instant

/-- An instant comes before another one by date and clock. A leap second comes after the second that
it follows and before the next one. -/
def Earlier (s t : Instant) : Prop :=
  s.seconds < t.seconds ∨ s.seconds = t.seconds ∧ s.nanos < t.nanos

/-- One of the instants is in the last second of a day or the leap second after it, and the other
in the first second of the next day. -/
def MeetAtMidnight (s t : Instant) : Prop :=
  s.seconds + 1 = t.seconds ∧ t.seconds % perDay = 0 ∨
    t.seconds + 1 = s.seconds ∧ s.seconds % perDay = 0

/-- An instant counts as later than another one: at a midnight, where a leap second runs on into the
next day, by the seconds and nanoseconds counted, and elsewhere by date and clock. -/
def CountsAfter (t s : Instant) : Prop :=
  MeetAtMidnight s t ∧ s.toNanos < t.toNanos ∨ ¬MeetAtMidnight s t ∧ s.Earlier t

variable {s t : Instant}

/-- Outside of leap seconds the later instant is the one that comes later by date and clock. -/
theorem countsAfter_iff_earlier (ht : t.nanos < Span.perSecond) (hs : s.nanos < Span.perSecond) :
    t.CountsAfter s ↔ s.Earlier t := by
  have horder : s.toNanos < t.toNanos ↔ s.Earlier t := by
    simp only [toNanos, Earlier, Span.perSecond] at ht hs ⊢
    omega
  by_cases hmeet : MeetAtMidnight s t
  · simp [CountsAfter, hmeet, horder]
  · simp [CountsAfter, hmeet]

/-- Time has passed from one instant to another exactly if that counts as later. -/
theorem nanosSince_pos_iff (ht : t.IsReal) (hs : s.IsReal) :
    0 < t.nanosSince s ↔ t.CountsAfter s := by
  obtain ⟨-, htbound, htleap⟩ := isReal_iff.1 ht
  obtain ⟨-, hsbound, hsleap⟩ := isReal_iff.1 hs
  have htclock := t.secondOfDay_cast
  have hsclock := s.secondOfDay_cast
  have hsecond : Span.perSecond = 1000000000 := rfl
  rw [hsecond] at htbound htleap hsbound hsleap
  rw [perDay] at htclock hsclock
  simp only [nanosSince, CountsAfter, MeetAtMidnight, Earlier, toNanos, perDay, hsecond,
    Bool.and_eq_true, decide_eq_true_eq, Nat.cast_ofNat]
  -- A leap second counts if it lies between the clocks, whatever the days.
  split
  · omega
  · split
    · omega
    · omega

end Instant

/-! ## Records handed over one by one -/

/-- A record is handed to the exporter at a place. -/
structure Handover where
  place : Nat
  record : CostRecord
  deriving DecidableEq, Repr

namespace Handover

/-- Hands the record over. -/
def make (h : Handover) : List Exporter × Surroundings → List Exporter × Surroundings
  | (es, s) => match es[h.place]? with
    | some e => let (e, s) := e.accept h.record s; (es.set h.place e, s)
    | none => (es, s)

/-- Makes one hand-over after the other. -/
def makeAll (hs : List Handover) (x : List Exporter × Surroundings) :
    List Exporter × Surroundings :=
  hs.foldl (fun x h => h.make x) x

/-- The records that were handed to the exporter at a place, in order. -/
def recordsAt (place : Nat) (hs : List Handover) : List CostRecord :=
  (hs.filter (·.place = place)).map (·.record)

/-- A record for each of the first exporters, in order. -/
def round (n : Nat) (r : CostRecord) : List Handover := (List.range n).map fun place => ⟨place, r⟩

theorem makeAll_append (hs hs' : List Handover) (x : List Exporter × Surroundings) :
    makeAll (hs ++ hs') x = makeAll hs' (makeAll hs x) := List.foldl_append

/-- Behind an exporter hand-overs are made as they are without it. -/
theorem makeAll_behind (e : Exporter) (hs : List Handover) (es : List Exporter) (s : Surroundings) :
    makeAll (hs.map fun h => { h with place := h.place + 1 }) (e :: es, s) =
      (e :: (makeAll hs (es, s)).1, (makeAll hs (es, s)).2) := by
  induction hs generalizing es s with
  | nil => rfl
  | cons h hs ih =>
      have hmake : make { h with place := h.place + 1 } (e :: es, s) =
          (e :: (h.make (es, s)).1, (h.make (es, s)).2) := by
        simp only [make, List.getElem?_cons_succ]
        cases es[h.place]? with
        | none => rfl
        | some e' => rfl
      show makeAll (hs.map _) (make { h with place := h.place + 1 } (e :: es, s)) = _
      rw [hmake, ih]
      rfl

/-- A round reaches every exporter, the first one first. -/
theorem makeAll_round (r : CostRecord) (es : List Exporter) (s : Surroundings) :
    makeAll (round es.length r) (es, s) = Exporter.handRound r es s := by
  induction es generalizing s with
  | nil => rfl
  | cons e es ih =>
      have hround : round (e :: es).length r =
          ⟨0, r⟩ :: (round es.length r).map fun h => { h with place := h.place + 1 } := by
        simp [round, List.range_succ_eq_map]
      rw [hround]
      show makeAll ((round es.length r).map _) ((e.accept r s).1 :: es, (e.accept r s).2) = _
      rw [makeAll_behind, ih]
      rfl

theorem length_handRound (r : CostRecord) (es : List Exporter) (s : Surroundings) :
    (Exporter.handRound r es s).1.length = es.length := by
  induction es generalizing s with
  | nil => rfl
  | cons e es ih => exact congrArg (· + 1) (ih _)

/-- The records go round one by one. -/
theorem makeAll_rounds (rs : List CostRecord) (es : List Exporter) (s : Surroundings) :
    makeAll (rs.flatMap (round es.length)) (es, s) = Exporter.acceptByEach rs es s := by
  induction rs generalizing es s with
  | nil => rfl
  | cons r rs ih =>
      rw [List.flatMap_cons, makeAll_append, makeAll_round, ← length_handRound r es s, ih]
      rfl

theorem recordsAt_round (n place : Nat) (r : CostRecord) :
    recordsAt place (round n r) = if place < n then [r] else [] := by
  induction n with
  | zero => rfl
  | succ n ih =>
      have hround : round (n + 1) r = round n r ++ [⟨n, r⟩] := by
        simp [round, List.range_succ]
      rw [recordsAt, hround, List.filter_append, List.map_append, ← recordsAt, ih]
      by_cases hlast : n = place
      · subst hlast
        simp
      · have hless : place < n + 1 ↔ place < n := by omega
        simp [hlast, hless]

/-- In rounds every exporter is handed all records, once each and in order. -/
theorem recordsAt_rounds (n place : Nat) (rs : List CostRecord) :
    recordsAt place (rs.flatMap (round n)) = if place < n then rs else [] := by
  induction rs with
  | nil => simp [recordsAt]
  | cons r rs ih =>
      rw [List.flatMap_cons, recordsAt, List.filter_append, List.map_append, ← recordsAt,
        ← recordsAt, ih, recordsAt_round]
      split
      · rfl
      · rfl

end Handover

/-! ## How a cycle ends -/

namespace Coster

variable {c : Coster} {input : CycleInput}

/-- A cycle that cannot be priced for want of time. -/
theorem elapsed_eq_error_iff {now : Instant} :
    (∃ fault, c.elapsed now = .error fault) ↔ ∃ t, c.lastRun = some t ∧ now.nanosSince t ≤ 0 := by
  unfold elapsed
  cases c.lastRun with
  | none => simp
  | some last =>
      by_cases hpassed : now.nanosSince last ≤ 0
      · simp [hpassed]
      · simp [hpassed]

/-- Pricing fails with either listing, or for want of time. -/
theorem price_eq_error_iff :
    (∃ fault, c.price input = .error fault) ↔
      (∃ cause, input.workloads = .error cause) ∨ (∃ cause, input.nodes = .error cause) ∨
        ∃ t, c.lastRun = some t ∧ input.now.nanosSince t ≤ 0 := by
  rw [← elapsed_eq_error_iff]
  obtain ⟨now, workloads, nodes⟩ := input
  cases workloads with
  | error cause => simp [price, Except.mapError, bind, Except.bind]
  | ok ws =>
      cases nodes with
      | error cause => simp [price, Except.mapError, bind, Except.bind]
      | ok ns =>
          cases helapsed : c.elapsed now with
          | error fault => simp [price, Except.mapError, bind, Except.bind, helapsed]
          | ok span => simp [price, Except.mapError, bind, Except.bind, pure, Except.pure, helapsed]

/-- What is priced are the workloads that pass the filters, on the nodes listed. -/
theorem price_eq_ok {p : Priced} (h : c.price input = .ok p) :
    ∃ ws ns, input.workloads = .ok ws ∧ input.nodes = .ok ns ∧
      p.records = (calculate c.strategies c.table p.elapsed (WorkloadFilter.keep c.filters ws) ns).map
        (c.toRecord input.now) := by
  have helapsed := elapsed_of_price h
  obtain ⟨now, workloads, nodes⟩ := input
  cases workloads with
  | error cause => cases h
  | ok ws =>
      cases nodes with
      | error cause => cases h
      | ok ns =>
          refine ⟨ws, ns, rfl, rfl, ?_⟩
          simp only [price, Except.mapError, helapsed, bind, Except.bind, pure, Except.pure,
            Except.ok.injEq] at h
          rw [← h]

/-- The span that a cycle prices: the time since the last that succeeded; before any, the
interval. -/
def Covers (c : Coster) (last : Option Instant) (now : Instant) (span : Span) : Prop :=
  match last with
  | none => span = c.interval
  | some t => (span.nanos : Int) = now.nanosSince t ∧ 0 < span.nanos

theorem covers_of_elapsed {now : Instant} {span : Span} (h : c.elapsed now = .ok span) :
    c.Covers c.lastRun now span := by
  unfold elapsed at h
  unfold Covers
  cases hlast : c.lastRun with
  | none =>
      rw [hlast] at h
      cases h
      rfl
  | some t =>
      simp only [hlast] at h
      split at h
      · cases h
      · cases h
        constructor
        · simp only
          omega
        · simp only
          omega

theorem emit_of_error {fault : CycleFault} (h : c.price input = .error fault) (es : List Exporter)
    (s : Surroundings) :
    c.emit input es s = (.error fault, { c with phase := .idle }, es,
      { s with metrics := s.metrics.cycleEnded false input.took }) := by
  have hphase : { c with phase := .calculating }.price input = .error fault := h
  simp only [emit, cycle, hphase]

theorem emit_of_ok {p : Priced} (h : c.price input = .ok p) (es : List Exporter)
    (s : Surroundings) :
    let counted := (c.publish p s.metrics).cycleEnded true input.took
    c.emit input es s = (.ok p.records.length,
      { c with phase := .idle, lastRun := some input.now },
      Exporter.acceptByEach p.records es { s with metrics := counted }) := by
  have hphase : { c with phase := .calculating }.price input = .ok p := h
  simp only [emit, cycle, hphase]

/-! ## Costers that are called again and again -/

/-- A coster can come to a state by calls at real times; the last that succeeded was at the time
given. -/
inductive Reached : Option Instant → Coster → Prop
  | new {c : Coster} (hphase : c.phase = .idle) (hrun : c.lastRun = none) : Reached none c
  | failed {last : Option Instant} {c : Coster} {input : CycleInput} {fault : CycleFault}
      {es : List Exporter} {s : Surroundings} (h : Reached last c)
      (hcall : (c.emit input es s).1 = .error fault) : Reached last (c.emit input es s).2.1
  | succeeded {last : Option Instant} {c : Coster} {input : CycleInput} {n : Nat}
      {es : List Exporter} {s : Surroundings} (h : Reached last c) (hreal : input.now.IsReal)
      (hcall : (c.emit input es s).1 = .ok n) : Reached (some input.now) (c.emit input es s).2.1

/-- A coster knows when its last cycle that succeeded was. -/
theorem Reached.lastRun {last : Option Instant} (h : Reached last c) :
    c.lastRun = last ∧ ∀ t, last = some t → t.IsReal := by
  induction h with
  | new _ hrun => exact ⟨hrun, by simp⟩
  | @failed last c input fault es s _ hcall ih =>
      cases hprice : c.price input with
      | error fault =>
          rw [emit_of_error hprice]
          exact ih
      | ok p =>
          rw [emit_of_ok hprice] at hcall
          cases hcall
  | @succeeded last c input n es s _ hreal hcall ih =>
      cases hprice : c.price input with
      | error fault =>
          rw [emit_of_error hprice] at hcall
          cases hcall
      | ok p =>
          rw [emit_of_ok hprice]
          refine ⟨rfl, ?_⟩
          intro t ht
          cases ht
          exact hreal

/-! ## All or nothing -/

/-- A cycle leaves nothing behind: the coster is idle, no exporter was handed anything, and nothing
is counted but one more failed cycle and the duration of a cycle. The count is exact up to
`2 ^ 53`. -/
structure LeavesNothing (c c' : Coster) (es es' : List Exporter) (s s' : Surroundings) : Prop where
  coster : c' = { c with phase := .idle }
  exporters : es' = es
  surroundings : s' = { s with metrics := { s.metrics with
    cycles := s'.metrics.cycles, cycleDuration := s'.metrics.cycleDuration } }
  failed : s'.metrics.cycles.read "failed" = s.metrics.cycles.read "failed" + Binary64.ofNat 1
  counted : ∀ k < 2 ^ 53, s.metrics.cycles.read "failed" = Binary64.ofNat k →
    s'.metrics.cycles.read "failed" = Binary64.ofNat (k + 1)
  others : ∀ status, status ≠ "failed" →
    s'.metrics.cycles.read status = s.metrics.cycles.read status

/-- A cycle has handed all of some records to every exporter, once each and in order, and nothing
else. -/
structure HandsOver (c c' : Coster) (now : Instant) (records : List CostRecord)
    (es es' : List Exporter) (s s' : Surroundings) : Prop where
  coster : c' = { c with phase := .idle, lastRun := some now }
  handed : ∃ (counted : Metrics) (handed : List Handover),
    (es', s') = Handover.makeAll handed (es, { s with metrics := counted }) ∧
      ∀ place, Handover.recordsAt place handed = if place < es.length then records else []

theorem leavesNothing_of_error (c : Coster) (took : Binary64) (es : List Exporter) (s : Surroundings) :
    LeavesNothing c { c with phase := .idle } es es s
      { s with metrics := s.metrics.cycleEnded false took } where
  coster := rfl
  exporters := rfl
  surroundings := rfl
  failed := Tally.read_addCount_self _ _ _
  counted := by
    intro k hk hread
    show (s.metrics.cycles.addCount "failed" 1).read "failed" = _
    rw [Tally.read_addCount_self, hread, Binary64.ofNat_add_ofNat hk]
  others := by
    intro status hstatus
    exact Tally.read_addCount_of_ne hstatus 1

theorem handsOver_of_ok (c : Coster) (now : Instant) (took : Binary64) (p : Priced)
    (es : List Exporter) (s : Surroundings) :
    let counted := (c.publish p s.metrics).cycleEnded true took
    let after := Exporter.acceptByEach p.records es { s with metrics := counted }
    HandsOver c { c with phase := .idle, lastRun := some now } now p.records es after.1 s
      after.2 where
  coster := rfl
  handed := by
    refine ⟨(c.publish p s.metrics).cycleEnded true took,
      p.records.flatMap (Handover.round es.length), ?_, ?_⟩
    · exact (Handover.makeAll_rounds _ _ _).symm
    · intro place
      exact Handover.recordsAt_rounds es.length place p.records

/-- **All or nothing.** In every state that a coster can come to, at every real time and for every
answer of the inventory, a cycle fails exactly if the workloads or the nodes cannot be listed or its
time does not count as later than that of the last cycle that succeeded. If it fails it leaves
nothing behind. If it succeeds, every exporter is handed the records of the items of the workloads
that pass the filters, once each and in order, and their number is the result. -/
theorem emit_all_or_nothing {last : Option Instant} {c : Coster} (hreached : Reached last c)
    (input : CycleInput) (hreal : input.now.IsReal) (es : List Exporter) (s : Surroundings) :
    let (result, c', es', s') := c.emit input es s
    ((∃ fault, result = .error fault) ↔
      (∃ cause, input.workloads = .error cause) ∨ (∃ cause, input.nodes = .error cause) ∨
        ∃ t, last = some t ∧ ¬input.now.CountsAfter t) ∧
      (∀ fault, result = .error fault → LeavesNothing c c' es es' s s') ∧
      ∀ n, result = .ok n → ∃ ws ns span, input.workloads = .ok ws ∧ input.nodes = .ok ns ∧
        c.Covers last input.now span ∧
        let records := (calculate c.strategies c.table span (WorkloadFilter.keep c.filters ws) ns).map
          (c.toRecord input.now)
        HandsOver c c' input.now records es es' s s' ∧ n = records.length := by
  obtain ⟨hlast, hreals⟩ := hreached.lastRun
  have hfails : (∃ fault, c.price input = .error fault) ↔ _ := price_eq_error_iff
  have htime : (∃ t, c.lastRun = some t ∧ input.now.nanosSince t ≤ 0) ↔
      ∃ t, last = some t ∧ ¬input.now.CountsAfter t := by
    rw [hlast]
    refine exists_congr fun t => and_congr_right fun ht => ?_
    rw [← Instant.nanosSince_pos_iff hreal (hreals t ht)]
    omega
  rw [htime] at hfails
  cases hprice : c.price input with
  | error fault =>
      rw [emit_of_error hprice]
      rw [hprice] at hfails
      refine ⟨⟨fun _ => hfails.1 ⟨fault, rfl⟩, fun _ => ⟨fault, rfl⟩⟩, ?_, ?_⟩
      · intro _ _
        exact leavesNothing_of_error c input.took es s
      · intro n hn
        cases hn
  | ok p =>
      rw [emit_of_ok hprice]
      rw [hprice] at hfails
      refine ⟨⟨?_, ?_⟩, ?_, ?_⟩
      · rintro ⟨fault, hfault⟩
        cases hfault
      · intro hbad
        obtain ⟨fault, hfault⟩ := hfails.2 hbad
        cases hfault
      · intro fault hfault
        cases hfault
      · intro n hn
        cases hn
        obtain ⟨ws, ns, hws, hns, hrecords⟩ := price_eq_ok hprice
        have hcovers := covers_of_elapsed (elapsed_of_price hprice)
        rw [hlast] at hcovers
        refine ⟨ws, ns, p.elapsed, hws, hns, hcovers, ?_⟩
        rw [← hrecords]
        exact ⟨handsOver_of_ok c input.now input.took p es s, rfl⟩

/-- A call in the second of the last cycle fails and leaves nothing behind. -/
theorem emit_at_once_leaves_nothing :
    let s : Surroundings := ⟨.fresh, .silent "" 0 [], ⟨"", 0, true, 200, [], ⟨0⟩⟩, 0, 0⟩
    let c := (fiveMinutely.emit (callAt 1000) [.stats] s).2.1
    let after := c.emit (callAt 1000) [.stats] s
    Reached (some ⟨1000, 0⟩) c ∧ (callAt 1000).now.IsReal ∧
      LeavesNothing c after.2.1 [.stats] after.2.2.1 s after.2.2.2 := by
  intro s c after
  have hreal : (callAt 1000).now.IsReal := rfl
  have hreached : Reached (some ⟨1000, 0⟩) c := .succeeded (.new rfl rfl) hreal rfl
  obtain ⟨hfails, hnothing, -⟩ := emit_all_or_nothing hreached (callAt 1000) hreal [.stats] s
  have hnotAfter : ¬(callAt 1000).now.CountsAfter ⟨1000, 0⟩ := by
    rw [Instant.countsAfter_iff_earlier (by decide) (by decide)]
    simp [Instant.Earlier, callAt]
  obtain ⟨fault, hfault⟩ := hfails.2 (.inr (.inr ⟨_, rfl, hnotAfter⟩))
  exact ⟨hreached, hreal, hnothing fault hfault⟩

/-- An instant in the leap second at the end of a day comes before one in the first second of the
next day, and still a cycle in it succeeds after a cycle in that. And a cycle that fails is observed
by its duration. -/
theorem emit_succeeds_before_last :
    let s : Surroundings := ⟨.fresh, .silent "" 0 [], ⟨"", 0, true, 200, [], ⟨0⟩⟩, 0, 0⟩
    let first : CycleInput := { callAt 86400 with now := ⟨86400, 200000000⟩ }
    let second : CycleInput := { callAt 86399 with now := ⟨86399, 1500000000⟩ }
    let c := (fiveMinutely.emit first [] s).2.1
    Reached (some first.now) c ∧ second.now.IsReal ∧ second.now.Earlier first.now ∧
      (c.emit second [] s).1 = .ok 0 ∧
      (c.emit { second with nodes := .error "timeout" } [] s).2.2.2.metrics.cycleDuration.total =
        s.metrics.cycleDuration.total + 1 := by
  intro s first second c
  have hreal : first.now.IsReal := Instant.isReal_iff.2 (by decide)
  have hreal' : second.now.IsReal := Instant.isReal_iff.2 (by decide)
  have hreached : Reached (some first.now) c := .succeeded (.new rfl rfl) hreal rfl
  have hearlier : second.now.Earlier first.now := .inl (by decide)
  exact ⟨hreached, hreal', hearlier, by decide +kernel, rfl⟩

end Coster

end Chargeback
