import Chargeback.Proofs.CostSeries
import Chargeback.Proofs.RunHistory
import Chargeback.Proofs.StageShutdown

/-!
# Buffering does not show in the counters

A stage merges records of the same key, and a counter adds up records with the same label values, which
are fewer: dimensions without a label are left out, and ones that are missing count as empty. Label
values are read off the key (`keyValues`), so each series is a sum over keys, and merging keeps the sum
under every key. That carries over to the series as long as no sum stops at an end of the range, and
records that can be counted exactly are far from that (`Countable.exact`).

Flushes, the flush task and stopping take the buffer at any time, and what they took is handed on later
and in any order (`CostStage`). When all of it was handed on, the counter says what it would have said if
each record had been handed to it directly.
-/

namespace Chargeback

/-! ## Sums over keys -/

theorem CostKey.sumOf_cons (k : CostKey) (r : CostRecord) (rs : List CostRecord) :
    k.sumOf (r :: rs) = (if k = r.key then r.value else 0) + k.sumOf rs := by
  by_cases h : k = r.key
  · simp [sumOf, amounts, within, h]
  · simp [sumOf, amounts, within, h, Ne.symm h]

/-- What the records with certain keys add up to is the sum over these keys. -/
theorem sum_filter_key {ks : List CostKey} (hks : ks.Nodup) (p : CostKey → Bool)
    {rs : List CostRecord} (hmem : ∀ r ∈ rs, r.key ∈ ks) :
    ((rs.filter fun r => p r.key).map (·.value)).sum =
      ((ks.filter p).map fun k => k.sumOf rs).sum := by
  induction rs with
  | nil => simp
  | cons r rs ih =>
      obtain ⟨hr, hrs⟩ := List.forall_mem_cons.1 hmem
      have hone : ((ks.filter p).map fun k => if k = r.key then r.value else 0).sum =
          if p r.key then r.value else 0 := by
        rw [List.sum_map_ite_eq (ks.filter p) (fun _ => r.value) (fun _ => 0) r.key,
          (hks.filter p).count]
        by_cases hp : p r.key <;> simp [hp, hr]
      simp only [CostKey.sumOf_cons, List.sum_map_add, hone, ← ih hrs]
      by_cases hp : p r.key <;> simp [hp]

namespace CostCounter

variable {c : CostCounter} {rs ss out : List CostRecord} {r : CostRecord} {values : List String}

/-- The label values of the records of a key. -/
def keyValues (c : CostCounter) (k : CostKey) : List String :=
  k.kind.name :: k.strategy :: c.dimensions.map fun d => (k.dimensions.get? d).getD ""

theorem labelValues_eq (c : CostCounter) (r : CostRecord) : c.labelValues r = c.keyValues r.key := rfl

/-- A series is a sum over keys. -/
theorem totalOf_eq_sum {ks : List CostKey} (hks : ks.Nodup) (hmem : ∀ r ∈ rs, r.key ∈ ks)
    (values : List String) :
    c.totalOf values rs =
      ((ks.filter (c.keyValues · = values)).map fun k => k.sumOf rs).sum :=
  sum_filter_key hks (fun k => decide (c.keyValues k = values)) hmem

theorem nonneg_of_mem_amounts (h : ∀ r ∈ rs, 0 ≤ r.value) {k : CostKey} {v : Int}
    (hv : v ∈ k.amounts rs) : 0 ≤ v := by
  obtain ⟨r, hr, rfl⟩ := List.mem_map.1 hv
  exact h r (List.mem_of_mem_filter hr)

/-- No sum under a key stops at an end of the range. -/
theorem Countable.exact (h : c.Countable rs) (k : CostKey) : Amount.Exact (k.amounts rs) := by
  intro ws hws
  have hlow : 0 ≤ ws.sum := by
    apply List.sum_nonneg
    intro v hv
    exact nonneg_of_mem_amounts h.nonneg (hws.subset hv)
  have hseries : (k.amounts rs).Sublist
      ((rs.filter (c.labelValues · = c.keyValues k)).map (·.value)) := by
    apply List.Sublist.map
    apply List.monotone_filter_right
    intro r hr
    rw [labelValues_eq, of_decide_eq_true hr, decide_eq_true rfl]
  have hhigh : ws.sum ≤ c.totalOf (c.keyValues k) rs := by
    apply (hws.sublist.trans hseries).sum_le_sum
    rw [List.forall_mem_map]
    intro r hr
    exact h.nonneg r (List.mem_of_mem_filter hr)
  have htotal := h.total_lt (c.keyValues k)
  unfold Amount.InRange Amount.least Amount.greatest
  omega

/-! ## Merging -/

/-- Merging keeps what each series adds up to. -/
theorem totalOf_merge (h : MergeOf rs out) (hcount : c.Countable rs) (values : List String) :
    c.totalOf values out = c.totalOf values rs := by
  have hmem : ∀ r ∈ rs, r.key ∈ out.map CostRecord.key := by
    intro r hr
    exact (h.keys r.key).2 (List.mem_map_of_mem hr)
  have hmem' : ∀ r ∈ out, r.key ∈ out.map CostRecord.key := fun r hr => List.mem_map_of_mem hr
  have hsum (k : CostKey) : k.sumOf out = k.sumOf rs := h.sumOf_eq (hcount.exact k)
  rw [totalOf_eq_sum h.distinct hmem, totalOf_eq_sum h.distinct hmem']
  simp only [hsum]

theorem nonneg_of_merge (h : MergeOf rs out) (hcount : c.Countable rs) (hr : r ∈ out) :
    0 ≤ r.value := by
  rw [h.value r hr, Amount.total_eq_sum (hcount.exact r.key)]
  apply List.sum_nonneg
  intro v hv
  exact nonneg_of_mem_amounts hcount.nonneg hv

theorem totalOf_append (c : CostCounter) (values : List String) (rs ss : List CostRecord) :
    c.totalOf values (rs ++ ss) = c.totalOf values rs + c.totalOf values ss := by
  simp [totalOf]

theorem totalOf_eq_of_perm (h : rs.Perm ss) (values : List String) :
    c.totalOf values rs = c.totalOf values ss :=
  ((h.filter _).map _).sum_eq

/-- Merging several lists keeps what each series adds up to. -/
theorem totalOf_merges {parts outs : List (List CostRecord)} (h : List.Forall₂ MergeOf parts outs)
    (hcount : c.Countable parts.flatten) (values : List String) :
    c.totalOf values outs.flatten = c.totalOf values parts.flatten := by
  induction h with
  | nil => rfl
  | @cons part out parts outs hpart _ ih =>
      rw [List.flatten_cons] at hcount
      rw [List.flatten_cons, List.flatten_cons, totalOf_append, totalOf_append,
        totalOf_merge hpart (hcount.of_sublist (List.sublist_append_left _ _)),
        ih (hcount.of_sublist (List.sublist_append_right _ _))]

theorem countable_merges {parts outs : List (List CostRecord)} (h : List.Forall₂ MergeOf parts outs)
    (hcount : c.Countable parts.flatten) : c.Countable outs.flatten := by
  apply hcount.of_totalOf_eq ?_ (totalOf_merges h hcount)
  intro r hr
  obtain ⟨out, hout, hmem⟩ := List.mem_flatten.1 hr
  obtain ⟨i, hi, rfl⟩ := List.mem_iff_getElem.1 hout
  have hi' : i < parts.length := h.length_eq ▸ hi
  have hpart := hcount.of_sublist (List.sublist_flatten_of_mem (List.getElem_mem hi'))
  exact nonneg_of_merge (h.get hi' hi) hpart hmem

/-- Merging several lists keeps which series there are. -/
theorem mem_labelValues_merges {parts outs : List (List CostRecord)}
    (h : List.Forall₂ MergeOf parts outs) (values : List String) :
    values ∈ outs.flatten.map c.labelValues ↔ values ∈ parts.flatten.map c.labelValues := by
  have hkeys (rs : List CostRecord) :
      rs.map c.labelValues = (rs.map CostRecord.key).map c.keyValues := by
    rw [List.map_map]
    rfl
  rw [hkeys, hkeys, List.mem_map, List.mem_map]
  simp only [MergeOf.mem_keys_flatten h]

end CostCounter

/-! ## A stage in front of the exporter of costs as metrics -/

/-- A stage in front of the exporter of costs as metrics. -/
structure CostStage where
  stage : Buffering
  /-- What was taken out of the buffer and is still to be handed on. -/
  forwarding : List CostRecord
  surroundings : Surroundings

/-- One atomic step of a stage and the exporter behind it. -/
inductive CostStageEvent where
  /-- Something happens to the stage. -/
  | stage (event : BufferingEvent)
  /-- One of the records that were taken is handed on, in whatever order. -/
  | forward (place : Nat)

namespace CostStage

variable {x y : CostStage} {s : Surroundings} {rs attributed : List CostRecord}
  {destinations : List String}

/-- A stage that has handed on everything it took. -/
def start (stage : Buffering) (surroundings : Surroundings) : CostStage :=
  { stage, forwarding := [], surroundings }

/-- What an event makes of a stage; none if it cannot happen. -/
def step? : CostStageEvent → CostStage → Option CostStage
  | .stage event, x =>
    let (out, stage, metrics) := Buffering.step event (x.stage, x.surroundings.metrics)
    some { stage, forwarding := x.forwarding ++ out, surroundings := { x.surroundings with metrics } }
  | .forward place, x => x.forwarding[place]?.map fun r =>
    { x with forwarding := x.forwarding.eraseIdx place,
             surroundings := (Exporter.stats.accept r x.surroundings).2 }

/-- The records received in a list of events. -/
def received (es : List CostStageEvent) : List CostRecord :=
  es.filterMap fun
    | .stage event => Buffering.pushed? event
    | .forward _ => none

theorem received_stage (event : BufferingEvent) (es : List CostStageEvent) :
    received (.stage event :: es) = (Buffering.pushed? event).toList ++ received es := by
  cases h : Buffering.pushed? event <;> simp [received, h]

/-! ## Attributed costs -/

theorem attributeAll_concat (rs : List CostRecord) (r : CostRecord) (s : Surroundings) :
    (Exporter.attributeAll (rs ++ [r]) s).metrics =
      (Exporter.attributeAll rs s).metrics.costAttributed Exporter.statsName r := by
  simp [Exporter.attributeAll, List.foldl_append]

/-- Attributing records that can be counted raises no error, and the counter tells them. -/
theorem attributeAll_tells (hcosts : s.metrics.costs = some ⟨destinations, []⟩)
    {rs : List CostRecord} (hcount : CostCounter.Countable ⟨destinations, []⟩ rs) :
    let after := (Exporter.attributeAll rs s).metrics
    after.exportErrors = s.metrics.exportErrors ∧
      ∃ series, after.costs = some ⟨destinations, series⟩ ∧
        CostCounter.Tells ⟨destinations, series⟩ rs := by
  intro after
  induction rs using List.reverseRecOn with
  | nil => exact ⟨rfl, [], hcosts, .nil rfl⟩
  | append_singleton rs r ih =>
      obtain ⟨herrors, series, hbefore, htells⟩ :=
        ih (hcount.of_sublist (List.sublist_append_left rs [r]))
      have hvalue : ¬r.value < 0 := Int.not_lt.2 (hcount.nonneg r (by simp))
      have hafter : after = { (Exporter.attributeAll rs s).metrics with
          costs := some (CostCounter.add ⟨destinations, series⟩ r) } := by
        rw [show after = _ from attributeAll_concat rs r s, Metrics.costAttributed, if_neg hvalue,
          hbefore, Option.map_some]
      rw [hafter]
      exact ⟨herrors, _, rfl, htells.add ⟨hcount.nonneg, hcount.total_lt⟩⟩

/-- An attribution depends on the costs and the errors so far alone. -/
theorem costAttributed_congr {m m' : Metrics} (hcosts : m.costs = m'.costs)
    (herrors : m.exportErrors = m'.exportErrors) (r : CostRecord) :
    (m.costAttributed Exporter.statsName r).costs =
        (m'.costAttributed Exporter.statsName r).costs ∧
      (m.costAttributed Exporter.statsName r).exportErrors =
        (m'.costAttributed Exporter.statsName r).exportErrors := by
  unfold Metrics.costAttributed
  split
  · exact ⟨hcosts, congrArg (Tally.addCount Exporter.statsName 1) herrors⟩
  · exact ⟨congrArg (Option.map fun c => c.add r) hcosts, herrors⟩

/-! ## The account of a stage -/

/-- Nothing that happens to a stage touches the costs or the errors of the exporters. -/
theorem metrics_step (event : BufferingEvent) (b : Buffering) (m : Metrics) :
    (Buffering.step event (b, m)).2.2.costs = m.costs ∧
      (Buffering.step event (b, m)).2.2.exportErrors = m.exportErrors := by
  cases event with
  | push r => exact ⟨rfl, rfl⟩
  | flush => exact ⟨rfl, rfl⟩
  | cancel | stop => cases h : b.flusher <;> simp [Buffering.step, h, Buffering.flush, Buffering.drain,
      Metrics.buffered, Metrics.bufferFlushed]

/-- The account of a stage that started with some surroundings: what it received was merged into what was
taken and what the buffer holds; what was taken was attributed or is still to be; and the costs and the
errors are those of attributing it to what was there at the start. -/
structure Account (s : Surroundings) (rs attributed : List CostRecord) (x : CostStage) :
    Prop where
  merged : ∃ i taken, i.all = rs ∧ MergeAccount i taken x.stage.buffer ∧
    taken.flatten.Perm (x.forwarding ++ attributed)
  costs : x.surroundings.metrics.costs = (Exporter.attributeAll attributed s).metrics.costs
  errors : x.surroundings.metrics.exportErrors =
    (Exporter.attributeAll attributed s).metrics.exportErrors

theorem Account.start {stage : Buffering} (h : stage.buffer = .empty) (s : Surroundings) :
    Account s [] [] (start stage s) where
  merged := ⟨{}, [], rfl, h ▸ MergeAccount.empty, .nil⟩
  costs := rfl
  errors := rfl

theorem step?_stage {event : BufferingEvent} (h : step? (.stage event) x = some y) :
    let after := Buffering.step event (x.stage, x.surroundings.metrics)
    y.stage = after.2.1 ∧ y.forwarding = x.forwarding ++ after.1 ∧
      y.surroundings.metrics = after.2.2 := by
  cases h
  exact ⟨rfl, rfl, rfl⟩

/-- Whatever happens to the stage keeps the account. -/
theorem Account.stage (h : Account s rs attributed x) {event : BufferingEvent}
    (hstep : step? (.stage event) x = some y) :
    Account s (rs ++ (Buffering.pushed? event).toList) attributed y := by
  obtain ⟨⟨i, taken, rfl, hmerged, hperm⟩, hcosts, herrors⟩ := h
  obtain ⟨hstage, hforwarding, hmetrics⟩ := step?_stage hstep
  obtain ⟨hkept, hkept'⟩ := metrics_step event x.stage x.surroundings.metrics
  refine ⟨?_, ?_, ?_⟩
  · rw [hstage, hforwarding]
    by_cases ht : Buffering.takes x.stage.flusher event
    · -- The buffer is taken, and what it held is to be handed on.
      obtain ⟨hout, hbuffer⟩ :=
        Buffering.step_of_takes (s := (x.stage, x.surroundings.metrics)) ht
      rw [hout, hbuffer, Buffering.pushed?_of_takes ht]
      refine ⟨i.cut, taken ++ [x.stage.buffer.records], ?_, hmerged.drain, ?_⟩
      · rw [Intake.all_cut, Option.toList_none, List.append_nil]
      · rw [List.flatten_append, List.flatten_singleton, List.append_assoc]
        refine (hperm.append_right _).trans ?_
        rw [List.append_assoc]
        exact List.perm_append_comm.append_left _
    · obtain ⟨hout, hbuffer⟩ :=
        Buffering.step_of_not_takes (s := (x.stage, x.surroundings.metrics)) ht
      rw [hout, hbuffer, List.append_nil]
      cases Buffering.pushed? event with
      | none => exact ⟨i, taken, by simp, hmerged, hperm⟩
      | some r => exact ⟨i.receive r, taken, by simp, hmerged.push r, hperm⟩
  · rw [hmetrics, hkept, hcosts]
  · rw [hmetrics, hkept', herrors]

/-- Handing on a record keeps the account. -/
theorem Account.forward (h : Account s rs attributed x) {place : Nat}
    (hstep : step? (.forward place) x = some y) : ∃ r, Account s rs (attributed ++ [r]) y := by
  obtain ⟨⟨i, taken, hall, hmerged, hperm⟩, hcosts, herrors⟩ := h
  obtain ⟨r, hplace, rfl⟩ := Option.map_eq_some_iff.1 hstep
  obtain ⟨hcosts', herrors'⟩ := costAttributed_congr hcosts herrors r
  refine ⟨r, ⟨i, taken, hall, hmerged, ?_⟩, ?_, ?_⟩
  · obtain ⟨hlt, rfl⟩ := List.getElem?_eq_some_iff.1 hplace
    have hnext := (List.getElem_cons_eraseIdx_perm hlt).symm.append_right attributed
    refine (hperm.trans hnext).trans ?_
    rw [List.cons_append, ← List.append_assoc]
    exact (List.perm_append_singleton _ _).symm
  · rw [attributeAll_concat]
    exact hcosts'
  · rw [attributeAll_concat]
    exact herrors'

/-- A run keeps the account of a stage, whatever the order of its steps. -/
theorem Account.run {es : List CostStageEvent} (h : Account s rs attributed x)
    (hrun : runs? step? es x = some y) :
    ∃ attributed', Account s (rs ++ received es) attributed' y := by
  have hcons (e : CostStageEvent) (es : List CostStageEvent) :
      received (e :: es) = received [e] ++ received es := List.filterMap_append (l := [e])
  have hstep (rs : List CostRecord) (e : CostStageEvent) (x y : CostStage)
      (hx : ∃ attributed, Account s rs attributed x) (hstep : step? e x = some y) :
      ∃ attributed, Account s (rs ++ received [e]) attributed y := by
    obtain ⟨attributed, hx⟩ := hx
    cases e with
    | stage event =>
        rw [received_stage, ← List.append_assoc]
        exact ⟨attributed, by simpa [received] using hx.stage hstep⟩
    | forward place =>
        obtain ⟨r, hy⟩ := hx.forward hstep
        exact ⟨attributed ++ [r], by simpa [received] using hy⟩
  exact runs?_carried received rfl hcons hstep ⟨attributed, h⟩ hrun

/-! ## The calls of the program -/

/-- What the program makes of an event of an exporter that may be a stage. -/
def handle : BufferingEvent → Exporter × Surroundings → Exporter × Surroundings
  | .push r, (e, s) => e.accept r s
  | .flush, (e, s) => (e.flush? s).getD (e, s)
  | .cancel, (e, s) => e.cancel s
  | .stop, (e, s) => (e.stop s).2

/-- What the program makes of one event after the other. -/
def handleAll (events : List BufferingEvent) (start : Exporter × Surroundings) :
    Exporter × Surroundings :=
  events.foldl (fun state event => handle event state) start

/-- The program hands on what an event takes before anything else happens. -/
theorem handle_eq (event : BufferingEvent) (stage : Buffering) (t : Nat) (s : Surroundings) :
    handle event (.buffering stage t .stats, s) =
      let (out, stage, metrics) := Buffering.step event (stage, s.metrics)
      (.buffering stage t .stats, Exporter.attributeAll out { s with metrics }) := by
  cases event with
  | push r => rfl
  | flush => rfl
  | cancel => rfl
  | stop =>
      cases hflusher : stage.flusher <;>
        simp [handle, Exporter.stop, Exporter.stopAfter, Exporter.passThrough, hflusher,
          Buffering.step, Exporter.attributeAll]

/-- Everything that was taken can be handed on in its order. -/
theorem runs?_forward (stage : Buffering) (out : List CostRecord) (s : Surroundings) :
    runs? step? (List.replicate out.length (.forward 0)) ⟨stage, out, s⟩ =
      some (start stage (Exporter.attributeAll out s)) := by
  induction out generalizing s with
  | nil => rfl
  | cons r out ih => exact ih _

/-- What the program does is a run, and nothing is left to be handed on. -/
theorem runs?_handleAll (events : List BufferingEvent) (stage : Buffering) (t : Nat)
    (s : Surroundings) :
    ∃ es stage' s', received es = Buffering.pushed events ∧
      runs? step? es (start stage s) = some (start stage' s') ∧
      handleAll events (.buffering stage t .stats, s) = (.buffering stage' t .stats, s') := by
  induction events generalizing stage s with
  | nil => exact ⟨[], stage, s, rfl, rfl, rfl⟩
  | cons event events ih =>
      let after := Buffering.step event (stage, s.metrics)
      obtain ⟨es, stage', s', hreceived, hrun, hhandle⟩ :=
        ih after.2.1 (Exporter.attributeAll after.1 { s with metrics := after.2.2 })
      refine ⟨.stage event :: (List.replicate after.1.length (.forward 0) ++ es), stage', s',
        ?_, ?_, ?_⟩
      · have hforwarded : received (List.replicate after.1.length (.forward 0) ++ es) =
            received es := by simp [received, List.filterMap_append]
        rw [received_stage, hforwarded, hreceived]
        cases h : Buffering.pushed? event <;> simp [Buffering.pushed, h]
      · have htaken : step? (.stage event) (start stage s) =
            some ⟨after.2.1, after.1, { s with metrics := after.2.2 }⟩ := rfl
        exact runs?_step htaken (runs?_append (runs?_forward _ _ _) hrun)
      · rw [handleAll, List.foldl_cons, handle_eq]
        exact hhandle

/-! ## The same costs -/

/-- A process counts the same costs as another one: the series are the same but for their order, what is
published is the same, and neither has more errors than before. -/
structure SameCosts (before counted direct : Metrics) : Prop where
  series : ∃ c d, counted.costs = some c ∧ direct.costs = some d ∧ c.series.Perm d.series
  published : counted.costs.map Metrics.costSeries = direct.costs.map Metrics.costSeries
  noError : counted.exportErrors = before.exportErrors ∧
    direct.exportErrors = before.exportErrors

theorem costs_of_registerCosts {m m' : Metrics} (h : m.registerCosts destinations = .ok m') :
    m'.costs = some ⟨destinations, []⟩ ∧ ("kind" :: "strategy" :: destinations).Nodup := by
  unfold Metrics.registerCosts at h
  split at h
  · cases h
  next hsound =>
    split at h
    · cases h
    · cases h
      have hboth : CostCounter.namesAreSound ("kind" :: "strategy" :: destinations) = true := by
        simpa using hsound
      rw [CostCounter.namesAreSound, Bool.and_eq_true] at hboth
      exact ⟨rfl, of_decide_eq_true hboth.2⟩

/-- Once everything was flushed and handed on, the costs are the same. -/
theorem Account.sameCosts (h : Account s rs attributed x)
    (hcosts : s.metrics.costs = some ⟨destinations, []⟩)
    (hnames : ("kind" :: "strategy" :: destinations).Nodup)
    (hflushed : x.stage.buffer = .empty) (hforwarded : x.forwarding = [])
    (hcount : CostCounter.Countable ⟨destinations, []⟩ rs) :
    SameCosts s.metrics x.surroundings.metrics (Exporter.attributeAll rs s).metrics := by
  obtain ⟨⟨i, taken, hall, hmerged, hperm⟩, hcosts', herrors'⟩ := h
  -- Nothing is pending, so what was taken was merged from all that was received.
  have hpending : i.pending = [] := by
    have hheld := hmerged.held
    rw [hflushed] at hheld
    exact hheld.eq_nil
  have hparts : i.closed.flatten = rs := by rw [← hall, Intake.all, hpending, List.append_nil]
  rw [hforwarded, List.nil_append] at hperm
  subst hparts
  have htotal (values : List String) :
      CostCounter.totalOf ⟨destinations, []⟩ values attributed =
        CostCounter.totalOf ⟨destinations, []⟩ values i.closed.flatten := by
    rw [← CostCounter.totalOf_eq_of_perm hperm, CostCounter.totalOf_merges hmerged.taken hcount]
  have hlabels (values : List String) :
      values ∈ attributed.map (CostCounter.labelValues ⟨destinations, []⟩) ↔
        values ∈ i.closed.flatten.map (CostCounter.labelValues ⟨destinations, []⟩) := by
    rw [← (hperm.map _).mem_iff, CostCounter.mem_labelValues_merges hmerged.taken]
  have hcount' : CostCounter.Countable ⟨destinations, []⟩ attributed := by
    apply hcount.of_totalOf_eq ?_ htotal
    intro r hr
    exact (CostCounter.countable_merges hmerged.taken hcount).nonneg r (hperm.mem_iff.2 hr)
  obtain ⟨herrors, series, hcounted, htells⟩ := attributeAll_tells hcosts hcount'
  obtain ⟨herrorsDirect, direct, hdirect, htellsDirect⟩ := attributeAll_tells hcosts hcount
  have hseries : series.Perm direct := htells.perm htellsDirect rfl hlabels htotal
  rw [hcounted] at hcosts'
  rw [herrors] at herrors'
  refine ⟨⟨_, _, hcosts', hdirect, hseries⟩, ?_, herrors', herrorsDirect⟩
  rw [hcosts', hdirect, Option.map_some, Option.map_some]
  exact congrArg some
    (CostCounter.costSeries_eq hnames rfl hseries htells.distinct htells.length_eq)

/-- **Buffering is invisible to the counters.** Behind a stage with an empty buffer and in front of
freshly registered costs, whatever is received, flushed and handed on in whatever order: once everything
was flushed and handed on, the costs are those of handing each record to the exporter directly, and no
error was counted in either case, provided no amount is negative and every series adds up to less than
`2 ^ 53`. The calls of the program are such a run, so they have the same costs after a flush at the end. -/
theorem counted_as_direct {m₀ : Metrics} (hregistered : m₀.registerCosts destinations = .ok s.metrics)
    (stage : Buffering) (hempty : stage.buffer = .empty) :
    (∀ es x, runs? step? es (start stage s) = some x → x.stage.buffer = .empty → x.forwarding = [] →
      CostCounter.Countable ⟨destinations, []⟩ (received es) →
        SameCosts s.metrics x.surroundings.metrics
          (Exporter.stats.acceptAll (received es) s).2.metrics) ∧
      ∀ t events, CostCounter.Countable ⟨destinations, []⟩ (Buffering.pushed events) →
        SameCosts s.metrics (handleAll (events ++ [.flush]) (.buffering stage t .stats, s)).2.metrics
          (Exporter.stats.acceptAll (Buffering.pushed events) s).2.metrics := by
  obtain ⟨hcosts, hnames⟩ := costs_of_registerCosts hregistered
  have hruns (es : List CostStageEvent) (x : CostStage) (hrun : runs? step? es (start stage s) = some x)
      (hflushed : x.stage.buffer = .empty) (hforwarded : x.forwarding = [])
      (hcount : CostCounter.Countable ⟨destinations, []⟩ (received es)) :
      SameCosts s.metrics x.surroundings.metrics
        (Exporter.stats.acceptAll (received es) s).2.metrics := by
    obtain ⟨attributed, haccount⟩ := (Account.start hempty s).run hrun
    exact haccount.sameCosts hcosts hnames hflushed hforwarded hcount
  refine ⟨hruns, ?_⟩
  intro t events hcount
  obtain ⟨es, stage', s', hreceived, hrun, hhandle⟩ :=
    runs?_handleAll (events ++ [.flush]) stage t s
  have hpushed : Buffering.pushed (events ++ [.flush]) = Buffering.pushed events := by
    simp [Buffering.pushed, Buffering.pushed?]
  rw [hpushed] at hreceived
  have hflushed : stage'.buffer = .empty := by
    obtain ⟨-, before, s₁, -, -, hbefore⟩ := runs?_handleAll events stage t s
    have hlast : handle .flush (handleAll events (.buffering stage t .stats, s)) =
        (.buffering stage' t .stats, s') := by
      rw [← hhandle, handleAll, handleAll, List.foldl_append]
      rfl
    rw [hbefore, handle_eq] at hlast
    cases hlast
    rfl
  have hsame := hruns es _ hrun hflushed rfl (hreceived ▸ hcount)
  rw [hhandle, ← hreceived]
  exact hsame

/-- Two records of one series but of different keys, and one of the first key after a flush: the flush
hands on what it took the other way round, and the costs are those of the three records. -/
theorem counted_as_direct_two_flushes :
    let costs : Metrics := { Metrics.fresh with costs := some ⟨["team"], []⟩ }
    let s : Surroundings := ⟨costs, .silent "" 0 [], ⟨"", 0, true, 200, [], ⟨0⟩⟩, 0, 0⟩
    let stage := Buffering.fresh "stats" (.ofSeconds 300)
    let web := Buffering.cpuRecord 5 100
    let api : CostRecord := { Buffering.cpuRecord 3 100 with dimensions := Assoc.empty.put "part" "api" }
    let late := Buffering.cpuRecord 2 200
    let es : List CostStageEvent := [.stage (.push web), .stage (.push api), .stage .flush, .forward 1,
      .stage (.push late), .forward 0, .stage .flush, .forward 0]
    Metrics.fresh.registerCosts ["team"] = .ok costs ∧ stage.buffer = .empty ∧
      CostCounter.Countable ⟨["team"], []⟩ [web, api, late] ∧
      ∃ x, runs? step? es (start stage s) = some x ∧ x.stage.buffer = .empty ∧ x.forwarding = [] ∧
        SameCosts costs x.surroundings.metrics
          (Exporter.stats.acceptAll [web, api, late] s).2.metrics := by
  intro costs s stage web api late es
  have hregistered : Metrics.fresh.registerCosts ["team"] = .ok s.metrics := rfl
  have hcount : CostCounter.Countable ⟨["team"], []⟩ [web, api, late] :=
    CostCounter.countable_of_sum_lt (by decide) (by decide)
  have hruns := (counted_as_direct hregistered stage rfl).1
  obtain ⟨x, hrun, hflushed, hforwarded⟩ : ∃ x, runs? step? es (start stage s) = some x ∧
      x.stage.buffer = .empty ∧ x.forwarding = [] := ⟨_, rfl, rfl, rfl⟩
  exact ⟨hregistered, rfl, hcount, x, hrun, hflushed, hforwarded,
    hruns es x hrun hflushed hforwarded hcount⟩

end CostStage

end Chargeback
