import Chargeback.Config.Validation
import Chargeback.Proofs.CycleOutcome

/-!
# The lag of a cycle behind its schedule

The lag is measured by a cycle that succeeds, unless it is the first, and by nothing else: an exporter
that receives records leaves it alone (`lag_acceptByEach`), and so does a cycle that fails. So after
any run of cycles the next one changes the lag exactly when it succeeds and another one has succeeded
before it (`lag_emit`).

What is measured is the difference of two counts of whole milliseconds, taken in words of sixty-four
bits. The time that has passed always fits into such a word, since instants are less than a million
years apart (`passed_lt`). The interval need not: validation asks only that it is not zero, and
an interval of `2 ^ 63` milliseconds and more does not survive the conversion. Up to there the lag is
exact (`lag_after_run`), and beyond it may be anything, such as two seconds after the fact for a cycle
that comes ages too early (`lag_wraps`).
-/

namespace Chargeback

/-! ## Who leaves the lag alone -/

/-- What every step of a fold keeps, the fold keeps. -/
theorem foldl_keeps {σ α β : Type} (read : σ → β) {f : σ → α → σ}
    (hf : ∀ x a, read (f x a) = read x) (as : List α) (x : σ) : read (as.foldl f x) = read x := by
  induction as generalizing x with
  | nil => rfl
  | cons a as ih => exact (ih (f x a)).trans (hf x a)

theorem Metrics.lag_lagMeasured (millis : Int) (m : Metrics) :
    (m.lagMeasured millis).lag = Binary64.ofInt millis := by
  rw [lagMeasured]

theorem Metrics.lag_costAttributed (exporter : String) (r : CostRecord) (m : Metrics) :
    (m.costAttributed exporter r).lag = m.lag := by
  unfold costAttributed
  split
  · rfl
  · rfl

theorem Delivery.lag_of_step? {l : DeliveryLimits} {event : DeliveryEvent}
    {x y : Delivery × Metrics} (h : Delivery.step? l event x = some y) : y.2.lag = x.2.lag := by
  obtain ⟨d, m⟩ := x
  cases event <;> grind [Delivery.step?, Metrics.recordsLost, Metrics.batchWritten]

theorem Insertion.lag_of_step? {l : InsertionLimits} {event : InsertionEvent}
    {x y : Insertion × Metrics} (h : Insertion.step? l event x = some y) : y.2.lag = x.2.lag := by
  obtain ⟨i, m⟩ := x
  cases event <;>
    grind [Insertion.step?, Insertion.answered, Metrics.recordsLost, Metrics.batchWritten]

namespace HttpExporter

variable {e : HttpExporter} {s : Surroundings}

theorem lag_perform? {event : DeliveryEvent} {y : HttpExporter × Surroundings}
    (h : e.perform? event s = some y) : y.2.metrics.lag = s.metrics.lag := by
  unfold perform? at h
  split at h
  · cases h
  · obtain ⟨x, hstep, rfl⟩ := Option.map_eq_some_iff.1 h
    exact Delivery.lag_of_step? hstep

theorem lag_perform (event : DeliveryEvent) (e : HttpExporter) (s : Surroundings) :
    (e.perform event s).2.metrics.lag = s.metrics.lag := by
  unfold perform
  cases h : e.perform? event s with
  | none => rfl
  | some y => exact lag_perform? h

theorem lag_gatherAll (n : Nat) (e : HttpExporter) (s : Surroundings) :
    (gatherAll n e s).2.metrics.lag = s.metrics.lag := by
  induction n generalizing e s with
  | zero => rfl
  | succ n ih =>
      unfold gatherAll
      cases h : e.perform? .gather s with
      | none => rfl
      | some y => exact (ih y.1 y.2).trans (lag_perform? h)

theorem lag_accept (r : CostRecord) (e : HttpExporter) (s : Surroundings) :
    (e.accept r s).2.metrics.lag = s.metrics.lag := by
  have hoffer := lag_perform (.offer r) e s
  unfold accept
  split
  · rfl
  · next d hrun =>
      simp only
      split
      · next y hy => exact (lag_perform? hy).trans hoffer
      · exact (lag_perform _ _ _).trans
          ((lag_gatherAll _ _ _).trans ((lag_perform _ _ _).trans hoffer))

end HttpExporter

namespace ClickHouseExporter

variable {e : ClickHouseExporter} {s : Surroundings}

theorem lag_perform? {event : InsertionEvent} {y : ClickHouseExporter × Surroundings}
    (h : e.perform? event s = some y) : y.2.metrics.lag = s.metrics.lag := by
  unfold perform? at h
  split at h
  · cases h
  · obtain ⟨x, hstep, rfl⟩ := Option.map_eq_some_iff.1 h
    exact Insertion.lag_of_step? hstep

theorem lag_perform (event : InsertionEvent) (e : ClickHouseExporter) (s : Surroundings) :
    (e.perform event s).2.metrics.lag = s.metrics.lag := by
  unfold perform
  cases h : e.perform? event s with
  | none => rfl
  | some y => exact lag_perform? h

theorem lag_complete? {y : ClickHouseExporter × Surroundings} (h : e.complete? s = some y) :
    y.2.metrics.lag = s.metrics.lag := by
  unfold complete? at h
  split at h
  · cases h
  · cases h
  · next rs hne hrun =>
      have hanswer : e.perform? (.complete (e.insert rs s).1 .zero) (e.insert rs s).2 = some y := h
      have hstatement : (e.insert rs s).2.metrics = s.metrics := rfl
      exact (lag_perform? hanswer).trans (congrArg Metrics.lag hstatement)

theorem lag_makeRoom (n : Nat) (e : ClickHouseExporter) (s : Surroundings) :
    (makeRoom n e s).2.metrics.lag = s.metrics.lag := by
  induction n generalizing e s with
  | zero => rfl
  | succ n ih =>
      unfold makeRoom
      split
      · next e' s' h => exact (ih e' s').trans (lag_perform? h)
      · split
        · rfl
        · split
          · next e' s' h => exact (ih e' s').trans (lag_complete? h)
          · rfl

theorem lag_accept (r : CostRecord) (e : ClickHouseExporter) (s : Surroundings) :
    (e.accept r s).2.metrics.lag = s.metrics.lag := by
  have hoffer := lag_perform (.offer r) e s
  unfold accept
  split
  · rfl
  · next i hrun =>
      simp only
      split
      · next y hy => exact (lag_perform? hy).trans hoffer
      · exact (lag_perform _ _ _).trans
          ((lag_makeRoom _ _ _).trans ((lag_perform _ _ _).trans hoffer))

end ClickHouseExporter

namespace Exporter

theorem lag_accept (r : CostRecord) (e : Exporter) (s : Surroundings) :
    (e.accept r s).2.metrics.lag = s.metrics.lag := by
  cases e with
  | stats => exact Metrics.lag_costAttributed statsName r s.metrics
  | http e => exact HttpExporter.lag_accept r e s
  | clickhouse e => exact ClickHouseExporter.lag_accept r e s
  | buffering stage t next => rfl

theorem lag_handRound (r : CostRecord) (es : List Exporter) (s : Surroundings) :
    (handRound r es s).2.metrics.lag = s.metrics.lag := by
  induction es generalizing s with
  | nil => rfl
  | cons e es ih => exact (ih _).trans (lag_accept r e s)

/-- Records that are handed to exporters leave the lag alone. -/
theorem lag_acceptByEach (rs : List CostRecord) (es : List Exporter) (s : Surroundings) :
    (acceptByEach rs es s).2.metrics.lag = s.metrics.lag :=
  foldl_keeps (fun x : List Exporter × Surroundings => x.2.metrics.lag)
    (fun x r => lag_handRound r x.1 x.2) rs (es, s)

end Exporter

/-! ## Words of sixty-four bits -/

namespace Coster

/-- What a conversion does to a number can be undone exactly if the number is in the range. -/
theorem wrap_eq_self_iff {i : Int} : wrap i = i ↔ Amount.InRange i := by
  unfold wrap Amount.InRange Amount.least Amount.greatest
  rw [Int.bmod_def]
  omega

/-- The conversions of the two counts make no difference of their own. -/
theorem lagBehind_eq (interval elapsed : Span) :
    lagBehind interval elapsed = wrap (elapsed.millis - interval.millis) := by
  unfold lagBehind wrap
  rw [Int.bmod_sub_bmod, Int.sub_bmod_bmod]

end Coster

namespace Instant

variable {s t : Instant}

/-- Instants are within three hundred thousand years of the year 1970. -/
theorem IsReal.seconds_bounds (h : t.IsReal) : -10 ^ 13 < t.seconds ∧ t.seconds < 10 ^ 13 := by
  obtain ⟨hyear, -, -⟩ := isReal_iff.1 h
  obtain ⟨era, y, d, hy, hd, -, hdays, hdate⟩ := Date.ofDays_eq (t.seconds / perDay)
  have hrange : -262143 ≤ t.date.year ∧ t.date.year ≤ 262142 := by
    simpa [Date.yearInRange] using hyear
  rw [date, hdate] at hrange
  simp only [perDay] at hdays
  dsimp only at hrange
  split at hrange
  · omega
  · omega

/-- The time passed between two instants counts the seconds between them, and a leap second or
none. -/
theorem exists_leap (t s : Instant) : ∃ leap : Int, -1 ≤ leap ∧ leap ≤ 1 ∧
    t.nanosSince s = (t.seconds - s.seconds + leap) * Span.perSecond + (t.nanos - s.nanos) := by
  have hdays (u : Instant) : u.seconds = u.seconds / perDay * perDay + u.secondOfDay := by
    rw [secondOfDay_cast, Int.ediv_mul_add_emod]
  have ht := hdays t
  have hs := hdays s
  unfold nanosSince
  simp only
  generalize hleap : (if s.secondOfDay < t.secondOfDay && Span.perSecond ≤ s.nanos then (1 : Int)
      else if t.secondOfDay < s.secondOfDay && Span.perSecond ≤ t.nanos then -1 else 0) = leap
  refine ⟨leap, ?_, ?_, ?_⟩
  · subst hleap
    split <;> [skip; split] <;> omega
  · subst hleap
    split <;> [skip; split] <;> omega
  · congr 2
    rw [Int.sub_mul]
    omega

/-- The milliseconds between two instants fit into a word. -/
theorem passed_lt (ht : t.IsReal) (hs : s.IsReal) : t.nanosSince s / 10 ^ 6 < 2 ^ 62 := by
  obtain ⟨leap, hlow, hhigh, hsince⟩ := exists_leap t s
  obtain ⟨-, htnanos, -⟩ := isReal_iff.1 ht
  obtain ⟨-, hsnanos, -⟩ := isReal_iff.1 hs
  have htseconds := ht.seconds_bounds
  have hsseconds := hs.seconds_bounds
  have hsecond : Span.perSecond = 1000000000 := rfl
  rw [hsecond] at htnanos hsnanos hsince
  push_cast at hsince
  omega

end Instant

/-! ## Cycles -/

namespace Coster

variable {c : Coster} {input : CycleInput}

theorem lag_publish (c : Coster) (p : Priced) (m : Metrics) :
    (c.publish p m).lag = ((c.lag? p.elapsed).map Binary64.ofInt).getD m.lag := by
  have hitems (m : Metrics) :
      (p.items.foldl (fun m i => m.itemPriced i.strategy) m).lag = m.lag :=
    foldl_keeps Metrics.lag (f := fun m (i : CostItem) => m.itemPriced i.strategy)
      (fun _ _ => rfl) p.items m
  unfold publish
  rw [hitems]
  cases c.lag? p.elapsed with
  | none => rfl
  | some lag => rw [Option.map_some, Option.getD_some, Metrics.lag_lagMeasured]

/-- A cycle measures the lag if it succeeds and is not the first; the lag is that of the time since
the last cycle that succeeded. -/
theorem lag_emit (c : Coster) (input : CycleInput) (es : List Exporter) (s : Surroundings) :
    let after := (c.emit input es s).2.2.2.metrics.lag
    ((c.emit input es s).1.isOk = false → after = s.metrics.lag) ∧
      (c.lastRun = none → after = s.metrics.lag) ∧
      ∀ last ∈ c.lastRun, (c.emit input es s).1.isOk = true →
        0 < input.now.nanosSince last ∧
          after = Binary64.ofInt (wrap (input.now.nanosSince last / 10 ^ 6 - c.interval.millis)) := by
  intro after
  cases hprice : c.price input with
  | error fault =>
      have hemit := emit_of_error hprice es s
      have hfailed : (c.emit input es s).1.isOk = false := by rw [hemit]; rfl
      have hafter : after = s.metrics.lag := by simp only [after, hemit]; rfl
      refine ⟨fun _ => hafter, fun _ => hafter, fun last _ hok => ?_⟩
      rw [hfailed] at hok
      cases hok
  | ok p =>
      have hemit := emit_of_ok hprice es s
      have hok : (c.emit input es s).1.isOk = true := by rw [hemit]; rfl
      have hafter : after = ((c.lag? p.elapsed).map Binary64.ofInt).getD s.metrics.lag := by
        simp only [after, hemit]
        rw [Exporter.lag_acceptByEach, ← lag_publish]
        rfl
      refine ⟨fun hfailed => ?_, fun hnone => ?_, fun last hlast _ => ?_⟩
      · rw [hok] at hfailed
        cases hfailed
      · rw [hafter, lag?, hnone]
        rfl
      · have hlast : c.lastRun = some last := hlast
        have hcovers := covers_of_elapsed (elapsed_of_price hprice)
        rw [hlast] at hcovers
        obtain ⟨hsince, hpos⟩ := hcovers
        have hmillis : (p.elapsed.millis : Int) = input.now.nanosSince last / 10 ^ 6 := by
          rw [← hsince, Span.millis]
          push_cast
          rfl
        refine ⟨by omega, ?_⟩
        rw [hafter, lag?, hlast, ← hmillis, ← lagBehind_eq, Option.map_some, Option.map_some,
          Option.getD_some]

/-! ## Runs -/

/-- The time of the last of some calls that succeeded. -/
def lastSucceeded (calls : List Call) : Option Instant :=
  ((calls.filter (·.result.isOk)).getLast?).map (·.input.now)

theorem lastSucceeded_cons (call : Call) (calls : List Call) :
    lastSucceeded (call :: calls) =
      (lastSucceeded calls).or (if call.result.isOk then some call.input.now else none) := by
  unfold lastSucceeded
  cases hok : call.result.isOk with
  | false => simp [hok]
  | true =>
      have hkept : (call :: calls).filter (·.result.isOk) = call :: calls.filter (·.result.isOk) :=
        List.filter_cons_of_pos hok
      rw [hkept, List.getLast?_cons]
      cases (calls.filter (·.result.isOk)).getLast? <;> rfl

/-- A cycle that succeeds is remembered by its time. -/
theorem emit_remembers (c : Coster) (input : CycleInput) (es : List Exporter) (s : Surroundings) :
    (c.emit input es s).2.1.interval = c.interval ∧
      (c.emit input es s).2.1.lastRun =
        (if (c.emit input es s).1.isOk then some input.now else none).or c.lastRun := by
  cases hprice : c.price input with
  | error fault =>
      rw [emit_of_error hprice]
      exact ⟨rfl, rfl⟩
  | ok p =>
      rw [emit_of_ok hprice]
      exact ⟨rfl, rfl⟩

/-- A coster knows the time of its last cycle that succeeded, and never changes its interval. -/
theorem emitAll_remembers (inputs : List CycleInput) (c : Coster) (es : List Exporter)
    (s : Surroundings) :
    let run := emitAll inputs c es s
    run.2.1.interval = c.interval ∧ run.2.1.lastRun = (lastSucceeded run.1).or c.lastRun := by
  induction inputs generalizing c es s with
  | nil => exact ⟨rfl, rfl⟩
  | cons input inputs ih =>
      obtain ⟨hinterval, hlast⟩ := emit_remembers c input es s
      obtain ⟨hothers, hlater⟩ := ih (c.emit input es s).2.1 (c.emit input es s).2.2.1
        (c.emit input es s).2.2.2
      refine ⟨hothers.trans hinterval, hlater.trans ?_⟩
      rw [hlast, ← Option.or_assoc]
      exact congrArg (·.or c.lastRun) (lastSucceeded_cons ⟨input, _, c.bill? input⟩ _).symm

theorem isReal_of_lastSucceeded {inputs : List CycleInput} {c : Coster} {es : List Exporter}
    {s : Surroundings} (hreal : ∀ input ∈ inputs, input.now.IsReal) :
    ∀ last ∈ lastSucceeded (emitAll inputs c es s).1, last.IsReal := by
  rintro last hlast
  obtain ⟨call, hcall, rfl⟩ := Option.map_eq_some_iff.1 hlast
  have hmem : call ∈ (emitAll inputs c es s).1 :=
    List.mem_of_mem_filter (List.mem_of_getLast? hcall)
  have hinput := List.mem_map_of_mem (f := Call.input) hmem
  rw [input_emitAll] at hinput
  exact hreal _ hinput

/-- **The lag is exact for every interval that fits into a word.** After any run of cycles, a cycle
that fails leaves the lag as it was, and so does the first one that succeeds. A later one sets it to
the whole milliseconds that have passed since the one before it, less those of the interval, counted
in words. No conversion and no difference leaves the range of a word exactly if the interval is
shorter than `2 ^ 63` milliseconds, and then the lag is the number nearest to the exact difference. -/
theorem lag_after_run (settings : Settings) (inputs : List CycleInput) (input : CycleInput)
    (hreal : ∀ i ∈ input :: inputs, i.now.IsReal) (es : List Exporter) (s : Surroundings) :
    let run := emitAll inputs (ofSettings settings) es s
    let cycle := run.2.1.emit input run.2.2.1 run.2.2.2
    let before := run.2.2.2.metrics.lag
    let after := cycle.2.2.2.metrics.lag
    (cycle.1.isOk = false → after = before) ∧ (lastSucceeded run.1 = none → after = before) ∧
      ∀ last ∈ lastSucceeded run.1, cycle.1.isOk = true →
        let passed := input.now.nanosSince last / 10 ^ 6
        let due : Int := settings.interval.millis
        after = Binary64.ofInt (wrap (passed - due)) ∧
          (wrap passed = passed ∧ wrap due = due ∧ wrap (passed - due) = passed - due ↔
            due < 2 ^ 63) ∧
          (due < 2 ^ 63 → after = Binary64.ofInt (passed - due)) := by
  intro run cycle before after
  obtain ⟨hnow, hearlier⟩ := List.forall_mem_cons.1 hreal
  obtain ⟨hinterval, hlast⟩ := emitAll_remembers inputs (ofSettings settings) es s
  have hinterval : run.2.1.interval = settings.interval := hinterval
  have hlast : run.2.1.lastRun = lastSucceeded run.1 := hlast.trans Option.or_none
  obtain ⟨hfailed, hfirst, hlater⟩ := lag_emit run.2.1 input run.2.2.1 run.2.2.2
  rw [hlast] at hfirst hlater
  refine ⟨hfailed, hfirst, fun last hmem hok => ?_⟩
  obtain ⟨hpos, hlag⟩ := hlater last hmem hok
  rw [hinterval] at hlag
  have hlag : after = Binary64.ofInt (wrap (input.now.nanosSince last / 10 ^ 6 -
    settings.interval.millis)) := hlag
  have hpassed : 0 ≤ input.now.nanosSince last / 10 ^ 6 ∧
      input.now.nanosSince last / 10 ^ 6 < 2 ^ 62 :=
    ⟨by omega, Instant.passed_lt hnow (isReal_of_lastSucceeded hearlier last hmem)⟩
  generalize input.now.nanosSince last / 10 ^ 6 = passed at hlag hpassed ⊢
  refine ⟨hlag, ?_, ?_⟩
  · simp only [wrap_eq_self_iff, Amount.InRange, Amount.least, Amount.greatest]
    omega
  · intro hshort
    have hexact : Amount.InRange (passed - settings.interval.millis) := by
      unfold Amount.InRange Amount.least Amount.greatest
      omega
    rw [hlag, wrap_eq_self_iff.2 hexact]

/-- Surroundings in which nothing has happened yet. -/
def untouched : Surroundings := ⟨.fresh, .silent "" 0 [], ⟨"", 0, true, 200, [], ⟨0⟩⟩, 0, 0⟩

/-- Every ten seconds, a cycle that comes after twelve and a half is two and a half seconds late. -/
theorem lag_after_run_late :
    let inputs := [callAt 1000, { callAt 1005 with workloads := .error "timeout" }]
    let late : CycleInput := { callAt 1012 with now := ⟨1012, 500000000⟩ }
    let run := emitAll inputs (ofSettings {}) [.stats] untouched
    (∀ i ∈ late :: inputs, i.now.IsReal) ∧
      (run.2.1.emit late run.2.2.1 run.2.2.2).2.2.2.metrics.lag = Binary64.ofInt 2500 := by
  intro inputs late run
  have hlate : late.now.IsReal := Instant.isReal_iff.2 (by decide)
  have hreal : ∀ i ∈ late :: inputs, i.now.IsReal :=
    List.forall_mem_cons.2 ⟨hlate, List.forall_mem_cons.2 ⟨rfl, List.forall_mem_singleton.2 rfl⟩⟩
  obtain ⟨-, -, hlater⟩ := lag_after_run {} inputs late hreal [.stats] untouched
  obtain ⟨-, -, hexact⟩ := hlater ⟨1000, 0⟩ rfl rfl
  exact ⟨hreal, (hexact (by decide)).trans (congrArg Binary64.ofInt (by decide))⟩

/-- Validation accepts an interval of `2 ^ 64 - 1` seconds. Its milliseconds become a thousand less
than nothing in a word, and so a second cycle, a second after the first and far ahead of its time, is
measured as two seconds late. -/
theorem lag_wraps :
    let ages : Settings := { interval := .ofSeconds (2 ^ 64 - 1) }
    let first := (ofSettings ages).emit (callAt 1000) [] untouched
    let second := first.2.1.emit (callAt 1001) first.2.2.1 first.2.2.2
    ages.validate = .ok () ∧ first.1 = .ok 0 ∧ second.1 = .ok 0 ∧
      second.2.2.2.metrics.lag = Binary64.ofInt 2000 ∧
      second.2.2.2.metrics.lag ≠ Binary64.ofInt (1000 - ages.interval.millis) := by
  intro ages first second
  obtain ⟨-, -, hlater⟩ := lag_emit first.2.1 (callAt 1001) first.2.2.1 first.2.2.2
  obtain ⟨-, hlag⟩ := hlater ⟨1000, 0⟩ rfl rfl
  have hwrapped : second.2.2.2.metrics.lag = Binary64.ofInt 2000 :=
    hlag.trans (congrArg Binary64.ofInt (by decide))
  refine ⟨by decide, rfl, rfl, hwrapped, ?_⟩
  rw [hwrapped]
  decide +kernel

end Coster

end Chargeback
