import Chargeback.Codec.Standard
import Chargeback.Export.Exporter
import Chargeback.Proofs.HttpDelivery
import Chargeback.Proofs.RunHistory
import Chargeback.Proofs.TableInsertion
import Chargeback.Proofs.ValidatedSettings

/-!
# What validated exporters can be relied on for

An exporter that was started SERVES its callers if its task does not break down, stopping it is no
fault, and then everything handed over is where it belongs. Between start and stop anything may
happen: records are handed over, the task makes its steps, its timer ticks, and the other side
answers, in every order.

Validation checks most of what this needs, but not all, and the main statement says what it leaves
out. Neither the period of the batch timer of an HTTP exporter nor that of the flush timer of a
ClickHouse exporter is checked, although every other period is: a timer without time between its ticks
breaks the task down, and the exporter then serves nobody. Sizes are not bounded: a semaphore has only
so many permits, which a start with a larger queue or more workers runs into, and a batch too large
for the memory breaks the task down like the timer. Headers that cannot be sent, and a time for an
export that is over before an answer can come, make every batch fail. And a batch is delivered only if
the library that compresses it takes it.
-/

namespace Chargeback

namespace HttpExporter

/-! ## An HTTP exporter that breaks down -/

/-- The task has broken down. -/
def isBroken (e : HttpExporter) : Bool := e.run.any (·.accumulator == .failed)

/-- The task, which stopping has to wait for, has broken down or will. -/
def IsLost (e : HttpExporter) : Prop :=
  e.isHeld = true ∧ ∃ d, e.run = some d ∧ d.accumulator.isHopeless = true

variable {settings : HttpSettings} {e e' : HttpExporter} {s s₀ s' : Surroundings} {d : Delivery}

theorem IsLost.perform? (h : e.IsLost) {event : DeliveryEvent}
    (hstep : e.perform? event s = some (e', s')) : e'.IsLost := by
  obtain ⟨hheld, d, hrun, hhopeless⟩ := h
  obtain ⟨d', m, hmove, rfl, -⟩ := perform?_eq_some hrun hstep
  exact ⟨hheld, d', rfl, hmove.isHopeless_eq.trans hhopeless⟩

variable [Codec.Codecs]

theorem IsLost.act? (h : e.IsLost) {a : Act} (hact : act? (e, s) a = some (e', s')) :
    e'.IsLost := by
  cases a with
  | offer r => exact h.perform? hact
  | move event =>
      simp only [HttpExporter.act?] at hact
      split at hact
      · exact h.perform? hact
      · cases hact
  | answer place took =>
      simp only [HttpExporter.act?] at hact
      split at hact
      · cases hact
      · exact h.perform? hact

theorem IsLost.actAll? {acts : List Act} (h : e.IsLost)
    (hacts : actAll? acts (e, s) = some (e', s')) : e'.IsLost := by
  have hkept : Kept (fun a x => HttpExporter.act? x a)
      fun x : HttpExporter × Surroundings => x.1.IsLost :=
    fun _ _ _ hx hact => hx.act? hact
  exact hkept.run h hacts

/-- A run left to itself whose accumulator broke down stays as it is in this. -/
theorem failed_of_advance (hrun : e.run = some d) (hfailed : d.accumulator = .failed) (n : Nat)
    (s : Surroundings) :
    ∃ d', (advance n e s).1 = { e with run := some d' } ∧ d'.accumulator = .failed := by
  induction n generalizing e s d with
  | zero => exact ⟨d, by rw [advance, ← hrun], hfailed⟩
  | succ n ih =>
      unfold advance
      cases hstep : e.advance? s with
      | none => exact ⟨d, by rw [← hrun], hfailed⟩
      | some next =>
          obtain ⟨e₁, s₁⟩ := next
          obtain ⟨d₁, hnext, hfailed₁⟩ : ∃ d₁, e₁ = { e with run := some d₁ } ∧
              d₁.accumulator = .failed := by
            rcases advance?_cases hstep with ⟨event, -, hstep⟩ | hstep
            · obtain ⟨d₁, _, hmove, rfl, -⟩ := perform?_eq_some hrun hstep
              exact ⟨d₁, rfl, hmove.failed hfailed⟩
            · rw [completeFirst?] at hstep
              split at hstep
              · cases hstep
              · obtain ⟨d₁, _, hmove, rfl, -⟩ := perform?_eq_some hrun hstep
                exact ⟨d₁, rfl, hmove.failed hfailed⟩
          subst hnext
          exact ih rfl hfailed₁ s₁

/-- Stopping an exporter whose task breaks down is a fault, at the latest then. -/
theorem IsLost.stop (h : e.IsLost) (s : Surroundings) :
    (e.stop s).1 = .error .joiningDelivery := by
  obtain ⟨hheld, d, hrun, hhopeless⟩ := h
  obtain ⟨⟨closed, s₁⟩, hclose⟩ := perform?_of_isSome .close s hrun fun m => rfl
  obtain ⟨d₁, m, hmove, rfl, rfl⟩ := perform?_eq_some hrun hclose
  have hhopeless₁ : d₁.accumulator.isHopeless = true := hmove.isHopeless_eq.trans hhopeless
  -- What is left of the accumulator breaks down before anything else happens.
  obtain ⟨d₂, hsettle, hfailed⟩ : ∃ d₂,
      (settle { e with run := some d₁ } { s with metrics := m }).1 = { e with run := some d₂ } ∧
        d₂.accumulator = .failed := by
    cases haccumulator : d₁.accumulator with
    | running | finished => simp [haccumulator, Accumulator.isHopeless] at hhopeless₁
    | failed => exact failed_of_advance rfl haccumulator _ _
    | doomed =>
        have hbreak : ({ e with run := some d₁ } : HttpExporter).advance? { s with metrics := m } =
            some ({ e with run := some { d₁ with accumulator := .failed, queue := [] } },
              { s with metrics := m }) := by
          simp [advance?, HttpExporter.perform?, Delivery.step?, haccumulator]
        simp only [settle, stepBound]
        rw [advance, hbreak]
        exact failed_of_advance
          (e := { e with run := some { d₁ with accumulator := .failed, queue := [] } }) rfl rfl _ _
  simp only [HttpExporter.stop, HttpExporter.close, HttpExporter.perform, hclose, Option.getD_some,
    hsettle]
  simp [hheld, hfailed]

/-! ## An HTTP exporter at work -/

/-- The exporter serves its callers: its task has not broken down, stopping it is no fault, and then
every attempt has succeeded and the collector has received the records handed over, in batches on top
of what it received earlier. -/
structure Serves (settings : HttpSettings) (earlier : List Post) (handed : List CostRecord)
    (e : HttpExporter) (s : Surroundings) : Prop where
  unbroken : e.isBroken = false
  stopped : (e.stop s).1 = .ok ()
  delivered : ∃ d posts, (e.stop s).2.1.run = some d ∧ (∀ p ∈ d.attempted, p.2 = true) ∧
    (e.stop s).2.2.collector.received = earlier ++ posts ∧
    Posted settings (d.attempted.map (·.1)) posts ∧ handed.Perm (d.attempted.map (·.1)).flatten

/-- Every batch that was attempted by the end could be compressed. -/
def Compresses (settings : HttpSettings) (e : HttpExporter) (s : Surroundings) : Prop :=
  ∀ d, (e.stop s).2.1.run = some d → ∀ p ∈ d.attempted,
    ∃ body, Codec.compress settings.compression (Ndjson.encode p.1) = .ok body

variable {base : Collector} {accepted : List CostRecord} {acts : List Act}

/-- What is handed over is carried, whatever else happens. -/
theorem Holds.act? (h : Holds settings base accepted true e s) {a : Act}
    (hact : act? (e, s) a = some (e', s')) :
    Holds settings base (accepted ++ handed [a]) true e' s' := by
  obtain ⟨d, hopen, hd⟩ := h
  cases a with
  | offer r => exact hd.offer hopen hact
  | move event =>
      simp only [HttpExporter.act?] at hact
      split at hact
      · next hinternal =>
          obtain ⟨d', hopen', -, hd'⟩ := hd.internal hinternal hact
          exact ⟨d', hopen'.trans hopen, by simpa [handed] using hd'⟩
      · cases hact
  | answer place took =>
      simp only [HttpExporter.act?, hd.running, Option.bind_some] at hact
      split at hact
      · cases hact
      · next b hb =>
          obtain ⟨d', hopen', -, hd'⟩ := hd.answer hb hact
          exact ⟨d', hopen'.trans hopen, by simpa [handed] using hd'⟩

theorem Holds.actAll? (h : Holds settings base accepted true e s)
    (hacts : actAll? acts (e, s) = some (e', s')) :
    Holds settings base (accepted ++ handed acts) true e' s' := by
  have hstep (rs : List CostRecord) (a : Act) (x x' : HttpExporter × Surroundings)
      (hx : Holds settings base rs true x.1 x.2) (hact : HttpExporter.act? x a = some x') :
      Holds settings base (rs ++ handed [a]) true x'.1 x'.2 := hx.act? hact
  exact runs?_carried handed rfl handed_cons hstep h hacts

end HttpExporter

section Awaiting

variable [Codec.Codecs]

/-- The collector is at the address configured, and answers what arrives there with success. -/
def Collector.Awaits (settings : HttpSettings) (c : Collector) : Prop :=
  ∃ u, Url.read? settings.address = some u ∧ c.isAt u = true ∧ isSuccess c.status = true

/-- What a collector that is there needs to take a batch. -/
theorem Collector.Awaits.takes_iff {settings : HttpSettings} {c : Collector} (h : c.Awaits settings)
    (rs : List CostRecord) :
    c.Takes settings rs ↔
      (Post.hasSendableHeaders settings = true ∧ c.isInTime settings = true) ∧
        ∃ body, Codec.compress settings.compression (Ndjson.encode rs) = .ok body := by
  obtain ⟨u, hurl, hat, hsuccess⟩ := h
  constructor
  · rintro ⟨p, hpost, -, htime, -⟩
    obtain ⟨body, u', hbody, -, hheaders, -⟩ := Post.ofRecords?_eq_some_iff.1 hpost
    exact ⟨⟨hheaders, htime⟩, body, hbody⟩
  · rintro ⟨⟨hheaders, htime⟩, body, hbody⟩
    exact ⟨_, Post.ofRecords?_eq_some_iff.2 ⟨body, u, hbody, hurl, hheaders, rfl⟩, hat, htime,
      hsuccess⟩

end Awaiting

namespace HttpExporter

variable [Codec.Codecs] {settings : HttpSettings} {acts : List Act} {e e' : HttpExporter}
  {s s₀ s' : Surroundings}

/-- What an exporter whose task does not break down needs to serve its callers at a collector that is
there. -/
theorem serves_iff_of_fits (hfits : fits settings s.room = true)
    (hawaits : s.collector.Awaits settings) (hstart : (fresh settings).start s = (.ok (), e, s₀))
    (hacts : actAll? acts (e, s₀) = some (e', s')) :
    Serves settings s.collector.received (handed acts) e' s' ↔
      (handed acts = [] ∨
        (Post.hasSendableHeaders settings = true ∧ s.collector.isInTime settings = true)) ∧
      Compresses settings e' s' := by
  obtain ⟨⟨⟨hqueue, hworkers⟩, -⟩, -⟩ := start_fresh hstart
  have hholds := Holds.actAll? ⟨_, rfl, Carries.start hfits hstart⟩ hacts
  rw [List.nil_append] at hholds
  obtain ⟨hok, d, -, hperm, hd⟩ := hholds.stop hqueue hworkers
  have htried (p : List CostRecord × Bool) (hp : p ∈ d.attempted) : p.2 = true ↔ _ :=
    (hd.answers p hp).trans (hawaits.takes_iff p.1)
  constructor
  · rintro ⟨-, -, d', posts, hrun, htakes, -, -, -⟩
    obtain rfl : d = d' := Option.some.inj (hd.running.symm.trans hrun)
    refine ⟨?_, fun d' hrun' p hp => ?_⟩
    · -- Whatever was handed over is in some batch, and that was taken.
      by_cases hnone : handed acts = []
      · exact .inl hnone
      · obtain ⟨r, hr⟩ := List.exists_mem_of_ne_nil _ hnone
        obtain ⟨b, hb, -⟩ := List.mem_flatten.1 (hperm.mem_iff.1 hr)
        obtain ⟨p, hp, -⟩ := List.mem_map.1 hb
        exact .inr ((htried p hp).1 (htakes p hp)).1
    · obtain rfl : d = d' := Option.some.inj (hd.running.symm.trans hrun')
      exact ((htried p hp).1 (htakes p hp)).2
  · intro ⟨hsent, hcompressed⟩
    have htakes : ∀ p ∈ d.attempted, p.2 = true := by
      intro p hp
      refine (htried p hp).2 ⟨?_, hcompressed d hd.running p hp⟩
      rcases hsent with hnone | hsent
      · -- No batch is empty, so without records there was none.
        have hrecords : d.attemptedRecords = [] := by simpa [hnone] using hperm
        have hempty := List.flatten_eq_nil_iff.1 hrecords p.1 (List.mem_map_of_mem hp)
        exact absurd hempty
          (hd.sound.dispatched p.1 (List.mem_append_right _ (List.mem_map_of_mem hp)))
      · exact hsent
    obtain ⟨posts, hreceived, hposted⟩ := hd.posted htakes
    refine ⟨?_, hok, d, posts, hd.running, htakes, hreceived, hposted, hperm⟩
    obtain ⟨d₁, -, hd₁⟩ := hholds
    have halive := hd₁.sound.alive
    cases haccumulator : d₁.accumulator with
    | running | finished => simp [isBroken, hd₁.running, haccumulator]
    | doomed | failed => simp [haccumulator, Accumulator.isHopeless] at halive

/-- An exporter to a collector that is there serves its callers if and only if its timer has time
between its ticks, there is room for a batch, headers can be sent and answers come in time unless
there is nothing to send, and every batch can be compressed. -/
theorem serves_iff (hbatch : 0 < settings.batchSize) (hawaits : s.collector.Awaits settings)
    (hstart : (fresh settings).start s = (.ok (), e, s₀))
    (hacts : actAll? acts (e, s₀) = some (e', s')) :
    Serves settings s.collector.received (handed acts) e' s' ↔
      settings.batchTimeout.isZero = false ∧ settings.batchSize ≤ s.room ∧
      (handed acts = [] ∨
        (Post.hasSendableHeaders settings = true ∧ s.collector.isInTime settings = true)) ∧
      Compresses settings e' s' := by
  have hfits : fits settings s.room = true ↔
      settings.batchTimeout.isZero = false ∧ settings.batchSize ≤ s.room := by
    rw [fits_eq_true_iff, Nat.max_eq_left hbatch]
  rw [← and_assoc, ← hfits]
  cases hfitting : fits settings s.room with
  | true =>
      rw [serves_iff_of_fits hfitting hawaits hstart hacts]
      exact (and_iff_right rfl).symm
  | false =>
      obtain ⟨-, -, hrun, hheld, -⟩ := start_fresh hstart
      have hhopeless : (Delivery.start (fits settings s.room)).accumulator.isHopeless = true := by
        simp [Delivery.start, hfitting, Accumulator.isHopeless]
      have hlost : e.IsLost := ⟨hheld, _, hrun, hhopeless⟩
      have hstopped := (hlost.actAll? hacts).stop s'
      refine iff_of_false (fun hserves => ?_) (by simp)
      rw [hserves.stopped] at hstopped
      cases hstopped

/-- A validated exporter can be started if and only if there are permits for its queue and its
workers. -/
theorem start_fst_eq_ok_iff (h : Settings.checkHttp settings = .ok ()) (s : Surroundings) :
    ((fresh settings).start s).1 = .ok () ↔
      settings.maxQueueSize ≤ permitLimit ∧ settings.workers ≤ permitLimit := by
  obtain ⟨-, hqueue, -, hworkers, -⟩ := Settings.checkHttp_eq_ok.1 h
  constructor
  · intro hok
    obtain ⟨⟨outcome, e, s'⟩, hstart⟩ : ∃ x, (fresh settings).start s = x := ⟨_, rfl⟩
    obtain rfl : outcome = .ok () := by rw [← hok, hstart]
    exact (start_fresh hstart).1.2
  · intro ⟨hplaces, hpermits⟩
    rw [start_fresh_of hqueue hworkers hplaces hpermits]

end HttpExporter

namespace ClickHouseExporter

variable {settings : ClickHouseSettings} {destinations : List String} {base : Database}
  {accepted : List CostRecord} {acts : List Act} {e e' : ClickHouseExporter}
  {s s₀ s' : Surroundings} {i : Insertion}

/-! ## A ClickHouse exporter that breaks down -/

/-- The task has broken down. -/
def isBroken (e : ClickHouseExporter) : Bool := e.run.any (·.batcher == .failed)

/-- The task, which stopping has to wait for, has broken down or will. -/
def IsLost (e : ClickHouseExporter) : Prop :=
  e.isHeld = true ∧ ∃ i, e.run = some i ∧ i.batcher.isHopeless = true

theorem IsLost.perform? (h : e.IsLost) {event : InsertionEvent}
    (hstep : e.perform? event s = some (e', s')) : e'.IsLost := by
  obtain ⟨hheld, i, hrun, hhopeless⟩ := h
  obtain ⟨i', m, hmove, rfl, -⟩ := perform?_eq_some hrun hstep
  exact ⟨hheld, i', rfl, hmove.isHopeless_eq.trans hhopeless⟩

theorem IsLost.act? (h : e.IsLost) {a : Act} (hact : act? (e, s) a = some (e', s')) :
    e'.IsLost := by
  cases a with
  | offer r => exact h.perform? hact
  | move event =>
      simp only [ClickHouseExporter.act?] at hact
      split at hact
      · exact h.perform? hact
      · cases hact
  | answer took =>
      simp only [ClickHouseExporter.act?] at hact
      split at hact
      · cases hact
      · exact h.perform? hact

theorem IsLost.actAll? (h : e.IsLost) (hacts : actAll? acts (e, s) = some (e', s')) :
    e'.IsLost := by
  have hkept : Kept (fun a x => ClickHouseExporter.act? x a)
      fun x : ClickHouseExporter × Surroundings => x.1.IsLost :=
    fun _ _ _ hx hact => hx.act? hact
  exact hkept.run h hacts

/-- A run left to itself whose batcher broke down stays as it is in this. -/
theorem failed_of_advance (hrun : e.run = some i) (hfailed : i.batcher = .failed) (n : Nat)
    (s : Surroundings) :
    ∃ i', (advance n e s).1 = { e with run := some i' } ∧ i'.batcher = .failed := by
  induction n generalizing e s i with
  | zero => exact ⟨i, by rw [advance, ← hrun], hfailed⟩
  | succ n ih =>
      unfold advance
      cases hstep : e.advance? s with
      | none => exact ⟨i, by rw [← hrun], hfailed⟩
      | some next =>
          obtain ⟨e₁, s₁⟩ := next
          obtain ⟨i₁, hnext, hfailed₁⟩ : ∃ i₁, e₁ = { e with run := some i₁ } ∧
              i₁.batcher = .failed := by
            rcases advance?_cases hstep with ⟨event, -, hstep⟩ | hstep
            · obtain ⟨i₁, _, hmove, rfl, -⟩ := perform?_eq_some hrun hstep
              exact ⟨i₁, rfl, hmove.failed hfailed⟩
            · by_cases hinserting : i.inserting = []
              · simp [complete?_of_idle hrun hinserting] at hstep
              · rw [complete?_of_inserting hrun hinserting] at hstep
                obtain ⟨i₁, _, hmove, rfl, -⟩ := perform?_eq_some hrun hstep
                exact ⟨i₁, rfl, hmove.failed hfailed⟩
          subst hnext
          exact ih rfl hfailed₁ s₁

/-- Stopping an exporter whose task breaks down is a fault, at the latest then. -/
theorem IsLost.stop (h : e.IsLost) (s : Surroundings) :
    (e.stop s).1 = .error .joiningInsertion := by
  obtain ⟨hheld, i, hrun, hhopeless⟩ := h
  obtain ⟨⟨closed, s₁⟩, hclose⟩ := perform?_of_isSome .close s hrun fun m => rfl
  obtain ⟨i₁, m, hmove, rfl, rfl⟩ := perform?_eq_some hrun hclose
  have hhopeless₁ : i₁.batcher.isHopeless = true := hmove.isHopeless_eq.trans hhopeless
  -- What is left of the batcher breaks down before anything else happens.
  obtain ⟨i₂, hsettle, hfailed⟩ : ∃ i₂,
      (settle { e with run := some i₁ } { s with metrics := m }).1 = { e with run := some i₂ } ∧
        i₂.batcher = .failed := by
    cases hbatcher : i₁.batcher with
    | running | finished => simp [hbatcher, Accumulator.isHopeless] at hhopeless₁
    | failed => exact failed_of_advance rfl hbatcher _ _
    | doomed =>
        have hbreak : ({ e with run := some i₁ } : ClickHouseExporter).advance?
            { s with metrics := m } =
            some ({ e with run := some { i₁ with batcher := .failed, queue := [] } },
              { s with metrics := m }) := by
          simp [advance?, ClickHouseExporter.perform?, Insertion.step?, hbatcher]
        simp only [settle, stepBound]
        rw [advance, hbreak]
        exact failed_of_advance
          (e := { e with run := some { i₁ with batcher := .failed, queue := [] } }) rfl rfl _ _
  simp only [ClickHouseExporter.stop, ClickHouseExporter.perform, hclose, Option.getD_some, hsettle]
  simp [hheld, hfailed]

/-! ## A ClickHouse exporter at work -/

/-- The exporter serves its callers: its task has not broken down, stopping it is no fault, and then
the database has taken statements, on top of those executed earlier, for batches that are, one after
the other, the records handed over. -/
structure Serves (settings : ClickHouseSettings) (destinations : List String) (base : Database)
    (handed : List CostRecord) (e : ClickHouseExporter) (s : Surroundings) : Prop where
  unbroken : e.isBroken = false
  stopped : (e.stop s).1 = .ok ()
  inserted : ∃ batches : List (List CostRecord),
    (e.stop s).2.2.database.statements =
      base.statements ++ batches.map (Sql.insert settings.qualifiedTable destinations) ∧
    (∀ b ∈ batches, (base.execute (Sql.insert settings.qualifiedTable destinations b)).1 = true) ∧
    batches.flatten = handed

/-- What is handed over is carried, whatever else happens. -/
theorem Carries.act? (h : Carries settings destinations base accepted e s i)
    (hopen : i.isOpen = true) {a : Act} (hact : act? (e, s) a = some (e', s')) :
    ∃ i', i'.isOpen = true ∧
      Carries settings destinations base (accepted ++ handed [a]) e' s' i' := by
  cases a with
  | offer r => exact h.offer hopen hact
  | move event =>
      simp only [ClickHouseExporter.act?] at hact
      split at hact
      · next hinternal =>
          obtain ⟨i', hopen', -, hi'⟩ := h.internal hinternal hact
          exact ⟨i', hopen'.trans hopen, by simpa [handed] using hi'⟩
      · cases hact
  | answer took =>
      simp only [ClickHouseExporter.act?, h.running] at hact
      obtain ⟨i', hopen', -, hi'⟩ := h.answer hact
      exact ⟨i', hopen'.trans hopen, by simpa [handed] using hi'⟩

theorem Carries.actAll? (h : Carries settings destinations base accepted e s i)
    (hopen : i.isOpen = true) (hacts : actAll? acts (e, s) = some (e', s')) :
    ∃ i', Carries settings destinations base (accepted ++ handed acts) e' s' i' := by
  have hstep (rs : List CostRecord) (a : Act) (x x' : ClickHouseExporter × Surroundings)
      (hx : ∃ i : Insertion, i.isOpen = true ∧ Carries settings destinations base rs x.1 x.2 i)
      (hact : ClickHouseExporter.act? x a = some x') :
      ∃ i : Insertion, i.isOpen = true ∧
        Carries settings destinations base (rs ++ handed [a]) x'.1 x'.2 i := by
    obtain ⟨i, hopen, hi⟩ := hx
    exact hi.act? hopen hact
  obtain ⟨i', -, hi'⟩ := runs?_carried handed rfl handed_cons hstep ⟨i, hopen, h⟩ hacts
  exact ⟨i', hi'⟩

/-- An exporter to a database that refuses nothing serves its callers if and only if there is time
between the ticks of its timer and room for a batch. -/
theorem serves_iff (hbatch : 0 < settings.batchSize) (htakes : s.database.refusals = [])
    (hstart : (fresh settings destinations).start s = (.ok (), e, s₀))
    (hacts : actAll? acts (e, s₀) = some (e', s')) :
    Serves settings destinations s₀.database (handed acts) e' s' ↔
      settings.flushInterval.isZero = false ∧ settings.batchSize ≤ s.room := by
  obtain ⟨-, -, -, hrun, hheld, hrefusals⟩ := start_fresh hstart
  have hfits : fits settings s.room = true ↔
      settings.flushInterval.isZero = false ∧ settings.batchSize ≤ s.room := by
    rw [fits_eq_true_iff, Nat.max_eq_left hbatch]
  rw [← hfits]
  constructor
  · intro hserves
    by_contra hnot
    have hhopeless : (Insertion.start (fits settings s.room)).batcher.isHopeless = true := by
      simp [Insertion.start, hnot, Accumulator.isHopeless]
    have hlost : e.IsLost := ⟨hheld, _, hrun, hhopeless⟩
    have hstopped := (hlost.actAll? hacts).stop s'
    rw [hserves.stopped] at hstopped
    cases hstopped
  · intro hfitting
    obtain ⟨i, hi⟩ := (Carries.start hfitting hstart).actAll? rfl hacts
    obtain ⟨hstopped, inserted, hstatements, -, hflat⟩ := hi.stop
    refine ⟨?_, hstopped, inserted.map (·.1), ?_, ?_, hflat⟩
    · have halive := hi.sound.alive
      cases hbatcher : i.batcher with
      | running | finished => simp [isBroken, hi.running, hbatcher]
      | doomed | failed => simp [hbatcher, Accumulator.isHopeless] at halive
    · rw [List.map_map]
      exact hstatements
    · intro b _
      simp [Database.execute, hrefusals, htakes]

/-- An exporter to a database that is there and refuses nothing can be started if and only if there
are permits for its queue. -/
theorem start_fst_eq_ok_iff (hthere : (s.database.connect? settings.dsn).isSome)
    (htakes : s.database.refusals = []) :
    ((fresh settings destinations).start s).1 = .ok () ↔ settings.maxQueueSize ≤ permitLimit := by
  constructor
  · intro hok
    obtain ⟨⟨outcome, e, s'⟩, hstart⟩ : ∃ x, (fresh settings destinations).start s = x := ⟨_, rfl⟩
    obtain rfl : outcome = .ok () := by rw [← hok, hstart]
    exact (start_fresh hstart).1
  · intro hplaces
    obtain ⟨database, hconnect⟩ := Option.isSome_iff_exists.1 hthere
    have hrefusals : database.refusals = [] := (refusals_of_connect? hconnect).trans htakes
    have hcreated : (database.execute (Sql.createTable settings.qualifiedTable destinations)).1 =
        true := by simp [Database.execute, hrefusals]
    unfold ClickHouseExporter.start
    cases hcreate : settings.createTable with
    | false =>
        simp only [fresh, hconnect, hcreate, Option.isSome_none, Bool.false_eq_true, if_false,
          Bool.not_true, Nat.not_lt.2 hplaces]
    | true =>
        simp only [fresh, hconnect, hcreate, Option.isSome_none, Bool.false_eq_true, if_false, if_true,
          Surroundings.execute, hcreated, Bool.not_true, Nat.not_lt.2 hplaces]

end ClickHouseExporter

/-! ## Validated settings -/

/-- The periods of the timers of an exporter. -/
def Exporter.periods : Exporter → List Span
  | .stats => []
  | .http e => [e.settings.batchTimeout]
  | .clickhouse e => [e.settings.flushInterval]
  | .buffering stage _ next => stage.interval :: next.periods

namespace Settings

/-- The periods of the timers of a process that collects, with the exporters given. -/
def periods (s : Settings) (exporters : List Exporter) : List Span :=
  s.interval :: s.inventory.resyncInterval :: exporters.flatMap (·.periods)

variable {settings : Settings}

/-- The exporters configured, whatever the metrics are. -/
theorem exporters_of_configured {s : ExporterSettings} {destinations : List String} {m m' : Metrics}
    {exporters : List Exporter} (h : Exporter.configured s destinations m = .ok (exporters, m')) :
    exporters = (if s.stats then [Exporter.stats] else []) ++
      ((if s.http.enabled then [Exporter.http (.fresh s.http)] else []) ++
        if s.clickhouse.enabled then [Exporter.clickhouse (.fresh s.clickhouse destinations)]
        else []).map fun x => x.behindBuffer s.bufferInterval := by
  cases hstats : s.stats with
  | false =>
      simp only [Exporter.configured, hstats, bind, Except.bind, pure, Except.pure] at h
      obtain ⟨rfl, -⟩ := Prod.mk.inj (Except.ok.inj h)
      rfl
  | true =>
      simp only [Exporter.configured, hstats, bind, Except.bind, pure, Except.pure] at h
      cases hcosts : m.registerCosts destinations with
      | error fault => simp [hcosts] at h
      | ok registered =>
          rw [hcosts] at h
          obtain ⟨rfl, -⟩ := Prod.mk.inj (Except.ok.inj h)
          rfl

/-- Every timer has time between its ticks, but for the two that validation leaves out. -/
theorem periods_iff (hvalid : settings.validate = .ok ()) (hcollect : settings.validateCollect = .ok ())
    {destinations : List String} {m m' : Metrics} {exporters : List Exporter}
    (hconfigured : Exporter.configured settings.exporters destinations m = .ok (exporters, m')) :
    (∀ p ∈ settings.periods exporters, p.isZero = false) ↔
      (settings.exporters.http.enabled = true →
        settings.exporters.http.batchTimeout.isZero = false) ∧
      (settings.exporters.clickhouse.enabled = true →
        settings.exporters.clickhouse.flushInterval.isZero = false) := by
  obtain ⟨hinterval, hbuffer, -⟩ := validate_eq_ok.1 hvalid
  obtain ⟨-, -, hresync, -⟩ := validateCollect_eq_ok.1 hcollect
  rw [exporters_of_configured hconfigured]
  -- Which exporters are in use decides which timers there are.
  cases settings.exporters.stats <;> cases settings.exporters.http.enabled <;>
    cases settings.exporters.clickhouse.enabled <;>
    simp [periods, Exporter.periods, Exporter.behindBuffer, Buffering.fresh, HttpExporter.fresh,
      ClickHouseExporter.fresh, hinterval, hbuffer, hresync]

/-- **What a validated exporter can be relied on for.** Let settings be validated for collecting.
Then every timer of the process has time between its ticks, but for the batch timer of the HTTP
exporter and the flush timer of the ClickHouse exporter, which validation leaves out. The HTTP
exporter can be started if and only if there are permits for its queue and its workers. From then on,
whatever happens, it serves its callers at a collector that awaits it if and only if there is time
between the ticks of its batch timer, there is room for a batch, its headers can be sent and answers
come in time unless there is nothing to send, and its batches can be compressed. The ClickHouse
exporter can be started at a database that is there if and only if there are permits for its queue,
and serves its callers, where the database refuses nothing, if and only if there is time between the
ticks of its flush timer and room for a batch. -/
theorem validated_exporters_serve_iff [Codec.Codecs] (hvalid : settings.validate = .ok ())
    (hcollect : settings.validateCollect = .ok ()) :
    (∀ destinations m exporters m',
      Exporter.configured settings.exporters destinations m = .ok (exporters, m') →
      ((∀ p ∈ settings.periods exporters, p.isZero = false) ↔
        (settings.exporters.http.enabled = true →
          settings.exporters.http.batchTimeout.isZero = false) ∧
        (settings.exporters.clickhouse.enabled = true →
          settings.exporters.clickhouse.flushInterval.isZero = false))) ∧
    (settings.exporters.http.enabled = true →
      let http := settings.exporters.http
      ∀ s : Surroundings, s.collector.Awaits http →
        (((HttpExporter.fresh http).start s).1 = .ok () ↔
          http.maxQueueSize ≤ permitLimit ∧ http.workers ≤ permitLimit) ∧
        ∀ e s₀, (HttpExporter.fresh http).start s = (.ok (), e, s₀) →
          ∀ acts e' s', HttpExporter.actAll? acts (e, s₀) = some (e', s') →
            (HttpExporter.Serves http s.collector.received (HttpExporter.handed acts) e' s' ↔
              http.batchTimeout.isZero = false ∧ http.batchSize ≤ s.room ∧
              (HttpExporter.handed acts = [] ∨
                (Post.hasSendableHeaders http = true ∧ s.collector.isInTime http = true)) ∧
              HttpExporter.Compresses http e' s')) ∧
    (settings.exporters.clickhouse.enabled = true →
      let clickhouse := settings.exporters.clickhouse
      ∀ (s : Surroundings) (destinations : List String), s.database.refusals = [] →
        ((s.database.connect? clickhouse.dsn).isSome →
          (((ClickHouseExporter.fresh clickhouse destinations).start s).1 = .ok () ↔
            clickhouse.maxQueueSize ≤ permitLimit)) ∧
        ∀ e s₀, (ClickHouseExporter.fresh clickhouse destinations).start s = (.ok (), e, s₀) →
          ∀ acts e' s', ClickHouseExporter.actAll? acts (e, s₀) = some (e', s') →
            (ClickHouseExporter.Serves clickhouse destinations s₀.database
              (ClickHouseExporter.handed acts) e' s' ↔
              clickhouse.flushInterval.isZero = false ∧ clickhouse.batchSize ≤ s.room)) := by
  obtain ⟨-, -, -, -, -, hhttp, hclickhouse⟩ := validate_eq_ok.1 hvalid
  refine ⟨fun destinations m exporters m' => periods_iff hvalid hcollect, ?_, ?_⟩
  · intro henabled http s hawaits
    have hchecked := hhttp henabled
    obtain ⟨-, -, hbatch, -⟩ := checkHttp_eq_ok.1 hchecked
    exact ⟨HttpExporter.start_fst_eq_ok_iff hchecked s, fun e s₀ hstart acts e' s' =>
      HttpExporter.serves_iff hbatch hawaits hstart⟩
  · intro henabled clickhouse s destinations htakes
    obtain ⟨-, hbatch, -⟩ := checkClickHouse_eq_ok.1 (hclickhouse henabled)
    exact ⟨fun hthere => ClickHouseExporter.start_fst_eq_ok_iff hthere htakes,
      fun e s₀ hstart acts e' s' => ClickHouseExporter.serves_iff hbatch htakes hstart⟩

/-! ## Both exporters in use -/

/-- Settings for collecting with both exporters in use. -/
def collecting (batchTimeout flushInterval : Span) : Settings where
  inventory := { podsPath := "pods.json", nodesPath := "nodes.json" }
  pricing := { entries := [default] }
  exporters :=
    { http := { enabled := true, address := "http://collector", compression := "none", batchTimeout }
      clickhouse := { enabled := true, endpoint := "database", flushInterval } }

/-- A collector and a database that take everything. -/
def obliging : Surroundings where
  metrics := .fresh
  database := .silent "database" Database.usualPort []
  collector :=
    { host := "collector", port := 80, isListening := true, status := 200, received := [] }
  now := 0

/-- A record. -/
def oneRecord : CostRecord :=
  ⟨.cpu, "CPUPricingStrategy", 7, .empty, ⟨1714564800, 0⟩⟩

theorem validated_exporters_serve_one :
    (collecting (.ofSeconds 5) (.ofSeconds 1)).validate = .ok () ∧
    (collecting (.ofSeconds 5) (.ofSeconds 1)).validateCollect = .ok () ∧
    (∃ e s, HttpExporter.Serves (collecting (.ofSeconds 5) (.ofSeconds 1)).exporters.http []
      [oneRecord] e s) ∧
    ∃ base e s, ClickHouseExporter.Serves (collecting (.ofSeconds 5) (.ofSeconds 1)).exporters.clickhouse
      [] base [oneRecord] e s := by
  have hvalid : (collecting (.ofSeconds 5) (.ofSeconds 1)).validate = .ok () := by decide
  have hcollect : (collecting (.ofSeconds 5) (.ofSeconds 1)).validateCollect = .ok () := by decide
  obtain ⟨-, hhttp, hclickhouse⟩ := validated_exporters_serve_iff hvalid hcollect
  refine ⟨hvalid, hcollect, ?_, ?_⟩
  · obtain ⟨-, hserves⟩ := hhttp rfl obliging ⟨_, rfl, rfl, rfl⟩
    have hroom : (collecting (.ofSeconds 5) (.ofSeconds 1)).exporters.http.batchSize ≤
        obliging.room := by decide
    exact ⟨_, _, (hserves _ _ rfl [.offer oneRecord] _ _ rfl).2
      ⟨rfl, hroom, .inr ⟨rfl, rfl⟩, fun _ _ _ _ => ⟨_, rfl⟩⟩⟩
  · obtain ⟨-, hserves⟩ := hclickhouse rfl obliging [] rfl
    have hroom : (collecting (.ofSeconds 5) (.ofSeconds 1)).exporters.clickhouse.batchSize ≤
        obliging.room := by decide
    exact ⟨_, _, _, (hserves _ _ rfl [.offer oneRecord] _ _ rfl).2 ⟨rfl, hroom⟩⟩

/-- Validation accepts timers without time between their ticks: an exporter that was started then
breaks down and loses the record handed over, and stopping it is a fault. -/
theorem validated_exporters_fail :
    (collecting ⟨0⟩ ⟨0⟩).validate = .ok () ∧ (collecting ⟨0⟩ ⟨0⟩).validateCollect = .ok () ∧
    (obliging.collector.Awaits (collecting ⟨0⟩ ⟨0⟩).exporters.http ∧ ∃ e s₀ e' s',
      (HttpExporter.fresh (collecting ⟨0⟩ ⟨0⟩).exporters.http).start obliging = (.ok (), e, s₀) ∧
      HttpExporter.actAll? [.move .breakDown, .offer oneRecord] (e, s₀) = some (e', s') ∧
      e'.isBroken = true ∧
      (e'.stop s').1 = .error .joiningDelivery ∧ (e'.stop s').2.2.collector.received = []) ∧
    (obliging.database.refusals = [] ∧ ∃ e s₀ e' s',
      (ClickHouseExporter.fresh (collecting ⟨0⟩ ⟨0⟩).exporters.clickhouse []).start obliging =
        (.ok (), e, s₀) ∧
      ClickHouseExporter.actAll? [.move .breakDown, .offer oneRecord] (e, s₀) = some (e', s') ∧
      e'.isBroken = true ∧
      (e'.stop s').1 = .error .joiningInsertion ∧
      (e'.stop s').2.2.database.statements = s₀.database.statements) := by
  refine ⟨by decide, by decide, ⟨⟨_, rfl, rfl, rfl⟩, _, _, _, _, rfl, rfl, rfl, rfl, rfl⟩,
    rfl, _, _, _, _, rfl, rfl, rfl, rfl, rfl⟩

end Settings

end Chargeback
