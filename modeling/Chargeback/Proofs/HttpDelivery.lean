import Chargeback.Export.Http
import Chargeback.Proofs.DeliveryFlow

/-!
# What an HTTP exporter delivers

An exporter that was started CARRIES every record that it accepted: a record is in the hands of its
delivery, or its batch was attempted; the collector has received the requests for the batches
attempted, in their order, as far as they reached it; and an attempt succeeded if the collector took
the batch. Every call of the exporter keeps this, with the records that it brings.

Stopping closes the queue and leaves the delivery to itself. By then only a finite amount of work is
left, and the program makes as many steps as that at least (`work_le_stepBound`), so stopping ends
with everything attempted.
-/

namespace Chargeback

namespace HttpExporter

variable {settings : HttpSettings} {e e' : HttpExporter} {s s' : Surroundings} {d d' : Delivery}
  {event : DeliveryEvent}

/-! ## Events -/

/-- An event that happens is a step of the run and changes nothing else but the metrics. -/
theorem perform?_eq_some (hrun : e.run = some d) (h : e.perform? event s = some (e', s')) :
    ∃ d' m, Delivery.Moves e.limits d event d' ∧ e' = { e with run := some d' } ∧
      s' = { s with metrics := m } := by
  rw [perform?, hrun] at h
  cases hstep : Delivery.step? e.limits event (d, s.metrics) with
  | none => simp [hstep] at h
  | some next =>
      obtain ⟨d', m⟩ := next
      obtain ⟨rfl, rfl⟩ : _ = e' ∧ _ = s' := by simpa [hstep] using h
      exact ⟨d', m, Delivery.moves_of_step? hstep, rfl, rfl⟩

theorem frame_of_perform? (h : e.perform? event s = some (e', s')) :
    e'.settings = e.settings ∧ s'.collector = s.collector := by
  cases hrun : e.run with
  | none => simp [perform?, hrun] at h
  | some d =>
      obtain ⟨d', m, -, rfl, rfl⟩ := perform?_eq_some hrun h
      exact ⟨rfl, rfl⟩

theorem perform?_of_isSome (event : DeliveryEvent) (s : Surroundings) (hrun : e.run = some d)
    (h : ∀ m, (Delivery.step? e.limits event (d, m)).isSome) :
    ∃ next, e.perform? event s = some next := by
  obtain ⟨next, hnext⟩ := Option.isSome_iff_exists.1 (h s.metrics)
  rw [perform?, hrun]
  simp [hnext]

/-- The steps that the program allows for are enough. -/
theorem work_le_stepBound (hs : d.Sound) : d.work ≤ stepBound d := by
  -- No batch is empty, so there are no more of them than records in them.
  have hnonempty : d.backlog.length ≤ d.backlog.flatten.length := by
    have hbacklog : ∀ b ∈ d.backlog, b ≠ [] := fun b hb =>
      hs.dispatched b (List.mem_append_left _ (List.mem_append_left _ hb))
    generalize d.backlog = bs at hbacklog
    induction bs with
    | nil => simp
    | cons b bs ih =>
        have hb : 0 < b.length := List.length_pos_iff.2 (hbacklog b List.mem_cons_self)
        have hrest := ih fun c hc => hbacklog c (List.mem_cons_of_mem _ hc)
        simp only [List.length_cons, List.flatten_cons, List.length_append]
        omega
  have hopen : d.isOpen.toNat ≤ 1 := Bool.toNat_le _
  have hdeaf : (!d.accumulator.isDeaf).toNat ≤ 1 := Bool.toNat_le _
  simp only [Delivery.work, stepBound]
  omega

theorem fits_eq_true_iff {room : Nat} :
    fits settings room = true ↔
      settings.batchTimeout.isZero = false ∧ max settings.batchSize 1 ≤ room := by
  simp [fits]

/-! ## Acts -/

/-- Something that happens to an exporter between its start and its stop. -/
inductive Act where
  /-- A caller hands over a record. -/
  | offer (r : CostRecord)
  /-- The delivery makes a step of its own. -/
  | move (event : DeliveryEvent)
  /-- The collector answers the batch at a place among those in delivery. -/
  | answer (place : Nat) (took : Binary64)

/-- The records handed over by a list of acts. -/
def handed : List Act → List CostRecord
  | [] => []
  | .offer r :: acts => r :: handed acts
  | _ :: acts => handed acts

theorem handed_cons (a : Act) (acts : List Act) : handed (a :: acts) = handed [a] ++ handed acts := by
  cases a <;> rfl

end HttpExporter

variable [Codec.Codecs]

/-! ## The collector -/

/-- The collector accepts every batch. -/
def Collector.Accepts (settings : HttpSettings) (c : Collector) : Prop :=
  ∀ rs, (c.deliver settings rs).1 = true

/-- The collector takes a batch: a request can be made of it, which reaches the collector and is
answered in time and with a status of success. -/
def Collector.Takes (settings : HttpSettings) (rs : List CostRecord) (c : Collector) : Prop :=
  ∃ p, Post.ofRecords? settings rs = some p ∧ c.isAt p.url = true ∧ c.isInTime settings = true ∧
    isSuccess c.status = true

/-- The requests that reach the collector when a batch is sent: one, or none. -/
def Collector.gets (settings : HttpSettings) (c : Collector) (rs : List CostRecord) : List Post :=
  (Post.ofRecords? settings rs).toList.filter fun p => c.isAt p.url

/-- The requests are those for the batches, in their order. -/
def Posted (settings : HttpSettings) (batches : List (List CostRecord)) (posts : List Post) :
    Prop :=
  List.Forall₂ (fun b p => Post.ofRecords? settings b = some p) batches posts

/-- What it takes to make a request of a batch. -/
theorem Post.ofRecords?_eq_some_iff {settings : HttpSettings} {rs : List CostRecord} {p : Post} :
    Post.ofRecords? settings rs = some p ↔ ∃ body u,
      Codec.compress settings.compression (Ndjson.encode rs) = .ok body ∧
      Url.read? settings.address = some u ∧ hasSendableHeaders settings = true ∧
      p = { url := u, headers := headersOf settings, body } := by
  unfold ofRecords?
  cases Codec.compress settings.compression (Ndjson.encode rs) with
  | error fault => simp [Except.toOption]
  | ok body =>
      cases Url.read? settings.address with
      | none => simp [Except.toOption]
      | some u =>
          cases hheaders : hasSendableHeaders settings with
          | false => simp [Except.toOption]
          | true => simp [Except.toOption, eq_comm]

namespace Collector

variable {settings : HttpSettings} {c : Collector} {rs : List CostRecord}

/-- A delivery succeeds if the collector takes the batch, and has failed otherwise. -/
theorem deliver_fst_eq_true_iff : (c.deliver settings rs).1 = true ↔ c.Takes settings rs := by
  unfold deliver Takes
  cases Post.ofRecords? settings rs with
  | none => simp
  | some p =>
      cases hat : c.isAt p.url with
      | true => simp [hat]
      | false => simp [hat]

/-- A delivery leaves the collector as it was, but for the requests that it got. -/
theorem deliver_snd (settings : HttpSettings) (rs : List CostRecord) (c : Collector) :
    (c.deliver settings rs).2 = { c with received := c.received ++ c.gets settings rs } := by
  unfold deliver gets
  cases Post.ofRecords? settings rs with
  | none => simp
  | some p =>
      cases hat : c.isAt p.url with
      | true => simp [hat]
      | false => simp [hat]

/-- A batch that was taken has arrived. -/
theorem Takes.gets_eq (h : c.Takes settings rs) :
    ∃ p, Post.ofRecords? settings rs = some p ∧ c.gets settings rs = [p] := by
  obtain ⟨p, hpost, hat, -⟩ := h
  exact ⟨p, hpost, by simp [gets, hpost, hat]⟩

/-- Batches that were taken have arrived, in their order. -/
theorem posted_of_takes {batches : List (List CostRecord)}
    (h : ∀ b ∈ batches, c.Takes settings b) :
    Posted settings batches (batches.flatMap (c.gets settings)) := by
  induction batches with
  | nil => exact .nil
  | cons b batches ih =>
      obtain ⟨hb, hrest⟩ := List.forall_mem_cons.1 h
      obtain ⟨p, hpost, hgets⟩ := hb.gets_eq
      rw [List.flatMap_cons, hgets]
      exact .cons hpost (ih hrest)

end Collector

namespace HttpExporter

variable {settings : HttpSettings} {base : Collector} {accepted : List CostRecord}
  {e e' : HttpExporter} {s s' : Surroundings} {d d' : Delivery} {event : DeliveryEvent}

/-! ## One step -/

/-- The exporter carries the records accepted: they are in the hands of its delivery or attempted.
The collector, which was another one at first, received the requests for the batches attempted as
far as they reached it, and the attempts succeeded that it took. -/
structure Carries (settings : HttpSettings) (base : Collector) (accepted : List CostRecord)
    (e : HttpExporter) (s : Surroundings) (d : Delivery) : Prop where
  running : e.run = some d
  configured : e.settings = settings
  sound : d.Sound
  carried : accepted.Perm (d.inHand ++ d.attemptedRecords)
  collector : s.collector =
    { base with received := base.received ++ d.attempted.flatMap fun p => base.gets settings p.1 }
  answers : ∀ p ∈ d.attempted, p.2 = true ↔ base.Takes settings p.1

/-- Only the collector matters among the surroundings. -/
theorem Carries.of_collector (h : Carries settings base accepted e s d)
    (hcollector : s'.collector = s.collector) : Carries settings base accepted e s' d :=
  ⟨h.running, h.configured, h.sound, h.carried, hcollector.trans h.collector, h.answers⟩

/-- What was attempted with success has arrived. -/
theorem Carries.posted (h : Carries settings base accepted e s d)
    (htakes : ∀ p ∈ d.attempted, p.2 = true) :
    ∃ posts, s.collector.received = base.received ++ posts ∧
      Posted settings (d.attempted.map (·.1)) posts := by
  refine ⟨_, congrArg Collector.received h.collector, ?_⟩
  rw [← List.flatMap_map]
  refine Collector.posted_of_takes ?_
  rw [List.forall_mem_map]
  intro p hp
  exact (h.answers p hp).1 (htakes p hp)

/-- A collector that accepts every batch has received all that was attempted. -/
theorem Carries.posted_of_accepts (h : Carries settings base accepted e s d)
    (haccepts : base.Accepts settings) :
    ∃ posts, s.collector.received = base.received ++ posts ∧
      Posted settings (d.attempted.map (·.1)) posts :=
  h.posted fun p hp => (h.answers p hp).2 (Collector.deliver_fst_eq_true_iff.1 (haccepts p.1))

/-- A step that attempts nothing. -/
theorem Carries.perform? (h : Carries settings base accepted e s d) (event : DeliveryEvent)
    (hattempts : d.attempts event = []) (hstep : e.perform? event s = some (e', s')) :
    ∃ d', Delivery.Moves e.limits d event d' ∧
      Carries settings base (accepted ++ d.accepts event) e' s' d' := by
  obtain ⟨d', m, hmove, rfl, rfl⟩ := perform?_eq_some h.running hstep
  have hflow := hmove.carried_perm h.sound
  have hattempted : d'.attempted = d.attempted := by
    rw [hmove.attempted_eq, hattempts, List.append_nil]
  refine ⟨d', hmove, rfl, h.configured, h.sound.move hmove, ?_, hattempted ▸ h.collector,
    hattempted ▸ h.answers⟩
  exact (h.carried.append_right _).trans hflow.symm

/-- What is offered is carried as long as the queue is open. -/
theorem Carries.offer (h : Carries settings base accepted e s d) (hopen : d.isOpen = true)
    {r : CostRecord} (hstep : e.perform? (.offer r) s = some (e', s')) :
    ∃ d', d'.isOpen = true ∧ Carries settings base (accepted ++ [r]) e' s' d' := by
  obtain ⟨d', hmove, hd'⟩ := h.perform? (.offer r) rfl hstep
  rw [h.sound.accepts_offer hopen] at hd'
  exact ⟨d', by simpa [hopen] using hmove.isOpen_eq, hd'⟩

/-- A step that the delivery makes by itself changes nothing of what is carried. -/
theorem Carries.internal (h : Carries settings base accepted e s d)
    (hinternal : event.isInternal = true) (hstep : e.perform? event s = some (e', s')) :
    ∃ d', d'.isOpen = d.isOpen ∧ d'.work + d.spends event ≤ d.work ∧
      Carries settings base accepted e' s' d' := by
  obtain ⟨haccepts, hattempts, hclose⟩ := Delivery.frame_of_internal (d := d) hinternal
  obtain ⟨d', hmove, hd'⟩ := h.perform? event hattempts hstep
  have hwork := hmove.work_le
  rw [haccepts, List.append_nil] at hd'
  rw [haccepts, List.length_nil] at hwork
  exact ⟨d', by simpa [hclose] using hmove.isOpen_eq, hwork, hd'⟩

/-- The collector answers a batch in delivery, and has received it by then, if that reached it. -/
theorem Carries.answer (h : Carries settings base accepted e s d) {place : Nat}
    {b : List CostRecord} {took : Binary64} (hb : d.sending[place]? = some b)
    (hstep : e.perform? (.complete place (s.deliver e.settings b).1 took)
      (s.deliver e.settings b).2 = some (e', s')) :
    ∃ d', d'.isOpen = d.isOpen ∧ d'.work < d.work ∧
      Carries settings base accepted e' s' d' := by
  obtain ⟨d', m, hmove, rfl, rfl⟩ := perform?_eq_some h.running hstep
  have hanswer : (s.deliver e.settings b).1 = true ↔ base.Takes settings b := by
    rw [show (s.deliver e.settings b).1 = (s.collector.deliver e.settings b).1 from rfl,
      Collector.deliver_fst_eq_true_iff, h.configured, h.collector]
    rfl
  have hcollector : (s.deliver e.settings b).2.collector =
      { base with received := base.received ++
          (d.attempted.flatMap fun p => base.gets settings p.1) ++ base.gets settings b } := by
    rw [show (s.deliver e.settings b).2.collector = (s.collector.deliver e.settings b).2 from rfl,
      Collector.deliver_snd, h.configured, h.collector]
    rfl
  have hflow := hmove.carried_perm h.sound
  have hwork := hmove.work_le
  have hattempted : d'.attempted = d.attempted ++ [(b, (s.deliver e.settings b).1)] := by
    rw [hmove.attempted_eq]
    simp [Delivery.attempts, hb]
  simp only [Delivery.spends, Delivery.accepts, List.length_nil, List.append_nil] at hwork hflow
  refine ⟨d', by simpa using hmove.isOpen_eq, by omega, rfl, h.configured, h.sound.move hmove,
    h.carried.trans hflow.symm, ?_, ?_⟩
  · rw [hcollector, hattempted, List.flatMap_append, List.flatMap_singleton, List.append_assoc]
  · rw [hattempted]
    exact List.forall_mem_append.2 ⟨h.answers, List.forall_mem_singleton.2 hanswer⟩

/-- The queue is closed. -/
theorem Carries.close (h : Carries settings base accepted e s d)
    (hstep : e.perform? .close s = some (e', s')) :
    ∃ d', d'.isOpen = false ∧ Carries settings base accepted e' s' d' := by
  obtain ⟨d', hmove, hd'⟩ := h.perform? .close rfl hstep
  rw [show d.accepts .close = [] from rfl, List.append_nil] at hd'
  exact ⟨d', by simpa using hmove.isOpen_eq, hd'⟩

/-! ## Calls -/

/-- A fresh exporter can be started if its sizes are positive and semaphores can have as many
permits. -/
theorem start_fresh_of (hqueue : 0 < settings.maxQueueSize) (hworkers : 0 < settings.workers)
    (hplaces : settings.maxQueueSize ≤ permitLimit) (hpermits : settings.workers ≤ permitLimit)
    (s : Surroundings) :
    (fresh settings).start s =
      (.ok (), { settings, run := some (.start (fits settings s.room)), isHeld := true,
                 nextTick := s.now + settings.batchTimeout.nanos }, s) := by
  simp [HttpExporter.start, fresh, Nat.ne_of_gt hqueue, Nat.ne_of_gt hworkers, Nat.not_lt.2 hplaces,
    Nat.not_lt.2 hpermits, HttpExporter.close, HttpExporter.perform, HttpExporter.perform?,
    HttpExporter.settle]

/-- What it means that a fresh exporter was started. -/
theorem start_fresh (h : (fresh settings).start s = (.ok (), e, s')) :
    ((0 < settings.maxQueueSize ∧ 0 < settings.workers) ∧
      settings.maxQueueSize ≤ permitLimit ∧ settings.workers ≤ permitLimit) ∧
      e.settings = settings ∧ e.run = some (.start (fits settings s.room)) ∧ e.isHeld = true ∧
      s' = s := by
  by_cases hqueue : settings.maxQueueSize = 0
  · simp [HttpExporter.start, fresh, hqueue] at h
  by_cases hworkers : settings.workers = 0
  · simp [HttpExporter.start, fresh, hqueue, hworkers] at h
  by_cases hplaces : permitLimit < settings.maxQueueSize
  · simp [HttpExporter.start, fresh, hqueue, hworkers, hplaces] at h
  by_cases hpermits : permitLimit < settings.workers
  · simp [HttpExporter.start, fresh, hqueue, hworkers, hpermits] at h
  have hqueue := Nat.pos_of_ne_zero hqueue
  have hworkers := Nat.pos_of_ne_zero hworkers
  have hplaces := Nat.not_lt.1 hplaces
  have hpermits := Nat.not_lt.1 hpermits
  rw [start_fresh_of hqueue hworkers hplaces hpermits] at h
  cases h
  exact ⟨⟨⟨hqueue, hworkers⟩, hplaces, hpermits⟩, rfl, rfl, rfl, rfl⟩

/-- An exporter that was just started carries nothing. -/
theorem Carries.start (hfits : fits settings s.room = true)
    (h : (fresh settings).start s = (.ok (), e, s')) :
    Carries settings s.collector [] e s' (.start true) := by
  obtain ⟨-, hsettings, hrun, -, rfl⟩ := start_fresh h
  rw [hfits] at hrun
  refine ⟨hrun, hsettings, .start, ?_, by simp [Delivery.start], by simp [Delivery.start]⟩
  simp [Delivery.start, Delivery.inHand, Delivery.attemptedRecords]

/-- The exporter carries the records accepted, and its queue is open or not. -/
def Holds (settings : HttpSettings) (base : Collector) (accepted : List CostRecord)
    (isOpen : Bool) (e : HttpExporter) (s : Surroundings) : Prop :=
  ∃ d, d.isOpen = isOpen ∧ Carries settings base accepted e s d

variable {isOpen : Bool}

theorem Holds.perform (h : Holds settings base accepted isOpen e s) (event : DeliveryEvent)
    (hinternal : event.isInternal = true) :
    Holds settings base accepted isOpen (e.perform event s).1 (e.perform event s).2 := by
  obtain ⟨d, hopen, hd⟩ := h
  unfold HttpExporter.perform
  cases hstep : e.perform? event s with
  | none => exact ⟨d, hopen, hd⟩
  | some next =>
      obtain ⟨d', hopen', -, hd'⟩ := hd.internal hinternal hstep
      exact ⟨d', hopen'.trans hopen, hd'⟩

theorem Holds.offer (h : Holds settings base accepted true e s) (r : CostRecord) :
    Holds settings base (accepted ++ [r]) true (e.perform (.offer r) s).1
      (e.perform (.offer r) s).2 := by
  obtain ⟨d, hopen, hd⟩ := h
  obtain ⟨⟨e', s'⟩, hstep⟩ := perform?_of_isSome (.offer r) s hd.running
    fun m => by simp only [Delivery.step?]; split <;> rfl
  rw [HttpExporter.perform, hstep]
  exact hd.offer hopen hstep

theorem Holds.gatherAll (h : Holds settings base accepted isOpen e s) (n : Nat) :
    Holds settings base accepted isOpen (gatherAll n e s).1 (gatherAll n e s).2 := by
  induction n generalizing e s with
  | zero => exact h
  | succ n ih =>
      have hnext := h.perform .gather rfl
      unfold HttpExporter.gatherAll
      cases hstep : e.perform? .gather s with
      | none => exact h
      | some next =>
          rw [HttpExporter.perform, hstep] at hnext
          exact ih hnext

/-- A record handed over is accepted as long as the queue is open, with or without waiting. -/
theorem Holds.accept (h : Holds settings base accepted true e s) (r : CostRecord) :
    Holds settings base (accepted ++ [r]) true (e.accept r s).1 (e.accept r s).2 := by
  obtain ⟨d, -, hd⟩ := id h
  have hoffered := h.offer r
  have hentered := hoffered.perform .enter rfl
  unfold HttpExporter.accept
  rw [hd.running]
  cases hstep : (e.perform (.offer r) s).1.perform? .enter (e.perform (.offer r) s).2 with
  | some done =>
      rw [HttpExporter.perform, hstep, Option.getD_some] at hentered
      simpa only [hstep] using hentered
  | none =>
      simp only [hstep]
      exact ((hoffered.perform .breakDown rfl).gatherAll _).perform .enter rfl

theorem Holds.acceptAll (h : Holds settings base accepted true e s) (rs : List CostRecord) :
    Holds settings base (accepted ++ rs) true (e.acceptAll rs s).1 (e.acceptAll rs s).2 := by
  induction rs generalizing accepted e s with
  | nil => simpa [HttpExporter.acceptAll] using h
  | cons r rs ih =>
      have hrest := ih (h.accept r)
      rw [List.append_assoc] at hrest
      exact hrest

/-! ## A run left to itself -/

/-- The step that a run left to itself makes next: one without a timer, or the answer of the
collector to the first batch in delivery. -/
theorem advance?_cases {next : HttpExporter × Surroundings} (h : e.advance? s = some next) :
    (∃ event ∈ DeliveryEvent.untimed, e.perform? event s = some next) ∨
      e.completeFirst? s = some next := by
  simp only [advance?, Option.orElse_eq_orElse, Option.orElse_eq_or, Option.or_eq_some_iff] at h
  rcases h with h | ⟨-, h | ⟨-, h | ⟨-, h | ⟨-, h | ⟨-, h⟩⟩⟩⟩⟩
  · exact .inl ⟨.breakDown, by simp [DeliveryEvent.untimed], h⟩
  · exact .inl ⟨.enter, by simp [DeliveryEvent.untimed], h⟩
  · exact .inl ⟨.gather, by simp [DeliveryEvent.untimed], h⟩
  · exact .inl ⟨.finish, by simp [DeliveryEvent.untimed], h⟩
  · exact .inl ⟨.begin, by simp [DeliveryEvent.untimed], h⟩
  · exact .inr h

theorem advance?_eq_none (h : e.advance? s = none) :
    (∀ event ∈ DeliveryEvent.untimed, e.perform? event s = none) ∧ e.completeFirst? s = none := by
  simp only [advance?, Option.orElse_eq_orElse, Option.orElse_eq_or, Option.or_eq_none_iff] at h
  obtain ⟨hbreak, henter, hgather, hfinish, hbegin, hcomplete⟩ := h
  exact ⟨by simp [DeliveryEvent.untimed, hbreak, henter, hgather, hfinish, hbegin], hcomplete⟩

/-- A step of a run left to itself uses up work. -/
theorem Carries.advance? (h : Carries settings base accepted e s d)
    (hstep : e.advance? s = some (e', s')) :
    ∃ d', d'.isOpen = d.isOpen ∧ d'.work < d.work ∧ Carries settings base accepted e' s' d' := by
  rcases advance?_cases hstep with ⟨event, huntimed, hstep⟩ | hstep
  · obtain ⟨d', hopen, hwork, hd'⟩ :=
      h.internal (DeliveryEvent.isInternal_of_untimed huntimed) hstep
    rw [Delivery.spends_of_untimed huntimed] at hwork
    exact ⟨d', hopen, hwork, hd'⟩
  · rw [completeFirst?, h.running, Option.bind_some] at hstep
    cases hsending : d.sending.head? with
    | none => simp [hsending] at hstep
    | some b =>
        rw [hsending] at hstep
        exact h.answer (by rw [← hsending, List.head?_eq_getElem?]) hstep

/-- A run that makes no more steps waits for nothing but its end or more records. -/
theorem idle_of_advance? (hrun : e.run = some d) (hs : d.Sound) (hqueue : 0 < e.limits.queue)
    (hworkers : 0 < e.limits.workers) (hstep : e.advance? s = none) :
    d.isOpen = true ∨ d.isFinished = true := by
  obtain ⟨hnone, hcomplete⟩ := advance?_eq_none hstep
  rcases hs.can_move hqueue hworkers with ⟨event, huntimed, hsome⟩ | hsending | ⟨-, hidle⟩
  · obtain ⟨next, hnext⟩ := perform?_of_isSome event s hrun hsome
    rw [hnone event huntimed] at hnext
    cases hnext
  · obtain ⟨b, rest, hb⟩ := List.exists_cons_of_ne_nil hsending
    obtain ⟨next, hnext⟩ := perform?_of_isSome (.complete 0 (s.deliver e.settings b).1 .zero)
      (s.deliver e.settings b).2 hrun fun m => by simp [Delivery.step?, hb]
    rw [completeFirst?, hrun, Option.bind_some, hb, List.head?_cons] at hcomplete
    cases hcomplete.symm.trans hnext
  · exact hidle

/-! ## What acts do -/

/-- What an act makes of an exporter; none if it cannot happen. -/
def act? : HttpExporter × Surroundings → Act → Option (HttpExporter × Surroundings)
  | (e, s), .offer r => e.perform? (.offer r) s
  | (e, s), .move event => if event.isInternal then e.perform? event s else none
  | (e, s), .answer place took => match e.run.bind (·.sending[place]?) with
    | none => none
    | some b =>
      let (accepted, s) := s.deliver e.settings b
      e.perform? (.complete place accepted took) s

/-- What one act after the other makes of an exporter; none if one of them cannot happen. -/
def actAll? (acts : List Act) (x : HttpExporter × Surroundings) :
    Option (HttpExporter × Surroundings) :=
  acts.foldlM act? x

/-- A step of a run left to itself is an act that hands over nothing. -/
theorem act?_of_advance? (h : e.advance? s = some (e', s')) :
    ∃ a, handed [a] = [] ∧ act? (e, s) a = some (e', s') := by
  rcases advance?_cases h with ⟨event, huntimed, hstep⟩ | hstep
  · have hinternal := DeliveryEvent.isInternal_of_untimed huntimed
    exact ⟨.move event, rfl, by simp only [act?, hinternal, if_true, hstep]⟩
  · refine ⟨.answer 0 .zero, rfl, ?_⟩
    have hfirst : e.run.bind (·.sending[0]?) = e.run.bind (·.sending.head?) := by
      simp only [List.head?_eq_getElem?]
    simp only [act?, hfirst]
    exact hstep

/-! ## Coming to rest -/

theorem Carries.idle_of_advance? (h : Carries settings base accepted e s d)
    (hqueue : 0 < settings.maxQueueSize) (hworkers : 0 < settings.workers)
    (hstep : e.advance? s = none) : d.isOpen = true ∨ d.isFinished = true := by
  rw [← h.configured] at hqueue hworkers
  exact HttpExporter.idle_of_advance? h.running h.sound hqueue hworkers hstep

/-- As many steps as there is work bring a run to rest. -/
theorem Carries.advance (h : Carries settings base accepted e s d) {n : Nat} (hn : d.work ≤ n) :
    ∃ d', d'.isOpen = d.isOpen ∧
      Carries settings base accepted (advance n e s).1 (advance n e s).2 d' ∧
      (advance n e s).1.advance? (advance n e s).2 = none := by
  induction n generalizing e s d with
  | zero =>
      cases hstep : e.advance? s with
      | none => exact ⟨d, rfl, h, hstep⟩
      | some next =>
          obtain ⟨d', -, hless, -⟩ := h.advance? hstep
          omega
  | succ n ih =>
      unfold HttpExporter.advance
      cases hstep : e.advance? s with
      | none => exact ⟨d, rfl, h, hstep⟩
      | some next =>
          obtain ⟨d', hopen, hless, hd'⟩ := h.advance? hstep
          obtain ⟨d'', hopen', hrest⟩ := ih hd' (by omega)
          exact ⟨d'', hopen'.trans hopen, hrest⟩

theorem Holds.settle (h : Holds settings base accepted isOpen e s) :
    Holds settings base accepted isOpen (e.settle s).1 (e.settle s).2 := by
  obtain ⟨d, hopen, hd⟩ := h
  obtain ⟨d', hopen', hd', -⟩ := hd.advance (work_le_stepBound hd.sound)
  rw [HttpExporter.settle, hd.running]
  exact ⟨d', hopen'.trans hopen, hd'⟩

theorem Holds.fire (h : Holds settings base accepted isOpen e s) :
    Holds settings base accepted isOpen (e.fire s).1 (e.fire s).2 := by
  unfold HttpExporter.fire
  split
  · obtain ⟨d, hopen, hd⟩ := h.perform .tick rfl
    exact ⟨d, hopen, hd.running, hd.configured, hd.sound, hd.carried, hd.collector, hd.answers⟩
  · exact h

/-- **Stopping attempts everything.** An exporter whose delivery runs is stopped without a fault, and
then its delivery has ended and nothing that was accepted is in hand any more. -/
theorem Holds.stop (h : Holds settings base accepted true e s)
    (hqueue : 0 < settings.maxQueueSize) (hworkers : 0 < settings.workers) :
    (e.stop s).1 = .ok () ∧ ∃ d, d.isFinished = true ∧ accepted.Perm d.attemptedRecords ∧
      Carries settings base accepted (e.stop s).2.1 (e.stop s).2.2 d := by
  obtain ⟨d, -, hd⟩ := h
  obtain ⟨⟨closed, s₁⟩, hclose⟩ := perform?_of_isSome .close s hd.running
    fun m => rfl
  obtain ⟨d₁, hopen₁, hd₁⟩ := hd.close hclose
  obtain ⟨d₂, hopen₂, hd₂, hrest⟩ := hd₁.advance (work_le_stepBound hd₁.sound)
  -- A run at rest is open or has ended, and this one was closed.
  have hfinished : d₂.isFinished = true := by
    rcases hd₂.idle_of_advance? hqueue hworkers hrest with hopen | hfinished
    · rw [hopen₂, hopen₁] at hopen
      cases hopen
    · exact hfinished
  have hstop : e.stop s = (.ok (),
      { (closed.advance (stepBound d₁) s₁).1 with isHeld := false },
      (closed.advance (stepBound d₁) s₁).2) := by
    have halive : (d₂.accumulator == .failed) = false := by
      have haccumulator : d₂.accumulator = .finished := by
        simp only [Delivery.isFinished, Bool.and_eq_true, beq_iff_eq] at hfinished
        exact hfinished.1.1
      rw [haccumulator]
      rfl
    simp [HttpExporter.stop, HttpExporter.close, HttpExporter.perform, hclose, HttpExporter.settle,
      hd₁.running, hd₂.running, halive]
  have hcarried := hd₂.carried
  rw [(hd₂.sound.inHand_eq_nil hfinished).2, List.nil_append] at hcarried
  rw [hstop]
  exact ⟨rfl, d₂, hfinished, hcarried, hd₂.running, hd₂.configured, hd₂.sound, hd₂.carried,
    hd₂.collector, hd₂.answers⟩

/-- If the collector accepts every batch, stopping delivers everything: the batches that the collector
received are together a permutation of the records accepted. -/
theorem Holds.stop_delivers (h : Holds settings base accepted true e s)
    (haccepts : base.Accepts settings) (hqueue : 0 < settings.maxQueueSize)
    (hworkers : 0 < settings.workers) :
    (e.stop s).1 = .ok () ∧ ∃ batches posts,
      (e.stop s).2.2.collector.received = base.received ++ posts ∧ Posted settings batches posts ∧
        accepted.Perm batches.flatten := by
  obtain ⟨hok, d, -, hperm, hd⟩ := h.stop hqueue hworkers
  obtain ⟨posts, hreceived, hposted⟩ := hd.posted_of_accepts haccepts
  exact ⟨hok, _, posts, hreceived, hposted, hperm⟩

end HttpExporter

end Chargeback
