import Chargeback.Codec.Standard
import Chargeback.Proofs.BilledTime
import Chargeback.Proofs.Pipeline
import Chargeback.Proofs.RunHistory

/-!
# Cost is conserved from the cycles to the collector

What the succeeded cycles produce is what the stage received and what it has still to receive; what
the stage received was merged into what the flushes took and what the buffer holds; what the flushes
took was handed to the exporter or is still to be handed on; and the exporter carries what it was
handed to the collector. These are the BOOKS of a pipeline, one for each hand-over. Every step keeps
them, whatever the order of the steps.

When the pipeline has stopped nothing is on its way any more, so the books say that what arrived at
the collector is what was produced, key by key. And it does stop: each step but a cycle, a flush and
a tick uses up some of a finite amount of work, and one of them can happen until it has stopped.
-/

namespace Chargeback

namespace Pipeline

variable {settings : HttpSettings} {base : Collector} {p q : Pipeline} {d d' : Delivery}
  {e : PipelineEvent}

/-! ## The books -/

/-- The books of the stage: what was produced was received or is still being emitted, and what was
received was merged into what was flushed and what the buffer holds. A stage without its flush task
has nothing left to flush. -/
structure StageBooks (p : Pipeline) : Prop where
  produced : p.produced = p.intake.all ++ p.emitting
  merged : MergeAccount p.intake p.flushed p.stage.buffer
  flusher : p.stage.flusher = .running ∨
    p.stage.flusher = .absent ∧ p.emitting = [] ∧ p.intake.pending = []

/-- The books of a pipeline whose delivery is in some state: those of the stage; what was flushed
was handed on or is still to be; and the exporter carries what it was handed. The queue is open as
long as something may be offered. -/
structure Books [Codec.Codecs] (settings : HttpSettings) (base : Collector) (p : Pipeline)
    (d : Delivery) : Prop where
  stage : StageBooks p
  forwarded : p.flushed.flatten.Perm (p.forwarding.flatten ++ p.handed)
  closed : d.isOpen = false → p.stage.flusher ≠ .running ∧ p.forwarding.flatten = []
  carries : p.exporter.Carries settings base p.handed p.surroundings d

/-- A record taken out of one of some lists. -/
theorem flatten_set {parts : List (List CostRecord)} {flush place : Nat} {rs : List CostRecord}
    {r : CostRecord} (h : parts[flush]? = some rs) (hplace : rs[place]? = some r) :
    parts.flatten.Perm ((parts.set flush (rs.eraseIdx place)).flatten ++ [r]) := by
  obtain ⟨hlt, -⟩ := List.getElem?_eq_some_iff.1 h
  obtain ⟨hwithin, rfl⟩ := List.getElem?_eq_some_iff.1 hplace
  have hset := (List.set_perm_cons_eraseIdx hlt (rs.eraseIdx place)).flatten
  have herase := Delivery.flatten_eraseIdx h
  have hrest := List.getElem_cons_eraseIdx_perm hwithin
  rw [List.perm_iff_count] at hset herase hrest ⊢
  intro x
  have hx := hset x
  have hx' := herase x
  have hx'' := hrest x
  simp only [List.flatten_cons, List.count_append, List.count_cons, List.count_nil] at hx hx' hx'' ⊢
  omega

/-- A flush that took the buffer has all of it to hand on. -/
theorem perm_flush {flushed forwarding : List (List CostRecord)} {handed : List CostRecord}
    (h : flushed.flatten.Perm (forwarding.flatten ++ handed)) (out : List CostRecord) :
    (flushed ++ [out]).flatten.Perm ((forwarding ++ [out]).flatten ++ handed) := by
  rw [List.perm_iff_count] at h ⊢
  intro x
  have hx := h x
  simp only [List.flatten_append, List.flatten_singleton, List.count_append] at hx ⊢
  omega

section

variable [Codec.Codecs]

theorem StageBooks.move (h : StageBooks p) (hmove : Moves p e q) : StageBooks q := by
  obtain ⟨hproduced, hmerged, hflusher⟩ := h
  cases hmove with
  | cycle hrunning hidle m => exact ⟨by simp [hproduced, hidle], hmerged, .inl hrunning⟩
  | receive hemitting m =>
      refine ⟨by simp [hproduced, hemitting], hmerged.push _, ?_⟩
      rcases hflusher with hrunning | ⟨-, hidle, -⟩
      · exact .inl hrunning
      · simp [hemitting] at hidle
  | flush hrunning m => exact ⟨by simp [hproduced], hmerged.drain, .inl hrunning⟩
  | stop hrunning hidle m => exact ⟨by simp [hproduced], hmerged.drain, .inr ⟨rfl, hidle, rfl⟩⟩
  | offer _ _ _ | move _ _ | answer _ _ | close _ _ _ _ => exact ⟨hproduced, hmerged, hflusher⟩

/-- The exporter is open for what is still to be handed on. -/
theorem Books.isOpen_of_forwarding (h : Books settings base p d) {flush place : Nat}
    {rs : List CostRecord} {r : CostRecord} (hforwarding : p.forwarding[flush]? = some rs)
    (hplace : rs[place]? = some r) : d.isOpen = true := by
  by_contra hshut
  have hperm := flatten_set hforwarding hplace
  rw [(h.closed (by simpa using hshut)).2] at hperm
  simpa using hperm.length_eq

/-- Every step keeps the books of a pipeline. -/
theorem Books.move (h : Books settings base p d) (hmove : Moves p e q) :
    ∃ d', Books settings base q d' := by
  have hstage := h.stage.move hmove
  obtain ⟨-, hforwarded, hclosed, hcarries⟩ := id h
  cases hmove with
  | cycle hrunning _ m =>
      exact ⟨d, hstage, hforwarded, hclosed, hcarries.of_collector rfl⟩
  | receive _ m => exact ⟨d, hstage, hforwarded, hclosed, hcarries.of_collector rfl⟩
  | flush hrunning m | stop hrunning _ m =>
      exact ⟨d, hstage, perm_flush hforwarded _, fun hshut => absurd hrunning (hclosed hshut).1,
        hcarries.of_collector rfl⟩
  | offer hforwarding hplace hstep =>
      obtain ⟨d', hopen, hcarries'⟩ :=
        hcarries.offer (h.isOpen_of_forwarding hforwarding hplace) hstep
      refine ⟨d', hstage, ?_, fun hshut => by simp [hopen] at hshut, hcarries'⟩
      refine hforwarded.trans (((flatten_set hforwarding hplace).append_right _).trans ?_)
      rw [List.append_assoc]
      exact List.perm_append_comm.append_left _
  | move hinternal hstep =>
      obtain ⟨d', hopen, -, hcarries'⟩ := hcarries.internal hinternal hstep
      exact ⟨d', hstage, hforwarded, fun hshut => hclosed (hopen ▸ hshut), hcarries'⟩
  | answer hsending hstep =>
      rw [hcarries.running, Option.bind_some] at hsending
      obtain ⟨d', hopen, -, hcarries'⟩ := hcarries.answer hsending hstep
      exact ⟨d', hstage, hforwarded, fun hshut => hclosed (hopen ▸ hshut), hcarries'⟩
  | close hflusher hempty _ hstep =>
      obtain ⟨d', -, hcarries'⟩ := hcarries.close hstep
      exact ⟨d', hstage, hforwarded, fun _ => ⟨hflusher, hempty⟩, hcarries'⟩

/-! ## Runs -/

theorem run?_cons (e : PipelineEvent) (es : List PipelineEvent) (p : Pipeline) :
    run? (e :: es) p = (step? e p).bind (run? es) := rfl

/-- A run keeps the books, whatever the order of its steps. -/
theorem Books.run? {es : List PipelineEvent} (h : Books settings base p d)
    (hrun : run? es p = some q) : ∃ d', Books settings base q d' := by
  have hkept : Kept step? fun p => ∃ d, Books settings base p d := by
    rintro e p q ⟨d, hp⟩ hstep
    exact hp.move (moves_of_step? hstep)
  exact hkept.run ⟨d, h⟩ hrun

/-- The inputs of the cycles among some events. -/
def inputs (es : List PipelineEvent) : List CycleInput :=
  es.filterMap fun
    | .cycle input => some input
    | _ => none

end

/-! ## Work -/

/-- A bound for the steps of its own that a pipeline can make: a record that is still to be received
can be received, flushed, offered, and go through the delivery. -/
def work (p : Pipeline) (d : Delivery) : Nat :=
  7 * p.emitting.length + 6 * p.stage.buffer.size + 5 * p.forwarding.flatten.length + d.work +
    if p.stage.flusher = .running then 1 else 0

theorem isOwn_of_untimed {event : DeliveryEvent} (h : event ∈ DeliveryEvent.untimed) :
    (PipelineEvent.move event).isOwn = true := by
  simp only [DeliveryEvent.untimed, List.mem_cons, List.not_mem_nil, or_false] at h
  rcases h with rfl | rfl | rfl | rfl | rfl <;> rfl

theorem perform?_of_isSome (p : Pipeline) (event : DeliveryEvent) (hrun : p.exporter.run = some d)
    (h : ∀ m, (Delivery.step? p.exporter.limits event (d, m)).isSome) :
    ∃ q, p.perform? event = some q := by
  obtain ⟨⟨exporter, surroundings⟩, hstep⟩ :=
    HttpExporter.perform?_of_isSome event p.surroundings hrun h
  exact ⟨_, perform?_eq_some.2 ⟨exporter, surroundings, hstep, rfl⟩⟩

section

variable [Codec.Codecs]

/-- Until a pipeline has stopped it can make a step of its own. -/
theorem Books.can_move (h : Books settings base p d) (hqueue : 0 < settings.maxQueueSize)
    (hworkers : 0 < settings.workers) :
    p.isStopped = true ∨ ∃ e q, e.isOwn = true ∧ step? e p = some q := by
  obtain ⟨hstage, -, -, hcarries⟩ := h
  have hrun := hcarries.running
  have hlimits : 0 < p.exporter.limits.queue ∧ 0 < p.exporter.limits.workers := by
    rw [← hcarries.configured] at hqueue hworkers
    exact ⟨hqueue, hworkers⟩
  -- The order of the cases is that of a record on its way through the pipeline.
  cases hemitting : p.emitting with
  | cons r rest => exact .inr ⟨.receive, _, rfl, by simp only [step?, hemitting]; rfl⟩
  | nil =>
      rcases hstage.flusher with hrunning | ⟨habsent, -, -⟩
      · exact .inr ⟨.stop, p.take .stop, rfl, by simp [step?, isFlushing, hrunning, hemitting]⟩
      by_cases hforwarded : p.forwarding.flatten = []
      swap
      · obtain ⟨part, hpart, hnonempty⟩ : ∃ part ∈ p.forwarding, part ≠ [] := by
          simpa [List.flatten_eq_nil_iff] using hforwarded
        obtain ⟨flush, hflush⟩ := List.getElem?_of_mem hpart
        obtain ⟨r, rest, rfl⟩ := List.exists_cons_of_ne_nil hnonempty
        let offering :=
          { p with forwarding := p.forwarding.set flush rest, handed := p.handed ++ [r] }
        obtain ⟨q, hq⟩ := perform?_of_isSome offering (.offer r) hrun
          fun m => by simp only [Delivery.step?]; split <;> rfl
        exact .inr ⟨.offer flush 0, q, rfl, by simp only [step?, hflush]; exact hq⟩
      rcases hcarries.sound.can_move hlimits.1 hlimits.2 with
        ⟨event, huntimed, hsome⟩ | hsending | ⟨hwaiting, hopen | hfinished⟩
      · obtain ⟨q, hq⟩ := perform?_of_isSome p event hrun hsome
        have hinternal := DeliveryEvent.isInternal_of_untimed huntimed
        exact .inr ⟨.move event, q, isOwn_of_untimed huntimed, by
          simp only [step?, hinternal]; exact hq⟩
      · obtain ⟨b, rest, hb⟩ := List.exists_cons_of_ne_nil hsending
        let answer := p.surroundings.deliver p.exporter.settings b
        obtain ⟨q, hq⟩ := perform?_of_isSome { p with surroundings := answer.2 }
          (.complete 0 answer.1 .zero) hrun fun m => by simp [Delivery.step?, hb]
        exact .inr ⟨.answer 0 .zero, q, rfl, by
          simp only [step?, hrun, Option.bind_some, hb]; exact hq⟩
      · obtain ⟨q, hq⟩ := perform?_of_isSome p .close hrun fun m => rfl
        exact .inr ⟨.close, q, rfl, by
          simp [step?, isFlushing, isForwarded, habsent, hforwarded, hrun, hopen, hwaiting, hq]⟩
      · exact .inl (by simp [isStopped, hrun, hfinished])

/-- No step dooms a delivery or saves it. -/
theorem Moves.isHopeless_eq (h : Moves p e q) (hrun : p.exporter.run = some d) :
    ∃ d', q.exporter.run = some d' ∧ d'.accumulator.isHopeless = d.accumulator.isHopeless := by
  cases h with
  | cycle _ _ _ | receive _ _ | flush _ _ | stop _ _ _ => exact ⟨d, hrun, rfl⟩
  | offer _ _ hstep | move _ hstep | answer _ hstep | close _ _ _ hstep =>
      obtain ⟨d', m, hmove, rfl, -⟩ := HttpExporter.perform?_eq_some hrun hstep
      exact ⟨d', rfl, hmove.isHopeless_eq⟩

/-- A pipeline that was just started has its books in order. -/
theorem Books.start (c : Coster) {interval : Span} {s s' : Surroundings} {stage : Buffering}
    {t : Nat} {exporter : HttpExporter}
    (h : ((Exporter.http (.fresh settings)).behindBuffer interval).start s =
      (.ok (), .buffering stage t (.http exporter), s'))
    (hinterval : interval.isZero = false) (hfits : HttpExporter.fits settings s.room = true) :
    Books settings s.collector (.start c stage exporter s') (.start true) := by
  obtain ⟨e, hstart, hnext⟩ := Exporter.start_behindBuffer h
  obtain ⟨rfl, -, rfl⟩ : stage = _ ∧ t = _ ∧ exporter = e := by simpa using hnext
  refine ⟨⟨rfl, .empty, .inl ?_⟩, by simp [Pipeline.start], by simp [Delivery.start],
    .start hfits hstart⟩
  simp [Pipeline.start, Buffering.start, Buffering.fresh, hinterval]

end

end Pipeline

end Chargeback
