import Chargeback.Codec.Standard
import Chargeback.Proofs.HttpDelivery
import Chargeback.Proofs.RunHistory

/-!
# Batching neither loses nor duplicates

The history of a delivery says which records its queue accepted, which batches were dispatched,
which of them were attempted and how that ended, and which records were refused. Whatever the order
of the steps of callers, accumulator, timer and workers, the ACCOUNTS of the delivery are right: the
batches dispatched, one after the other, are the records that the queue accepted, followed by what
is still being gathered; every batch dispatched is at one place, in the backlog, with a worker, or
attempted; and the errors counted are the records of the batches that failed and the records
refused.

What a delivery calls an attempt is held against the collector. It comes and goes, and answers as it
likes, while the exporter runs (`Occurrence`). An attempt has succeeded exactly if the collector, as
it was when the delivery ended, took the request for the batch (`Tried`), and what the collector has
received are these requests and no others.

When the delivery has ended nothing is at any other place than among the attempted. Stopping the
exporter ends it (`Runs.stop`), so then all that was accepted was attempted, in batches of which
none is empty or too large, and each of them once.
-/

namespace Chargeback

/-- The records that callers offer by an event. -/
def DeliveryEvent.offers : DeliveryEvent → List CostRecord
  | .offer r => [r]
  | _ => []

theorem DeliveryLimits.fullBatch_pos (l : DeliveryLimits) : 0 < l.fullBatch := by
  unfold fullBatch
  omega

namespace Delivery

variable {l : DeliveryLimits} {d d' : Delivery} {e : DeliveryEvent} {m m' : Metrics}

/-! ## Histories -/

/-- What happened in a run of a delivery. -/
structure History where
  /-- Records of callers whom the delivery let wait for the queue. -/
  admitted : List CostRecord
  /-- Records that the queue accepted. -/
  accepted : List CostRecord
  /-- Batches handed over to the workers. -/
  dispatched : List (List CostRecord)
  /-- Batches whose delivery was attempted, and whether the receiver accepted them. -/
  attempted : List (List CostRecord × Bool)
  /-- Records offered after the queue was closed. -/
  refused : List CostRecord
  deriving DecidableEq, Repr

/-- The records offered by an event to a closed queue. -/
def refuses (d : Delivery) (e : DeliveryEvent) : List CostRecord :=
  if d.isOpen then [] else e.offers

/-- The history of a run. -/
def history (l : DeliveryLimits) (es : List DeliveryEvent) (x : Delivery × Metrics) : History where
  admitted := observed (step? l) (fun x _ y => appended x.1.waiting y.1.waiting) es x
  accepted := observed (step? l) (fun x _ y => appended x.1.queue y.1.queue) es x
  dispatched := observed (step? l) (fun x _ y => appended x.1.backlog y.1.backlog) es x
  attempted := observed (step? l) (fun x _ y => appended x.1.attempted y.1.attempted) es x
  refused := observed (step? l) (fun x e _ => x.1.refuses e) es x

/-! ## What one step says -/

theorem appended_dispatch (d : Delivery) :
    appended d.backlog d.dispatch.backlog = if d.batch = [] then [] else [d.batch] := by
  unfold dispatch
  by_cases hbatch : d.batch = []
  · simp [hbatch]
  · simp [hbatch]

/-- A delivery is ready for more: nothing is lost, and its batch is not full. -/
structure Ready (l : DeliveryLimits) (d : Delivery) : Prop where
  sound : d.Sound
  room : d.batch.length < l.fullBatch

theorem Ready.start (l : DeliveryLimits) : Ready l (.start true) := ⟨.start, l.fullBatch_pos⟩

theorem Ready.move (hr : Ready l d) (h : Moves l d e d') : Ready l d' := by
  refine ⟨hr.sound.move h, ?_⟩
  have hpos := l.fullBatch_pos
  cases h with
  | gather _ _ hroom => simpa using hroom
  | fill _ _ _ => exact hpos
  | tick _ => simpa using hpos
  | finish _ _ _ _ => simpa using hpos
  | accept | refuse | enter | lose | breakDown | begin | overtake | complete | close => exact hr.room

/-- The queue takes what callers wait with, the longest waiting first. -/
theorem Moves.admitted_eq (h : Moves l d e d') (hr : Ready l d) :
    appended d.queue d'.queue ++ d'.waiting = d.waiting ++ appended d.waiting d'.waiting := by
  cases h with
  | enter hwaiting _ _ => simp [hwaiting]
  | lose hwaiting hdeaf =>
      have hempty := (hr.sound.done (hr.sound.finished hdeaf)).2.1
      simp [hwaiting] at hempty
  | breakDown hdoomed => exact absurd hdoomed hr.sound.not_doomed
  | gather _ hqueue _ | fill _ hqueue _ => simp [hqueue]
  | accept | refuse | tick | finish | begin | overtake | complete | close => simp

/-- Records are gathered in the order in which they were accepted. -/
theorem Moves.gathered_eq (h : Moves l d e d') (hr : Ready l d) :
    (appended d.backlog d'.backlog).flatten ++ (d'.batch ++ d'.queue) =
      (d.batch ++ d.queue) ++ appended d.queue d'.queue := by
  cases h with
  | enter hwaiting _ _ => simp
  | breakDown hdoomed => exact absurd hdoomed hr.sound.not_doomed
  | gather _ hqueue _ | fill _ hqueue _ => simp [hqueue]
  | tick _ | finish _ _ _ _ =>
      by_cases hbatch : d.batch = []
      · simp [appended_dispatch, hbatch]
      · simp [appended_dispatch, hbatch]
  | begin hbacklog _ => simp [hbacklog]
  | accept | refuse | lose | overtake | complete | close => simp

/-- A batch dispatched is at one place. -/
theorem Moves.placed_perm (h : Moves l d e d') :
    ((d'.backlog ++ d'.sending) ++ (appended d.attempted d'.attempted).map (·.1)).Perm
      ((d.backlog ++ d.sending) ++ appended d.backlog d'.backlog) := by
  rw [List.perm_iff_count]
  intro b
  cases h with
  | accept | refuse | enter | lose | breakDown | gather | close => simp
  | fill _ _ _ =>
      simp only [appended_self, appended_append, List.map_nil, List.count_append, List.append_nil]
      omega
  | tick _ | finish _ _ _ _ =>
      unfold dispatch
      split
      · simp
      · simp only [appended_self, appended_append, List.map_nil, List.count_append, List.append_nil]
        omega
  | begin hbacklog _ =>
      simp only [hbacklog, appended_self, appended_tail, List.map_nil, List.count_append,
        List.count_cons, List.count_nil, List.append_nil]
      omega
  | overtake hbacklog _ =>
      obtain ⟨hlt, rfl⟩ := List.getElem?_eq_some_iff.1 hbacklog
      have hcount := (List.getElem_cons_eraseIdx_perm hlt).count_eq b
      simp only [appended_self, appended_eraseIdx, List.map_nil, List.count_append, List.count_cons,
        List.count_nil, List.append_nil] at hcount ⊢
      omega
  | complete hsending =>
      obtain ⟨hlt, rfl⟩ := List.getElem?_eq_some_iff.1 hsending
      have hcount := (List.getElem_cons_eraseIdx_perm hlt).count_eq b
      simp only [appended_self, appended_append, List.map_cons, List.map_nil, List.count_append,
        List.count_cons, List.count_nil, List.append_nil] at hcount ⊢
      omega

/-- A batch dispatched is neither empty nor too large. -/
theorem Moves.size_le (h : Moves l d e d') (hr : Ready l d) :
    ∀ b ∈ appended d.backlog d'.backlog, b ≠ [] ∧ b.length ≤ l.fullBatch := by
  have hroom := hr.room
  intro b hb
  cases h with
  | fill _ _ _ =>
      obtain rfl : b = _ := by simpa using hb
      refine ⟨by simp, ?_⟩
      rw [List.length_append, List.length_singleton]
      omega
  | tick _ | finish _ _ _ _ =>
      rw [appended_dispatch] at hb
      split at hb
      · cases hb
      · next hbatch =>
          obtain rfl := List.mem_singleton.1 hb
          exact ⟨hbatch, hroom.le⟩
  | begin hbacklog _ => simp [hbacklog] at hb
  | accept | refuse | enter | lose | breakDown | gather => simp at hb
  | overtake | complete | close => simp at hb

/-- An offer is refused only by a closed queue. -/
theorem Ready.shut (hr : Ready l d) (hrefused : d.isOpen = true → d.isDeaf = true) :
    d.isOpen = false := by
  cases hopen : d.isOpen with
  | false => rfl
  | true =>
      have hshut := (hr.sound.done (hr.sound.finished (hrefused hopen))).1
      simp [hopen] at hshut

/-- Every record offered is let in or refused. -/
theorem Moves.offered_eq (h : Moves l d e d') (hr : Ready l d) :
    appended d.waiting d'.waiting ++ d.refuses e = e.offers := by
  cases h with
  | accept hopen _ => simp [refuses, hopen, DeliveryEvent.offers]
  | refuse hrefused => simp [refuses, hr.shut hrefused]
  | enter hwaiting _ _ | lose hwaiting _ => simp [hwaiting, refuses, DeliveryEvent.offers]
  | breakDown | gather | fill | tick | finish | begin | overtake | complete | close =>
      simp [refuses, DeliveryEvent.offers]

/-- The records that the exporter has given up. -/
def errors (m : Metrics) : Binary64 := m.exportErrors.read exporterName

theorem errors_recordsLost (m : Metrics) (n : Nat) :
    errors (m.recordsLost exporterName n) = errors m + Binary64.ofNat n :=
  Tally.read_addCount_self exporterName n m.exportErrors

/-- The records that a step gives up, those of a batch that failed or one that is refused. -/
def givesUp (x : Delivery × Metrics) (e : DeliveryEvent) (y : Delivery × Metrics) :
    List CostRecord :=
  failedRecords (appended x.1.attempted y.1.attempted) ++ x.1.refuses e

/-- A step that counts nothing gives nothing up. -/
theorem errors_of_quiet {x y : Delivery × Metrics} (hmetrics : x.2 = y.2)
    (hattempted : y.1.attempted = x.1.attempted) (hoffers : e.offers = []) :
    GrownBy (givesUp x e y).length (errors x.2) (errors y.2) := by
  have hnothing : givesUp x e y = [] := by
    simp [givesUp, hattempted, refuses, hoffers, failedRecords]
  rw [hnothing, hmetrics]
  exact .refl _

/-- The errors counted are the records given up. -/
theorem errors_of_step? (hr : Ready l d) (h : step? l e (d, m) = some (d', m')) :
    GrownBy (givesUp (d, m) e (d', m')).length (errors m) (errors m') := by
  have hmove := moves_of_step? h
  cases e with
  | offer r =>
      have hkept : appended d.attempted d'.attempted = [] := by
        simp [hmove.attempted_eq, attempts]
      simp only [step?] at h
      split at h
      · next hopen =>
          have hopen : d.isOpen = true ∧ d.isDeaf = false := by simpa using hopen
          obtain ⟨-, rfl⟩ : _ ∧ m = m' := by simpa using h
          simp only [givesUp, hkept, refuses, hopen.1]
          exact .refl _
      · next hopen =>
          have hshut : d.isOpen = false := hr.shut (by simpa using hopen)
          obtain ⟨-, rfl⟩ : _ ∧ _ = m' := by simpa using h
          simp only [givesUp, hkept, refuses, hshut]
          rw [errors_recordsLost]
          exact .raise _ 1
  | enter =>
      simp only [step?] at h
      split at h
      · next r rest hwaiting =>
          -- Nobody waits for a queue from which nothing is taken any more.
          have hhears : d.isDeaf = false := by
            by_contra hdeaf
            have hfinished := hr.sound.finished (by simpa using hdeaf)
            have hempty := (hr.sound.done hfinished).2.1
            simp [hwaiting] at hempty
          simp only [hhears, Bool.false_eq_true, if_false] at h
          split at h
          · obtain ⟨rfl, rfl⟩ : _ = d' ∧ m = m' := by simpa using h
            simpa [givesUp, refuses, DeliveryEvent.offers, failedRecords] using .refl _
          · cases h
      · cases h
  | complete place accepted took =>
      simp only [step?] at h
      split at h
      · next b hsending =>
          obtain ⟨rfl, rfl⟩ : _ = d' ∧ _ = m' := by simpa using h
          simp only [givesUp, appended_append, failedRecords_singleton, refuses,
            DeliveryEvent.offers, ite_self, List.append_nil]
          cases accepted with
          | true => exact .refl _
          | false =>
              simp only [Bool.false_eq_true, if_false]
              rw [errors_recordsLost]
              exact .raise _ b.length
      · cases h
  | breakDown | gather | tick | finish =>
      refine errors_of_quiet ?_ (by simp [hmove.attempted_eq, attempts]) rfl
      simp only [step?] at h
      split at h
      · exact (Prod.mk.inj (Option.some.inj h)).2
      · cases h
  | begin | overtake place =>
      refine errors_of_quiet ?_ (by simp [hmove.attempted_eq, attempts]) rfl
      simp only [step?] at h
      split at h
      · split at h
        · exact (Prod.mk.inj (Option.some.inj h)).2
        · cases h
      · cases h
  | close =>
      refine errors_of_quiet ?_ (by simp [hmove.attempted_eq, attempts]) rfl
      exact (Prod.mk.inj (Option.some.inj h)).2

/-! ## What a run says -/

/-- The accounts of a delivery with some history are right. -/
structure Accounts (l : DeliveryLimits) (h : History) (d : Delivery) : Prop where
  sizes : ∀ b ∈ h.dispatched, b ≠ [] ∧ b.length ≤ l.fullBatch
  gathered : h.dispatched.flatten ++ (d.batch ++ d.queue) = h.accepted
  admitted : h.accepted ++ d.waiting = h.admitted
  placed : (d.backlog ++ d.sending ++ h.attempted.map (·.1)).Perm h.dispatched

theorem kept_ready (l : DeliveryLimits) : Kept (step? l) fun x => Ready l x.1 := by
  intro e x y hx hstep
  exact hx.move (moves_of_step? hstep)

/-- What was attempted stays so. -/
theorem attempted_of_step? {x y : Delivery × Metrics} (h : step? l e x = some y) :
    y.1.attempted = x.1.attempted ++ appended x.1.attempted y.1.attempted := by
  rw [(moves_of_step? h).attempted_eq, appended_append]

variable {es : List DeliveryEvent}

/-- The accounts of a delivery are right after every run from its start. -/
theorem accounts_of_run (hrun : runs? (step? l) es (.start true, m) = some (d, m')) :
    Accounts l (history l es (.start true, m)) d where
  sizes := by
    refine (kept_ready l).each ?_ (Ready.start l) hrun
    intro e x y hx hstep
    exact (moves_of_step? hstep).size_le hx
  gathered := by
    have hline := (kept_ready l).line (fun x => x.1.batch ++ x.1.queue)
      (fun e x y hx hstep => (moves_of_step? hstep).gathered_eq hx) (Ready.start l) hrun
    rw [observed_map_list List.flatten rfl (fun _ _ => List.flatten_append)] at hline
    exact hline
  admitted := by
    have hline := (kept_ready l).line (fun x => x.1.waiting)
      (fun e x y hx hstep => (moves_of_step? hstep).admitted_eq hx) (Ready.start l) hrun
    exact hline
  placed := by
    have hperm := (kept_ready l).perm (fun x => x.1.backlog ++ x.1.sending)
      (fun e x y _ hstep => (moves_of_step? hstep).placed_perm) (Ready.start l) hrun
    rw [observed_map_list (List.map Prod.fst) rfl (fun _ _ => List.map_append)] at hperm
    exact hperm

/-- Every record offered in a run is let in or refused. -/
theorem offered_of_run (hrun : runs? (step? l) es (.start true, m) = some (d, m')) :
    let h := history l es (.start true, m)
    (h.admitted ++ h.refused).Perm (es.flatMap (·.offers)) := by
  intro h
  have hstep (e : DeliveryEvent) (x y : Delivery × Metrics) (hx : Ready l x.1)
      (hstep : step? l e x = some y) :
      (appended x.1.waiting y.1.waiting ++ x.1.refuses e) ++ [] = [] ++ e.offers := by
    rw [List.append_nil, List.nil_append]
    exact (moves_of_step? hstep).offered_eq hx
  have hline := (kept_ready l).line (fun _ => []) hstep (Ready.start l) hrun
  have hoffers : observed (step? l) (fun _ e _ => e.offers) es (.start true, m) =
      es.flatMap (·.offers) := observed_events (fun _ _ _ _ => rfl) hrun
  rw [List.append_nil, List.nil_append, hoffers] at hline
  rw [← hline]
  exact (observed_append_perm _ _ es _).symm

/-- The errors counted in a run are the records of the batches that failed and those refused. -/
theorem errors_of_run (hrun : runs? (step? l) es (.start true, m) = some (d, m')) :
    let h := history l es (.start true, m)
    GrownBy ((failedRecords h.attempted).length + h.refused.length) (errors m) (errors m') := by
  intro h
  have hboth : (observed (step? l) givesUp es (.start true, m)).Perm
      (observed (step? l) (fun x _ y => failedRecords (appended x.1.attempted y.1.attempted)) es
        (.start true, m) ++ h.refused) := observed_append_perm _ _ _ _
  rw [observed_map_list failedRecords rfl failedRecords_append] at hboth
  have hlength : (observed (step? l) givesUp es (.start true, m)).length =
      (failedRecords h.attempted).length + h.refused.length :=
    hboth.length_eq.trans List.length_append
  rw [← hlength]
  exact (kept_ready l).count (fun x => errors x.2)
    (fun e x y hx hstep => errors_of_step? hx hstep) (Ready.start l) hrun

/-- When a delivery has ended, the batches dispatched are the records accepted, in order, and every
one of them was attempted once. -/
theorem Accounts.ended {h : History} (ha : Accounts l h d) (hs : d.Sound)
    (hended : d.isFinished = true) :
    h.dispatched.flatten = h.accepted ∧ h.accepted = h.admitted ∧
      (h.attempted.map (·.1)).Perm h.dispatched := by
  obtain ⟨⟨hfinished, hbacklog⟩, hsending⟩ :
      (d.accumulator = .finished ∧ d.backlog = []) ∧ d.sending = [] := by
    simpa [isFinished] using hended
  obtain ⟨-, hwaiting, hqueue, hbatch⟩ := hs.done hfinished
  refine ⟨?_, ?_, ?_⟩
  · simpa [hbatch, hqueue] using ha.gathered
  · simpa [hwaiting] using ha.admitted
  · simpa [hbacklog, hsending] using ha.placed

end Delivery

namespace HttpExporter

variable {settings : HttpSettings} {e e' : HttpExporter} {s s' : Surroundings} {d : Delivery}
  {event : DeliveryEvent} {es : List DeliveryEvent}

/-! ## The runs of an exporter -/

/-- Lets one event after the other happen to the run; none if one of them cannot. -/
def performAll? (es : List DeliveryEvent) (x : HttpExporter × Surroundings) :
    Option (HttpExporter × Surroundings) :=
  runs? (fun event x => x.1.perform? event x.2) es x

/-- What happened in a run of an exporter, if that was started. -/
def history (es : List DeliveryEvent) (x : HttpExporter × Surroundings) : Delivery.History :=
  match x.1.run with
  | some d => Delivery.history x.1.limits es (d, x.2.metrics)
  | none => ⟨[], [], [], [], []⟩

/-- An exporter runs a delivery, which counts in the metrics of the process. -/
structure Runs (l : DeliveryLimits) (x : HttpExporter × Surroundings) (y : Delivery × Metrics) :
    Prop where
  running : x.1.run = some y.1
  counting : x.2.metrics = y.2
  limited : x.1.limits = l

variable {l : DeliveryLimits} {x x' : HttpExporter × Surroundings} {y : Delivery × Metrics}

theorem Runs.history_eq (h : Runs l x y) (es : List DeliveryEvent) :
    history es x = Delivery.history l es y := by
  simp only [history, h.running, h.counting, h.limited]

/-- What happens to an exporter happens to its delivery. -/
theorem Runs.perform? (h : Runs l x y) (hstep : x.1.perform? event x.2 = some x') :
    ∃ y', Delivery.step? l event y = some y' ∧ Runs l x' y' := by
  rw [HttpExporter.perform?, h.running, h.counting, h.limited] at hstep
  cases hnext : Delivery.step? l event (y.1, y.2) with
  | none => simp [hnext] at hstep
  | some y' =>
      obtain rfl : _ = x' := by simpa [hnext] using hstep
      exact ⟨y', rfl, rfl, rfl, h.limited⟩

theorem Runs.performAll? (h : Runs l x y) (hrun : performAll? es x = some x') :
    ∃ y', runs? (Delivery.step? l) es y = some y' ∧ Runs l x' y' :=
  runs?_inside (fun _ _ _ _ h hstep => h.perform? hstep) h hrun

/-- What an exporter attempted, and how that ended. -/
def attempts (e : HttpExporter) : List (List CostRecord × Bool) := e.run.elim [] (·.attempted)

/-- An event that ends no delivery attempts nothing. -/
theorem attempts_of_perform? {event : DeliveryEvent} (hstep : x.1.perform? event x.2 = some x')
    (hnone : ∀ d : Delivery, d.attempts event = []) : attempts x'.1 = attempts x.1 := by
  cases hrun : x.1.run with
  | none => simp [HttpExporter.perform?, hrun] at hstep
  | some d =>
      obtain ⟨d', m, hmove, hx', -⟩ := perform?_eq_some hrun hstep
      simp [attempts, hx', hrun, hmove.attempted_eq, hnone]

theorem kept_shut (l : DeliveryLimits) :
    Kept (Delivery.step? l) fun x => x.1.isOpen = false := by
  intro event x y hshut hstep
  rw [(Delivery.moves_of_step? hstep).isOpen_eq, hshut, Bool.false_and]

section Occurrences

variable [Codec.Codecs]

/-! ## What happens around an exporter -/

/-- Something that happens to a started exporter or around it. -/
inductive Occurrence where
  /-- The exporter is used, makes a step of its own, or is answered. -/
  | act (a : Act)
  /-- The collector goes away or comes back, or begins to answer in another way. -/
  | turn (c : Collector)
  /-- The queue is closed for further offers, with which stopping begins. -/
  | close

/-- The records that callers offer. -/
def Occurrence.offers : Occurrence → List CostRecord
  | .act a => handed [a]
  | .turn _ => []
  | .close => []

/-- What an occurrence makes of an exporter; none if it cannot happen. What the collector has received
stays received. -/
def occur? : Occurrence → HttpExporter × Surroundings → Option (HttpExporter × Surroundings)
  | .act a, x => act? x a
  | .turn c, (e, s) => some (e, { s with collector := { c with received := s.collector.received } })
  | .close, (e, s) => e.perform? .close s

/-- The batch whose delivery an occurrence ends, if it does, with the collector as it is then. -/
def asks (x : HttpExporter × Surroundings) : Occurrence → List (List CostRecord × Collector)
  | .act (.answer place _) => (x.1.run.bind (·.sending[place]?)).toList.map (·, x.2.collector)
  | _ => []

/-- What an occurrence is to the delivery. -/
def inner (x : HttpExporter × Surroundings) : Occurrence → List DeliveryEvent
  | .act (.offer r) => [.offer r]
  | .act (.move event) => [event]
  | .act (.answer place took) => (asks x (.act (.answer place took))).map fun q =>
      .complete place (q.2.deliver x.1.settings q.1).1 took
  | .turn _ => []
  | .close => [.close]

/-- The batches whose delivery ended in a run, in order, each with the collector as it was then. -/
def asked (os : List Occurrence) (x : HttpExporter × Surroundings) :
    List (List CostRecord × Collector) :=
  observed occur? (fun x o _ => asks x o) os x

/-- What happened in a run of an exporter with its surroundings. -/
def told (os : List Occurrence) (x : HttpExporter × Surroundings) : Delivery.History :=
  history (observed occur? (fun x o _ => inner x o) os x) x

variable {os : List Occurrence} {o : Occurrence}

/-- What an answer is made of. -/
theorem act?_answer_eq_some {place : Nat} {took : Binary64}
    (hstep : act? x (.answer place took) = some x') :
    ∃ b, x.1.run.bind (·.sending[place]?) = some b ∧
      x.1.perform? (.complete place (x.2.deliver x.1.settings b).1 took)
        (x.2.deliver x.1.settings b).2 = some x' := by
  simp only [act?] at hstep
  split at hstep
  · cases hstep
  · next b hb => exact ⟨b, hb, hstep⟩

/-- Every occurrence is a step of the delivery, or none. -/
theorem Runs.runs?_inner (h : Runs l x y) (hstep : occur? o x = some x') :
    ∃ y', runs? (Delivery.step? l) (inner x o) y = some y' ∧ Runs l x' y' := by
  have hone {event : DeliveryEvent} {x₁ : HttpExporter × Surroundings} (hx₁ : Runs l x₁ y)
      (hevent : x₁.1.perform? event x₁.2 = some x') :
      ∃ y', runs? (Delivery.step? l) [event] y = some y' ∧ Runs l x' y' := by
    obtain ⟨y', hnext, hx'⟩ := hx₁.perform? hevent
    exact ⟨y', runs?_step hnext rfl, hx'⟩
  cases o with
  | act a =>
      cases a with
      | offer r => exact hone h hstep
      | move event =>
          simp only [occur?, act?] at hstep
          split at hstep
          · exact hone h hstep
          · cases hstep
      | answer place took =>
          obtain ⟨b, hb, hevent⟩ := act?_answer_eq_some hstep
          have hdelivered : Runs l (x.1, (x.2.deliver x.1.settings b).2) y :=
            ⟨h.running, h.counting, h.limited⟩
          have hinner : inner x (.act (.answer place took)) =
              [.complete place (x.2.deliver x.1.settings b).1 took] := by
            simp only [inner, asks, hb, Option.toList_some, List.map_cons, List.map_nil]
            rfl
          rw [hinner]
          exact hone hdelivered hevent
  | turn c =>
      cases hstep
      exact ⟨y, rfl, h.running, h.counting, h.limited⟩
  | close => exact hone h hstep

/-- An occurrence offers to the delivery what it offers. -/
theorem offers_inner (hstep : occur? o x = some x') :
    (inner x o).flatMap (·.offers) = o.offers := by
  cases o with
  | act a =>
      cases a with
      | offer r => rfl
      | move event =>
          simp only [occur?, act?] at hstep
          split at hstep
          · next hinternal =>
              cases event with
              | offer r => cases hinternal
              | enter | breakDown | gather | tick | finish | begin | overtake | complete | close => rfl
          · cases hstep
      | answer place took =>
          simp only [inner, List.flatMap_map]
          exact List.flatMap_eq_nil_iff.2 fun _ _ => rfl
  | turn c => rfl
  | close => rfl

/-- A run offers to the delivery what is offered in it. -/
theorem offers_of_run (hrun : runs? occur? os x = some x') :
    (observed occur? (fun x o _ => inner x o) os x).flatMap (·.offers) = os.flatMap (·.offers) := by
  rw [← observed_map_list (List.flatMap fun e : DeliveryEvent => e.offers) rfl
    fun _ _ => List.flatMap_append]
  exact observed_events (fun _ _ _ hstep => offers_inner hstep) hrun

/-! ## What the collector gets -/

/-- What came of a batch when its delivery ended: that has succeeded if the collector took it. -/
def Tried (settings : HttpSettings) (attempt : List CostRecord × Bool)
    (asked : List CostRecord × Collector) : Prop :=
  attempt.1 = asked.1 ∧ (attempt.2 = true ↔ asked.2.Takes settings asked.1)

/-- An occurrence attempts the batch whose delivery it ends, and the collector decides on that. -/
theorem attempts_of_occur? (hstep : occur? o x = some x') :
    attempts x'.1 = attempts x.1 ++
      (asks x o).map fun q => (q.1, (q.2.deliver x.1.settings q.1).1) := by
  cases o with
  | act a =>
      cases a with
      | offer r => simpa [asks] using attempts_of_perform? hstep fun _ => rfl
      | move event =>
          simp only [occur?, act?] at hstep
          split at hstep
          · next hinternal =>
              simpa [asks] using
                attempts_of_perform? hstep fun d => (Delivery.frame_of_internal hinternal).2.1
          · cases hstep
      | answer place took =>
          obtain ⟨b, hb, hevent⟩ := act?_answer_eq_some hstep
          obtain ⟨d, hrun, hsending⟩ := Option.bind_eq_some_iff.1 hb
          obtain ⟨d', m, hmove, hx', -⟩ := perform?_eq_some hrun hevent
          simp [attempts, asks, hx', hrun, hsending, hmove.attempted_eq, Delivery.attempts,
            Surroundings.deliver]
  | turn c =>
      cases hstep
      simp [asks]
  | close => simpa [asks] using attempts_of_perform? hstep fun _ => rfl

/-- An occurrence sends the batch whose delivery it ends, and nothing else. -/
theorem received_of_occur? (hstep : occur? o x = some x') :
    x'.1.settings = x.1.settings ∧ x'.2.collector.received = x.2.collector.received ++
      (asks x o).flatMap fun q => q.2.gets x.1.settings q.1 := by
  have hquiet {event : DeliveryEvent} (hevent : x.1.perform? event x.2 = some x') :
      x'.1.settings = x.1.settings ∧ x'.2.collector.received = x.2.collector.received := by
    obtain ⟨hsettings, hcollector⟩ := frame_of_perform? hevent
    exact ⟨hsettings, congrArg Collector.received hcollector⟩
  cases o with
  | act a =>
      cases a with
      | offer r => simpa [asks] using hquiet hstep
      | move event =>
          simp only [occur?, act?] at hstep
          split at hstep
          · simpa [asks] using hquiet hstep
          · cases hstep
      | answer place took =>
          obtain ⟨b, hb, hevent⟩ := act?_answer_eq_some hstep
          obtain ⟨hsettings, hcollector⟩ := frame_of_perform? hevent
          have hdelivered : (x.2.deliver x.1.settings b).2.collector =
              (x.2.collector.deliver x.1.settings b).2 := rfl
          refine ⟨hsettings, ?_⟩
          rw [hcollector, hdelivered, Collector.deliver_snd]
          simp [asks, hb]
  | turn c =>
      cases hstep
      exact ⟨rfl, by simp [asks]⟩
  | close => simpa [asks] using hquiet hstep

theorem kept_settings (settings : HttpSettings) :
    Kept occur? fun x => x.1.settings = settings := by
  intro o x x' hsettings hstep
  rw [(received_of_occur? hstep).1, hsettings]

/-- The collector has received what it got of the batches of a run. -/
theorem received_of_run (hsettings : x.1.settings = settings)
    (hrun : runs? occur? os x = some x') :
    x'.2.collector.received =
      x.2.collector.received ++ (asked os x).flatMap fun q => q.2.gets settings q.1 := by
  rw [asked, ← observed_map_list
    (List.flatMap fun q : List CostRecord × Collector => q.2.gets settings q.1) rfl
    fun _ _ => List.flatMap_append]
  refine (kept_settings settings).grown (fun x => x.2.collector.received) ?_ hsettings hrun
  intro o x x' hx hstep
  rw [(received_of_occur? hstep).2, hx]

/-- The batches of a run were attempted as the collector has answered them. -/
theorem attempts_of_run (hsettings : x.1.settings = settings)
    (hrun : runs? occur? os x = some x') :
    attempts x'.1 =
      attempts x.1 ++ (asked os x).map fun q => (q.1, (q.2.deliver settings q.1).1) := by
  rw [asked, ← observed_map_list
    (List.map fun q : List CostRecord × Collector => (q.1, (q.2.deliver settings q.1).1)) rfl
    fun _ _ => List.map_append]
  refine (kept_settings settings).grown (fun x => attempts x.1) ?_ hsettings hrun
  intro o x x' hx hstep
  rw [attempts_of_occur? hstep, hx]

/-- The history of a run attempts the batches that the collector was asked to take. -/
theorem tried_of_run (h : Runs l x y) (hr : Delivery.Ready l y.1) (hnone : y.1.attempted = [])
    (hsettings : x.1.settings = settings) (hrun : runs? occur? os x = some x') :
    List.Forall₂ (Tried settings) (told os x).attempted (asked os x) := by
  obtain ⟨y', hsteps, hx'⟩ :=
    runs?_through (fun _ _ _ _ h hstep => Runs.runs?_inner h hstep) h hrun
  have htold : (told os x).attempted = attempts x'.1 := by
    have hgrown := (Delivery.kept_ready l).grown (fun y => y.1.attempted)
      (fun e y y' _ hstep => Delivery.attempted_of_step? hstep) hr hsteps
    rw [hnone, List.nil_append] at hgrown
    rw [attempts, hx'.running, Option.elim_some, hgrown, told, h.history_eq]
    rfl
  have hattempts := attempts_of_run hsettings hrun
  rw [show attempts x.1 = [] by rw [attempts, h.running, Option.elim_some, hnone],
    List.nil_append] at hattempts
  rw [htold, hattempts, List.forall₂_map_left_iff, List.forall₂_same]
  intro q _
  exact ⟨rfl, Collector.deliver_fst_eq_true_iff⟩

/-! ## Stopping ends the delivery -/

/-- A step of a run left to itself uses up work. -/
theorem Runs.work_of_advance? (h : Runs l x y) (hstep : x.1.advance? x.2 = some x') :
    ∃ y', y'.1.work < y.1.work ∧ Runs l x' y' := by
  rcases advance?_cases hstep with ⟨event, huntimed, hstep⟩ | hstep
  · obtain ⟨y', hnext, hx'⟩ := h.perform? hstep
    have hwork := (Delivery.moves_of_step? hnext).work_le
    have hinternal := DeliveryEvent.isInternal_of_untimed huntimed
    rw [Delivery.spends_of_untimed huntimed, (Delivery.frame_of_internal hinternal).1,
      List.length_nil] at hwork
    exact ⟨y', by omega, hx'⟩
  · rw [completeFirst?, h.running, Option.bind_some] at hstep
    cases hsending : y.1.sending.head? with
    | none => simp [hsending] at hstep
    | some b =>
        rw [hsending] at hstep
        have hdelivered : Runs l (x.1, (x.2.deliver x.1.settings b).2) y :=
          ⟨h.running, h.counting, h.limited⟩
        obtain ⟨y', hnext, hx'⟩ := hdelivered.perform? hstep
        have hwork := (Delivery.moves_of_step? hnext).work_le
        simp only [Delivery.spends, Delivery.accepts, List.length_nil] at hwork
        exact ⟨y', by omega, hx'⟩

/-- A run left to itself long enough comes to rest, by acts that hand over nothing. -/
theorem Runs.advance (h : Runs l x y) {n : Nat} (hn : y.1.work ≤ n) :
    ∃ acts, (∀ a ∈ acts, handed [a] = []) ∧
      runs? (fun a x => act? x a) acts x = some (x.1.advance n x.2) ∧
      (x.1.advance n x.2).1.advance? (x.1.advance n x.2).2 = none := by
  have hsucc (n : Nat) (x : HttpExporter × Surroundings) :
      x.1.advance (n + 1) x.2 =
        (x.1.advance? x.2).elim x fun (x : HttpExporter × Surroundings) => x.1.advance n x.2 := by
    rw [HttpExporter.advance]
    cases x.1.advance? x.2 with
    | none => rfl
    | some x' => rfl
  have hnext (x x' : HttpExporter × Surroundings) (hx : ∃ y, Runs l x y)
      (hstep : x.1.advance? x.2 = some x') :
      (∃ y, Runs l x' y) ∧ x'.1.run.elim 0 Delivery.work < x.1.run.elim 0 Delivery.work ∧
        ∃ a, handed [a] = [] ∧ act? x a = some x' := by
    obtain ⟨y, hx⟩ := hx
    obtain ⟨y', hless, hx'⟩ := hx.work_of_advance? hstep
    exact ⟨⟨y', hx'⟩, by rw [hx.running, hx'.running]; exact hless, act?_of_advance? hstep⟩
  have hwork : x.1.run.elim 0 Delivery.work ≤ n := by rw [h.running]; exact hn
  exact comes_to_rest (fun x : HttpExporter × Surroundings => x.1.advance? x.2)
    (fun n x => x.1.advance n x.2) (fun x => x.1.run.elim 0 Delivery.work) (fun _ => rfl) hsucc hnext
    ⟨y, h⟩ hwork

theorem runs?_occur?_map_act (acts : List Act) (x : HttpExporter × Surroundings) :
    runs? occur? (acts.map .act) x = runs? (fun a x => act? x a) acts x := by
  rw [runs?, List.foldlM_map]
  rfl

/-- Stopping is no fault. It closes the queue, and then the delivery goes on by itself until it has
ended. -/
theorem Runs.stop (h : Runs l x y) (hr : Delivery.Ready l y.1) (hqueue : 0 < l.queue)
    (hworkers : 0 < l.workers) :
    (x.1.stop x.2).1 = .ok () ∧ ∃ (rest : List Act) (z : HttpExporter × Surroundings) (d : Delivery),
      (∀ a ∈ rest, handed [a] = []) ∧ runs? occur? (.close :: rest.map .act) x = some z ∧
      (x.1.stop x.2).2 = ({ z.1 with isHeld := false }, z.2) ∧ z.1.run = some d ∧
      d.isFinished = true := by
  let d₁ : Delivery := { y.1 with isOpen := false }
  let x₁ : HttpExporter × Surroundings := ({ x.1 with run := some d₁ }, x.2)
  have hclose : x.1.perform? .close x.2 = some x₁ := by
    simp [HttpExporter.perform?, h.running, Delivery.step?, x₁, d₁]
  have hx₁ : Runs l x₁ (d₁, y.2) := ⟨rfl, h.counting, h.limited⟩
  have hready : Delivery.Ready l d₁ := hr.move .close
  obtain ⟨rest, hnone, hrest, hidle⟩ := hx₁.advance (work_le_stepBound hready.sound)
  have hacts : runs? occur? (rest.map .act) x₁ = some (x₁.1.advance (stepBound d₁) x₁.2) := by
    rw [runs?_occur?_map_act, hrest]
  obtain ⟨y₂, hsteps, hx₂⟩ :=
    runs?_through (fun _ _ _ _ h hstep => Runs.runs?_inner h hstep) hx₁ hacts
  have hready₂ : Delivery.Ready l y₂.1 := (Delivery.kept_ready _).run hready hsteps
  have hshut : y₂.1.isOpen = false := (kept_shut _).run rfl hsteps
  -- A run at rest is open or has ended, and this one was closed.
  have hended : y₂.1.isFinished = true := by
    rw [← hx₂.limited] at hqueue hworkers
    rcases idle_of_advance? hx₂.running hready₂.sound hqueue hworkers hidle with hopen | hended
    · rw [hshut] at hopen
      cases hopen
    · exact hended
  have hstop : x.1.stop x.2 = (.ok (), { (x₁.1.advance (stepBound d₁) x.2).1 with isHeld := false },
      (x₁.1.advance (stepBound d₁) x.2).2) := by
    have haccumulator : y₂.1.accumulator = .finished := by
      simp only [Delivery.isFinished, Bool.and_eq_true, beq_iff_eq] at hended
      exact hended.1.1
    have halive : (y₂.1.accumulator == .failed) = false := by rw [haccumulator]; rfl
    have hsettle : x₁.1.settle x₁.2 = x₁.1.advance (stepBound d₁) x.2 := rfl
    have hrunning : (x₁.1.advance (stepBound d₁) x.2).1.run = some y₂.1 := hx₂.running
    simp only [HttpExporter.stop, HttpExporter.close, HttpExporter.perform, hclose, Option.getD_some,
      hsettle, hrunning, Option.any_some, halive, Bool.and_false, Bool.false_eq_true, if_false]
  rw [hstop]
  exact ⟨rfl, rest, x₁.1.advance (stepBound d₁) x.2, y₂.1, hnone, runs?_step hclose hacts, rfl,
    hx₂.running, hended⟩

end Occurrences

/-! ## Started once -/

/-- Records handed to an exporter that does not run are errors, and nothing else. -/
theorem acceptAll_of_idle (hrun : e.run = none) (rs : List CostRecord) (s : Surroundings) :
    (e.acceptAll rs s).1 = e ∧ (e.acceptAll rs s).2.room = s.room ∧
      GrownBy rs.length (Delivery.errors s.metrics)
        (Delivery.errors (e.acceptAll rs s).2.metrics) := by
  have hstep (x : HttpExporter × Surroundings) (r : CostRecord)
      (hx : x.1 = e ∧ x.2.room = s.room) :
      ((x.1.accept r x.2).1 = e ∧ (x.1.accept r x.2).2.room = s.room) ∧
        GrownBy 1 (Delivery.errors x.2.metrics)
          (Delivery.errors (x.1.accept r x.2).2.metrics) := by
    have haccept : x.1.accept r x.2 = (x.1,
        { x.2 with metrics := x.2.metrics.recordsLost Delivery.exporterName 1 }) := by
      simp [HttpExporter.accept, hx.1, hrun]
    rw [haccept, Delivery.errors_recordsLost]
    exact ⟨hx, .raise _ 1⟩
  obtain ⟨⟨hsame, hroom⟩, hgrown⟩ := GrownBy.foldl
    (fun x : HttpExporter × Surroundings => Delivery.errors x.2.metrics) hstep (s := (e, s))
    ⟨rfl, rfl⟩ rs
  exact ⟨hsame, hroom, hgrown⟩

/-- The batches of a run are exact: none is empty or too large; one after the other they are the
records that the queue accepted, as far as these were gathered; each is at one place; and every record
offered is let in or refused. What was attempted is what the collector was asked to take, in order: an
attempt has succeeded if the collector, as it was then, took the batch, and has failed otherwise; and
the collector has received the requests that reached it, and no others. The errors counted are the
records of the batches that failed, the records refused and those handed over before the start, with a
counter that is exact up to `2 ^ 53`. When the delivery has ended, no record is on its way any more. -/
structure Batched [Codec.Codecs] (settings : HttpSettings) (early : List CostRecord)
    (os : List Occurrence) (x y : HttpExporter × Surroundings) (d : Delivery) (before : Binary64) :
    Prop where
  sizes : ∀ b ∈ (told os x).dispatched, b ≠ [] ∧ b.length ≤ settings.batchSize
  gathered : (told os x).dispatched.flatten ++ (d.batch ++ d.queue) = (told os x).accepted
  admitted : (told os x).accepted ++ d.waiting = (told os x).admitted
  placed : (d.backlog ++ d.sending ++ (told os x).attempted.map (·.1)).Perm (told os x).dispatched
  offered : ((told os x).admitted ++ (told os x).refused).Perm (os.flatMap (·.offers))
  tried : List.Forall₂ (Tried settings) (told os x).attempted (asked os x)
  received : y.2.collector.received =
    x.2.collector.received ++ (asked os x).flatMap fun q => q.2.gets settings q.1
  errors : GrownBy (failedRecords (told os x).attempted ++ (told os x).refused ++ early).length before
    (Delivery.errors y.2.metrics)
  counted : ∀ k, before = .ofNat k →
    k + (failedRecords (told os x).attempted ++ (told os x).refused ++ early).length ≤ 2 ^ 53 →
    Delivery.errors y.2.metrics =
      .ofNat (k + (failedRecords (told os x).attempted ++ (told os x).refused ++ early).length)
  ended : d.isFinished = true → (told os x).dispatched.flatten = (told os x).accepted ∧
    (told os x).accepted = (told os x).admitted ∧
    ((told os x).attempted.map (·.1)).Perm (told os x).dispatched

section Exactness

variable [Codec.Codecs] {os : List Occurrence}

/-- Whatever the order of what happens, the batches are exact. -/
theorem batched_of_run (hbatch : 0 < settings.batchSize) {early : List CostRecord}
    {before : Binary64} (hx : Runs (fresh settings).limits x (.start true, x.2.metrics))
    (hsettings : x.1.settings = settings)
    (hearly : GrownBy early.length before (Delivery.errors x.2.metrics))
    (hrun : runs? occur? os x = some x') :
    ∃ d, x'.1.run = some d ∧ Delivery.Ready (fresh settings).limits d ∧
      Batched settings early os x x' d before := by
  obtain ⟨⟨d, m⟩, hsteps, hx'⟩ :=
    runs?_through (fun _ _ _ _ h hstep => Runs.runs?_inner h hstep) hx hrun
  have hmetrics : x'.2.metrics = m := hx'.counting
  have htold : told os x = Delivery.history (fresh settings).limits _ (.start true, x.2.metrics) :=
    hx.history_eq _
  have haccounts := Delivery.accounts_of_run hsteps
  have hoffered := Delivery.offered_of_run hsteps
  have hready : Delivery.Ready (fresh settings).limits d :=
    (Delivery.kept_ready _).run (Delivery.Ready.start _) hsteps
  have hfull : (fresh settings).limits.fullBatch = settings.batchSize := Nat.max_eq_left hbatch
  have herrors := hearly.trans (Delivery.errors_of_run hsteps)
  rw [Nat.add_comm] at herrors
  rw [← htold] at haccounts hoffered herrors
  rw [offers_of_run hrun] at hoffered
  rw [← List.length_append, ← List.length_append, ← hmetrics] at herrors
  refine ⟨d, hx'.running, hready, ?_⟩
  constructor
  · rw [← hfull]
    exact haccounts.sizes
  · exact haccounts.gathered
  · exact haccounts.admitted
  · exact haccounts.placed
  · exact hoffered
  · exact tried_of_run hx (Delivery.Ready.start _) rfl hsettings hrun
  · exact received_of_run hsettings hrun
  · exact herrors
  · intro k hk hbound
    rw [hk] at herrors
    exact herrors.exact hbound
  · intro hended
    exact haccounts.ended hready.sound hended

/-- **Batching neither loses nor duplicates.** Take an exporter with positive sizes, for which there
are permits and room, and with time between its ticks. Records may be handed to it before it is
started; it can be started once; and then anything may happen in any order, while the collector comes
and goes and answers as it likes. Whatever does happen, the batches are exact. The exporter may be
stopped at any time: that is no fault, it ends the delivery by acts that hand over nothing, and the
batches are exact then too. -/
theorem batching_exact (hqueue : 0 < settings.maxQueueSize) (hbatch : 0 < settings.batchSize)
    (hworkers : 0 < settings.workers) (hplaces : settings.maxQueueSize ≤ permitLimit)
    (hpermits : settings.workers ≤ permitLimit) (htimeout : settings.batchTimeout.isZero = false)
    (early : List CostRecord) (s : Surroundings) (hroom : settings.batchSize ≤ s.room) :
    let x := (fresh settings).acceptAll early s
    ∃ e s₀, x.1.start x.2 = (.ok (), e, s₀) ∧
      let before := Delivery.errors s.metrics
      ∀ os e' s', runs? occur? os (e, s₀) = some (e', s') →
        (∃ d, e'.run = some d ∧ Batched settings early os (e, s₀) (e', s') d before) ∧
        (e'.stop s').1 = .ok () ∧ ∃ (rest : List Act) (z : HttpExporter × Surroundings) (d : Delivery),
          (∀ a ∈ rest, handed [a] = []) ∧
          runs? occur? (os ++ .close :: rest.map .act) (e, s₀) = some z ∧
          (e'.stop s').2 = ({ z.1 with isHeld := false }, z.2) ∧
          z.1.run = some d ∧ d.isFinished = true ∧
          Batched settings early (os ++ .close :: rest.map .act) (e, s₀) z d before := by
  intro x
  obtain ⟨hidle, hsame, hearly⟩ := acceptAll_of_idle (e := fresh settings) rfl early s
  have hfits : fits settings x.2.room = true := by
    rw [show x.2.room = s.room from hsame]
    exact fits_eq_true_iff.2 ⟨htimeout, by omega⟩
  have hstart := start_fresh_of hqueue hworkers hplaces hpermits x.2
  rw [hfits] at hstart
  have hbegun : Runs (fresh settings).limits
      ({ settings, run := some (.start true), isHeld := true,
         nextTick := x.2.now + settings.batchTimeout.nanos }, x.2) (.start true, x.2.metrics) :=
    ⟨rfl, rfl, rfl⟩
  refine ⟨_, x.2, by rw [hidle]; exact hstart, ?_⟩
  intro before os e' s' hos
  obtain ⟨d, hrunning, hready, hbatched⟩ := batched_of_run hbatch hbegun rfl hearly hos
  obtain ⟨y, -, hx'⟩ := runs?_through (fun _ _ _ _ h hstep => Runs.runs?_inner h hstep) hbegun hos
  obtain rfl : d = y.1 := Option.some.inj (hrunning.symm.trans hx'.running)
  obtain ⟨hok, rest, z, d', hnone, hclosing, hstop, hrun, hended⟩ := hx'.stop hready hqueue hworkers
  have hall := runs?_append hos hclosing
  obtain ⟨d'', hrun', -, hbatched'⟩ := batched_of_run hbatch hbegun rfl hearly hall
  obtain rfl : d'' = d' := Option.some.inj (hrun'.symm.trans hrun)
  exact ⟨⟨_, hrunning, hbatched⟩, hok, rest, z, d'', hnone, hall, hstop, hrun, hended, hbatched'⟩

end Exactness

/-- One record is handed over too early and one too late. Of two batches the second overtakes the
first and is answered with a fault; the first is delivered when the collector has recovered. These are
three errors, and the collector has received both requests. -/
theorem batching_exact_overtaken :
    let costing (value : Int) : CostRecord := ⟨.cpu, "CPUPricingStrategy", value, .empty, ⟨0, 0⟩⟩
    let settings : HttpSettings :=
      { address := "http://collector", compression := "none", batchSize := 2, maxQueueSize := 2 }
    let collector (status : Nat) : Collector :=
      { host := "collector", port := 80, isListening := true, status, received := [] }
    let s : Surroundings :=
      { metrics := .fresh, database := .silent "" 0 [], collector := collector 503, now := 0 }
    let idle := (fresh settings).acceptAll [costing 0] s
    let begun := (idle.1.start idle.2).2
    let os : List Occurrence := [.act (.offer (costing 1)), .act (.move .enter),
      .act (.offer (costing 2)), .act (.move .enter), .act (.move .gather), .act (.move .gather),
      .act (.offer (costing 3)), .act (.move .enter), .act (.move .gather), .act (.move .tick),
      .act (.move (.overtake 0)), .act (.answer 0 .zero), .act (.move .begin), .turn (collector 200),
      .act (.answer 0 .zero), .close, .act (.offer (costing 4))]
    0 < settings.maxQueueSize ∧ 0 < settings.batchSize ∧ 0 < settings.workers ∧
      settings.maxQueueSize ≤ permitLimit ∧ settings.workers ≤ permitLimit ∧
      settings.batchTimeout.isZero = false ∧ settings.batchSize ≤ s.room ∧
      (told os begun).dispatched = [[costing 1, costing 2], [costing 3]] ∧
      (told os begun).attempted = [([costing 3], false), ([costing 1, costing 2], true)] ∧
      ∃ e s', runs? occur? os begun = some (e, s') ∧ s'.collector.received.length = 2 ∧
        Delivery.errors s'.metrics = .ofNat 3 ∧ (e.stop s').1 = .ok () := by
  intro costing settings collector s idle begun os
  have hqueue : 0 < settings.maxQueueSize := by decide
  have hbatch : 0 < settings.batchSize := by decide
  have hworkers : 0 < settings.workers := by decide
  have hplaces : settings.maxQueueSize ≤ permitLimit := by decide
  have hpermits : settings.workers ≤ permitLimit := by decide
  have htimeout : settings.batchTimeout.isZero = false := by decide
  have hroom : settings.batchSize ≤ s.room := by decide
  obtain ⟨e₀, s₀, hstart, hall⟩ :=
    batching_exact hqueue hbatch hworkers hplaces hpermits htimeout [costing 0] s hroom
  have hbegun : begun = (e₀, s₀) := congrArg Prod.snd hstart
  obtain ⟨⟨e, s'⟩, hrun⟩ : ∃ y, runs? occur? os begun = some y :=
    Option.isSome_iff_exists.1 (by decide +kernel)
  obtain ⟨⟨d, -, hbatched⟩, hok, -⟩ := hall os e s' (hbegun ▸ hrun)
  rw [← hbegun] at hbatched
  have hattempted : (told os begun).attempted =
      [([costing 3], false), ([costing 1, costing 2], true)] := by decide +kernel
  have hrefused : (told os begun).refused = [costing 4] := by decide +kernel
  have hasked : ((asked os begun).flatMap fun q => q.2.gets settings q.1).length = 2 := by
    decide +kernel
  have hreceived : s'.collector.received.length = 2 := by
    rw [hbatched.received, List.length_append, hasked]
    decide +kernel
  have hcounted := hbatched.counted 0 (by decide +kernel)
  rw [hattempted, hrefused] at hcounted
  exact ⟨hqueue, hbatch, hworkers, hplaces, hpermits, htimeout, hroom, by decide +kernel, hattempted,
    e, s', hrun, hreceived, hcounted (by decide), hok⟩

end HttpExporter

end Chargeback
