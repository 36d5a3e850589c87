import Chargeback.Proofs.DeliveryHistory
import Mathlib.Algebra.Order.BigOperators.Group.List

/-!
# What bounds a delivery and what does not

The queue, the batch that is being gathered and the workers hold only so many records (`Within`). Between
the batch and the workers stands the BACKLOG of batches dispatched, and nothing bounds that: the
accumulator dispatches a batch that is full whether or not a worker is free, and goes on emptying the
queue. So callers need not wait for the collector. Whatever the state, as long as the queue is open, any
number of records can be accepted without the end of a single delivery (`exists_intake`).
-/

namespace Chargeback

namespace Delivery

variable {l : DeliveryLimits} {d d' : Delivery} {e : DeliveryEvent} {y : Delivery × Metrics}

/-- The records that the queue accepted and that were not attempted. -/
def outstanding (d : Delivery) : List CostRecord :=
  d.queue ++ d.batch ++ d.backlog.flatten ++ d.sending.flatten

theorem inHand_eq (d : Delivery) : d.inHand = d.waiting ++ d.outstanding := by
  simp [inHand, outstanding]

/-! ## What is bounded -/

/-- A delivery keeps within its limits. -/
structure Within (l : DeliveryLimits) (d : Delivery) : Prop where
  queue : d.queue.length ≤ l.queue
  batch : d.batch.length < l.fullBatch
  sizes : ∀ b ∈ d.backlog ++ d.sending, b.length ≤ l.fullBatch
  sending : d.sending.length ≤ l.workers

theorem Within.start (l : DeliveryLimits) (fits : Bool) : Within l (.start fits) := by
  constructor <;> simp [Delivery.start, l.fullBatch_pos]

/-- A batch that is dispatched is not too large. -/
theorem Within.dispatch (h : Within l d) : Within l d.dispatch := by
  obtain ⟨hqueue, hbatch, hsizes, hsending⟩ := h
  unfold Delivery.dispatch
  split
  · exact ⟨hqueue, hbatch, hsizes, hsending⟩
  · refine ⟨hqueue, l.fullBatch_pos, ?_, hsending⟩
    intro b hb
    simp only [List.mem_append, List.mem_singleton] at hb hsizes
    rcases hb with (hb | rfl) | hb
    · exact hsizes b (.inl hb)
    · exact hbatch.le
    · exact hsizes b (.inr hb)

/-- Every step keeps a delivery within its limits. -/
theorem Within.move (h : Within l d) (hmove : Moves l d e d') : Within l d' := by
  have hdispatch := h.dispatch
  obtain ⟨hqueue, hbatch, hsizes, hsending⟩ := h
  cases hmove with
  | accept | refuse | lose | close => exact ⟨hqueue, hbatch, hsizes, hsending⟩
  | breakDown _ => exact ⟨Nat.zero_le _, hbatch, hsizes, hsending⟩
  | enter _ _ hroom =>
      refine ⟨?_, hbatch, hsizes, hsending⟩
      rw [List.length_append, List.length_singleton]
      omega
  | gather _ hcons hroom =>
      rw [hcons, List.length_cons] at hqueue
      refine ⟨Nat.le_of_succ_le hqueue, ?_, hsizes, hsending⟩
      rw [List.length_append, List.length_singleton]
      exact hroom
  | @fill r rest _ hcons _ =>
      rw [hcons, List.length_cons] at hqueue
      refine ⟨Nat.le_of_succ_le hqueue, l.fullBatch_pos, ?_, hsending⟩
      intro b hb
      simp only [List.mem_append, List.mem_singleton] at hb hsizes
      rcases hb with (hb | rfl) | hb
      · exact hsizes b (.inl hb)
      · rw [List.length_append, List.length_singleton]
        omega
      · exact hsizes b (.inr hb)
  | tick _ => exact hdispatch
  | finish _ _ _ _ => exact ⟨hdispatch.queue, hdispatch.batch, hdispatch.sizes, hdispatch.sending⟩
  | begin hcons hfree =>
      refine ⟨hqueue, hbatch, ?_, ?_⟩
      · intro b hb
        apply hsizes
        simp only [hcons, List.mem_append, List.mem_cons, List.not_mem_nil] at hb ⊢
        tauto
      · rw [List.length_append, List.length_singleton]
        omega
  | overtake hplace hfree =>
      refine ⟨hqueue, hbatch, ?_, ?_⟩
      · intro b hb
        apply hsizes
        simp only [List.mem_append, List.mem_singleton] at hb ⊢
        rcases hb with hb | hb | rfl
        · exact .inl (List.mem_of_mem_eraseIdx hb)
        · exact .inr hb
        · exact .inl (List.mem_of_getElem? hplace)
      · rw [List.length_append, List.length_singleton]
        omega
  | complete _ =>
      refine ⟨hqueue, hbatch, ?_, ?_⟩
      · intro b hb
        apply hsizes
        simp only [List.mem_append] at hb ⊢
        exact hb.imp_right List.mem_of_mem_eraseIdx
      · exact (List.length_eraseIdx_le _ _).trans hsending

theorem kept_within (l : DeliveryLimits) : Kept (step? l) fun x => Within l x.1 := by
  intro e x y hx hstep
  exact hx.move (moves_of_step? hstep)

/-- What is outstanding exceeds what queue, batch and workers hold by the backlog at most. -/
theorem Within.length_outstanding_lt (h : Within l d) :
    d.outstanding.length < l.queue + (l.workers + 1) * l.fullBatch + d.backlog.flatten.length := by
  obtain ⟨hqueue, hbatch, hsizes, hsending⟩ := h
  have hdelivered : d.sending.flatten.length ≤ l.workers * l.fullBatch := by
    rw [List.length_flatten]
    have hlengths : ∀ n ∈ d.sending.map List.length, n ≤ l.fullBatch := by
      rw [List.forall_mem_map]
      intro b hb
      exact hsizes b (List.mem_append_right _ hb)
    calc (d.sending.map List.length).sum
        ≤ (d.sending.map List.length).length * l.fullBatch :=
          List.sum_le_card_nsmul _ _ hlengths
      _ = d.sending.length * l.fullBatch := by rw [List.length_map]
      _ ≤ l.workers * l.fullBatch := Nat.mul_le_mul_right _ hsending
  have hshare : (l.workers + 1) * l.fullBatch = l.workers * l.fullBatch + l.fullBatch :=
    Nat.succ_mul _ _
  simp only [outstanding, List.length_append]
  omega

/-- What the queue accepted is outstanding or was attempted. -/
theorem Accounts.accepted_perm {h : History} (ha : Accounts l h d) :
    h.accepted.Perm (d.outstanding ++ (h.attempted.map (·.1)).flatten) := by
  have hplaced := ha.placed.symm.flatten
  rw [← ha.gathered, List.perm_iff_count]
  intro r
  have hcount := hplaced.count_eq r
  simp only [outstanding, List.flatten_append, List.count_append] at hcount ⊢
  omega

/-! ## What is not bounded -/

/-- A step of a caller or of the accumulator with a single record; no delivery begins or ends. -/
def isIntake : DeliveryEvent → Bool
  | .offer _ | .enter | .gather => true
  | .breakDown | .tick | .finish | .begin | .overtake _ | .complete _ _ _ | .close => false

/-- An intake leaves the workers alone. -/
theorem Moves.frame_of_isIntake (h : Moves l d e d') (hintake : isIntake e = true) :
    d'.accumulator = d.accumulator ∧ d'.sending = d.sending ∧ d'.attempted = d.attempted := by
  cases h with
  | accept | refuse | enter | lose | gather | fill => exact ⟨rfl, rfl, rfl⟩
  | breakDown | tick | finish | begin | overtake | complete | close => cases hintake

theorem Moves.isOpen_of_isIntake (h : Moves l d e d') (hintake : isIntake e = true)
    (hopen : d.isOpen = true) : d'.isOpen = true := by
  rw [h.isOpen_eq, hopen, Bool.true_and, decide_eq_true_iff]
  rintro rfl
  cases hintake

/-- As long as the accumulator runs it takes what is in the queue. -/
theorem exists_gather (hrunning : y.1.accumulator = .running) (hqueue : y.1.queue ≠ []) :
    ∃ y', step? l .gather y = some y' ∧ y'.1.waiting = y.1.waiting ∧
      y'.1.queue.length + 1 = y.1.queue.length := by
  obtain ⟨d, m⟩ := y
  obtain ⟨r, rest, hcons⟩ := List.exists_cons_of_ne_nil hqueue
  simp only at hrunning hcons
  refine ⟨_, by simp only [step?, hrunning, hcons]; rfl, ?_, ?_⟩
  · split
    · exact dispatch_waiting _
    · rfl
  · rw [hcons, List.length_cons]
    split
    · rw [dispatch_queue]
    · rfl

/-- A caller that waits enters an empty queue. -/
theorem exists_enter (hroom : 0 < l.queue) (hrunning : y.1.accumulator = .running)
    (hwaiting : y.1.waiting ≠ []) (hqueue : y.1.queue = []) :
    ∃ y', step? l .enter y = some y' ∧ y'.1.waiting.length + 1 = y.1.waiting.length ∧
      y'.1.queue.length = 1 := by
  obtain ⟨d, m⟩ := y
  obtain ⟨r, rest, hcons⟩ := List.exists_cons_of_ne_nil hwaiting
  simp only at hrunning hcons hqueue
  refine ⟨({ d with waiting := rest, queue := [r] }, m), ?_, ?_, rfl⟩
  · simp [step?, hcons, hqueue, isDeaf, hrunning, Accumulator.isDeaf, hroom]
  · rw [hcons, List.length_cons]

theorem Sound.running_of_isOpen (hs : Sound d) (hopen : d.isOpen = true) :
    d.accumulator = .running := by
  have halive := hs.alive
  cases h : d.accumulator with
  | running => rfl
  | finished =>
      have hshut := (hs.done h).1
      rw [hopen] at hshut
      cases hshut
  | doomed | failed => simp [h, Accumulator.isHopeless] at halive

/-- Intakes put what is offered to what is in hand already, and nothing else happens. -/
theorem intakes {es : List DeliveryEvent} (hes : ∀ e ∈ es, isIntake e = true) (hr : Ready l y.1)
    (hopen : y.1.isOpen = true) {y' : Delivery × Metrics} (hrun : runs? (step? l) es y = some y') :
    y'.1.isOpen = true ∧ y'.1.sending = y.1.sending ∧ y'.1.attempted = y.1.attempted ∧
      y'.1.inHand.Perm (y.1.inHand ++ es.flatMap (·.offers)) := by
  induction es generalizing y with
  | nil =>
      cases hrun
      exact ⟨hopen, rfl, rfl, by simp⟩
  | cons e es ih =>
      obtain ⟨hintake, hrest⟩ := List.forall_mem_cons.1 hes
      obtain ⟨next, hstep, hothers⟩ := runs?_cons hrun
      have hmove := moves_of_step? hstep
      obtain ⟨-, hsending, hattempted⟩ := hmove.frame_of_isIntake hintake
      have hopen' := hmove.isOpen_of_isIntake hintake hopen
      obtain ⟨hopen'', hsending', hattempted', hperm⟩ := ih hrest (hr.move hmove) hopen' hothers
      refine ⟨hopen'', hsending'.trans hsending, hattempted'.trans hattempted, ?_⟩
      have haccepts : y.1.accepts e = e.offers := by
        cases e with
        | offer r => exact hr.sound.accepts_offer hopen r
        | enter | breakDown | gather | tick | finish | begin | overtake | complete | close => rfl
      have hflow := hmove.carried_perm hr.sound
      rw [List.perm_iff_count] at hflow hperm ⊢
      intro r
      have hone := hflow r
      have hall := hperm r
      simp only [attemptedRecords, hattempted, haccepts, List.flatMap_cons, List.count_append] at *
      omega

/-- Whoever waits can be let in, and all of the queue be gathered, before a delivery begins or ends. -/
def CanDrain (l : DeliveryLimits) (y : Delivery × Metrics) : Prop :=
  ∃ es y', (∀ e ∈ es, isIntake e = true) ∧ es.flatMap (·.offers) = [] ∧
    runs? (step? l) es y = some y' ∧ y'.1.waiting = [] ∧ y'.1.queue = []

theorem CanDrain.step {y' : Delivery × Metrics} (h : CanDrain l y') (hstep : step? l e y = some y')
    (hintake : isIntake e = true) (hoffers : e.offers = []) : CanDrain l y := by
  obtain ⟨es, last, hes, hnone, hrun, hend⟩ := h
  refine ⟨e :: es, last, List.forall_mem_cons.2 ⟨hintake, hes⟩, ?_, runs?_step hstep hrun, hend⟩
  rw [List.flatMap_cons, hoffers, hnone, List.append_nil]

theorem canDrain (hroom : 0 < l.queue) (hr : Ready l y.1) (hopen : y.1.isOpen = true) :
    CanDrain l y := by
  -- A record that waits has two steps to go, and one in the queue has one.
  obtain ⟨n, hn⟩ : ∃ n, 2 * y.1.waiting.length + y.1.queue.length ≤ n := ⟨_, le_rfl⟩
  induction n generalizing y with
  | zero =>
      have hwaiting : y.1.waiting = [] := List.length_eq_zero_iff.1 (by omega)
      have hqueue : y.1.queue = [] := List.length_eq_zero_iff.1 (by omega)
      exact ⟨[], y, by simp, rfl, rfl, hwaiting, hqueue⟩
  | succ n ih =>
      have hrunning := hr.sound.running_of_isOpen hopen
      by_cases hqueue : y.1.queue = []
      · by_cases hwaiting : y.1.waiting = []
        · exact ⟨[], y, by simp, rfl, rfl, hwaiting, hqueue⟩
        · obtain ⟨next, hstep, hshorter, hone⟩ := exists_enter hroom hrunning hwaiting hqueue
          have hmove := moves_of_step? hstep
          rw [hqueue, List.length_nil] at hn
          have hnext : CanDrain l next :=
            ih (hr.move hmove) (hmove.isOpen_of_isIntake rfl hopen) (by omega)
          exact hnext.step hstep rfl rfl
      · obtain ⟨next, hstep, hsame, hshorter⟩ := exists_gather (l := l) hrunning hqueue
        have hmove := moves_of_step? hstep
        have hnext : CanDrain l next :=
          ih (hr.move hmove) (hmove.isOpen_of_isIntake rfl hopen) (by rw [hsame]; omega)
        exact hnext.step hstep rfl rfl

theorem runs?_offers (hopen : y.1.isOpen = true) (hrunning : y.1.accumulator = .running)
    (rs : List CostRecord) :
    runs? (step? l) (rs.map .offer) y = some ({ y.1 with waiting := y.1.waiting ++ rs }, y.2) := by
  induction rs generalizing y with
  | nil => rw [List.append_nil]; rfl
  | cons r rs ih =>
      have hstep : step? l (.offer r) y = some ({ y.1 with waiting := y.1.waiting ++ [r] }, y.2) := by
        simp [step?, hopen, isDeaf, hrunning, Accumulator.isDeaf]
      have hrest := ih (y := ({ y.1 with waiting := y.1.waiting ++ [r] }, y.2)) hopen hrunning
      rw [List.append_assoc] at hrest
      exact runs?_step hstep hrest

/-- **The backlog is not bounded.** Whatever is offered to an open queue can be accepted, with all that
waited before, before a delivery begins or ends. -/
theorem exists_intake (hroom : 0 < l.queue) (hr : Ready l y.1) (hopen : y.1.isOpen = true)
    (rs : List CostRecord) :
    ∃ es y', (∀ e ∈ es, isIntake e = true) ∧ es.flatMap (·.offers) = rs ∧
      runs? (step? l) es y = some y' ∧ y'.1.waiting = [] ∧ y'.1.sending = y.1.sending ∧
      y'.1.outstanding.Perm (y.1.inHand ++ rs) := by
  have hoffers := runs?_offers (l := l) hopen (hr.sound.running_of_isOpen hopen) rs
  have hready : Ready l { y.1 with waiting := y.1.waiting ++ rs } := (kept_ready l).run hr hoffers
  obtain ⟨drain, y', hdrain, hnone, hrest, hwaiting, -⟩ :=
    canDrain (y := ({ y.1 with waiting := y.1.waiting ++ rs }, y.2)) hroom hready hopen
  have hes : ∀ e ∈ rs.map DeliveryEvent.offer ++ drain, isIntake e = true := by
    intro e he
    rcases List.mem_append.1 he with he | he
    · obtain ⟨r, -, rfl⟩ := List.mem_map.1 he
      rfl
    · exact hdrain e he
  have hall : (rs.map DeliveryEvent.offer ++ drain).flatMap (·.offers) = rs := by
    rw [List.flatMap_append, hnone, List.append_nil, List.flatMap_map]
    exact List.flatMap_singleton' rs
  have hrun := runs?_append hoffers hrest
  obtain ⟨-, hsending, -, hperm⟩ := intakes hes hr hopen hrun
  rw [hall, inHand_eq y'.1, hwaiting, List.nil_append] at hperm
  exact ⟨_, y', hes, hall, hrun, hwaiting, hsending, hperm⟩

end Delivery

namespace HttpExporter

variable {settings : HttpSettings} {e e' : HttpExporter} {s s₀ s' : Surroundings}
  {es : List DeliveryEvent} {l : DeliveryLimits} {x : HttpExporter × Surroundings}
  {y y' : Delivery × Metrics}

/-- What happens to a delivery happens to the exporter that runs it. -/
theorem Runs.perform?_of_step? {event : DeliveryEvent} (h : Runs l x y)
    (hstep : Delivery.step? l event y = some y') :
    ∃ x', x.1.perform? event x.2 = some x' ∧ Runs l x' y' := by
  refine ⟨({ x.1 with run := some y'.1 }, { x.2 with metrics := y'.2 }), ?_, rfl, rfl, h.limited⟩
  rw [HttpExporter.perform?, h.running, h.counting, h.limited]
  simp only [hstep, Option.map_some]

theorem Runs.performAll?_of_runs? (h : Runs l x y) (hrun : runs? (Delivery.step? l) es y = some y') :
    ∃ x', HttpExporter.performAll? es x = some x' ∧ Runs l x' y' := by
  have hstep (event : DeliveryEvent) (y y' : Delivery × Metrics) (x : HttpExporter × Surroundings)
      (hx : flip (Runs l) y x) (hnext : Delivery.step? l event y = some y') :
      ∃ x', x.1.perform? event x.2 = some x' ∧ flip (Runs l) y' x' :=
    Runs.perform?_of_step? hx hnext
  exact runs?_inside hstep h hrun

/-- Some records can be accepted, with all that wait already, before a delivery begins or ends. -/
def CanTake (x : HttpExporter × Surroundings) (d : Delivery) (rs : List CostRecord) : Prop :=
  ∃ es x' d', (∀ event ∈ es, Delivery.isIntake event = true) ∧ es.flatMap (·.offers) = rs ∧
    performAll? es x = some x' ∧ x'.1.run = some d' ∧ d'.waiting = [] ∧ d'.sending = d.sending ∧
    d'.outstanding.Perm (d.inHand ++ rs)

/-- An open queue takes whatever is offered. -/
theorem Runs.canTake (h : Runs l x y) (hroom : 0 < l.queue) (hready : Delivery.Ready l y.1)
    (hopen : y.1.isOpen = true) (rs : List CostRecord) : CanTake x y.1 rs := by
  obtain ⟨es, y', hes, hoffers, hrun, hwaiting, hsending, hperm⟩ :=
    Delivery.exists_intake hroom hready hopen rs
  obtain ⟨x', hperform, hx'⟩ := h.performAll?_of_runs? hrun
  exact ⟨es, x', y'.1, hes, hoffers, hperform, hx'.running, hwaiting, hsending, hperm⟩

/-- **Only the backlog grows.** In every state of a started exporter, whatever the order of the steps
that led there, no more batches are in delivery than there are workers, and what is outstanding exceeds
what queue, batch and workers hold by the backlog at most. If there is time between the ticks and room
for a batch, what is outstanding is what was accepted and not attempted. And as long as the queue is
open, whatever callers offer can be accepted before a delivery begins or ends, so the backlog is not
bounded and nobody has to wait for the collector. -/
theorem only_backlog_grows [Codec.Codecs] (hstart : (fresh settings).start s = (.ok (), e, s₀))
    (hrun : performAll? es (e, s₀) = some (e', s')) :
    let l := (fresh settings).limits
    let h := history es (e, s₀)
    ∃ d, e'.run = some d ∧ d.sending.length ≤ l.workers ∧
      d.outstanding.length < l.queue + (l.workers + 1) * l.fullBatch + d.backlog.flatten.length ∧
      (fits settings s.room = true →
        h.accepted.Perm (d.outstanding ++ (h.attempted.map (·.1)).flatten) ∧
        (d.isOpen = true → ∀ rs, CanTake (e', s') d rs)) := by
  intro l h
  obtain ⟨⟨⟨hqueue, -⟩, -⟩, hsettings, hbegun, -, rfl⟩ := start_fresh hstart
  have hruns : Runs l (e, s₀) (.start (fits settings s₀.room), s₀.metrics) :=
    ⟨hbegun, rfl, by simp only [l, limits, hsettings, fresh]⟩
  obtain ⟨⟨d, m⟩, hsteps, hx'⟩ := hruns.performAll? hrun
  have hwithin : Delivery.Within l d :=
    (Delivery.kept_within l).run (Delivery.Within.start l _) hsteps
  refine ⟨d, hx'.running, hwithin.sending, hwithin.length_outstanding_lt, ?_⟩
  intro hfits
  rw [hfits] at hruns hsteps
  refine ⟨?_, ?_⟩
  · rw [show h = _ from hruns.history_eq es]
    exact (Delivery.accounts_of_run hsteps).accepted_perm
  · intro hopen rs
    have hready : Delivery.Ready l d :=
      (Delivery.kept_ready l).run (Delivery.Ready.start l) hsteps
    exact hx'.canTake hqueue hready hopen rs

/-- While the only worker delivers the first record the second is dispatched, and whatever callers offer
next can be accepted as well. -/
theorem only_backlog_grows_one_worker :
    let costing (value : Int) : CostRecord := ⟨.cpu, "CPUPricingStrategy", value, .empty, ⟨0, 0⟩⟩
    let settings : HttpSettings := { batchSize := 1, maxQueueSize := 1, workers := 1 }
    let s : Surroundings :=
      { metrics := .fresh, database := .silent "" 0 [], now := 0,
        collector := { host := "", port := 0, isListening := true, status := 200, received := [] } }
    let begun := ((fresh settings).start s).2
    let es : List DeliveryEvent := [.offer (costing 1), .enter, .gather, .begin, .offer (costing 2),
      .enter, .gather]
    ((fresh settings).start s).1 = .ok () ∧ fits settings s.room = true ∧
      ∃ e s' d, performAll? es begun = some (e, s') ∧ e.run = some d ∧ d.sending = [[costing 1]] ∧
        d.backlog = [[costing 2]] ∧ d.isOpen = true ∧ ∀ rs, CanTake (e, s') d rs := by
  intro costing settings s begun es
  have hok : ((fresh settings).start s).1 = .ok () := by decide +kernel
  have hfits : fits settings s.room = true := by decide
  obtain ⟨⟨e, s'⟩, hrun⟩ : ∃ y, performAll? es begun = some y :=
    Option.isSome_iff_exists.1 (by decide +kernel)
  have hstart : (fresh settings).start s = (.ok (), begun.1, begun.2) := Prod.ext hok rfl
  obtain ⟨d, hrunning, -, -, hopen⟩ := only_backlog_grows hstart hrun
  have hplaces : ((performAll? es begun).bind (·.1.run)).map (fun d => (d.sending, d.backlog, d.isOpen)) =
      some ([[costing 1]], [[costing 2]], true) := by decide +kernel
  rw [hrun, Option.bind_some, hrunning, Option.map_some, Option.some.injEq, Prod.mk.injEq,
    Prod.mk.injEq] at hplaces
  obtain ⟨hsending, hbacklog, hisOpen⟩ := hplaces
  exact ⟨hok, hfits, e, s', d, hrun, hrunning, hsending, hbacklog, hisOpen,
    (hopen hfits).2 hisOpen⟩

/-- With room for one record in the queue, one in a batch and one in delivery, and while the collector
has yet to answer for the first record, four records are accepted, and no caller waits. -/
theorem outstanding_exceeds_limits :
    let costing (value : Int) : CostRecord := ⟨.cpu, "CPUPricingStrategy", value, .empty, ⟨0, 0⟩⟩
    let settings : HttpSettings := { batchSize := 1, maxQueueSize := 1, workers := 1 }
    let s : Surroundings :=
      { metrics := .fresh, database := .silent "" 0 [], now := 0,
        collector := { host := "", port := 0, isListening := true, status := 200, received := [] } }
    let begun := ((fresh settings).start s).2
    let taken (value : Int) : List DeliveryEvent := [.offer (costing value), .enter, .gather]
    let es := taken 1 ++ [.begin] ++ taken 2 ++ taken 3 ++ taken 4
    ((fresh settings).start s).1 = .ok () ∧
      ∃ e s' d, performAll? es begun = some (e, s') ∧ e.run = some d ∧ d.waiting = [] ∧
        d.attempted = [] ∧
        settings.maxQueueSize + (settings.workers + 1) * settings.batchSize < d.outstanding.length := by
  intro costing settings s begun taken es
  have hok : ((fresh settings).start s).1 = .ok () := by decide +kernel
  obtain ⟨⟨e, s'⟩, hrun⟩ : ∃ y, performAll? es begun = some y :=
    Option.isSome_iff_exists.1 (by decide +kernel)
  have hplaces : ((performAll? es begun).bind (·.1.run)).map
      (fun d => (d.waiting, d.attempted, d.outstanding.length)) = some ([], [], 4) := by decide +kernel
  rw [hrun, Option.bind_some, Option.map_eq_some_iff] at hplaces
  obtain ⟨d, hrunning, hplaces⟩ := hplaces
  rw [Prod.mk.injEq, Prod.mk.injEq] at hplaces
  obtain ⟨hwaiting, hattempted, hlength⟩ := hplaces
  refine ⟨hok, e, s', d, hrun, hrunning, hwaiting, hattempted, ?_⟩
  rw [hlength]
  decide

end HttpExporter

end Chargeback
