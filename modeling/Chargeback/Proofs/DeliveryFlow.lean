import Chargeback.Export.Delivery
import Mathlib.Data.List.Perm.Basic

/-!
# The flow of records through a delivery

A record that a delivery accepts moves from the callers that wait into the queue, from there into a
batch, and with its batch to the workers. No step of this loses a record or makes a second one: what
is in hand and what was attempted stay together a PERMUTATION of what was accepted
(`Moves.carried_perm`).

Every step but an offer and a tick uses up some of a finite amount of work (`Moves.work_lt`), and as
long as there is some left one of them can happen (`Sound.can_move`). So a delivery that is offered
nothing more comes to its end in every order of steps.
-/

namespace Chargeback

/-- A step that a delivery makes by itself. -/
def DeliveryEvent.isInternal : DeliveryEvent → Bool
  | .enter | .breakDown | .gather | .tick | .finish | .begin | .overtake _ => true
  | .offer _ | .complete _ _ _ | .close => false

/-- The steps that a delivery makes by itself without a timer. -/
def DeliveryEvent.untimed : List DeliveryEvent := [.breakDown, .enter, .gather, .finish, .begin]

theorem DeliveryEvent.isInternal_of_untimed {e : DeliveryEvent} (h : e ∈ untimed) :
    e.isInternal = true := by
  simp only [untimed, List.mem_cons, List.not_mem_nil, or_false] at h
  rcases h with rfl | rfl | rfl | rfl | rfl <;> rfl

namespace Delivery

variable {l : DeliveryLimits} {d d' : Delivery} {e : DeliveryEvent}

/-! ## What a step can do -/

/-- The ways in which an event changes a delivery. -/
inductive Moves (l : DeliveryLimits) (d : Delivery) : DeliveryEvent → Delivery → Prop
  | accept {r : CostRecord} (hopen : d.isOpen = true) (hhears : d.isDeaf = false) :
      Moves l d (.offer r) { d with waiting := d.waiting ++ [r] }
  | refuse {r : CostRecord} (h : d.isOpen = true → d.isDeaf = true) :
      Moves l d (.offer r) d
  | enter {r : CostRecord} {rest : List CostRecord} (hwaiting : d.waiting = r :: rest)
      (hhears : d.isDeaf = false) (hroom : d.queue.length < l.queue) :
      Moves l d .enter { d with waiting := rest, queue := d.queue ++ [r] }
  | lose {r : CostRecord} {rest : List CostRecord} (hwaiting : d.waiting = r :: rest)
      (hdeaf : d.isDeaf = true) : Moves l d .enter { d with waiting := rest }
  | breakDown (hdoomed : d.accumulator = .doomed) :
      Moves l d .breakDown { d with accumulator := .failed, queue := [] }
  | gather {r : CostRecord} {rest : List CostRecord} (hrunning : d.accumulator = .running)
      (hqueue : d.queue = r :: rest) (hroom : d.batch.length + 1 < l.fullBatch) :
      Moves l d .gather { d with queue := rest, batch := d.batch ++ [r] }
  | fill {r : CostRecord} {rest : List CostRecord} (hrunning : d.accumulator = .running)
      (hqueue : d.queue = r :: rest) (hfull : l.fullBatch ≤ d.batch.length + 1) :
      Moves l d .gather
        { d with queue := rest, batch := [], backlog := d.backlog ++ [d.batch ++ [r]] }
  | tick (hrunning : d.accumulator = .running) : Moves l d .tick d.dispatch
  | finish (hrunning : d.accumulator = .running) (hclosed : d.isOpen = false)
      (hwaiting : d.waiting = []) (hqueue : d.queue = []) :
      Moves l d .finish { d.dispatch with accumulator := .finished }
  | begin {b : List CostRecord} {rest : List (List CostRecord)} (hbacklog : d.backlog = b :: rest)
      (hfree : d.sending.length < l.workers) :
      Moves l d .begin { d with backlog := rest, sending := d.sending ++ [b] }
  | overtake {place : Nat} {b : List CostRecord} (hbacklog : d.backlog[place + 1]? = some b)
      (hfree : d.sending.length < l.workers) :
      Moves l d (.overtake place)
        { d with backlog := d.backlog.eraseIdx (place + 1), sending := d.sending ++ [b] }
  | complete {place : Nat} {b : List CostRecord} {accepted : Bool} {took : Binary64}
      (hsending : d.sending[place]? = some b) :
      Moves l d (.complete place accepted took)
        { d with sending := d.sending.eraseIdx place,
                 attempted := d.attempted ++ [(b, accepted)] }
  | close : Moves l d .close { d with isOpen := false }

theorem dispatch_of_full {rs : List CostRecord} (h : d.batch = rs) (hrs : rs ≠ []) :
    d.dispatch = { d with batch := [], backlog := d.backlog ++ [rs] } := by
  subst h
  simp [dispatch, hrs]

theorem moves_of_step? {m m' : Metrics} (h : step? l e (d, m) = some (d', m')) :
    Moves l d e d' := by
  cases e with
  | offer r =>
      simp only [step?] at h
      split at h
      · next hopen =>
          obtain ⟨rfl, -⟩ : _ = d' ∧ _ := by simpa using h
          have hboth : d.isOpen = true ∧ d.isDeaf = false := by simpa using hopen
          exact .accept hboth.1 hboth.2
      · next hopen =>
          obtain ⟨rfl, -⟩ : d = d' ∧ _ := by simpa using h
          exact .refuse (by simpa using hopen)
  | enter =>
      simp only [step?] at h
      split at h
      · next r rest hwaiting =>
          split at h
          · next hdeaf =>
              obtain ⟨rfl, -⟩ : _ = d' ∧ _ := by simpa using h
              exact .lose hwaiting hdeaf
          · next hdeaf =>
              split at h
              · next hroom =>
                  obtain ⟨rfl, -⟩ : _ = d' ∧ _ := by simpa using h
                  exact .enter hwaiting (by simpa using hdeaf) hroom
              · cases h
      · cases h
  | breakDown =>
      simp only [step?] at h
      split at h
      · next hdoomed =>
          obtain ⟨rfl, -⟩ : _ = d' ∧ _ := by simpa using h
          exact .breakDown (by simpa using hdoomed)
      · cases h
  | gather =>
      simp only [step?] at h
      split at h
      · next r rest hrunning hqueue =>
          obtain ⟨rfl, -⟩ : _ = d' ∧ _ := by simpa using h
          split
          · next hfull =>
              rw [dispatch_of_full rfl (by simp)]
              exact .fill hrunning hqueue (by simpa using hfull)
          · next hfull => exact .gather hrunning hqueue (by simpa using hfull)
      · cases h
  | tick =>
      simp only [step?] at h
      split at h
      · next hrunning =>
          obtain ⟨rfl, -⟩ : _ = d' ∧ _ := by simpa using h
          exact .tick (by simpa using hrunning)
      · cases h
  | finish =>
      simp only [step?] at h
      split at h
      · next hdone =>
          obtain ⟨rfl, -⟩ : _ = d' ∧ _ := by simpa using h
          obtain ⟨⟨⟨hrunning, hclosed⟩, hwaiting⟩, hqueue⟩ :
              ((d.accumulator = .running ∧ d.isOpen = false) ∧ d.waiting = []) ∧ d.queue = [] := by
            simpa using hdone
          exact .finish hrunning hclosed hwaiting hqueue
      · cases h
  | begin =>
      simp only [step?] at h
      split at h
      · next b rest hbacklog =>
          split at h
          · next hfree =>
              obtain ⟨rfl, -⟩ : _ = d' ∧ _ := by simpa using h
              exact .begin hbacklog hfree
          · cases h
      · cases h
  | overtake place =>
      simp only [step?] at h
      split at h
      · next b hbacklog =>
          split at h
          · next hfree =>
              obtain ⟨rfl, -⟩ : _ = d' ∧ _ := by simpa using h
              exact .overtake hbacklog hfree
          · cases h
      · cases h
  | complete place accepted took =>
      simp only [step?] at h
      split at h
      · next b hsending =>
          obtain ⟨rfl, -⟩ : _ = d' ∧ _ := by simpa using h
          exact .complete hsending
      · cases h
  | close =>
      obtain ⟨rfl, -⟩ : _ = d' ∧ _ := by simpa [step?] using h
      exact .close

/-- Whether an accumulator breaks down is decided when it is started. -/
theorem Moves.isHopeless_eq (h : Moves l d e d') :
    d'.accumulator.isHopeless = d.accumulator.isHopeless := by
  cases h with
  | tick hrunning => rw [dispatch]; split <;> rfl
  | finish hrunning _ _ _ => rw [hrunning]; rfl
  | breakDown hdoomed => rw [hdoomed]; rfl
  | accept | refuse | enter | lose | gather | fill | begin | overtake | complete | close => rfl

/-- An accumulator that broke down stays so. -/
theorem Moves.failed (h : Moves l d e d') (hfailed : d.accumulator = .failed) :
    d'.accumulator = .failed := by
  cases h with
  | tick hrunning | finish hrunning _ _ _ => rw [hrunning] at hfailed; cases hfailed
  | breakDown => rfl
  | accept | refuse | enter | lose | gather | fill | begin | overtake | complete | close =>
      exact hfailed

/-! ## Nothing is lost -/

/-- The accumulator does not break down, and has finished only after the queue was closed and nothing
was left for it to take. No batch that was dispatched is empty. -/
structure Sound (d : Delivery) : Prop where
  alive : d.accumulator.isHopeless = false
  done : d.accumulator = .finished →
    d.isOpen = false ∧ d.waiting = [] ∧ d.queue = [] ∧ d.batch = []
  dispatched : ∀ b ∈ d.backlog ++ d.sending ++ d.attempted.map (·.1), b ≠ []

theorem Sound.finished (hs : Sound d) (hdeaf : d.isDeaf = true) : d.accumulator = .finished := by
  have halive := hs.alive
  unfold isDeaf at hdeaf
  cases h : d.accumulator with
  | finished => rfl
  | running | doomed | failed => simp [h, Accumulator.isDeaf, Accumulator.isHopeless] at hdeaf halive

theorem Sound.not_doomed (hs : Sound d) : d.accumulator ≠ .doomed := by
  intro hdoomed
  have halive := hs.alive
  simp [hdoomed, Accumulator.isHopeless] at halive

/-- The records accepted that were not attempted. -/
def inHand (d : Delivery) : List CostRecord :=
  d.waiting ++ d.queue ++ d.batch ++ d.backlog.flatten ++ d.sending.flatten

/-- The records whose delivery was attempted, in order. -/
def attemptedRecords (d : Delivery) : List CostRecord := (d.attempted.map (·.1)).flatten

/-- The records that an event brings into a delivery. -/
def accepts (d : Delivery) : DeliveryEvent → List CostRecord
  | .offer r => if d.isOpen = true ∧ d.isDeaf = false then [r] else []
  | _ => []

/-- The batches that an event attempts, with the outcome. -/
def attempts (d : Delivery) : DeliveryEvent → List (List CostRecord × Bool)
  | .complete place accepted _ => (d.sending[place]?.map (·, accepted)).toList
  | _ => []

@[simp] theorem dispatch_isOpen (d : Delivery) : d.dispatch.isOpen = d.isOpen := by
  unfold dispatch; split <;> rfl

@[simp] theorem dispatch_accumulator (d : Delivery) :
    d.dispatch.accumulator = d.accumulator := by
  unfold dispatch; split <;> rfl

@[simp] theorem dispatch_waiting (d : Delivery) : d.dispatch.waiting = d.waiting := by
  unfold dispatch; split <;> rfl

@[simp] theorem dispatch_queue (d : Delivery) : d.dispatch.queue = d.queue := by
  unfold dispatch; split <;> rfl

@[simp] theorem dispatch_batch (d : Delivery) : d.dispatch.batch = [] := by
  unfold dispatch
  split
  · next h => simpa using h
  · rfl

@[simp] theorem dispatch_sending (d : Delivery) : d.dispatch.sending = d.sending := by
  unfold dispatch; split <;> rfl

@[simp] theorem dispatch_attempted (d : Delivery) : d.dispatch.attempted = d.attempted := by
  unfold dispatch; split <;> rfl

/-- A batch is dispatched only if it is not empty. -/
theorem dispatched_dispatch (h : ∀ b ∈ d.backlog ++ d.sending ++ d.attempted.map (·.1), b ≠ []) :
    ∀ b ∈ d.dispatch.backlog ++ d.dispatch.sending ++ d.dispatch.attempted.map (·.1), b ≠ [] := by
  unfold dispatch
  split
  · exact h
  · next hbatch =>
      intro b hb
      simp only [List.mem_append, List.mem_singleton] at hb h
      rcases hb with ((hb | rfl) | hb) | hb
      · exact h b (.inl (.inl hb))
      · simpa using hbatch
      · exact h b (.inl (.inr hb))
      · exact h b (.inr hb)

theorem flatten_backlog_dispatch (d : Delivery) :
    d.dispatch.backlog.flatten = d.backlog.flatten ++ d.batch := by
  unfold dispatch
  split
  · next h => simpa using h
  · simp

theorem Sound.start : Sound (.start true) := by
  constructor <;> simp [Delivery.start, Accumulator.isHopeless]

/-- Every step keeps a delivery sound. -/
theorem Sound.move (hs : Sound d) (h : Moves l d e d') : Sound d' := by
  have halive := h.isHopeless_eq.trans hs.alive
  have hnot := hs.not_doomed
  obtain ⟨-, hdone, hdispatched⟩ := hs
  cases h with
  | accept hopen _ =>
      refine ⟨halive, fun hfinished => ?_, hdispatched⟩
      have hshut := (hdone hfinished).1
      simp [hopen] at hshut
  | enter hwaiting _ _ | lose hwaiting _ =>
      refine ⟨halive, fun hfinished => ?_, hdispatched⟩
      have hempty := (hdone hfinished).2.1
      simp [hwaiting] at hempty
  | breakDown hdoomed => exact absurd hdoomed hnot
  | gather hrunning _ _ =>
      exact ⟨halive, fun hfinished => by simp [hrunning] at hfinished, hdispatched⟩
  | fill hrunning _ _ =>
      refine ⟨halive, fun hfinished => by simp [hrunning] at hfinished, fun b hb => ?_⟩
      simp only [List.mem_append, List.mem_singleton] at hb hdispatched
      rcases hb with ((hb | rfl) | hb) | hb
      · exact hdispatched b (.inl (.inl hb))
      · simp
      · exact hdispatched b (.inl (.inr hb))
      · exact hdispatched b (.inr hb)
  | tick hrunning =>
      exact ⟨halive, fun hfinished => by simp [hrunning] at hfinished,
        dispatched_dispatch hdispatched⟩
  | refuse _ => exact ⟨halive, hdone, hdispatched⟩
  | finish _ hclosed hwaiting hqueue =>
      exact ⟨halive, fun _ => by simp [hclosed, hwaiting, hqueue], dispatched_dispatch hdispatched⟩
  | begin hbacklog _ =>
      refine ⟨halive, hdone, fun b hb => hdispatched b ?_⟩
      simp only [List.mem_append, hbacklog, List.mem_cons] at hb ⊢
      tauto
  | overtake hbacklog _ =>
      refine ⟨halive, hdone, fun b hb => hdispatched b ?_⟩
      simp only [List.mem_append, List.mem_singleton] at hb ⊢
      rcases hb with (hb | hb | rfl) | hb
      · exact .inl (.inl (List.mem_of_mem_eraseIdx hb))
      · exact .inl (.inr hb)
      · exact .inl (.inl (List.mem_of_getElem? hbacklog))
      · exact .inr hb
  | complete hsending =>
      refine ⟨halive, hdone, fun b hb => hdispatched b ?_⟩
      simp only [List.map_append, List.map_cons, List.map_nil, List.mem_append,
        List.mem_singleton] at hb ⊢
      rcases hb with (hb | hb) | hb | rfl
      · exact .inl (.inl hb)
      · exact .inl (.inr (List.mem_of_mem_eraseIdx hb))
      · exact .inr hb
      · exact .inl (.inr (List.mem_of_getElem? hsending))
  | close => exact ⟨halive, fun hfinished => ⟨rfl, (hdone hfinished).2⟩, hdispatched⟩

theorem Moves.isOpen_eq (h : Moves l d e d') : d'.isOpen = (d.isOpen && decide (e ≠ .close)) := by
  cases h <;> simp

theorem Moves.attempted_eq (h : Moves l d e d') : d'.attempted = d.attempted ++ d.attempts e := by
  cases h with
  | complete hsending => simp [attempts, hsending]
  | accept | refuse | enter | lose | breakDown | gather | fill => simp [attempts]
  | tick | finish | begin | overtake | close => simp [attempts]

/-- A delivery by itself neither accepts nor attempts anything, and does not close its queue. -/
theorem frame_of_internal (h : e.isInternal = true) :
    d.accepts e = [] ∧ d.attempts e = [] ∧ e ≠ .close := by
  cases e <;> simp [DeliveryEvent.isInternal, accepts, attempts] at h ⊢

/-- Everything offered is accepted as long as the queue is open. -/
theorem Sound.accepts_offer (hs : Sound d) (hopen : d.isOpen = true) (r : CostRecord) :
    d.accepts (.offer r) = [r] := by
  have hhears : d.isDeaf = false := by
    by_contra hdeaf
    have hshut := (hs.done (hs.finished (by simpa using hdeaf))).1
    simp [hopen] at hshut
  simp [accepts, hopen, hhears]

/-- When a delivery has ended its queue is closed and nothing is in hand. -/
theorem Sound.inHand_eq_nil (hs : Sound d) (h : d.isFinished = true) :
    d.isOpen = false ∧ d.inHand = [] := by
  obtain ⟨⟨hfinished, hbacklog⟩, hsending⟩ :
      (d.accumulator = .finished ∧ d.backlog = []) ∧ d.sending = [] := by
    simpa [isFinished] using h
  obtain ⟨hshut, hwaiting, hqueue, hbatch⟩ := hs.done hfinished
  exact ⟨hshut, by simp [inHand, hwaiting, hqueue, hbatch, hbacklog, hsending]⟩

theorem flatten_eraseIdx {bs : List (List CostRecord)} {place : Nat} {b : List CostRecord}
    (h : bs[place]? = some b) : bs.flatten.Perm ((bs.eraseIdx place).flatten ++ b) := by
  obtain ⟨hlt, rfl⟩ := List.getElem?_eq_some_iff.1 h
  exact (List.getElem_cons_eraseIdx_perm hlt).symm.flatten.trans List.perm_append_comm

/-- What is in hand and what was attempted stay together a permutation of what was accepted. -/
theorem Moves.carried_perm (h : Moves l d e d') (hs : Sound d) :
    (d'.inHand ++ d'.attemptedRecords).Perm (d.inHand ++ d.attemptedRecords ++ d.accepts e) := by
  rw [List.perm_iff_count]
  intro x
  cases h with
  | @accept r hopen _ =>
      rw [hs.accepts_offer hopen r]
      simp only [inHand, attemptedRecords, List.count_append]
      omega
  | refuse hrefused =>
      have hnone : ¬(d.isOpen = true ∧ d.isDeaf = false) := by simpa using hrefused
      simp only [accepts, if_neg hnone, List.append_nil]
  | @enter r rest hwaiting _ _ =>
      have hcons : d.waiting = [r] ++ rest := hwaiting
      simp only [inHand, attemptedRecords, accepts, hcons, List.count_append, List.append_nil]
      omega
  | lose hwaiting hdeaf =>
      -- Nobody waits any more when the accumulator has finished.
      have hempty := (hs.done (hs.finished hdeaf)).2.1
      simp [hwaiting] at hempty
  | breakDown hdoomed => exact absurd hdoomed hs.not_doomed
  | @gather r rest _ hqueue _ =>
      have hcons : d.queue = [r] ++ rest := hqueue
      simp only [inHand, attemptedRecords, accepts, hcons, List.count_append, List.append_nil]
      omega
  | @fill r rest _ hqueue _ =>
      have hcons : d.queue = [r] ++ rest := hqueue
      simp only [inHand, attemptedRecords, accepts, hcons, List.flatten_append,
        List.flatten_singleton, List.count_append, List.append_nil]
      omega
  | tick _ | finish _ _ _ _ =>
      simp only [inHand, attemptedRecords, accepts, flatten_backlog_dispatch, dispatch_waiting,
        dispatch_queue, dispatch_batch, dispatch_sending, dispatch_attempted, List.count_append,
        List.append_nil]
      omega
  | begin hbacklog _ =>
      simp only [inHand, attemptedRecords, accepts, hbacklog, List.flatten_cons,
        List.flatten_append, List.flatten_nil, List.count_append, List.append_nil]
      omega
  | overtake hbacklog _ =>
      have hcount := (flatten_eraseIdx hbacklog).count_eq x
      simp only [inHand, attemptedRecords, accepts, List.flatten_append, List.flatten_singleton,
        List.count_append, List.append_nil] at hcount ⊢
      omega
  | complete hsending =>
      have hcount := (flatten_eraseIdx hsending).count_eq x
      simp only [inHand, attemptedRecords, accepts, List.map_append, List.map_cons, List.map_nil,
        List.flatten_append, List.flatten_singleton, List.count_append, List.append_nil] at hcount ⊢
      omega
  | close => simp only [inHand, attemptedRecords, accepts, List.append_nil]

/-! ## Everything comes to an end -/

/-- A bound for the steps that a delivery can make without offers and ticks. -/
def work (d : Delivery) : Nat :=
  4 * d.waiting.length + 3 * d.queue.length + 2 * d.batch.length + 2 * d.backlog.length +
    d.sending.length + (!d.accumulator.isDeaf).toNat + d.isOpen.toNat

/-- The work that an event uses up. -/
def spends (d : Delivery) : DeliveryEvent → Nat
  | .offer _ | .tick => 0
  | .close => d.isOpen.toNat
  | .enter | .breakDown | .gather | .finish | .begin | .overtake _ | .complete _ _ _ => 1

theorem spends_of_untimed (h : e ∈ DeliveryEvent.untimed) : d.spends e = 1 := by
  simp only [DeliveryEvent.untimed, List.mem_cons, List.not_mem_nil, or_false] at h
  rcases h with rfl | rfl | rfl | rfl | rfl <;> rfl

theorem length_backlog_dispatch (d : Delivery) :
    d.dispatch.backlog.length ≤ d.backlog.length + d.batch.length := by
  unfold dispatch
  split
  · omega
  · next h =>
      have hpos : 0 < d.batch.length := List.length_pos_iff.2 (by simpa using h)
      rw [List.length_append, List.length_singleton]
      omega

/-- Every step but an offer and a tick uses up some work, and only an offer brings some. -/
theorem Moves.work_le (h : Moves l d e d') :
    d'.work + d.spends e ≤ d.work + 4 * (d.accepts e).length := by
  have hdispatch := length_backlog_dispatch d
  cases h with
  | accept hopen hhears =>
      have haccepts (r : CostRecord) : d.accepts (.offer r) = [r] := by
        simp [accepts, hopen, hhears]
      simp only [work, spends, haccepts, List.length_append, List.length_singleton]
      omega
  | refuse _ =>
      rw [spends]
      omega
  | enter hwaiting _ _ =>
      simp only [work, spends, hwaiting, List.length_append, List.length_cons, List.length_nil]
      omega
  | lose hwaiting _ =>
      simp only [work, spends, hwaiting, List.length_cons]
      omega
  | breakDown hdoomed =>
      simp only [work, spends, hdoomed, Accumulator.isDeaf, List.length_nil, Bool.not_true,
        Bool.not_false, Bool.toNat_true, Bool.toNat_false]
      omega
  | gather _ hqueue _ =>
      simp only [work, spends, hqueue, List.length_append, List.length_cons, List.length_nil]
      omega
  | fill _ hqueue _ =>
      simp only [work, spends, hqueue, List.length_append, List.length_cons, List.length_nil]
      omega
  | tick _ =>
      simp only [work, spends, dispatch_waiting, dispatch_queue, dispatch_batch, dispatch_sending,
        dispatch_accumulator, dispatch_isOpen, List.length_nil]
      omega
  | finish hrunning _ _ _ =>
      simp only [work, spends, dispatch_waiting, dispatch_queue, dispatch_batch, dispatch_sending,
        dispatch_isOpen, hrunning, Accumulator.isDeaf, List.length_nil, Bool.not_true,
        Bool.not_false, Bool.toNat_true, Bool.toNat_false]
      omega
  | begin hbacklog _ =>
      simp only [work, spends, hbacklog, List.length_append, List.length_cons, List.length_nil]
      omega
  | overtake hbacklog _ =>
      obtain ⟨hlt, -⟩ := List.getElem?_eq_some_iff.1 hbacklog
      simp only [work, spends, List.length_append, List.length_singleton,
        List.length_eraseIdx_of_lt hlt]
      omega
  | complete hsending =>
      obtain ⟨hlt, -⟩ := List.getElem?_eq_some_iff.1 hsending
      simp only [work, spends, List.length_eraseIdx_of_lt hlt]
      omega
  | close =>
      simp only [work, spends, Bool.toNat_false]
      omega

/-- Unless batches are in delivery, something can happen by itself until the queue is open with
nobody waiting for it, or the delivery has ended. -/
theorem Sound.can_move (hs : Sound d) (hqueue : 0 < l.queue) (hworkers : 0 < l.workers) :
    (∃ e ∈ DeliveryEvent.untimed, ∀ m, (step? l e (d, m)).isSome) ∨
      d.sending ≠ [] ∨ (d.waiting = [] ∧ (d.isOpen = true ∨ d.isFinished = true)) := by
  -- Whatever is furthest on its way can move, so the cases go from the collector backwards.
  by_cases hsending : d.sending = []
  swap
  · exact .inr (.inl hsending)
  cases hbacklog : d.backlog with
  | cons b rest =>
      have hfree : d.sending.length < l.workers := by simpa [hsending] using hworkers
      exact .inl ⟨.begin, by simp [DeliveryEvent.untimed], fun m => by
        simp [step?, hbacklog, hfree]⟩
  | nil =>
      cases haccumulator : d.accumulator with
      | doomed | failed =>
          have halive := hs.alive
          simp [haccumulator, Accumulator.isHopeless] at halive
      | finished =>
          obtain ⟨-, hwaiting, -, -⟩ := hs.done haccumulator
          have hended : d.isFinished = true := by
            simp [isFinished, haccumulator, hbacklog, hsending]
          exact .inr (.inr ⟨hwaiting, .inr hended⟩)
      | running =>
          have hhears : d.isDeaf = false := by simp [isDeaf, haccumulator, Accumulator.isDeaf]
          cases hq : d.queue with
          | cons r rest =>
              exact .inl ⟨.gather, by simp [DeliveryEvent.untimed], fun m => by
                simp [step?, haccumulator, hq]⟩
          | nil =>
              cases hwaiting : d.waiting with
              | cons r rest =>
                  exact .inl ⟨.enter, by simp [DeliveryEvent.untimed], fun m => by
                    simp [step?, hwaiting, hhears, hq, hqueue]⟩
              | nil =>
                  cases hopen : d.isOpen with
                  | true => exact .inr (.inr ⟨rfl, .inl rfl⟩)
                  | false =>
                      exact .inl ⟨.finish, by simp [DeliveryEvent.untimed], fun m => by
                        simp [step?, haccumulator, hopen, hwaiting, hq]⟩

end Delivery

end Chargeback
