import Chargeback.Export.Insertion
import Mathlib.Data.List.Basic

/-!
# The flow of records through an insertion

A record that an insertion accepts moves from the callers that wait into the queue, from there into
the batch, and with it into a statement. All of these are one line: records move up in it and never
pass each other, so the records of the statements, followed by those still in the line, are those
accepted IN ORDER (`Moves.line_eq`).

Every step but an offer and a tick uses up some of a finite amount of work (`Moves.work_le`), and as
long as there is some left one of them can happen (`Sound.can_move`). So an insertion that is offered
nothing more comes to its end in every order of steps.
-/

namespace Chargeback

/-- A step that an insertion makes by itself. -/
def InsertionEvent.isInternal : InsertionEvent → Bool
  | .enter | .breakDown | .gather | .tick | .finish => true
  | .offer _ | .complete _ _ | .close => false

/-- The steps that an insertion makes by itself without a timer. -/
def InsertionEvent.untimed : List InsertionEvent := [.breakDown, .enter, .gather, .finish]

theorem InsertionEvent.isInternal_of_untimed {e : InsertionEvent} (h : e ∈ untimed) :
    e.isInternal = true := by
  simp only [untimed, List.mem_cons, List.not_mem_nil, or_false] at h
  rcases h with rfl | rfl | rfl | rfl <;> rfl

theorem InsertionLimits.fullQueue_pos (l : InsertionLimits) : 0 < l.fullQueue := by
  unfold fullQueue
  omega

namespace Insertion

variable {l : InsertionLimits} {i i' : Insertion} {e : InsertionEvent}

/-! ## What a step can do -/

/-- The ways in which an event changes an insertion. -/
inductive Moves (l : InsertionLimits) (i : Insertion) : InsertionEvent → Insertion → Prop
  | accept {r : CostRecord} (hopen : i.isOpen = true) (hhears : i.batcher.isDeaf = false) :
      Moves l i (.offer r) { i with waiting := i.waiting ++ [r] }
  | refuse {r : CostRecord} (h : i.isOpen = true → i.batcher.isDeaf = true) :
      Moves l i (.offer r) i
  | enter {r : CostRecord} {rest : List CostRecord} (hwaiting : i.waiting = r :: rest)
      (hhears : i.batcher.isDeaf = false) (hroom : i.queue.length < l.fullQueue) :
      Moves l i .enter { i with waiting := rest, queue := i.queue ++ [r] }
  | lose {r : CostRecord} {rest : List CostRecord} (hwaiting : i.waiting = r :: rest)
      (hdeaf : i.batcher.isDeaf = true) : Moves l i .enter { i with waiting := rest }
  | breakDown (hdoomed : i.batcher = .doomed) :
      Moves l i .breakDown { i with batcher := .failed, queue := [] }
  | gather {r : CostRecord} {rest : List CostRecord} (hrunning : i.batcher = .running)
      (hidle : i.inserting = []) (hqueue : i.queue = r :: rest)
      (hroom : i.batch.length + 1 < l.fullBatch) :
      Moves l i .gather { i with queue := rest, batch := i.batch ++ [r] }
  | fill {r : CostRecord} {rest : List CostRecord} (hrunning : i.batcher = .running)
      (hidle : i.inserting = []) (hqueue : i.queue = r :: rest)
      (hfull : l.fullBatch ≤ i.batch.length + 1) :
      Moves l i .gather { i with queue := rest, batch := [], inserting := i.batch ++ [r] }
  | tick (hrunning : i.batcher = .running) (hidle : i.inserting = []) : Moves l i .tick i.flush
  | flushLast (hrunning : i.batcher = .running) (hidle : i.inserting = [])
      (hclosed : i.isOpen = false) (hwaiting : i.waiting = []) (hqueue : i.queue = [])
      (hbatch : i.batch ≠ []) : Moves l i .finish i.flush
  | finish (hrunning : i.batcher = .running) (hidle : i.inserting = [])
      (hclosed : i.isOpen = false) (hwaiting : i.waiting = []) (hqueue : i.queue = [])
      (hbatch : i.batch = []) : Moves l i .finish { i with batcher := .finished }
  | complete {succeeded : Bool} {took : Binary64} (hinserting : i.inserting ≠ []) :
      Moves l i (.complete succeeded took)
        { i with inserting := [], inserted := i.inserted ++ [(i.inserting, succeeded)] }
  | close : Moves l i .close { i with isOpen := false }

theorem isIdle_iff (i : Insertion) :
    i.isIdle = true ↔ i.batcher = .running ∧ i.inserting = [] := by
  simp [isIdle]

theorem moves_of_step? {m m' : Metrics} (h : step? l e (i, m) = some (i', m')) :
    Moves l i e i' := by
  cases e with
  | offer r =>
      simp only [step?] at h
      split at h
      · next hopen =>
          obtain ⟨rfl, -⟩ : _ = i' ∧ _ := by simpa using h
          have hboth : i.isOpen = true ∧ i.batcher.isDeaf = false := by simpa using hopen
          exact .accept hboth.1 hboth.2
      · next hopen =>
          obtain ⟨rfl, -⟩ : i = i' ∧ _ := by simpa using h
          exact .refuse (by simpa using hopen)
  | enter =>
      simp only [step?] at h
      split at h
      · next r rest hwaiting =>
          split at h
          · next hdeaf =>
              obtain ⟨rfl, -⟩ : _ = i' ∧ _ := by simpa using h
              exact .lose hwaiting hdeaf
          · next hdeaf =>
              split at h
              · next hroom =>
                  obtain ⟨rfl, -⟩ : _ = i' ∧ _ := by simpa using h
                  exact .enter hwaiting (by simpa using hdeaf) hroom
              · cases h
      · cases h
  | breakDown =>
      simp only [step?] at h
      split at h
      · next hdoomed =>
          obtain ⟨rfl, -⟩ : _ = i' ∧ _ := by simpa using h
          exact .breakDown (by simpa using hdoomed)
      · cases h
  | gather =>
      simp only [step?] at h
      split at h
      · next r rest hready hqueue =>
          obtain ⟨hrunning, hidle⟩ := (isIdle_iff i).1 hready
          obtain ⟨rfl, -⟩ : _ = i' ∧ _ := by simpa using h
          split
          · next hfull => exact .fill hrunning hidle hqueue (by simpa using hfull)
          · next hfull => exact .gather hrunning hidle hqueue (by simpa using hfull)
      · cases h
  | tick =>
      simp only [step?] at h
      split at h
      · next hready =>
          obtain ⟨hrunning, hidle⟩ := (isIdle_iff i).1 hready
          obtain ⟨rfl, -⟩ : _ = i' ∧ _ := by simpa using h
          exact .tick hrunning hidle
      · cases h
  | finish =>
      simp only [step?] at h
      split at h
      · next hdone =>
          obtain ⟨rfl, -⟩ : _ = i' ∧ _ := by simpa using h
          obtain ⟨⟨⟨hready, hclosed⟩, hwaiting⟩, hqueue⟩ :
              ((i.isIdle = true ∧ i.isOpen = false) ∧ i.waiting = []) ∧ i.queue = [] := by
            simpa using hdone
          obtain ⟨hrunning, hidle⟩ := (isIdle_iff i).1 hready
          split
          · next hbatch => exact .finish hrunning hidle hclosed hwaiting hqueue (by simpa using hbatch)
          · next hbatch =>
              exact .flushLast hrunning hidle hclosed hwaiting hqueue (by simpa using hbatch)
      · cases h
  | complete succeeded took =>
      simp only [step?] at h
      split at h
      · cases h
      · next hinserting =>
          obtain ⟨rfl, -⟩ : _ = i' ∧ _ := by simpa using h
          exact .complete (by simpa using hinserting)
  | close =>
      obtain ⟨rfl, -⟩ : _ = i' ∧ _ := by simpa [step?] using h
      exact .close

/-- Whether a batcher breaks down is decided when it is started. -/
theorem Moves.isHopeless_eq (h : Moves l i e i') :
    i'.batcher.isHopeless = i.batcher.isHopeless := by
  cases h with
  | finish hrunning _ _ _ _ _ => rw [hrunning]; rfl
  | breakDown hdoomed => rw [hdoomed]; rfl
  | accept | refuse | enter | lose | gather | fill | tick | flushLast | complete | close => rfl

/-- A batcher that broke down stays so. -/
theorem Moves.failed (h : Moves l i e i') (hfailed : i.batcher = .failed) : i'.batcher = .failed := by
  cases h with
  | gather hrunning _ _ _ | fill hrunning _ _ _ | tick hrunning _ | flushLast hrunning _ _ _ _ _
  | finish hrunning _ _ _ _ _ => rw [hrunning] at hfailed; cases hfailed
  | breakDown => rfl
  | accept | refuse | enter | lose | complete | close => exact hfailed

/-! ## Nothing is lost -/

/-- The batcher does not break down, and has finished only after the queue was closed and nothing was
left for it to insert. -/
structure Sound (i : Insertion) : Prop where
  alive : i.batcher.isHopeless = false
  done : i.batcher = .finished →
    i.isOpen = false ∧ i.waiting = [] ∧ i.queue = [] ∧ i.batch = [] ∧ i.inserting = []

theorem Sound.finished (hs : Sound i) (hdeaf : i.batcher.isDeaf = true) :
    i.batcher = .finished := by
  have halive := hs.alive
  cases h : i.batcher with
  | finished => rfl
  | running | doomed | failed => simp [h, Accumulator.isDeaf, Accumulator.isHopeless] at hdeaf halive

theorem Sound.not_doomed (hs : Sound i) : i.batcher ≠ .doomed := by
  intro hdoomed
  have halive := hs.alive
  simp [hdoomed, Accumulator.isHopeless] at halive

/-- The records of the statements that were answered, in order. -/
def insertedRecords (i : Insertion) : List CostRecord := (i.inserted.map (·.1)).flatten

/-- The records accepted whose statement was not answered, those furthest on their way first. -/
def inLine (i : Insertion) : List CostRecord := i.inserting ++ i.batch ++ i.queue ++ i.waiting

/-- The records that an event brings into an insertion. -/
def accepts (i : Insertion) : InsertionEvent → List CostRecord
  | .offer r => if i.isOpen = true ∧ i.batcher.isDeaf = false then [r] else []
  | _ => []

/-- The batches that an event inserts, with the answer of the database. -/
def inserts (i : Insertion) : InsertionEvent → List (List CostRecord × Bool)
  | .complete succeeded _ => [(i.inserting, succeeded)]
  | _ => []

theorem Sound.start : Sound (.start true) := by
  constructor <;> simp [Insertion.start, Accumulator.isHopeless]

/-- Every step keeps an insertion sound. -/
theorem Sound.move (hs : Sound i) (h : Moves l i e i') : Sound i' := by
  refine ⟨h.isHopeless_eq.trans hs.alive, fun hfinished => ?_⟩
  obtain ⟨-, hdone⟩ := hs
  cases h with
  | gather hrunning _ _ _ | fill hrunning _ _ _ | tick hrunning _ | flushLast hrunning _ _ _ _ _ =>
      simp [hrunning, flush] at hfinished
  | refuse _ => exact hdone hfinished
  | accept hopen _ =>
      have hshut := (hdone hfinished).1
      simp [hopen] at hshut
  | enter hwaiting _ _ | lose hwaiting _ =>
      have hempty := (hdone hfinished).2.1
      simp [hwaiting] at hempty
  | breakDown _ => cases hfinished
  | finish _ hidle hclosed hwaiting hqueue hbatch =>
      exact ⟨hclosed, hwaiting, hqueue, hbatch, hidle⟩
  | complete hinserting => exact absurd (hdone hfinished).2.2.2.2 hinserting
  | close => exact ⟨rfl, (hdone hfinished).2⟩

theorem Moves.isOpen_eq (h : Moves l i e i') : i'.isOpen = (i.isOpen && decide (e ≠ .close)) := by
  cases h <;> simp [flush]

theorem Moves.inserted_eq (h : Moves l i e i') : i'.inserted = i.inserted ++ i.inserts e := by
  cases h <;> simp [inserts, flush]

/-- An insertion by itself neither accepts nor inserts anything, and does not close its queue. -/
theorem frame_of_internal (h : e.isInternal = true) :
    i.accepts e = [] ∧ i.inserts e = [] ∧ e ≠ .close := by
  cases e <;> simp [InsertionEvent.isInternal, accepts, inserts] at h ⊢

/-- Everything offered is accepted as long as the queue is open. -/
theorem Sound.accepts_offer (hs : Sound i) (hopen : i.isOpen = true) (r : CostRecord) :
    i.accepts (.offer r) = [r] := by
  have hhears : i.batcher.isDeaf = false := by
    by_contra hdeaf
    have hshut := (hs.done (hs.finished (by simpa using hdeaf))).1
    simp [hopen] at hshut
  simp [accepts, hopen, hhears]

/-- When an insertion has ended its queue is closed and nothing is in the line. -/
theorem Sound.inLine_eq_nil (hs : Sound i) (h : i.isFinished = true) : i.inLine = [] := by
  have hfinished : i.batcher = .finished := by simpa [isFinished] using h
  obtain ⟨-, hwaiting, hqueue, hbatch, hinserting⟩ := hs.done hfinished
  simp [inLine, hwaiting, hqueue, hbatch, hinserting]

/-- The records of the statements and those still in the line are those accepted, in order. -/
theorem Moves.line_eq (h : Moves l i e i') (hs : Sound i) :
    i'.insertedRecords ++ i'.inLine = i.insertedRecords ++ i.inLine ++ i.accepts e := by
  cases h with
  | @accept r hopen _ =>
      simp only [hs.accepts_offer hopen r, insertedRecords, inLine, List.append_assoc]
  | refuse hrefused =>
      have hnone : ¬(i.isOpen = true ∧ i.batcher.isDeaf = false) := by simpa using hrefused
      simp only [accepts, if_neg hnone, List.append_nil]
  | lose hwaiting hdeaf =>
      -- Nobody waits any more when the batcher has finished.
      have hempty := (hs.done (hs.finished hdeaf)).2.1
      simp [hwaiting] at hempty
  | breakDown hdoomed => exact absurd hdoomed hs.not_doomed
  | enter hwaiting _ _ => simp [insertedRecords, inLine, accepts, hwaiting]
  | gather _ _ hqueue _ => simp [insertedRecords, inLine, accepts, hqueue]
  | fill _ hidle hqueue _ => simp [insertedRecords, inLine, accepts, hidle, hqueue]
  | tick _ hidle => simp [insertedRecords, inLine, accepts, flush, hidle]
  | flushLast _ hidle _ _ _ _ => simp [insertedRecords, inLine, accepts, flush, hidle]
  | finish _ _ _ _ _ _ => simp [insertedRecords, inLine, accepts]
  | complete _ => simp [insertedRecords, inLine, accepts]
  | close => simp [insertedRecords, inLine, accepts]

/-! ## Everything comes to an end -/

/-- Nothing is left for the batcher to flush, and nothing will be. -/
def isDrained (i : Insertion) : Bool :=
  !i.isOpen && i.waiting.isEmpty && i.queue.isEmpty && i.batch.isEmpty

/-- A bound for the steps that an insertion can make without offers and ticks: a record enters, is
gathered and is inserted, and at the end there may be a batch to flush. -/
def work (i : Insertion) : Nat :=
  3 * i.waiting.length + 2 * i.queue.length + i.batch.length + min i.inserting.length 1 +
    (!i.isDrained).toNat + (!i.batcher.isDeaf).toNat + i.isOpen.toNat

/-- The work that an event uses up. -/
def spends (i : Insertion) : InsertionEvent → Nat
  | .offer _ | .tick => 0
  | .close => i.isOpen.toNat
  | .enter | .breakDown | .gather | .finish | .complete _ _ => 1

theorem spends_of_untimed (h : e ∈ InsertionEvent.untimed) : i.spends e = 1 := by
  simp only [InsertionEvent.untimed, List.mem_cons, List.not_mem_nil, or_false] at h
  rcases h with rfl | rfl | rfl | rfl <;> rfl

/-- Once nothing is left to flush, nothing comes after it. -/
theorem Moves.isDrained (h : Moves l i e i') (hdrained : i.isDrained = true) :
    i'.isDrained = true := by
  obtain ⟨⟨⟨hclosed, hwaiting⟩, hqueue⟩, hbatch⟩ :
      ((i.isOpen = false ∧ i.waiting = []) ∧ i.queue = []) ∧ i.batch = [] := by
    simpa [Insertion.isDrained] using hdrained
  cases h with
  | accept hopen _ => simp [hopen] at hclosed
  | enter hcons _ _ | lose hcons _ => simp [hcons] at hwaiting
  | gather _ _ hcons _ | fill _ _ hcons _ => simp [hcons] at hqueue
  | refuse _ | finish _ _ _ _ _ _ | complete _ => exact hdrained
  | breakDown _ | tick _ _ | flushLast _ _ _ _ _ _ | close =>
      simp [Insertion.isDrained, flush, hclosed, hwaiting, hqueue, hbatch]

/-- Every step but an offer and a tick uses up some work, and only an offer brings some. -/
theorem Moves.work_le (h : Moves l i e i') :
    i'.work + i.spends e ≤ i.work + 3 * (i.accepts e).length := by
  have hdrained : (!i'.isDrained).toNat ≤ (!i.isDrained).toNat := by
    cases hi : i.isDrained with
    | true => simp [h.isDrained hi]
    | false => exact Bool.toNat_le _
  unfold work
  cases h with
  | accept hopen hhears =>
      have haccepts (r : CostRecord) : i.accepts (.offer r) = [r] := by
        simp [accepts, hopen, hhears]
      simp only [spends, haccepts, List.length_append, List.length_singleton]
      omega
  | refuse _ =>
      rw [spends]
      omega
  | enter hwaiting _ _ =>
      simp only [spends, hwaiting, List.length_append, List.length_cons, List.length_nil]
        at hdrained ⊢
      omega
  | lose hwaiting _ =>
      simp only [spends, hwaiting, List.length_cons] at hdrained ⊢
      omega
  | breakDown hdoomed =>
      simp only [spends, hdoomed, Accumulator.isDeaf, List.length_nil, Bool.not_true, Bool.not_false,
        Bool.toNat_true, Bool.toNat_false] at hdrained ⊢
      omega
  | gather _ _ hqueue _ =>
      simp only [spends, hqueue, List.length_append, List.length_cons, List.length_nil]
        at hdrained ⊢
      omega
  | fill _ hidle hqueue _ =>
      simp only [spends, hidle, hqueue, List.length_append, List.length_cons, List.length_nil]
        at hdrained ⊢
      omega
  | tick _ hidle =>
      simp only [flush, spends, hidle, List.length_nil] at hdrained ⊢
      omega
  | flushLast _ hidle hclosed hwaiting hqueue hbatch =>
      -- The batch may be a single record, which is no less work in a statement: what is used up is
      -- that there was something to flush.
      have hleft : i.isDrained = false := by simp [Insertion.isDrained, hbatch]
      have hnothing : i.flush.isDrained = true := by
        simp [Insertion.isDrained, flush, hclosed, hwaiting, hqueue]
      have hpos : 0 < i.batch.length := List.length_pos_iff.2 hbatch
      simp only [hleft, hnothing]
      simp only [flush, spends, hidle, List.length_nil, Bool.not_true, Bool.not_false,
        Bool.toNat_true, Bool.toNat_false]
      omega
  | finish hrunning _ _ _ _ _ =>
      simp only [spends, hrunning, Accumulator.isDeaf, Bool.not_true, Bool.not_false,
        Bool.toNat_true, Bool.toNat_false] at hdrained ⊢
      omega
  | complete hinserting =>
      have hpos : 0 < i.inserting.length := List.length_pos_iff.2 hinserting
      simp only [spends, List.length_nil] at hdrained ⊢
      omega
  | close =>
      simp only [spends, Bool.toNat_false] at hdrained ⊢
      omega

/-- Unless a statement is being executed, something can happen by itself until the queue is open with
nobody waiting for it, or the insertion has ended. -/
theorem Sound.can_move (hs : Sound i) (l : InsertionLimits) :
    (∃ e ∈ InsertionEvent.untimed, ∀ m, (step? l e (i, m)).isSome) ∨
      i.inserting ≠ [] ∨ (i.waiting = [] ∧ (i.isOpen = true ∨ i.isFinished = true)) := by
  -- Whatever is furthest on its way can move, so the cases go from the database backwards.
  by_cases hinserting : i.inserting = []
  swap
  · exact .inr (.inl hinserting)
  cases hbatcher : i.batcher with
  | doomed | failed =>
      have halive := hs.alive
      simp [hbatcher, Accumulator.isHopeless] at halive
  | finished =>
      exact .inr (.inr ⟨(hs.done hbatcher).2.1, .inr (by simp [isFinished, hbatcher])⟩)
  | running =>
      have hready : i.isIdle = true := (isIdle_iff i).2 ⟨hbatcher, hinserting⟩
      cases hqueue : i.queue with
      | cons r rest =>
          exact .inl ⟨.gather, by simp [InsertionEvent.untimed], fun m => by
            simp [step?, hready, hqueue]⟩
      | nil =>
          cases hwaiting : i.waiting with
          | cons r rest =>
              exact .inl ⟨.enter, by simp [InsertionEvent.untimed], fun m => by
                simp [step?, hwaiting, hbatcher, Accumulator.isDeaf, hqueue, l.fullQueue_pos]⟩
          | nil =>
              cases hopen : i.isOpen with
              | true => exact .inr (.inr ⟨rfl, .inl rfl⟩)
              | false =>
                  exact .inl ⟨.finish, by simp [InsertionEvent.untimed], fun m => by
                    simp [step?, hready, hopen, hwaiting, hqueue]⟩

end Insertion

end Chargeback
