import Chargeback.Proofs.RunHistory
import Chargeback.Proofs.TableInsertion

/-!
# Batching for a table neither loses nor reorders

The history of an insertion says which records its queue accepted, which statements were issued,
how they were answered, and which records were refused. Here everything is one line: a statement is
issued for the records gathered since the last one, and no statement is issued before the last one
was answered. So the records of the statements, one after the other, are the records that the queue
accepted, followed by what is still being gathered, and the statements answered are those issued
but for the one being executed. A statement that failed takes its own records with it and no others:
its number of records is what is added to the errors.

What an insertion calls an answer is held against the database, which begins and ceases to refuse
statements while the exporter runs (`Occurrence`). A statement has succeeded exactly if the database,
as it was then, took it (`Tried`), and the database has executed these statements and no others.

When the insertion has ended nothing is in the line. Stopping the exporter ends it (`Runs.stop`).
-/

namespace Chargeback

/-- The records that callers offer by an event. -/
def InsertionEvent.offers : InsertionEvent → List CostRecord
  | .offer r => [r]
  | _ => []

theorem InsertionLimits.fullBatch_pos (l : InsertionLimits) : 0 < l.fullBatch := by
  unfold fullBatch
  omega

namespace Insertion

variable {l : InsertionLimits} {i i' : Insertion} {e : InsertionEvent} {m m' : Metrics}

/-! ## Histories -/

/-- What happened in a run of an insertion. -/
structure History where
  /-- Records of callers whom the insertion let wait for the queue. -/
  admitted : List CostRecord
  /-- Records that the queue accepted. -/
  accepted : List CostRecord
  /-- Batches for which a statement was issued. -/
  issued : List (List CostRecord)
  /-- Batches whose statement was answered, and whether it succeeded. -/
  answered : List (List CostRecord × Bool)
  /-- Records offered after the queue was closed. -/
  refused : List CostRecord
  deriving DecidableEq, Repr

/-- The batch of the statement being executed, if there is one. -/
def underway (i : Insertion) : List (List CostRecord) :=
  if i.inserting = [] then [] else [i.inserting]

/-- The records offered by an event to a closed queue. -/
def refuses (i : Insertion) (e : InsertionEvent) : List CostRecord :=
  if i.isOpen then [] else e.offers

/-- The history of a run. No statement is issued while another one is being executed, so one that is
underway after a step and was not before has been issued by it. -/
def history (l : InsertionLimits) (es : List InsertionEvent) (x : Insertion × Metrics) :
    History where
  admitted := observed (step? l) (fun x _ y => appended x.1.waiting y.1.waiting) es x
  accepted := observed (step? l) (fun x _ y => appended x.1.queue y.1.queue) es x
  issued := observed (step? l) (fun x _ y => appended x.1.underway y.1.underway) es x
  answered := observed (step? l) (fun x _ y => appended x.1.inserted y.1.inserted) es x
  refused := observed (step? l) (fun x e _ => x.1.refuses e) es x

/-! ## What one step says -/

/-- An insertion is ready for more: nothing is lost, and its batch is not full. -/
structure Ready (l : InsertionLimits) (i : Insertion) : Prop where
  sound : i.Sound
  room : i.batch.length < l.fullBatch

theorem Ready.start (l : InsertionLimits) : Ready l (.start true) := ⟨.start, l.fullBatch_pos⟩

theorem Ready.move (hr : Ready l i) (h : Moves l i e i') : Ready l i' := by
  refine ⟨hr.sound.move h, ?_⟩
  have hpos := l.fullBatch_pos
  cases h with
  | gather _ _ _ hroom => simpa using hroom
  | fill _ _ _ _ => exact hpos
  | tick _ _ | flushLast _ _ _ _ _ _ => exact hpos
  | accept | refuse | enter | lose | breakDown | finish | complete | close => exact hr.room

/-- The queue takes what callers wait with, the longest waiting first. -/
theorem Moves.admitted_eq (h : Moves l i e i') (hr : Ready l i) :
    appended i.queue i'.queue ++ i'.waiting = i.waiting ++ appended i.waiting i'.waiting := by
  cases h with
  | enter hwaiting _ _ => simp [hwaiting]
  | lose hwaiting hdeaf =>
      have hempty := (hr.sound.done (hr.sound.finished hdeaf)).2.1
      simp [hwaiting] at hempty
  | breakDown hdoomed => exact absurd hdoomed hr.sound.not_doomed
  | gather _ _ hqueue _ | fill _ _ hqueue _ => simp [hqueue]
  | tick | flushLast => simp [flush]
  | accept | refuse | finish | complete | close => simp

theorem underway_eq_nil (h : i.inserting = []) : i.underway = [] := by
  rw [underway, if_pos h]

/-- The records of a statement were gathered in the order in which they were accepted. -/
theorem Moves.gathered_eq (h : Moves l i e i') (hr : Ready l i) :
    (appended i.underway i'.underway).flatten ++ (i'.batch ++ i'.queue) =
      (i.batch ++ i.queue) ++ appended i.queue i'.queue := by
  cases h with
  | enter _ _ _ => simp [underway]
  | breakDown hdoomed => exact absurd hdoomed hr.sound.not_doomed
  | gather _ hidle hqueue _ | fill _ hidle hqueue _ => simp [underway, hidle, hqueue, appended]
  | tick _ hidle | flushLast _ hidle _ _ _ _ =>
      by_cases hbatch : i.batch = []
      · simp [underway, flush, hidle, hbatch]
      · simp [underway, flush, hidle, hbatch, appended]
  | complete _ => simp [underway, appended]
  | accept | refuse | lose | finish | close => simp [underway]

/-- Statements are answered in the order in which they were issued. -/
theorem Moves.answered_eq (h : Moves l i e i') :
    (appended i.inserted i'.inserted).map (·.1) ++ i'.underway =
      i.underway ++ appended i.underway i'.underway := by
  cases h with
  | complete hinserting => simp [underway, hinserting, appended]
  | gather _ hidle _ _ | fill _ hidle _ _ => simp [underway, hidle, appended]
  | tick _ hidle | flushLast _ hidle _ _ _ _ => simp [underway, flush, hidle, appended]
  | accept | refuse | enter | lose | breakDown | finish | close => simp [underway]

/-- A statement is neither for no records nor for too many. -/
theorem Moves.size_le (h : Moves l i e i') (hr : Ready l i) :
    ∀ b ∈ appended i.underway i'.underway, b ≠ [] ∧ b.length ≤ l.fullBatch := by
  have hroom := hr.room
  intro b hb
  cases h with
  | fill _ hidle _ _ =>
      obtain rfl : b = _ := by simpa [underway, hidle, appended] using hb
      refine ⟨by simp, ?_⟩
      rw [List.length_append, List.length_singleton]
      omega
  | tick _ hidle | flushLast _ hidle _ _ _ _ =>
      rw [underway_eq_nil hidle] at hb
      by_cases hbatch : i.batch = []
      · simp [underway, flush, hbatch] at hb
      · obtain rfl : b = i.batch := by simpa [underway, flush, hbatch, appended] using hb
        exact ⟨hbatch, hroom.le⟩
  | complete _ => simp [underway, appended] at hb
  | accept | refuse | enter | lose | breakDown | gather | finish | close => simp [underway] at hb

/-- An offer is refused only by a closed queue. -/
theorem Ready.shut (hr : Ready l i) (hrefused : i.isOpen = true → i.batcher.isDeaf = true) :
    i.isOpen = false := by
  cases hopen : i.isOpen with
  | false => rfl
  | true =>
      have hshut := (hr.sound.done (hr.sound.finished (hrefused hopen))).1
      simp [hopen] at hshut

/-- Every record offered is let in or refused. -/
theorem Moves.offered_eq (h : Moves l i e i') (hr : Ready l i) :
    appended i.waiting i'.waiting ++ i.refuses e = e.offers := by
  cases h with
  | accept hopen _ => simp [refuses, hopen, InsertionEvent.offers]
  | refuse hrefused => simp [refuses, hr.shut hrefused]
  | enter hwaiting _ _ | lose hwaiting _ => simp [hwaiting, refuses, InsertionEvent.offers]
  | tick | flushLast => simp [flush, refuses, InsertionEvent.offers]
  | breakDown | gather | fill | finish | complete | close => simp [refuses, InsertionEvent.offers]

/-- The records that the exporter has given up. -/
def errors (m : Metrics) : Binary64 := m.exportErrors.read exporterName

theorem errors_recordsLost (m : Metrics) (n : Nat) :
    errors (m.recordsLost exporterName n) = errors m + Binary64.ofNat n :=
  Tally.read_addCount_self exporterName n m.exportErrors

/-- The records that a step gives up, those of a statement that failed or one that is refused. -/
def givesUp (x : Insertion × Metrics) (e : InsertionEvent) (y : Insertion × Metrics) :
    List CostRecord :=
  failedRecords (appended x.1.inserted y.1.inserted) ++ x.1.refuses e

/-- A step that counts nothing gives nothing up. -/
theorem errors_of_quiet {x y : Insertion × Metrics} (hmetrics : x.2 = y.2)
    (hinserted : y.1.inserted = x.1.inserted) (hoffers : e.offers = []) :
    GrownBy (givesUp x e y).length (errors x.2) (errors y.2) := by
  have hnothing : givesUp x e y = [] := by
    simp [givesUp, hinserted, refuses, hoffers, failedRecords]
  rw [hnothing, hmetrics]
  exact .refl _

/-- The errors counted are the records given up. -/
theorem errors_of_step? (hr : Ready l i) (h : step? l e (i, m) = some (i', m')) :
    GrownBy (givesUp (i, m) e (i', m')).length (errors m) (errors m') := by
  have hmove := moves_of_step? h
  cases e with
  | offer r =>
      have hkept : appended i.inserted i'.inserted = [] := by simp [hmove.inserted_eq, inserts]
      simp only [step?] at h
      split at h
      · next hopen =>
          have hopen : i.isOpen = true ∧ i.batcher.isDeaf = false := by simpa using hopen
          obtain ⟨-, rfl⟩ : _ ∧ m = m' := by simpa using h
          simp only [givesUp, hkept, refuses, hopen.1]
          exact .refl _
      · next hopen =>
          have hshut : i.isOpen = false := hr.shut (by simpa using hopen)
          obtain ⟨-, rfl⟩ : _ ∧ _ = m' := by simpa using h
          simp only [givesUp, hkept, refuses, hshut]
          rw [errors_recordsLost]
          exact .raise _ 1
  | enter =>
      refine errors_of_quiet ?_ (by simp [hmove.inserted_eq, inserts]) rfl
      simp only [step?] at h
      split at h
      · next r rest hwaiting =>
          -- Nobody waits for a queue from which nothing is taken any more.
          have hhears : i.batcher.isDeaf = false := by
            by_contra hdeaf
            have hfinished := hr.sound.finished (by simpa using hdeaf)
            have hempty := (hr.sound.done hfinished).2.1
            simp [hwaiting] at hempty
          simp only [hhears, Bool.false_eq_true, if_false] at h
          split at h
          · exact (Prod.mk.inj (Option.some.inj h)).2
          · cases h
      · cases h
  | complete succeeded took =>
      simp only [step?] at h
      split at h
      · cases h
      · obtain ⟨rfl, rfl⟩ : _ = i' ∧ _ = m' := by simpa using h
        simp only [givesUp, appended_append, failedRecords_singleton, refuses,
          InsertionEvent.offers, ite_self, List.append_nil]
        cases succeeded with
        | true => exact .refl _
        | false =>
            simp only [answered, Bool.false_eq_true, if_false]
            rw [errors_recordsLost]
            exact .raise _ i.inserting.length
  | breakDown | gather | tick | finish =>
      refine errors_of_quiet ?_ (by simp [hmove.inserted_eq, inserts]) rfl
      simp only [step?] at h
      split at h
      · exact (Prod.mk.inj (Option.some.inj h)).2
      · cases h
  | close =>
      refine errors_of_quiet ?_ (by simp [hmove.inserted_eq, inserts]) rfl
      exact (Prod.mk.inj (Option.some.inj h)).2

/-! ## What a run says -/

/-- The accounts of an insertion with some history are right. -/
structure Accounts (l : InsertionLimits) (h : History) (i : Insertion) : Prop where
  sizes : ∀ b ∈ h.issued, b ≠ [] ∧ b.length ≤ l.fullBatch
  gathered : h.issued.flatten ++ (i.batch ++ i.queue) = h.accepted
  admitted : h.accepted ++ i.waiting = h.admitted
  answered : h.answered.map (·.1) ++ i.underway = h.issued

theorem kept_ready (l : InsertionLimits) : Kept (step? l) fun x => Ready l x.1 := by
  intro e x y hx hstep
  exact hx.move (moves_of_step? hstep)

/-- What was inserted stays so. -/
theorem inserted_of_step? {x y : Insertion × Metrics} (h : step? l e x = some y) :
    y.1.inserted = x.1.inserted ++ appended x.1.inserted y.1.inserted := by
  rw [(moves_of_step? h).inserted_eq, appended_append]

variable {es : List InsertionEvent}

/-- The accounts of an insertion are right after every run from its start. -/
theorem accounts_of_run (hrun : runs? (step? l) es (.start true, m) = some (i, m')) :
    Accounts l (history l es (.start true, m)) i where
  sizes := by
    refine (kept_ready l).each ?_ (Ready.start l) hrun
    intro e x y hx hstep
    exact (moves_of_step? hstep).size_le hx
  gathered := by
    have hline := (kept_ready l).line (fun x => x.1.batch ++ x.1.queue)
      (fun e x y hx hstep => (moves_of_step? hstep).gathered_eq hx) (Ready.start l) hrun
    rw [observed_map_list List.flatten rfl (fun _ _ => List.flatten_append)] at hline
    exact hline
  admitted := by
    have hline := (kept_ready l).line (fun x => x.1.waiting)
      (fun e x y hx hstep => (moves_of_step? hstep).admitted_eq hx) (Ready.start l) hrun
    exact hline
  answered := by
    have hline := (kept_ready l).line (fun x => x.1.underway)
      (fun e x y _ hstep => (moves_of_step? hstep).answered_eq) (Ready.start l) hrun
    rw [observed_map_list (List.map Prod.fst) rfl (fun _ _ => List.map_append)] at hline
    exact hline

/-- Every record offered in a run is let in or refused. -/
theorem offered_of_run (hrun : runs? (step? l) es (.start true, m) = some (i, m')) :
    let h := history l es (.start true, m)
    (h.admitted ++ h.refused).Perm (es.flatMap (·.offers)) := by
  intro h
  have hstep (e : InsertionEvent) (x y : Insertion × Metrics) (hx : Ready l x.1)
      (hstep : step? l e x = some y) :
      (appended x.1.waiting y.1.waiting ++ x.1.refuses e) ++ [] = [] ++ e.offers := by
    rw [List.append_nil, List.nil_append]
    exact (moves_of_step? hstep).offered_eq hx
  have hline := (kept_ready l).line (fun _ => []) hstep (Ready.start l) hrun
  have hoffers : observed (step? l) (fun _ e _ => e.offers) es (.start true, m) =
      es.flatMap (·.offers) := observed_events (fun _ _ _ _ => rfl) hrun
  rw [List.append_nil, List.nil_append, hoffers] at hline
  rw [← hline]
  exact (observed_append_perm _ _ es _).symm

/-- The errors counted in a run are the records of the statements that failed and those refused. -/
theorem errors_of_run (hrun : runs? (step? l) es (.start true, m) = some (i, m')) :
    let h := history l es (.start true, m)
    GrownBy ((failedRecords h.answered).length + h.refused.length) (errors m) (errors m') := by
  intro h
  have hboth : (observed (step? l) givesUp es (.start true, m)).Perm
      (observed (step? l) (fun x _ y => failedRecords (appended x.1.inserted y.1.inserted)) es
        (.start true, m) ++ h.refused) := observed_append_perm _ _ _ _
  rw [observed_map_list failedRecords rfl failedRecords_append] at hboth
  have hlength : (observed (step? l) givesUp es (.start true, m)).length =
      (failedRecords h.answered).length + h.refused.length :=
    hboth.length_eq.trans List.length_append
  rw [← hlength]
  exact (kept_ready l).count (fun x => errors x.2)
    (fun e x y hx hstep => errors_of_step? hx hstep) (Ready.start l) hrun

/-- When an insertion has ended nothing is left in it, and the statements, all answered, are for the
records accepted, in order. -/
theorem Accounts.ended {h : History} (ha : Accounts l h i) (hs : i.Sound)
    (hended : i.isFinished = true) :
    i.inLine = [] ∧ h.issued.flatten = h.accepted ∧ h.accepted = h.admitted ∧
      h.answered.map (·.1) = h.issued := by
  have hfinished : i.batcher = .finished := by simpa [isFinished] using hended
  obtain ⟨-, hwaiting, hqueue, hbatch, hinserting⟩ := hs.done hfinished
  refine ⟨hs.inLine_eq_nil hended, ?_, ?_, ?_⟩
  · simpa [hbatch, hqueue] using ha.gathered
  · simpa [hwaiting] using ha.admitted
  · simpa [underway_eq_nil hinserting] using ha.answered

end Insertion

namespace ClickHouseExporter

variable {settings : ClickHouseSettings} {destinations : List String} {e e' : ClickHouseExporter}
  {s s' : Surroundings} {i : Insertion} {event : InsertionEvent} {es : List InsertionEvent}

/-! ## The runs of an exporter -/

/-- What happened in a run of an exporter, if that was started. -/
def history (es : List InsertionEvent) (x : ClickHouseExporter × Surroundings) :
    Insertion.History :=
  match x.1.run with
  | some i => Insertion.history x.1.limits es (i, x.2.metrics)
  | none => ⟨[], [], [], [], []⟩

/-- An exporter runs an insertion, which counts in the metrics of the process. -/
structure Runs (l : InsertionLimits) (x : ClickHouseExporter × Surroundings)
    (y : Insertion × Metrics) : Prop where
  running : x.1.run = some y.1
  counting : x.2.metrics = y.2
  limited : x.1.limits = l

variable {l : InsertionLimits} {x x' : ClickHouseExporter × Surroundings} {y : Insertion × Metrics}

theorem Runs.history_eq (h : Runs l x y) (es : List InsertionEvent) :
    history es x = Insertion.history l es y := by
  simp only [history, h.running, h.counting, h.limited]

/-- What happens to an exporter happens to its insertion. -/
theorem Runs.perform? (h : Runs l x y) (hstep : x.1.perform? event x.2 = some x') :
    ∃ y', Insertion.step? l event y = some y' ∧ Runs l x' y' := by
  rw [ClickHouseExporter.perform?, h.running, h.counting, h.limited] at hstep
  cases hnext : Insertion.step? l event (y.1, y.2) with
  | none => simp [hnext] at hstep
  | some y' =>
      obtain rfl : _ = x' := by simpa [hnext] using hstep
      exact ⟨y', rfl, rfl, rfl, h.limited⟩

/-- What an exporter inserted, and how that ended. -/
def inserted (e : ClickHouseExporter) : List (List CostRecord × Bool) := e.run.elim [] (·.inserted)

/-- An event that is no answer inserts nothing. -/
theorem inserted_of_perform? {event : InsertionEvent} (hstep : x.1.perform? event x.2 = some x')
    (hnone : ∀ i : Insertion, i.inserts event = []) : inserted x'.1 = inserted x.1 := by
  cases hrun : x.1.run with
  | none => simp [ClickHouseExporter.perform?, hrun] at hstep
  | some i =>
      obtain ⟨i', m, hmove, hx', -⟩ := perform?_eq_some hrun hstep
      simp [inserted, hx', hrun, hmove.inserted_eq, hnone]

/-! ## What happens around an exporter -/

/-- Something that happens to a started exporter or around it. -/
inductive Occurrence where
  /-- The exporter is used, makes a step of its own, or is answered. -/
  | act (a : Act)
  /-- The database begins to refuse statements that contain one of some texts, and no others. -/
  | turn (refusals : List String)
  /-- The queue is closed for further offers, with which stopping begins. -/
  | close

/-- The records that callers offer. -/
def Occurrence.offers : Occurrence → List CostRecord
  | .act a => handed [a]
  | .turn _ => []
  | .close => []

/-- What an occurrence makes of an exporter; none if it cannot happen. -/
def occur? : Occurrence → ClickHouseExporter × Surroundings →
    Option (ClickHouseExporter × Surroundings)
  | .act a, x => act? x a
  | .turn refusals, (e, s) => some (e, { s with database := { s.database with refusals } })
  | .close, (e, s) => e.perform? .close s

/-- The batch whose statement is answered by an occurrence, if one is, with the database as it is
then. -/
def asks (x : ClickHouseExporter × Surroundings) : Occurrence → List (List CostRecord × Database)
  | .act (.answer _) => x.1.run.toList.map fun i => (i.inserting, x.2.database)
  | _ => []

/-- What an occurrence is to the insertion. -/
def inner (x : ClickHouseExporter × Surroundings) : Occurrence → List InsertionEvent
  | .act (.offer r) => [.offer r]
  | .act (.move event) => [event]
  | .act (.answer took) => x.1.run.toList.map fun i =>
      .complete (x.1.insert i.inserting x.2).1 took
  | .turn _ => []
  | .close => [.close]

/-- The batches whose statements were answered in a run, in order, each with the database as it was
then. -/
def asked (os : List Occurrence) (x : ClickHouseExporter × Surroundings) :
    List (List CostRecord × Database) :=
  observed occur? (fun x o _ => asks x o) os x

/-- What happened in a run of an exporter with its surroundings. -/
def told (os : List Occurrence) (x : ClickHouseExporter × Surroundings) : Insertion.History :=
  history (observed occur? (fun x o _ => inner x o) os x) x

variable {os : List Occurrence} {o : Occurrence}

/-- What an answer is made of. -/
theorem act?_answer_eq_some {took : Binary64} (hstep : act? x (.answer took) = some x') :
    ∃ i, x.1.run = some i ∧
      x.1.perform? (.complete (x.1.insert i.inserting x.2).1 took)
        (x.1.insert i.inserting x.2).2 = some x' := by
  simp only [act?] at hstep
  split at hstep
  · cases hstep
  · next i hrun => exact ⟨i, hrun, hstep⟩

/-- Every occurrence is a step of the insertion, or none. -/
theorem Runs.runs?_inner (h : Runs l x y) (hstep : occur? o x = some x') :
    ∃ y', runs? (Insertion.step? l) (inner x o) y = some y' ∧ Runs l x' y' := by
  have hone {event : InsertionEvent} {x₁ : ClickHouseExporter × Surroundings} (hx₁ : Runs l x₁ y)
      (hevent : x₁.1.perform? event x₁.2 = some x') :
      ∃ y', runs? (Insertion.step? l) [event] y = some y' ∧ Runs l x' y' := by
    obtain ⟨y', hnext, hx'⟩ := hx₁.perform? hevent
    exact ⟨y', runs?_step hnext rfl, hx'⟩
  cases o with
  | act a =>
      cases a with
      | offer r => exact hone h hstep
      | move event =>
          simp only [occur?, act?] at hstep
          split at hstep
          · exact hone h hstep
          · cases hstep
      | answer took =>
          obtain ⟨i, hrun, hevent⟩ := act?_answer_eq_some hstep
          have hanswered : Runs l (x.1, (x.1.insert i.inserting x.2).2) y :=
            ⟨h.running, h.counting, h.limited⟩
          have hinner : inner x (.act (.answer took)) =
              [.complete (x.1.insert i.inserting x.2).1 took] := by
            simp only [inner, hrun, Option.toList_some, List.map_cons, List.map_nil]
          rw [hinner]
          exact hone hanswered hevent
  | turn refusals =>
      cases hstep
      exact ⟨y, rfl, h.running, h.counting, h.limited⟩
  | close => exact hone h hstep

/-- An occurrence offers to the insertion what it offers. -/
theorem offers_inner (hstep : occur? o x = some x') :
    (inner x o).flatMap (·.offers) = o.offers := by
  cases o with
  | act a =>
      cases a with
      | offer r => rfl
      | move event =>
          simp only [occur?, act?] at hstep
          split at hstep
          · next hinternal =>
              cases event with
              | offer r => cases hinternal
              | enter | breakDown | gather | tick | finish | complete | close => rfl
          · cases hstep
      | answer took =>
          simp only [inner, List.flatMap_map]
          exact List.flatMap_eq_nil_iff.2 fun _ _ => rfl
  | turn refusals => rfl
  | close => rfl

/-- A run offers to the insertion what is offered in it. -/
theorem offers_of_run (hrun : runs? occur? os x = some x') :
    (observed occur? (fun x o _ => inner x o) os x).flatMap (·.offers) = os.flatMap (·.offers) := by
  rw [← observed_map_list (List.flatMap fun e : InsertionEvent => e.offers) rfl
    fun _ _ => List.flatMap_append]
  exact observed_events (fun _ _ _ hstep => offers_inner hstep) hrun

/-! ## What the database executes -/

/-- What came of a batch when its statement was answered: that has succeeded if the database took
it. -/
def Tried (settings : ClickHouseSettings) (destinations : List String)
    (attempt : List CostRecord × Bool) (asked : List CostRecord × Database) : Prop :=
  attempt.1 = asked.1 ∧ (attempt.2 = true ↔
    asked.2.Takes (Sql.insert settings.qualifiedTable destinations asked.1))

/-- The settings of an exporter and its columns. -/
def IsFor (settings : ClickHouseSettings) (destinations : List String)
    (x : ClickHouseExporter × Surroundings) : Prop :=
  x.1.settings = settings ∧ x.1.destinations = destinations

/-- An occurrence inserts the batch whose statement is answered, and the database decides on that. -/
theorem inserted_of_occur? (hfor : IsFor settings destinations x) (hstep : occur? o x = some x') :
    inserted x'.1 = inserted x.1 ++ (asks x o).map fun q =>
      (q.1, (q.2.execute (Sql.insert settings.qualifiedTable destinations q.1)).1) := by
  obtain ⟨rfl, rfl⟩ := hfor
  cases o with
  | act a =>
      cases a with
      | offer r => simpa [asks] using inserted_of_perform? hstep fun _ => rfl
      | move event =>
          simp only [occur?, act?] at hstep
          split at hstep
          · next hinternal =>
              simpa [asks] using
                inserted_of_perform? hstep fun i => (Insertion.frame_of_internal hinternal).2.1
          · cases hstep
      | answer took =>
          obtain ⟨i, hrun, hevent⟩ := act?_answer_eq_some hstep
          obtain ⟨i', m, hmove, hx', -⟩ := perform?_eq_some hrun hevent
          simp [inserted, asks, hx', hrun, hmove.inserted_eq, Insertion.inserts,
            ClickHouseExporter.insert, Surroundings.execute]
  | turn refusals =>
      cases hstep
      simp [asks]
  | close => simpa [asks] using inserted_of_perform? hstep fun _ => rfl

/-- An occurrence executes the statement for the batch that is answered, and no other. -/
theorem statements_of_occur? (hfor : IsFor settings destinations x)
    (hstep : occur? o x = some x') :
    IsFor settings destinations x' ∧ x'.2.database.statements = x.2.database.statements ++
      (asks x o).map fun q => Sql.insert settings.qualifiedTable destinations q.1 := by
  obtain ⟨rfl, rfl⟩ := hfor
  have hquiet {event : InsertionEvent} (hevent : x.1.perform? event x.2 = some x') :
      IsFor x.1.settings x.1.destinations x' ∧
        x'.2.database.statements = x.2.database.statements := by
    obtain ⟨hsame, hdatabase⟩ := frame_of_perform? hevent
    exact ⟨hsame, congrArg Database.statements hdatabase⟩
  cases o with
  | act a =>
      cases a with
      | offer r => simpa [asks] using hquiet hstep
      | move event =>
          simp only [occur?, act?] at hstep
          split at hstep
          · simpa [asks] using hquiet hstep
          · cases hstep
      | answer took =>
          obtain ⟨i, hrun, hevent⟩ := act?_answer_eq_some hstep
          obtain ⟨hsame, hdatabase⟩ := frame_of_perform? hevent
          refine ⟨hsame, ?_⟩
          rw [hdatabase]
          simp [asks, hrun, ClickHouseExporter.insert, Surroundings.execute, Database.execute]
  | turn refusals =>
      cases hstep
      exact ⟨⟨rfl, rfl⟩, by simp [asks]⟩
  | close => simpa [asks] using hquiet hstep

theorem kept_isFor (settings : ClickHouseSettings) (destinations : List String) :
    Kept occur? (IsFor settings destinations) := by
  intro o x x' hfor hstep
  exact (statements_of_occur? hfor hstep).1

/-- The database has executed the statements for the batches of a run, in order. -/
theorem statements_of_run (hfor : IsFor settings destinations x)
    (hrun : runs? occur? os x = some x') :
    x'.2.database.statements = x.2.database.statements ++
      (asked os x).map fun q => Sql.insert settings.qualifiedTable destinations q.1 := by
  rw [asked, ← observed_map_list (List.map fun q : List CostRecord × Database =>
    Sql.insert settings.qualifiedTable destinations q.1) rfl fun _ _ => List.map_append]
  refine (kept_isFor settings destinations).grown (fun x => x.2.database.statements) ?_ hfor hrun
  intro o x x' hx hstep
  exact (statements_of_occur? hx hstep).2

/-- The batches of a run were inserted as the database has answered them. -/
theorem inserted_of_occurrences (hfor : IsFor settings destinations x)
    (hrun : runs? occur? os x = some x') :
    inserted x'.1 = inserted x.1 ++ (asked os x).map fun q =>
      (q.1, (q.2.execute (Sql.insert settings.qualifiedTable destinations q.1)).1) := by
  rw [asked, ← observed_map_list (List.map fun q : List CostRecord × Database =>
    (q.1, (q.2.execute (Sql.insert settings.qualifiedTable destinations q.1)).1)) rfl
    fun _ _ => List.map_append]
  refine (kept_isFor settings destinations).grown (fun x => inserted x.1) ?_ hfor hrun
  intro o x x' hx hstep
  exact inserted_of_occur? hx hstep

/-- The history of a run answers the batches that the database was asked to take. -/
theorem tried_of_run (h : Runs l x y) (hr : Insertion.Ready l y.1) (hnone : y.1.inserted = [])
    (hfor : IsFor settings destinations x) (hrun : runs? occur? os x = some x') :
    List.Forall₂ (Tried settings destinations) (told os x).answered (asked os x) := by
  obtain ⟨y', hsteps, hx'⟩ :=
    runs?_through (fun _ _ _ _ h hstep => Runs.runs?_inner h hstep) h hrun
  have htold : (told os x).answered = inserted x'.1 := by
    have hgrown := (Insertion.kept_ready l).grown (fun y => y.1.inserted)
      (fun e y y' _ hstep => Insertion.inserted_of_step? hstep) hr hsteps
    rw [hnone, List.nil_append] at hgrown
    rw [inserted, hx'.running, Option.elim_some, hgrown, told, h.history_eq]
    rfl
  have hinserted := inserted_of_occurrences hfor hrun
  rw [show inserted x.1 = [] by rw [inserted, h.running, Option.elim_some, hnone],
    List.nil_append] at hinserted
  rw [htold, hinserted, List.forall₂_map_left_iff, List.forall₂_same]
  intro q _
  exact ⟨rfl, Database.execute_fst_eq_true_iff⟩

/-! ## Stopping ends the insertion -/

/-- A step of a run left to itself uses up work. -/
theorem Runs.work_of_advance? (h : Runs l x y) (hstep : x.1.advance? x.2 = some x') :
    ∃ y', y'.1.work < y.1.work ∧ Runs l x' y' := by
  rcases advance?_cases hstep with ⟨event, huntimed, hstep⟩ | hstep
  · obtain ⟨y', hnext, hx'⟩ := h.perform? hstep
    have hwork := (Insertion.moves_of_step? hnext).work_le
    have hinternal := InsertionEvent.isInternal_of_untimed huntimed
    rw [Insertion.spends_of_untimed huntimed, (Insertion.frame_of_internal hinternal).1,
      List.length_nil] at hwork
    exact ⟨y', by omega, hx'⟩
  · by_cases hinserting : y.1.inserting = []
    · simp [complete?_of_idle h.running hinserting] at hstep
    · rw [complete?_of_inserting h.running hinserting] at hstep
      have hanswered : Runs l (x.1, (x.1.insert y.1.inserting x.2).2) y :=
        ⟨h.running, h.counting, h.limited⟩
      obtain ⟨y', hnext, hx'⟩ := hanswered.perform? hstep
      have hwork := (Insertion.moves_of_step? hnext).work_le
      simp only [Insertion.spends, Insertion.accepts, List.length_nil] at hwork
      exact ⟨y', by omega, hx'⟩

/-- A run left to itself long enough comes to rest, by acts that hand over nothing. -/
theorem Runs.advance (h : Runs l x y) {n : Nat} (hn : y.1.work ≤ n) :
    ∃ acts, (∀ a ∈ acts, handed [a] = []) ∧
      runs? (fun a x => act? x a) acts x = some (x.1.advance n x.2) ∧
      (x.1.advance n x.2).1.advance? (x.1.advance n x.2).2 = none := by
  have hsucc (n : Nat) (x : ClickHouseExporter × Surroundings) :
      x.1.advance (n + 1) x.2 = (x.1.advance? x.2).elim x
        fun (x : ClickHouseExporter × Surroundings) => x.1.advance n x.2 := by
    rw [ClickHouseExporter.advance]
    cases x.1.advance? x.2 with
    | none => rfl
    | some x' => rfl
  have hnext (x x' : ClickHouseExporter × Surroundings) (hx : ∃ y, Runs l x y)
      (hstep : x.1.advance? x.2 = some x') :
      (∃ y, Runs l x' y) ∧ x'.1.run.elim 0 Insertion.work < x.1.run.elim 0 Insertion.work ∧
        ∃ a, handed [a] = [] ∧ act? x a = some x' := by
    obtain ⟨y, hx⟩ := hx
    obtain ⟨y', hless, hx'⟩ := hx.work_of_advance? hstep
    exact ⟨⟨y', hx'⟩, by rw [hx.running, hx'.running]; exact hless,
      act?_of_advance? hx.running hstep⟩
  have hwork : x.1.run.elim 0 Insertion.work ≤ n := by rw [h.running]; exact hn
  exact comes_to_rest (fun x : ClickHouseExporter × Surroundings => x.1.advance? x.2)
    (fun n x => x.1.advance n x.2) (fun x => x.1.run.elim 0 Insertion.work) (fun _ => rfl) hsucc
    hnext ⟨y, h⟩ hwork

theorem runs?_occur?_map_act (acts : List Act) (x : ClickHouseExporter × Surroundings) :
    runs? occur? (acts.map .act) x = runs? (fun a x => act? x a) acts x := by
  rw [runs?, List.foldlM_map]
  rfl

theorem kept_shut (l : InsertionLimits) :
    Kept (Insertion.step? l) fun x => x.1.isOpen = false := by
  intro event x y hshut hstep
  rw [(Insertion.moves_of_step? hstep).isOpen_eq, hshut, Bool.false_and]

/-- Stopping is no fault. It closes the queue, and then the insertion goes on by itself until it has
ended. -/
theorem Runs.stop (h : Runs l x y) (hr : Insertion.Ready l y.1) :
    (x.1.stop x.2).1 = .ok () ∧
      ∃ (rest : List Act) (z : ClickHouseExporter × Surroundings) (i : Insertion),
        (∀ a ∈ rest, handed [a] = []) ∧ runs? occur? (.close :: rest.map .act) x = some z ∧
        (x.1.stop x.2).2 = ({ z.1 with isHeld := false }, z.2) ∧ z.1.run = some i ∧
        i.isFinished = true := by
  let i₁ : Insertion := { y.1 with isOpen := false }
  let x₁ : ClickHouseExporter × Surroundings := ({ x.1 with run := some i₁ }, x.2)
  have hclose : x.1.perform? .close x.2 = some x₁ := by
    simp [ClickHouseExporter.perform?, h.running, Insertion.step?, x₁, i₁]
  have hx₁ : Runs l x₁ (i₁, y.2) := ⟨rfl, h.counting, h.limited⟩
  have hready : Insertion.Ready l i₁ := hr.move .close
  obtain ⟨rest, hnone, hrest, hidle⟩ := hx₁.advance (work_le_stepBound i₁)
  have hacts : runs? occur? (rest.map .act) x₁ = some (x₁.1.advance (stepBound i₁) x₁.2) := by
    rw [runs?_occur?_map_act, hrest]
  obtain ⟨y₂, hsteps, hx₂⟩ :=
    runs?_through (fun _ _ _ _ h hstep => Runs.runs?_inner h hstep) hx₁ hacts
  have hready₂ : Insertion.Ready l y₂.1 := (Insertion.kept_ready _).run hready hsteps
  have hshut : y₂.1.isOpen = false := (kept_shut _).run rfl hsteps
  -- A run at rest is open or has ended, and this one was closed.
  have hended : y₂.1.isFinished = true := by
    rcases idle_of_advance? hx₂.running hready₂.sound hidle with hopen | hended
    · rw [hshut] at hopen
      cases hopen
    · exact hended
  have hstop : x.1.stop x.2 = (.ok (), { (x₁.1.advance (stepBound i₁) x.2).1 with isHeld := false },
      (x₁.1.advance (stepBound i₁) x.2).2) := by
    have hbatcher : y₂.1.batcher = .finished := by simpa [Insertion.isFinished] using hended
    have halive : (y₂.1.batcher == .failed) = false := by rw [hbatcher]; rfl
    have hsettle : x₁.1.settle x₁.2 = x₁.1.advance (stepBound i₁) x.2 := rfl
    have hrunning : (x₁.1.advance (stepBound i₁) x.2).1.run = some y₂.1 := hx₂.running
    simp only [ClickHouseExporter.stop, ClickHouseExporter.perform, hclose, Option.getD_some, hsettle,
      hrunning, Option.any_some, halive, Bool.and_false, Bool.false_eq_true, if_false]
  rw [hstop]
  exact ⟨rfl, rest, x₁.1.advance (stepBound i₁) x.2, y₂.1, hnone, runs?_step hclose hacts, rfl,
    hx₂.running, hended⟩

/-! ## Started once -/

/-- Records handed to an exporter that does not run are errors, and nothing else. -/
theorem acceptAll_of_idle (hrun : e.run = none) (rs : List CostRecord) (s : Surroundings) :
    (e.acceptAll rs s).1 = e ∧ (e.acceptAll rs s).2.room = s.room ∧
      GrownBy rs.length (Insertion.errors s.metrics)
        (Insertion.errors (e.acceptAll rs s).2.metrics) := by
  have hstep (x : ClickHouseExporter × Surroundings) (r : CostRecord)
      (hx : x.1 = e ∧ x.2.room = s.room) :
      ((x.1.accept r x.2).1 = e ∧ (x.1.accept r x.2).2.room = s.room) ∧
        GrownBy 1 (Insertion.errors x.2.metrics)
          (Insertion.errors (x.1.accept r x.2).2.metrics) := by
    have haccept : x.1.accept r x.2 = (x.1,
        { x.2 with metrics := x.2.metrics.recordsLost Insertion.exporterName 1 }) := by
      simp [ClickHouseExporter.accept, hx.1, hrun]
    rw [haccept, Insertion.errors_recordsLost]
    exact ⟨hx, .raise _ 1⟩
  obtain ⟨⟨hsame, hroom⟩, hgrown⟩ := GrownBy.foldl
    (fun x : ClickHouseExporter × Surroundings => Insertion.errors x.2.metrics) hstep (s := (e, s))
    ⟨rfl, rfl⟩ rs
  exact ⟨hsame, hroom, hgrown⟩

/-- The statements of a run are exact: none is for no records or for too many; one after the other
they are for the records that the queue accepted, as far as these were gathered; they are answered in
order; and every record offered is let in or refused. What was answered is what the database was asked
to take, in order: a statement has succeeded if the database, as it was then, took it, and has failed
otherwise; and the database has executed these statements and no others. The errors counted are the
records of the statements that failed, the records refused and those handed over before the start,
with a counter that is exact up to `2 ^ 53`. When the insertion has ended, nothing is left in it. -/
structure Inserted (settings : ClickHouseSettings) (destinations : List String)
    (early : List CostRecord) (os : List Occurrence) (x y : ClickHouseExporter × Surroundings)
    (i : Insertion) (before : Binary64) : Prop where
  sizes : ∀ b ∈ (told os x).issued, b ≠ [] ∧ b.length ≤ max settings.batchSize 1
  gathered : (told os x).issued.flatten ++ (i.batch ++ i.queue) = (told os x).accepted
  admitted : (told os x).accepted ++ i.waiting = (told os x).admitted
  answered : (told os x).answered.map (·.1) ++ i.underway = (told os x).issued
  offered : ((told os x).admitted ++ (told os x).refused).Perm (os.flatMap (·.offers))
  tried : List.Forall₂ (Tried settings destinations) (told os x).answered (asked os x)
  statements : y.2.database.statements = x.2.database.statements ++
    (asked os x).map fun q => Sql.insert settings.qualifiedTable destinations q.1
  errors : GrownBy (failedRecords (told os x).answered ++ (told os x).refused ++ early).length before
    (Insertion.errors y.2.metrics)
  counted : ∀ k, before = .ofNat k →
    k + (failedRecords (told os x).answered ++ (told os x).refused ++ early).length ≤ 2 ^ 53 →
    Insertion.errors y.2.metrics =
      .ofNat (k + (failedRecords (told os x).answered ++ (told os x).refused ++ early).length)
  ended : i.isFinished = true → i.inLine = [] ∧ (told os x).issued.flatten = (told os x).accepted ∧
    (told os x).accepted = (told os x).admitted ∧
    (told os x).answered.map (·.1) = (told os x).issued

/-- Whatever the order of what happens, the statements are exact. -/
theorem inserted_of_run {early : List CostRecord} {before : Binary64}
    (hx : Runs (fresh settings destinations).limits x (.start true, x.2.metrics))
    (hfor : IsFor settings destinations x)
    (hearly : GrownBy early.length before (Insertion.errors x.2.metrics))
    (hrun : runs? occur? os x = some x') :
    ∃ i, x'.1.run = some i ∧ Insertion.Ready (fresh settings destinations).limits i ∧
      Inserted settings destinations early os x x' i before := by
  obtain ⟨⟨i, m⟩, hsteps, hx'⟩ :=
    runs?_through (fun _ _ _ _ h hstep => Runs.runs?_inner h hstep) hx hrun
  have hmetrics : x'.2.metrics = m := hx'.counting
  have htold : told os x =
      Insertion.history (fresh settings destinations).limits _ (.start true, x.2.metrics) :=
    hx.history_eq _
  have haccounts := Insertion.accounts_of_run hsteps
  have hoffered := Insertion.offered_of_run hsteps
  have hready : Insertion.Ready (fresh settings destinations).limits i :=
    (Insertion.kept_ready _).run (Insertion.Ready.start _) hsteps
  have herrors := hearly.trans (Insertion.errors_of_run hsteps)
  rw [Nat.add_comm] at herrors
  rw [← htold] at haccounts hoffered herrors
  rw [offers_of_run hrun] at hoffered
  rw [← List.length_append, ← List.length_append, ← hmetrics] at herrors
  refine ⟨i, hx'.running, hready, ?_⟩
  constructor
  · exact haccounts.sizes
  · exact haccounts.gathered
  · exact haccounts.admitted
  · exact haccounts.answered
  · exact hoffered
  · exact tried_of_run hx (Insertion.Ready.start _) rfl hfor hrun
  · exact statements_of_run hfor hrun
  · exact herrors
  · intro k hk hbound
    rw [hk] at herrors
    exact herrors.exact hbound
  · intro hended
    exact haccounts.ended hready.sound hended

/-- **Batching for a table neither loses nor reorders.** Take an exporter with time between its ticks
and room for a batch. Records may be handed to it before it is started; and then anything may happen in
any order, while the database takes and refuses statements as it likes. Whatever does happen, the
statements are exact. The exporter may be stopped at any time: that is no fault, it ends the insertion
by acts that hand over nothing, and the statements are exact then too. -/
theorem insertion_exact (hinterval : settings.flushInterval.isZero = false)
    (early : List CostRecord) {s : Surroundings} (hroom : max settings.batchSize 1 ≤ s.room)
    {e : ClickHouseExporter} {s₀ : Surroundings}
    (hstart : ((fresh settings destinations).acceptAll early s).1.start
      ((fresh settings destinations).acceptAll early s).2 = (.ok (), e, s₀)) :
    let before := Insertion.errors s.metrics
    ∀ os e' s', runs? occur? os (e, s₀) = some (e', s') →
      (∃ i, e'.run = some i ∧
        Inserted settings destinations early os (e, s₀) (e', s') i before) ∧
      (e'.stop s').1 = .ok () ∧
        ∃ (rest : List Act) (z : ClickHouseExporter × Surroundings) (i : Insertion),
          (∀ a ∈ rest, handed [a] = []) ∧
          runs? occur? (os ++ .close :: rest.map .act) (e, s₀) = some z ∧
          (e'.stop s').2 = ({ z.1 with isHeld := false }, z.2) ∧
          z.1.run = some i ∧ i.isFinished = true ∧
          Inserted settings destinations early (os ++ .close :: rest.map .act) (e, s₀) z i before := by
  obtain ⟨hidle, hsame, hearly⟩ :=
    acceptAll_of_idle (e := fresh settings destinations) rfl early s
  have hfits : fits settings ((fresh settings destinations).acceptAll early s).2.room = true := by
    rw [hsame]
    exact fits_eq_true_iff.2 ⟨hinterval, hroom⟩
  have hmetrics : s₀.metrics = ((fresh settings destinations).acceptAll early s).2.metrics := by
    obtain ⟨-, -, database, rfl, -⟩ := start_eq_ok hstart
    rfl
  rw [hidle] at hstart
  obtain ⟨-, hsettings, hdestinations, hrun, -, -⟩ := start_fresh hstart
  rw [hfits] at hrun
  rw [← hmetrics] at hearly
  have hfor : IsFor settings destinations (e, s₀) := ⟨hsettings, hdestinations⟩
  have hbegun : Runs (fresh settings destinations).limits (e, s₀) (.start true, s₀.metrics) :=
    ⟨hrun, rfl, by simp only [limits, hsettings, fresh]⟩
  intro before os e' s' hos
  obtain ⟨i, hrunning, hready, hinserted⟩ := inserted_of_run hbegun hfor hearly hos
  obtain ⟨y, -, hx'⟩ := runs?_through (fun _ _ _ _ h hstep => Runs.runs?_inner h hstep) hbegun hos
  obtain rfl : i = y.1 := Option.some.inj (hrunning.symm.trans hx'.running)
  obtain ⟨hok, rest, z, i', hnone, hclosing, hstop, hrun', hended⟩ := hx'.stop hready
  have hall := runs?_append hos hclosing
  obtain ⟨i'', hrun'', -, hinserted'⟩ := inserted_of_run hbegun hfor hearly hall
  obtain rfl : i'' = i' := Option.some.inj (hrun''.symm.trans hrun')
  exact ⟨⟨_, hrunning, hinserted⟩, hok, rest, z, i'', hnone, hall, hstop, hrun', hended, hinserted'⟩

/-- One record is handed over too early and one too late, and of two statements the first is refused,
the second not, as the database has recovered by then: these are four errors, and both statements were
executed. -/
theorem insertion_exact_failing :
    let costing (value : Int) : CostRecord := ⟨.cpu, "CPUPricingStrategy", value, .empty, ⟨0, 0⟩⟩
    let settings : ClickHouseSettings :=
      { endpoint := "database", batchSize := 2, createTable := false }
    let s : Surroundings :=
      { metrics := .fresh, database := .silent "database" Database.usualPort ["INSERT"], now := 0,
        collector := { host := "", port := 0, isListening := true, status := 200, received := [] } }
    let idle := (fresh settings []).acceptAll [costing 0] s
    let begun := (idle.1.start idle.2).2
    let os : List Occurrence := [.act (.offer (costing 1)), .act (.move .enter),
      .act (.offer (costing 2)), .act (.move .enter), .act (.move .gather), .act (.move .gather),
      .act (.offer (costing 3)), .act (.move .enter), .act (.answer .zero), .turn [],
      .act (.move .gather), .act (.move .tick), .close, .act (.answer .zero), .act (.offer (costing 4))]
    settings.flushInterval.isZero = false ∧ max settings.batchSize 1 ≤ s.room ∧
      (idle.1.start idle.2).1 = .ok () ∧
      (told os begun).issued = [[costing 1, costing 2], [costing 3]] ∧
      (told os begun).answered = [([costing 1, costing 2], false), ([costing 3], true)] ∧
      ∃ e s', runs? occur? os begun = some (e, s') ∧
        s'.database.statements = [Sql.insert settings.qualifiedTable [] [costing 1, costing 2],
          Sql.insert settings.qualifiedTable [] [costing 3]] ∧
        Insertion.errors s'.metrics = .ofNat 4 ∧ (e.stop s').1 = .ok () := by
  intro costing settings s idle begun os
  have hinterval : settings.flushInterval.isZero = false := by decide
  have hroom : max settings.batchSize 1 ≤ s.room := by decide
  have hok : (idle.1.start idle.2).1 = .ok () := by decide +kernel
  obtain ⟨⟨outcome, e₀, s₀⟩, hstart⟩ : ∃ x, idle.1.start idle.2 = x := ⟨_, rfl⟩
  have hbegun : begun = (e₀, s₀) := congrArg Prod.snd hstart
  obtain rfl : outcome = .ok () := (congrArg Prod.fst hstart).symm.trans hok
  have hall := insertion_exact hinterval [costing 0] hroom hstart
  obtain ⟨⟨e, s'⟩, hrun⟩ : ∃ y, runs? occur? os begun = some y :=
    Option.isSome_iff_exists.1 (by decide +kernel)
  obtain ⟨⟨i, -, hinserted⟩, hstopped, -⟩ := hall os e s' (hbegun ▸ hrun)
  rw [← hbegun] at hinserted
  have hanswered : (told os begun).answered =
      [([costing 1, costing 2], false), ([costing 3], true)] := by decide +kernel
  have hrefused : (told os begun).refused = [costing 4] := by decide +kernel
  have hasked : (asked os begun).map (·.1) = [[costing 1, costing 2], [costing 3]] := by
    decide +kernel
  have hstatements := hinserted.statements
  rw [show begun.2.database.statements = [] by decide +kernel, List.nil_append,
    ← Function.comp_def, ← List.map_map, hasked] at hstatements
  have hcounted := hinserted.counted 0 (by decide +kernel)
  rw [hanswered, hrefused] at hcounted
  exact ⟨hinterval, hroom, hok, by decide +kernel, hanswered, e, s', hrun, hstatements,
    hcounted (by decide), hstopped⟩

end ClickHouseExporter

end Chargeback
