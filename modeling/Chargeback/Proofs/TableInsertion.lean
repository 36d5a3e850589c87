import Chargeback.Export.ClickHouse
import Chargeback.Proofs.InsertionFlow

/-!
# What a ClickHouse exporter inserts

An exporter that was started CARRIES every record that it accepted: the statements executed since
then insert batches that are, one after the other, the first of the records accepted, and the rest
is in the line of its insertion. Every step of the exporter keeps this, whatever the database answers.

Stopping closes the queue and leaves the insertion to itself. By then only a finite amount of work is
left, and the program makes as many steps as that at least (`work_le_stepBound`), so stopping ends
with a statement for every batch.
-/

namespace Chargeback

/-- The database takes a statement: that holds none of the texts refused. -/
def Database.Takes (statement : String) (d : Database) : Prop :=
  ∀ r ∈ d.refusals, containsText r.toList statement.toList = false

theorem Database.execute_fst_eq_true_iff {statement : String} {d : Database} :
    (d.execute statement).1 = true ↔ d.Takes statement := by
  simp [execute, Takes]

/-- Whether a statement succeeds depends on the refusals of the database only. -/
theorem Database.execute_fst (statement : String) (d d' : Database)
    (h : d'.refusals = d.refusals) : (d'.execute statement).1 = (d.execute statement).1 := by
  simp [execute, h]

namespace ClickHouseExporter

variable {settings : ClickHouseSettings} {destinations : List String} {base : Database}
  {accepted : List CostRecord} {e e' : ClickHouseExporter} {s s' : Surroundings}
  {i i' : Insertion} {event : InsertionEvent}

/-! ## One step -/

/-- An event that happens is a step of the run and changes nothing else but the metrics. -/
theorem perform?_eq_some (hrun : e.run = some i) (h : e.perform? event s = some (e', s')) :
    ∃ i' m, Insertion.Moves e.limits i event i' ∧ e' = { e with run := some i' } ∧
      s' = { s with metrics := m } := by
  rw [perform?, hrun] at h
  cases hstep : Insertion.step? e.limits event (i, s.metrics) with
  | none => simp [hstep] at h
  | some next =>
      obtain ⟨i', m⟩ := next
      obtain ⟨rfl, rfl⟩ : _ = e' ∧ _ = s' := by simpa [hstep] using h
      exact ⟨i', m, Insertion.moves_of_step? hstep, rfl, rfl⟩

theorem frame_of_perform? (h : e.perform? event s = some (e', s')) :
    (e'.settings = e.settings ∧ e'.destinations = e.destinations) ∧ s'.database = s.database := by
  cases hrun : e.run with
  | none => simp [perform?, hrun] at h
  | some i =>
      obtain ⟨i', m, -, rfl, rfl⟩ := perform?_eq_some hrun h
      exact ⟨⟨rfl, rfl⟩, rfl⟩

theorem perform?_of_isSome (event : InsertionEvent) (s : Surroundings) (hrun : e.run = some i)
    (h : ∀ m, (Insertion.step? e.limits event (i, m)).isSome) :
    ∃ next, e.perform? event s = some next := by
  obtain ⟨next, hnext⟩ := Option.isSome_iff_exists.1 (h s.metrics)
  rw [perform?, hrun]
  simp [hnext]

/-- The exporter carries the records accepted: batches of them were inserted, with a statement each
on top of those of the database that it began with, and the rest is in the line of its insertion. -/
structure Carries (settings : ClickHouseSettings) (destinations : List String) (base : Database)
    (accepted : List CostRecord) (e : ClickHouseExporter) (s : Surroundings) (i : Insertion) :
    Prop where
  running : e.run = some i
  configured : e.settings = settings
  columns : e.destinations = destinations
  sound : i.Sound
  carried : accepted = i.insertedRecords ++ i.inLine
  refusals : s.database.refusals = base.refusals
  statements : s.database.statements = base.statements ++
    i.inserted.map fun (b, _) => Sql.insert settings.qualifiedTable destinations b
  answers : ∀ p ∈ i.inserted,
    p.2 = (base.execute (Sql.insert settings.qualifiedTable destinations p.1)).1

/-- A step that inserts nothing. -/
theorem Carries.perform? (h : Carries settings destinations base accepted e s i)
    (event : InsertionEvent) (hinserts : i.inserts event = [])
    (hstep : e.perform? event s = some (e', s')) :
    ∃ i', Insertion.Moves e.limits i event i' ∧
      Carries settings destinations base (accepted ++ i.accepts event) e' s' i' := by
  obtain ⟨i', m, hmove, rfl, rfl⟩ := perform?_eq_some h.running hstep
  have hinserted : i'.inserted = i.inserted := by
    rw [hmove.inserted_eq, hinserts, List.append_nil]
  exact ⟨i', hmove, rfl, h.configured, h.columns, h.sound.move hmove,
    by rw [h.carried, hmove.line_eq h.sound], h.refusals, hinserted ▸ h.statements,
    hinserted ▸ h.answers⟩

/-- What is offered is carried as long as the queue is open. -/
theorem Carries.offer (h : Carries settings destinations base accepted e s i)
    (hopen : i.isOpen = true) {r : CostRecord} (hstep : e.perform? (.offer r) s = some (e', s')) :
    ∃ i', i'.isOpen = true ∧ Carries settings destinations base (accepted ++ [r]) e' s' i' := by
  obtain ⟨i', hmove, hi'⟩ := h.perform? (.offer r) rfl hstep
  rw [h.sound.accepts_offer hopen] at hi'
  exact ⟨i', by simpa [hopen] using hmove.isOpen_eq, hi'⟩

/-- A step that the insertion makes by itself changes nothing of what is carried. -/
theorem Carries.internal (h : Carries settings destinations base accepted e s i)
    (hinternal : event.isInternal = true) (hstep : e.perform? event s = some (e', s')) :
    ∃ i', i'.isOpen = i.isOpen ∧ i'.work + i.spends event ≤ i.work ∧
      Carries settings destinations base accepted e' s' i' := by
  obtain ⟨haccepts, hinserts, hclose⟩ := Insertion.frame_of_internal (i := i) hinternal
  obtain ⟨i', hmove, hi'⟩ := h.perform? event hinserts hstep
  have hwork := hmove.work_le
  rw [haccepts, List.append_nil] at hi'
  rw [haccepts, List.length_nil] at hwork
  exact ⟨i', by simpa [hclose] using hmove.isOpen_eq, hwork, hi'⟩

/-- The database answers the statement of the batch being inserted. -/
theorem Carries.answer (h : Carries settings destinations base accepted e s i) {took : Binary64}
    (hstep : e.perform? (.complete (e.insert i.inserting s).1 took) (e.insert i.inserting s).2 =
      some (e', s')) :
    ∃ i', i'.isOpen = i.isOpen ∧ i'.work < i.work ∧
      Carries settings destinations base accepted e' s' i' := by
  obtain ⟨i', m, hmove, rfl, rfl⟩ := perform?_eq_some h.running hstep
  have hwork := hmove.work_le
  have hline := hmove.line_eq h.sound
  have hinserted := hmove.inserted_eq
  have hanswer : (e.insert i.inserting s).1 =
      (base.execute (Sql.insert settings.qualifiedTable destinations i.inserting)).1 := by
    rw [← Database.execute_fst _ base s.database h.refusals, ← h.configured, ← h.columns]
    rfl
  simp only [Insertion.spends, Insertion.accepts, List.length_nil, List.append_nil] at hwork hline
  rw [Insertion.inserts] at hinserted
  refine ⟨i', by simpa using hmove.isOpen_eq, by omega, rfl, h.configured, h.columns,
    h.sound.move hmove, h.carried.trans hline.symm, h.refusals, ?_, ?_⟩
  · have hexecuted : (e.insert i.inserting s).2.database.statements = s.database.statements ++
        [Sql.insert e.settings.qualifiedTable e.destinations i.inserting] := rfl
    simp only [hexecuted, h.statements, hinserted, h.configured, h.columns, List.map_append,
      List.map_cons, List.map_nil, List.append_assoc]
  · rw [hinserted]
    intro p hp
    rcases List.mem_append.1 hp with hp | hp
    · exact h.answers p hp
    · obtain rfl := List.mem_singleton.1 hp
      exact hanswer

/-- The queue is closed. -/
theorem Carries.close (h : Carries settings destinations base accepted e s i)
    (hstep : e.perform? .close s = some (e', s')) :
    ∃ i', i'.isOpen = false ∧ Carries settings destinations base accepted e' s' i' := by
  obtain ⟨i', hmove, hi'⟩ := h.perform? .close rfl hstep
  rw [show i.accepts .close = [] from rfl, List.append_nil] at hi'
  exact ⟨i', by simpa using hmove.isOpen_eq, hi'⟩

theorem fits_eq_true_iff {room : Nat} :
    fits settings room = true ↔
      settings.flushInterval.isZero = false ∧ max settings.batchSize 1 ≤ room := by
  simp [fits]

/-- Connecting to the database does not change what it refuses. -/
theorem refusals_of_connect? {address : String} {d d' : Database}
    (h : d.connect? address = some d') : d'.refusals = d.refusals := by
  simp only [Database.connect?, Option.bind_eq_bind, Option.bind_eq_some_iff,
    Option.ite_none_right_eq_some, Option.pure_def] at h
  obtain ⟨_, _, _, _, _, hnamed⟩ := h
  simp [← Option.some_inj.1 hnamed]

/-- What it means that an exporter was started. Beforehand, connecting and creating the table change
nothing but the database, and not what that refuses. -/
theorem start_eq_ok (h : e.start s = (.ok (), e', s')) :
    e.settings.maxQueueSize ≤ permitLimit ∧
      e' = { e with run := some (.start (fits e.settings s.room)), isHeld := true,
                    nextTick := s.now + e.settings.flushInterval.nanos } ∧
      ∃ database, s' = { s with database } ∧ database.refusals = s.database.refusals := by
  unfold ClickHouseExporter.start at h
  split at h
  · cases h
  split at h
  · cases h
  next connected hconnect =>
    obtain ⟨created, database, htable, hrefusals⟩ : ∃ created database,
        (if e.settings.createTable then
            Surroundings.execute (Sql.createTable e.settings.qualifiedTable e.destinations)
              { s with database := connected }
          else (true, { s with database := connected })) =
          (created, { s with database }) ∧ database.refusals = connected.refusals := by
      split
      · exact ⟨_, _, rfl, rfl⟩
      · exact ⟨_, _, rfl, rfl⟩
    simp only [htable] at h
    split at h
    · cases h
    split at h
    · cases h
    next hplaces =>
      cases h
      exact ⟨Nat.not_lt.1 hplaces, rfl, database, rfl, hrefusals.trans (refusals_of_connect? hconnect)⟩

/-- What it means that a fresh exporter was started. -/
theorem start_fresh (h : (fresh settings destinations).start s = (.ok (), e, s')) :
    settings.maxQueueSize ≤ permitLimit ∧ e.settings = settings ∧ e.destinations = destinations ∧
      e.run = some (.start (fits settings s.room)) ∧ e.isHeld = true ∧
      s'.database.refusals = s.database.refusals := by
  obtain ⟨hplaces, rfl, database, rfl, hrefusals⟩ := start_eq_ok h
  exact ⟨hplaces, rfl, rfl, rfl, rfl, hrefusals⟩

/-- An exporter that was just started carries nothing. -/
theorem Carries.start (hfits : fits settings s.room = true)
    (h : (fresh settings destinations).start s = (.ok (), e, s')) :
    Carries settings destinations s'.database [] e s' (.start true) := by
  obtain ⟨-, hsettings, hdestinations, hrun, -, -⟩ := start_fresh h
  rw [hfits] at hrun
  exact ⟨hrun, hsettings, hdestinations, .start, rfl, rfl, by simp [Insertion.start],
    by simp [Insertion.start]⟩

/-! ## A run left to itself -/

/-- The step that a run left to itself makes next: one without a timer, or the answer of the
database. -/
theorem advance?_cases {next : ClickHouseExporter × Surroundings} (h : e.advance? s = some next) :
    (∃ event ∈ InsertionEvent.untimed, e.perform? event s = some next) ∨
      e.complete? s = some next := by
  simp only [advance?, Option.orElse_eq_orElse, Option.orElse_eq_or, Option.or_eq_some_iff] at h
  rcases h with h | ⟨-, h | ⟨-, h | ⟨-, h | ⟨-, h⟩⟩⟩⟩
  · exact .inl ⟨.breakDown, by simp [InsertionEvent.untimed], h⟩
  · exact .inl ⟨.enter, by simp [InsertionEvent.untimed], h⟩
  · exact .inl ⟨.gather, by simp [InsertionEvent.untimed], h⟩
  · exact .inl ⟨.finish, by simp [InsertionEvent.untimed], h⟩
  · exact .inr h

theorem advance?_eq_none (h : e.advance? s = none) :
    (∀ event ∈ InsertionEvent.untimed, e.perform? event s = none) ∧ e.complete? s = none := by
  simp only [advance?, Option.orElse_eq_orElse, Option.orElse_eq_or, Option.or_eq_none_iff] at h
  obtain ⟨hbreak, henter, hgather, hfinish, hcomplete⟩ := h
  exact ⟨by simp [InsertionEvent.untimed, hbreak, henter, hgather, hfinish], hcomplete⟩

/-- The database answers if there is a statement to answer. -/
theorem complete?_of_inserting (hrun : e.run = some i) (hinserting : i.inserting ≠ []) :
    e.complete? s =
      e.perform? (.complete (e.insert i.inserting s).1 .zero) (e.insert i.inserting s).2 := by
  obtain ⟨r, rest, hcons⟩ := List.exists_cons_of_ne_nil hinserting
  simp [complete?, hrun, hcons]

theorem complete?_of_idle (hrun : e.run = some i) (hinserting : i.inserting = []) :
    e.complete? s = none := by
  simp [complete?, hrun, hinserting]

/-- A step of a run left to itself uses up work. -/
theorem Carries.advance? (h : Carries settings destinations base accepted e s i)
    (hstep : e.advance? s = some (e', s')) :
    ∃ i', i'.isOpen = i.isOpen ∧ i'.work < i.work ∧
      Carries settings destinations base accepted e' s' i' := by
  rcases advance?_cases hstep with ⟨event, huntimed, hstep⟩ | hstep
  · obtain ⟨i', hopen, hwork, hi'⟩ :=
      h.internal (InsertionEvent.isInternal_of_untimed huntimed) hstep
    rw [Insertion.spends_of_untimed huntimed] at hwork
    exact ⟨i', hopen, hwork, hi'⟩
  · by_cases hinserting : i.inserting = []
    · simp [complete?_of_idle h.running hinserting] at hstep
    · rw [complete?_of_inserting h.running hinserting] at hstep
      exact h.answer hstep

/-- A run that makes no more steps waits for nothing but its end or more records. -/
theorem idle_of_advance? (hrun : e.run = some i) (hs : i.Sound) (hstep : e.advance? s = none) :
    i.isOpen = true ∨ i.isFinished = true := by
  obtain ⟨hnone, hcomplete⟩ := advance?_eq_none hstep
  rcases hs.can_move e.limits with ⟨event, huntimed, hsome⟩ | hinserting | ⟨-, hidle⟩
  · obtain ⟨next, hnext⟩ := perform?_of_isSome event s hrun hsome
    rw [hnone event huntimed] at hnext
    cases hnext
  · obtain ⟨next, hnext⟩ := perform?_of_isSome (.complete (e.insert i.inserting s).1 .zero)
      (e.insert i.inserting s).2 hrun fun m => by simp [Insertion.step?, hinserting]
    rw [complete?_of_inserting hrun hinserting] at hcomplete
    cases hcomplete.symm.trans hnext
  · exact hidle

/-! ## Acts -/

/-- Something that happens to an exporter between its start and its stop. -/
inductive Act where
  /-- A caller hands over a record. -/
  | offer (r : CostRecord)
  /-- The insertion makes a step of its own. -/
  | move (event : InsertionEvent)
  /-- The database answers the statement of the insertion. -/
  | answer (took : Binary64)

/-- What an act makes of an exporter; none if it cannot happen. -/
def act? : ClickHouseExporter × Surroundings → Act → Option (ClickHouseExporter × Surroundings)
  | (e, s), .offer r => e.perform? (.offer r) s
  | (e, s), .move event => if event.isInternal then e.perform? event s else none
  | (e, s), .answer took => match e.run with
    | none => none
    | some i =>
      let (succeeded, s) := e.insert i.inserting s
      e.perform? (.complete succeeded took) s

/-- What one act after the other makes of an exporter; none if one of them cannot happen. -/
def actAll? (acts : List Act) (x : ClickHouseExporter × Surroundings) :
    Option (ClickHouseExporter × Surroundings) :=
  acts.foldlM act? x

/-- The records handed over by a list of acts. -/
def handed : List Act → List CostRecord
  | [] => []
  | .offer r :: acts => r :: handed acts
  | _ :: acts => handed acts

theorem handed_cons (a : Act) (acts : List Act) : handed (a :: acts) = handed [a] ++ handed acts := by
  cases a <;> rfl

/-- A step of a run left to itself is an act that hands over nothing. -/
theorem act?_of_advance? (hrun : e.run = some i) (h : e.advance? s = some (e', s')) :
    ∃ a, handed [a] = [] ∧ act? (e, s) a = some (e', s') := by
  rcases advance?_cases h with ⟨event, huntimed, hstep⟩ | hstep
  · have hinternal := InsertionEvent.isInternal_of_untimed huntimed
    exact ⟨.move event, rfl, by simp only [act?, hinternal, if_true, hstep]⟩
  · by_cases hinserting : i.inserting = []
    · simp [complete?_of_idle hrun hinserting] at hstep
    · rw [complete?_of_inserting hrun hinserting] at hstep
      exact ⟨.answer .zero, rfl, by simp only [act?, hrun]; exact hstep⟩

/-! ## Coming to rest -/

theorem Carries.idle_of_advance? (h : Carries settings destinations base accepted e s i)
    (hstep : e.advance? s = none) : i.isOpen = true ∨ i.isFinished = true :=
  ClickHouseExporter.idle_of_advance? h.running h.sound hstep

/-- As many steps as there is work bring a run to rest. -/
theorem Carries.advance (h : Carries settings destinations base accepted e s i) {n : Nat}
    (hn : i.work ≤ n) :
    ∃ i', i'.isOpen = i.isOpen ∧
      Carries settings destinations base accepted (advance n e s).1 (advance n e s).2 i' ∧
      (advance n e s).1.advance? (advance n e s).2 = none := by
  induction n generalizing e s i with
  | zero =>
      cases hstep : e.advance? s with
      | none => exact ⟨i, rfl, h, hstep⟩
      | some next =>
          obtain ⟨i', -, hless, -⟩ := h.advance? hstep
          omega
  | succ n ih =>
      unfold ClickHouseExporter.advance
      cases hstep : e.advance? s with
      | none => exact ⟨i, rfl, h, hstep⟩
      | some next =>
          obtain ⟨i', hopen, hless, hi'⟩ := h.advance? hstep
          obtain ⟨i'', hopen', hrest⟩ := ih hi' (by omega)
          exact ⟨i'', hopen'.trans hopen, hrest⟩

/-- The steps that the program allows for are enough. -/
theorem work_le_stepBound (i : Insertion) : i.work ≤ stepBound i := by
  have hopen : i.isOpen.toNat ≤ 1 := Bool.toNat_le _
  have hdrained : (!i.isDrained).toNat ≤ 1 := Bool.toNat_le _
  have hdeaf : (!i.batcher.isDeaf).toNat ≤ 1 := Bool.toNat_le _
  simp only [Insertion.work, stepBound]
  omega

/-- **Stopping inserts everything.** An exporter whose insertion runs is stopped without a fault, and
then the statements executed are those for batches that are, one after the other, the records
accepted; the database has answered each. -/
theorem Carries.stop (h : Carries settings destinations base accepted e s i) :
    (e.stop s).1 = .ok () ∧ ∃ inserted : List (List CostRecord × Bool),
      (e.stop s).2.2.database.statements = base.statements ++
        inserted.map (fun (b, _) => Sql.insert settings.qualifiedTable destinations b) ∧
      (∀ p ∈ inserted,
        p.2 = (base.execute (Sql.insert settings.qualifiedTable destinations p.1)).1) ∧
      (inserted.map (·.1)).flatten = accepted := by
  obtain ⟨⟨closed, s₁⟩, hclose⟩ := perform?_of_isSome .close s h.running fun m => rfl
  obtain ⟨i₁, hopen₁, hi₁⟩ := h.close hclose
  obtain ⟨i₂, hopen₂, hi₂, hrest⟩ := hi₁.advance (work_le_stepBound i₁)
  -- A run at rest is open or has ended, and this one was closed.
  have hfinished : i₂.isFinished = true := by
    rcases hi₂.idle_of_advance? hrest with hopen | hfinished
    · rw [hopen₂, hopen₁] at hopen
      cases hopen
    · exact hfinished
  have hstop : e.stop s = (.ok (),
      { (closed.advance (stepBound i₁) s₁).1 with isHeld := false },
      (closed.advance (stepBound i₁) s₁).2) := by
    have halive : (i₂.batcher == .failed) = false := by
      have hbatcher : i₂.batcher = .finished := by simpa [Insertion.isFinished] using hfinished
      rw [hbatcher]
      rfl
    simp [ClickHouseExporter.stop, ClickHouseExporter.perform, hclose, ClickHouseExporter.settle,
      hi₁.running, hi₂.running, halive]
  have hcarried := hi₂.carried
  rw [hi₂.sound.inLine_eq_nil hfinished, List.append_nil] at hcarried
  rw [hstop]
  exact ⟨rfl, i₂.inserted, hi₂.statements, hi₂.answers, hcarried.symm⟩

end ClickHouseExporter

end Chargeback
