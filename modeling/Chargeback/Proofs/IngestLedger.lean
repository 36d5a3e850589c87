import Chargeback.Codec.Standard
import Chargeback.Proofs.BatchLines
import Chargeback.Proofs.Counting
import Chargeback.Proofs.RunHistory
import Chargeback.Proofs.StatementColumns
import Chargeback.Serve.Service

/-!
# The ledger of an ingesting service

A service receives batches of records and inserts each into a table with one statement, which the
database executes as a whole or not at all. What the table holds after any exchanges, the counters
of the process and the answers that were sent must agree, or a collector that tries again would have
its records twice or not at all.

One exchange is followed from the request to the rows (`settled_exchange`): a batch is decoded line by
line before anything is stored, so there are three ends and each of them is all or nothing
(`Settled`). The run is the sum of its exchanges (`counted_history`), and a batch that is sent until
it is accepted is in the table once (`ledger_of_exchanges`).

Rows are counted at the database: it reads the rows of every statement that it executes
(`Database.storedRows`), whatever the texts in them.
-/

namespace Chargeback

namespace Ingest

variable {limit : Nat} {request : Request} {rs : List CostRecord}

/-- The service reads the body of a request. -/
def Reaches (limit : Nat) (request : Request) : Prop :=
  Service.pathOf request.path = Service.ingestPath ∧ request.method = "POST" ∧
    request.body.length ≤ limit

instance (limit : Nat) (request : Request) : Decidable (Reaches limit request) :=
  inferInstanceAs (Decidable (_ ∧ _ ∧ _))

variable [Codec.Codecs]

/-- The body of a request is a batch: it can be decompressed, is not too long then, and its lines
but for the blank ones are the records given, in order. -/
def Decodes (limit : Nat) (request : Request) (rs : List CostRecord) : Prop :=
  ∃ data, Codec.decompress request.encoding request.body = .ok data ∧ data.length ≤ limit ∧
    List.Forall₂ (fun l r => Ndjson.decodeLine? l = some r) (Ndjson.written data) rs

/-- The body of a request is no batch: it cannot be decompressed, is too long then, or has a line
that is neither blank nor a record. -/
def Undecodable (limit : Nat) (request : Request) : Prop :=
  (∃ fault, Codec.decompress request.encoding request.body = .error fault) ∨
    ∃ data, Codec.decompress request.encoding request.body = .ok data ∧
      (limit < data.length ∨ ∃ l ∈ Ndjson.written data, Ndjson.decodeLine? l = none)

theorem readBody_eq_ok :
    readBody limit request.encoding request.body = .ok rs ↔ Decodes limit request rs := by
  rw [readBody, Decodes]
  cases Codec.decompress request.encoding request.body with
  | error fault => simp [Except.mapError, bind, Except.bind]
  | ok data =>
      simp only [Except.mapError, bind, Except.bind, Except.ok.injEq, exists_eq_left']
      by_cases hlong : limit < data.length
      · simp [hlong, Nat.not_le_of_lt hlong]
      · rw [if_neg hlong, Ndjson.written, ← Ndjson.decodeLines_eq_ok (n := 1), ← Ndjson.decode]
        cases Ndjson.decode data <;> simp [Nat.le_of_not_lt hlong]

theorem readBody_eq_error :
    (∃ fault, readBody limit request.encoding request.body = .error fault) ↔
      Undecodable limit request := by
  rw [readBody, Undecodable]
  cases Codec.decompress request.encoding request.body with
  | error fault => simp [Except.mapError, bind, Except.bind]
  | ok data =>
      simp only [Except.mapError, bind, Except.bind, Except.ok.injEq, exists_eq_left', reduceCtorEq,
        exists_false, false_or]
      by_cases hlong : limit < data.length
      · simp [hlong]
      · rw [if_neg hlong, Ndjson.written, ← Ndjson.exists_decodeLines_eq_error (n := 1),
          ← Ndjson.decode]
        cases Ndjson.decode data <;> simp [hlong]

/-- A body is one batch at most. -/
theorem Decodes.unique {rs' : List CostRecord} (h : Decodes limit request rs)
    (h' : Decodes limit request rs') : rs = rs' :=
  Except.ok.inj ((readBody_eq_ok.2 h).symm.trans (readBody_eq_ok.2 h'))

theorem Decodes.not_undecodable (h : Decodes limit request rs) : ¬Undecodable limit request := by
  intro hbody
  obtain ⟨fault, hfault⟩ := readBody_eq_error.2 hbody
  cases (readBody_eq_ok.2 h).symm.trans hfault

end Ingest

/-! ## Rows -/

namespace Sql

/-- The rows in a statement after its head. -/
def readRows? (head statement : String) : Option (List (List Value)) :=
  ((afterHead? head statement).bind tokens?).bind rows?

/-- The part of an insert statement in front of its rows. -/
def rowsHead (table : String) (destinations : List String) : String :=
  insertHead table destinations ++ " VALUES "

/-- A statement that inserts records has a row for each of them, in order. -/
theorem readRows?_insert (table : String) (destinations : List String) {rs : List CostRecord}
    (hne : rs ≠ []) :
    readRows? (rowsHead table destinations) (insert table destinations rs) =
      some (rs.map (rowOf destinations)) := by
  obtain ⟨us, hus, hrows⟩ := rows?_intercalate destinations hne
  rw [readRows?, insert, ← rowsHead, afterHead?_append, Option.bind_some, hus, Option.bind_some, hrows]

end Sql

/-- A statement has a text in it that the database refuses. -/
def Refuses (refusals : List String) (statement : String) : Prop :=
  ∃ r ∈ refusals, Database.containsText r.toList statement.toList = true

namespace Database

theorem execute_fst_eq_true {statement : String} {d : Database} :
    (d.execute statement).1 = true ↔ ¬Refuses d.refusals statement := by
  simp [execute, Refuses]

/-- The rows that statements have put into a table: those of the statements that are executed. -/
def storedRows (head : String) (statements : List String) (d : Database) : List (List Sql.Value) :=
  statements.flatMap fun statement =>
    if (d.execute statement).1 then (Sql.readRows? head statement).getD [] else []

end Database

/-! ## One exchange -/

/-- A request, and what the database refuses while it is answered. -/
structure Exchange where
  refusals : List String
  request : Request
  deriving Repr

/-- What is on record of an exchange: the answer, the statements and the rows that they have put into
the table, and the counts before and after it. -/
structure LedgerEntry where
  exchange : Exchange
  response : Response
  statements : List String
  rows : List (List Sql.Value)
  before : Tally
  after : Tally

namespace Exchange

/-- The surroundings with the database as it is while the request is answered. -/
def facing (x : Exchange) (s : Surroundings) : Surroundings :=
  { s with database := { s.database with refusals := x.refusals } }

variable [Codec.Codecs]

/-- Answers the request. -/
def serve (limit : Nat) (x : Exchange) (t : Exporter × Surroundings) :
    Response × Exporter × Surroundings :=
  Service.answer limit x.request t.1 (x.facing t.2)

/-- What is on record of the exchange, for the table with the head of its statements. -/
def entry (limit : Nat) (head : String) (x : Exchange) (t : Exporter × Surroundings) :
    LedgerEntry :=
  let (response, _, s) := x.serve limit t
  let statements := appended t.2.database.statements s.database.statements
  { exchange := x, response, statements, rows := s.database.storedRows head statements,
    before := t.2.metrics.consumed, after := s.metrics.consumed }

/-- What exchanges leave behind, one after the other. -/
def serveAll (limit : Nat) (xs : List Exchange) (t : Exporter × Surroundings) :
    Exporter × Surroundings :=
  xs.foldl (fun t x => (x.serve limit t).2) t

/-- What is on record of exchanges, one after the other. -/
def history (limit : Nat) (head : String) : List Exchange → Exporter × Surroundings → List LedgerEntry
  | [], _ => []
  | x :: xs, t => x.entry limit head t :: history limit head xs (x.serve limit t).2

end Exchange

namespace ClickHouseExporter

/-- The head of the statements for the table of an exporter. -/
def head (e : ClickHouseExporter) : String := Sql.rowsHead e.settings.qualifiedTable e.destinations

/-- The rows of records in the table of an exporter. -/
def rowsOf (e : ClickHouseExporter) (rs : List CostRecord) : List (List Sql.Value) :=
  rs.map (Sql.rowOf e.destinations)

/-- A batch can be stored: the exporter was started, and the statement is not refused. Without records
there is no statement. -/
def CanStore (e : ClickHouseExporter) (refusals : List String) (rs : List CostRecord) : Prop :=
  e.run.isSome = true ∧
    (rs = [] ∨ ¬Refuses refusals (Sql.insert e.settings.qualifiedTable e.destinations rs))

end ClickHouseExporter

/-- Nothing was counted as received, and some rows were put into the table by new statements. -/
structure Leaves (head : String) (rows : List (List Sql.Value)) (s s' : Surroundings) : Prop where
  consumed : s'.metrics.consumed = s.metrics.consumed
  statements : s'.database.statements =
    s.database.statements ++ appended s.database.statements s'.database.statements
  stored : s'.database.storedRows head
    (appended s.database.statements s'.database.statements) = rows

theorem Leaves.refl (head : String) (s : Surroundings) : Leaves head [] s s := by
  refine ⟨rfl, ?_, ?_⟩
  · rw [appended_self, List.append_nil]
  · rw [appended_self]
    rfl

namespace ClickHouseExporter

/-- The one statement of a batch has put all of its rows into the table, or none if it is refused. -/
theorem insertNow_of_running {e : ClickHouseExporter} {rs : List CostRecord} {s : Surroundings}
    (hrun : e.run.isSome = true) (hne : rs ≠ []) {succeeded : Bool}
    (hanswer : (s.database.execute
      (Sql.insert e.settings.qualifiedTable e.destinations rs)).1 = succeeded) :
    ∃ s', e.insertNow rs s = (if succeeded then .ok () else .error .sendingBatch, s') ∧
      Leaves e.head (if succeeded then e.rowsOf rs else []) s s' := by
  have hnew : appended s.database.statements (s.database.statements ++
      [Sql.insert e.settings.qualifiedTable e.destinations rs]) =
        [Sql.insert e.settings.qualifiedTable e.destinations rs] := appended_append _ _
  have hread : Sql.readRows? e.head (Sql.insert e.settings.qualifiedTable e.destinations rs) =
      some (e.rowsOf rs) := Sql.readRows?_insert _ _ hne
  have hnow : e.run.isNone = false := by simpa using hrun
  have hsome : rs.isEmpty = false := by simpa using hne
  refine ⟨{ s with
    database := (s.database.execute (Sql.insert e.settings.qualifiedTable e.destinations rs)).2,
    metrics := Insertion.answered rs succeeded .zero s.metrics }, ?_, ?_, ?_, ?_⟩
  · rw [insertNow, hnow, hsome, ← hanswer]
    rfl
  · cases succeeded <;> rfl
  · show _ = _ ++ appended _ (s.database.statements ++ [_])
    rw [hnew]
    rfl
  · show Database.storedRows _ (appended _ (s.database.statements ++ [_])) _ = _
    rw [hnew, Database.storedRows, List.flatMap_singleton, hread, ← hanswer]
    rfl

/-- What a caller is told who wants a batch to be inserted at once, and what has become of it. -/
theorem insertNow_cases (e : ClickHouseExporter) (rs : List CostRecord) (s : Surroundings) :
    (e.CanStore s.database.refusals rs ∧ ∃ s', e.insertNow rs s = (.ok (), s') ∧
      Leaves e.head (e.rowsOf rs) s s') ∨
    (¬e.CanStore s.database.refusals rs ∧ ∃ fault s', e.insertNow rs s = (.error fault, s') ∧
      Leaves e.head [] s s') := by
  cases hrun : e.run.isSome with
  | false =>
      have hnot : ¬e.CanStore s.database.refusals rs := fun h =>
        absurd (h.1.symm.trans hrun) (by decide)
      refine .inr ⟨hnot, .notInserting, s, ?_, .refl _ s⟩
      simp [insertNow, Option.isSome_eq_false_iff.1 hrun]
  | true =>
      by_cases hne : rs = []
      · subst hne
        refine .inl ⟨⟨hrun, .inl rfl⟩, s, ?_, .refl _ s⟩
        simp [insertNow, Option.isSome_iff_ne_none.1 hrun]
      cases hanswer : (s.database.execute
          (Sql.insert e.settings.qualifiedTable e.destinations rs)).1 with
      | true =>
          obtain ⟨s', hinsert, hleaves⟩ := insertNow_of_running hrun hne hanswer
          exact .inl ⟨⟨hrun, .inr (Database.execute_fst_eq_true.1 hanswer)⟩, s', hinsert, hleaves⟩
      | false =>
          obtain ⟨s', hinsert, hleaves⟩ := insertNow_of_running hrun hne hanswer
          refine .inr ⟨?_, .sendingBatch, s', hinsert, hleaves⟩
          rintro ⟨-, hnone | hexecutes⟩
          · exact hne hnone
          · rw [Database.execute_fst_eq_true.2 hexecutes] at hanswer
            cases hanswer

end ClickHouseExporter

/-- The three ends of an exchange whose request was read, each of them all or nothing. -/
inductive Settled [Codec.Codecs] (limit : Nat) (e : ClickHouseExporter) (h : LedgerEntry) : Prop
  | accepted (rs : List CostRecord) (hdecodes : Ingest.Decodes limit h.exchange.request rs)
      (hstored : e.CanStore h.exchange.refusals rs) (hstatus : h.response.status = 200)
      (hrows : h.rows = e.rowsOf rs) (hcount : h.after = h.before.addCount "accepted" rs.length)
  | rejected (hbody : Ingest.Undecodable limit h.exchange.request) (hstatus : h.response.status = 400)
      (hrows : h.rows = []) (hcount : h.after = h.before.addCount "rejected" 1)
  | failed (rs : List CostRecord) (hdecodes : Ingest.Decodes limit h.exchange.request rs)
      (hstored : ¬e.CanStore h.exchange.refusals rs) (hstatus : h.response.status = 503)
      (hrows : h.rows = []) (hcount : h.after = h.before.addCount "failed" rs.length)

/-! ## The three ends -/

namespace Service

variable [Codec.Codecs] {limit : Nat} {request : Request} (e : Exporter) (s : Surroundings)

/-- A request that is read is answered with the verdict on its body. -/
theorem answer_of_reaches (h : Ingest.Reaches limit request) :
    answer limit request e s =
      ((Ingest.store limit request.encoding request.body e s).1.response,
        (Ingest.store limit request.encoding request.body e s).2) := by
  obtain ⟨hpath, hmethod, hlength⟩ := h
  have hhealth : health? request s.metrics = none := by
    simp [health?, hpath, ingestPath]
  simp [answer, hhealth, hpath, hmethod, Nat.not_lt.2 hlength]

/-- A request that is not read changes nothing. -/
theorem answer_of_not_reaches (h : ¬Ingest.Reaches limit request) :
    (answer limit request e s).2 = (e, s) := by
  rw [answer]
  split
  · rfl
  · by_cases hpath : pathOf request.path = ingestPath
    · by_cases hmethod : request.method = "POST"
      · have hlength : limit < request.body.length :=
          Nat.lt_of_not_le fun hle => h ⟨hpath, hmethod, hle⟩
        simp [hpath, hmethod, hlength]
      · simp [hpath, hmethod]
    · simp [hpath]

end Service

namespace Ingest

variable [Codec.Codecs] {limit : Nat} {encoding : Option String} {body : List UInt8}
  {fault : BodyFault} {rs : List CostRecord} {s s' : Surroundings}

theorem store_of_error (h : readBody limit encoding body = .error fault) (e : Exporter)
    (s : Surroundings) :
    store limit encoding body e s =
      (.rejected fault, e, { s with metrics := s.metrics.consumedAs "rejected" 1 }) := by
  rw [store, h]
  rfl

theorem store_of_stored {e : ClickHouseExporter} (h : readBody limit encoding body = .ok rs)
    (hinsert : e.insertNow rs s = (.ok (), s')) :
    store limit encoding body (.clickhouse e) s = (.accepted rs.length, .clickhouse e,
      { s' with metrics := s'.metrics.consumedAs "accepted" rs.length }) := by
  simp only [store, h, Exporter.acceptBatch, hinsert]
  rfl

theorem store_of_failed {e : ClickHouseExporter} {refusal : ExporterFault}
    (h : readBody limit encoding body = .ok rs) (hinsert : e.insertNow rs s = (.error refusal, s')) :
    store limit encoding body (.clickhouse e) s = (.failed rs.length refusal, .clickhouse e,
      { s' with metrics := s'.metrics.consumedAs "failed" rs.length }) := by
  simp only [store, h, Exporter.acceptBatch, hinsert]
  rfl

end Ingest

namespace Exchange

variable [Codec.Codecs] {limit : Nat} {x : Exchange}

/-- The exporter is as it was after an exchange, and the new statements are all on record. -/
structure Continues (limit : Nat) (x : Exchange) (e : ClickHouseExporter) (s : Surroundings) : Prop
    where
  exporter : (x.serve limit (.clickhouse e, s)).2.1 = .clickhouse e
  statements : (x.serve limit (.clickhouse e, s)).2.2.database.statements =
    s.database.statements ++ (x.entry limit e.head (.clickhouse e, s)).statements

section Served

variable {e : ClickHouseExporter} {s s' : Surroundings} {response : Response}
  {rows : List (List Sql.Value)} {m : Metrics}

/-- What is on record of an exchange that left rows behind. -/
theorem entry_of_leaves
    (hserve : x.serve limit (.clickhouse e, s) = (response, .clickhouse e, { s' with metrics := m }))
    (hleaves : Leaves e.head rows (x.facing s) s') :
    x.entry limit e.head (.clickhouse e, s) =
      { exchange := x, response, rows, before := s.metrics.consumed, after := m.consumed
        statements := appended s.database.statements s'.database.statements } := by
  rw [entry, hserve]
  exact congrArg (LedgerEntry.mk x response _ · _ _) hleaves.stored

theorem continues_of_leaves
    (hserve : x.serve limit (.clickhouse e, s) = (response, .clickhouse e, { s' with metrics := m }))
    (hleaves : Leaves e.head rows (x.facing s) s') : Continues limit x e s := by
  constructor
  · rw [hserve]
  · rw [entry_of_leaves hserve hleaves, hserve]
    exact hleaves.statements

end Served

/-- A request that is not read has nothing on record but its answer. -/
theorem entry_of_not_reaches (h : ¬Ingest.Reaches limit x.request) (e : ClickHouseExporter)
    (s : Surroundings) :
    (x.entry limit e.head (.clickhouse e, s)).rows = [] ∧
      (x.entry limit e.head (.clickhouse e, s)).after = s.metrics.consumed ∧ Continues limit x e s := by
  have hrest : (x.serve limit (.clickhouse e, s)).2 = (.clickhouse e, x.facing s) :=
    Service.answer_of_not_reaches _ _ h
  have hserve : x.serve limit (.clickhouse e, s) =
      ((x.serve limit (.clickhouse e, s)).1, .clickhouse e, { x.facing s with metrics := s.metrics }) :=
    Prod.ext rfl hrest
  have hleaves : Leaves e.head [] (x.facing s) (x.facing s) := .refl _ _
  rw [entry_of_leaves hserve hleaves]
  exact ⟨rfl, rfl, continues_of_leaves hserve hleaves⟩

/-- **One exchange is all or nothing**, in whatever state the exporter and the database are. -/
theorem settled_exchange (h : Ingest.Reaches limit x.request) (e : ClickHouseExporter)
    (s : Surroundings) :
    Settled limit e (x.entry limit e.head (.clickhouse e, s)) ∧ Continues limit x e s := by
  have hserve : x.serve limit (.clickhouse e, s) = _ := Service.answer_of_reaches _ _ h
  cases hbody : Ingest.readBody limit x.request.encoding x.request.body with
  | error fault =>
      have hleaves : Leaves e.head [] (x.facing s) (x.facing s) := .refl _ _
      rw [Ingest.store_of_error hbody] at hserve
      refine ⟨?_, continues_of_leaves hserve hleaves⟩
      rw [entry_of_leaves hserve hleaves]
      exact .rejected (Ingest.readBody_eq_error.1 ⟨fault, hbody⟩) rfl rfl rfl
  | ok rs =>
      have hdecodes := Ingest.readBody_eq_ok.1 hbody
      obtain ⟨hcan, s', hinsert, hleaves⟩ | ⟨hcannot, refusal, s', hinsert, hleaves⟩ :=
        e.insertNow_cases rs (x.facing s)
      · rw [Ingest.store_of_stored hbody hinsert] at hserve
        refine ⟨?_, continues_of_leaves hserve hleaves⟩
        rw [entry_of_leaves hserve hleaves]
        refine .accepted rs hdecodes hcan rfl rfl ?_
        exact congrArg (Tally.addCount "accepted" rs.length) hleaves.consumed
      · rw [Ingest.store_of_failed hbody hinsert] at hserve
        refine ⟨?_, continues_of_leaves hserve hleaves⟩
        rw [entry_of_leaves hserve hleaves]
        refine .failed rs hdecodes hcannot rfl rfl ?_
        exact congrArg (Tally.addCount "failed" rs.length) hleaves.consumed

/-- What an exchange has on record, whether its request was read or not. -/
theorem entry_cases (x : Exchange) (limit : Nat) (e : ClickHouseExporter) (s : Surroundings) :
    let h := x.entry limit e.head (.clickhouse e, s)
    ((Ingest.Reaches limit h.exchange.request ∧ Settled limit e h) ∨
      (¬Ingest.Reaches limit h.exchange.request ∧ h.rows = [] ∧ h.after = h.before)) ∧
      Continues limit x e s := by
  intro h
  by_cases hreaches : Ingest.Reaches limit x.request
  · obtain ⟨hsettled, hcontinues⟩ := settled_exchange hreaches e s
    exact ⟨.inl ⟨hreaches, hsettled⟩, hcontinues⟩
  · obtain ⟨hrows, hcount, hcontinues⟩ := entry_of_not_reaches hreaches e s
    exact ⟨.inr ⟨hreaches, hrows, hcount⟩, hcontinues⟩

/-! ## A run of exchanges -/

section Run

variable {e : ClickHouseExporter}

/-- The surroundings after an exchange. -/
def after (limit : Nat) (x : Exchange) (e : ClickHouseExporter) (s : Surroundings) : Surroundings :=
  (x.serve limit (.clickhouse e, s)).2.2

theorem serve_snd (limit : Nat) (x : Exchange) (e : ClickHouseExporter) (s : Surroundings) :
    (x.serve limit (.clickhouse e, s)).2 = (.clickhouse e, x.after limit e s) :=
  Prod.ext (entry_cases x limit e s).2.exporter rfl

theorem history_cons (limit : Nat) (x : Exchange) (xs : List Exchange) (e : ClickHouseExporter)
    (s : Surroundings) :
    history limit e.head (x :: xs) (.clickhouse e, s) = x.entry limit e.head (.clickhouse e, s) ::
      history limit e.head xs (.clickhouse e, x.after limit e s) := by
  rw [history, serve_snd]

theorem serveAll_cons (limit : Nat) (x : Exchange) (xs : List Exchange) (e : ClickHouseExporter)
    (s : Surroundings) :
    serveAll limit (x :: xs) (.clickhouse e, s) =
      serveAll limit xs (.clickhouse e, x.after limit e s) := by
  rw [serveAll, List.foldl_cons, serve_snd, serveAll]

/-- What is true of every exchange is true of all that is on record. -/
theorem forall_mem_history {P : LedgerEntry → Prop}
    (hstep : ∀ x s, P (entry limit e.head x (.clickhouse e, s))) (xs : List Exchange)
    (s : Surroundings) : ∀ h ∈ history limit e.head xs (.clickhouse e, s), P h := by
  induction xs generalizing s with
  | nil => exact List.forall_mem_nil P
  | cons x xs ih =>
      rw [history_cons]
      exact List.forall_mem_cons.2 ⟨hstep x s, ih _⟩

theorem exchange_history (limit : Nat) (xs : List Exchange) (e : ClickHouseExporter)
    (s : Surroundings) :
    (history limit e.head xs (.clickhouse e, s)).map (·.exchange) = xs := by
  induction xs generalizing s with
  | nil => rfl
  | cons x xs ih =>
      rw [history_cons, List.map_cons, ih]
      rfl

/-- No statement is executed that is not on record. -/
theorem statements_history (limit : Nat) (xs : List Exchange) (e : ClickHouseExporter)
    (s : Surroundings) :
    (serveAll limit xs (.clickhouse e, s)).2.database.statements = s.database.statements ++
      (history limit e.head xs (.clickhouse e, s)).flatMap (·.statements) := by
  induction xs generalizing s with
  | nil => exact (List.append_nil _).symm
  | cons x xs ih =>
      rw [serveAll_cons, history_cons, ih, List.flatMap_cons, ← List.append_assoc]
      exact congrArg (· ++ _) (entry_cases x limit e s).2.statements

/-- An exchange raises the count of accepted records by the number of its rows. -/
theorem counted_exchange (x : Exchange) (s : Surroundings) :
    let h := x.entry limit e.head (.clickhouse e, s)
    GrownBy h.rows.length (h.before.read "accepted") (h.after.read "accepted") := by
  intro h
  obtain ⟨-, hsettled⟩ | ⟨-, hrows, hcount⟩ := (entry_cases x limit e s).1
  · cases hsettled with
    | accepted rs hdecodes hstored hstatus hrows hcount =>
        rw [hrows, hcount, Tally.read_addCount_self, ClickHouseExporter.rowsOf, List.length_map]
        exact .raise _ _
    | rejected hbody hstatus hrows hcount =>
        rw [hrows, hcount, Tally.read_addCount_of_ne (by decide)]
        exact .refl _
    | failed rs hdecodes hstored hstatus hrows hcount =>
        rw [hrows, hcount, Tally.read_addCount_of_ne (by decide)]
        exact .refl _
  · rw [hrows, hcount]
    exact .refl _

/-- As many records are counted as accepted as there are rows in the table. -/
theorem counted_history (limit : Nat) (xs : List Exchange) (e : ClickHouseExporter)
    (s : Surroundings) :
    GrownBy ((history limit e.head xs (.clickhouse e, s)).flatMap (·.rows)).length
      (s.metrics.consumed.read "accepted")
      ((serveAll limit xs (.clickhouse e, s)).2.metrics.consumed.read "accepted") := by
  induction xs generalizing s with
  | nil => exact .refl _
  | cons x xs ih =>
      rw [history_cons, serveAll_cons, List.flatMap_cons, List.length_append]
      exact (counted_exchange x s).trans (ih _)

end Run

end Exchange

/-! ## The ledger -/

/-- Statuses, rows and counts of exchanges agree. Each batch that is read is settled as a whole; what
is not read changes nothing. As many rows are in the table as are counted as accepted, which the
counter says exactly up to `2 ^ 53`. Attempts to send one batch, with whatever exchanges between them,
of which the last is the first one to be accepted, have put its rows into the table once. -/
structure IsLedger [Codec.Codecs] (limit : Nat) (e : ClickHouseExporter) (xs : List Exchange)
    (before after : Surroundings) (history : List LedgerEntry) : Prop where
  exchanges : history.map (·.exchange) = xs
  settled : ∀ h ∈ history, Ingest.Reaches limit h.exchange.request → Settled limit e h
  refused : ∀ h ∈ history, Ingest.Reaches limit h.exchange.request →
    (h.response.status = 400 ↔ Ingest.Undecodable limit h.exchange.request)
  unread : ∀ h ∈ history, ¬Ingest.Reaches limit h.exchange.request →
    h.rows = [] ∧ h.after = h.before
  statements : after.database.statements =
    before.database.statements ++ history.flatMap (·.statements)
  counted : GrownBy (history.flatMap (·.rows)).length (before.metrics.consumed.read "accepted")
    (after.metrics.consumed.read "accepted")
  exact : ∀ k, before.metrics.consumed.read "accepted" = .ofNat k →
    k + (history.flatMap (·.rows)).length ≤ 2 ^ 53 →
    after.metrics.consumed.read "accepted" = .ofNat (k + (history.flatMap (·.rows)).length)
  once : ∀ request, Ingest.Reaches limit request → ∀ attempts last,
    (attempts ++ [last]).Sublist history →
    (∀ h ∈ attempts, h.exchange.request = request ∧ h.response.status ≠ 200) →
    last.exchange.request = request → last.response.status = 200 →
    ∃ rs, Ingest.Decodes limit request rs ∧ (attempts ++ [last]).flatMap (·.rows) = e.rowsOf rs

namespace Settled

variable [Codec.Codecs] {limit : Nat} {e : ClickHouseExporter} {h : LedgerEntry}

theorem status_eq_bad_request (hs : Settled limit e h) :
    h.response.status = 400 ↔ Ingest.Undecodable limit h.exchange.request := by
  cases hs with
  | accepted rs hdecodes hstored hok hrows hcount =>
      simp [hok, hdecodes.not_undecodable]
  | rejected hbody hbad hrows hcount => simp [hbad, hbody]
  | failed rs hdecodes hstored hunavailable hrows hcount =>
      simp [hunavailable, hdecodes.not_undecodable]

theorem rows_of_ne_ok (hs : Settled limit e h) (hstatus : h.response.status ≠ 200) : h.rows = [] := by
  cases hs with
  | accepted rs hdecodes hstored hok hrows hcount => exact absurd hok hstatus
  | rejected hbody hbad hrows hcount => exact hrows
  | failed rs hdecodes hstored hunavailable hrows hcount => exact hrows

theorem rows_of_ok (hs : Settled limit e h) (hstatus : h.response.status = 200) :
    ∃ rs, Ingest.Decodes limit h.exchange.request rs ∧ h.rows = e.rowsOf rs := by
  cases hs with
  | accepted rs hdecodes hstored hok hrows hcount => exact ⟨rs, hdecodes, hrows⟩
  | rejected hbody hbad hrows hcount => exact absurd (hbad.symm.trans hstatus) (by decide)
  | failed rs hdecodes hstored hunavailable hrows hcount =>
      exact absurd (hunavailable.symm.trans hstatus) (by decide)

end Settled

/-- **Ingesting is all or nothing over any exchanges**, whatever the bodies and the encodings of the
requests, whatever the algorithms that compress them and whichever of the statements fail. -/
theorem ledger_of_exchanges [Codec.Codecs] (limit : Nat) (e : ClickHouseExporter) (xs : List Exchange)
    (s : Surroundings) :
    IsLedger limit e xs s (Exchange.serveAll limit xs (.clickhouse e, s)).2
      (Exchange.history limit e.head xs (.clickhouse e, s)) := by
  have hsettled : ∀ h ∈ Exchange.history limit e.head xs (.clickhouse e, s),
      Ingest.Reaches limit h.exchange.request → Settled limit e h :=
    Exchange.forall_mem_history (fun x s hreaches => by
      obtain ⟨-, hs⟩ | ⟨hnot, -⟩ := (Exchange.entry_cases x limit e s).1
      · exact hs
      · exact absurd hreaches hnot) xs s
  have hcounted := Exchange.counted_history limit xs e s
  constructor
  case exchanges => exact Exchange.exchange_history limit xs e s
  case settled => exact hsettled
  case refused =>
    intro h hmem hreaches
    exact (hsettled h hmem hreaches).status_eq_bad_request
  case unread =>
    refine Exchange.forall_mem_history (fun x s hnot => ?_) xs s
    obtain ⟨hreaches, -⟩ | ⟨-, hunread⟩ := (Exchange.entry_cases x limit e s).1
    · exact absurd hreaches hnot
    · exact hunread
  case statements => exact Exchange.statements_history limit xs e s
  case counted => exact hcounted
  case exact =>
    intro k hk hbound
    rw [hk] at hcounted
    exact hcounted.exact hbound
  case once =>
    intro request hreaches attempts last hsub hattempts hlast hstatus
    have hmem : ∀ h ∈ attempts ++ [last], Settled limit e h := by
      intro h hh
      refine hsettled h (hsub.subset hh) ?_
      rcases List.mem_append.1 hh with hh | hh
      · exact (hattempts h hh).1 ▸ hreaches
      · exact List.mem_singleton.1 hh ▸ hlast ▸ hreaches
    obtain ⟨rs, hdecodes, hrows⟩ := (hmem last (by simp)).rows_of_ok hstatus
    refine ⟨rs, hlast ▸ hdecodes, ?_⟩
    have hnone : attempts.flatMap (·.rows) = [] := by
      refine List.flatMap_eq_nil_iff.2 fun h hh => ?_
      exact (hmem h (List.mem_append_left _ hh)).rows_of_ne_ok (hattempts h hh).2
    rw [List.flatMap_append, hnone, List.nil_append, List.flatMap_singleton, hrows]

/-- A batch is sent while every statement fails, and again after another sender's batch that is cut
short: it is in the table once. -/
theorem ledger_of_retry :
    let r : CostRecord := ⟨.cpu, "CPUPricingStrategy", 7, .ofList [("team", "web")], ⟨1714564800, 0⟩⟩
    let batch : Request := ⟨"POST", Service.ingestPath, none, Ndjson.encode [r]⟩
    let settings : ClickHouseSettings := { endpoint := "database" }
    let e : ClickHouseExporter := { ClickHouseExporter.fresh settings ["team"] with
      run := some (.start true) }
    let s : Surroundings :=
      ⟨.fresh, .silent "database" Database.usualPort [], ⟨"", 0, true, 200, [], ⟨0⟩⟩, 0, 0⟩
    let xs : List Exchange :=
      [⟨[""], batch⟩, ⟨[], { batch with body := batch.body.dropLast.dropLast }⟩, ⟨[], batch⟩]
    let history := Exchange.history 1000 e.head xs (.clickhouse e, s)
    history.map (·.response.status) = [503, 400, 200] ∧
      history.flatMap (·.rows) = e.rowsOf [r] ∧
      (Exchange.serveAll 1000 xs (.clickhouse e, s)).2.metrics.consumed.read "accepted" = .ofNat 1 := by
  intro r batch settings e s xs history
  have hstatus : history.map (·.response.status) = [503, 400, 200] := by decide +kernel
  have hbody : Ingest.Decodes 1000 batch [r] := Ingest.readBody_eq_ok.1 (by decide +kernel)
  have hread : Ingest.Reaches 1000 batch := by decide +kernel
  have hreadShort : Ingest.Reaches 1000 { batch with body := batch.body.dropLast.dropLast } := by
    decide +kernel
  obtain ⟨first, second, third, hhistory⟩ : ∃ a b c, history = [a, b, c] := ⟨_, _, _, rfl⟩
  rw [hhistory] at hstatus ⊢
  have hledger : IsLedger 1000 e xs s _ history := ledger_of_exchanges 1000 e xs s
  rw [hhistory] at hledger
  have hexchanges : [first.exchange, second.exchange, third.exchange] = xs := hledger.exchanges
  have hfirst := (List.cons.inj hexchanges).1
  have hsecond := (List.cons.inj (List.cons.inj hexchanges).2).1
  have hthird := (List.cons.inj (List.cons.inj (List.cons.inj hexchanges).2).2).1
  obtain ⟨hfailed, hrejected, hok⟩ : first.response.status = 503 ∧ second.response.status = 400 ∧
      third.response.status = 200 := by simpa using hstatus
  -- The batch is in the table by its two attempts, and the exchange between them added nothing.
  have hattempts : ∀ h ∈ [first], h.exchange.request = batch ∧ h.response.status ≠ 200 := by
    intro h hh
    rw [List.mem_singleton.1 hh, hfirst, hfailed]
    exact ⟨rfl, by decide⟩
  obtain ⟨rs, hdecodes, honce⟩ := hledger.once batch hread [first] third
    (List.Sublist.cons_cons first (List.sublist_cons_self second [third])) hattempts
    (congrArg Exchange.request hthird) hok
  have hnone : second.rows = [] :=
    (hledger.settled second (by simp) (hsecond ▸ hreadShort)).rows_of_ne_ok (by rw [hrejected]; decide)
  have hrows : [first, second, third].flatMap (·.rows) = e.rowsOf [r] := by
    rw [hdecodes.unique hbody] at honce
    simpa [hnone] using honce
  have hcount := hledger.exact 0 (by decide +kernel)
  rw [hrows] at hcount
  exact ⟨hstatus, hrows, hcount (by decide)⟩

end Chargeback
