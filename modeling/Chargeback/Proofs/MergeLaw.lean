import Chargeback.Export.Buffering
import Chargeback.Proofs.KeyedSum

/-!
# What a merge buffer makes of the records it receives

`MergeOf rs out` says that `out` is what became of the records `rs` in the buffer: one record for
every key, with the end time received last and the sum that stops at the ends of the range.

What a stage receives is divided at the places where its buffer was taken (`Intake`). The
ACCOUNT of a stage says that each part was merged into what was taken at its end, and that the
part still open is merged in the buffer. Receiving a record and taking the buffer keep it, so it
holds in every order of the two. As long as no sum stops at an end of the range, what was taken
and what is held add up to what was received.
-/

namespace Chargeback

open MergeBuffer

/-! ## Records merged by key -/

/-- `out` holds the records `rs` merged by key: one record for every key, with the kind, the strategy
and the dimensions of the key, the end time of the last record of the key and the sum of all its
amounts. -/
structure MergeOf (rs out : List CostRecord) : Prop where
  distinct : (out.map CostRecord.key).Nodup
  keys : ∀ k, k ∈ out.map CostRecord.key ↔ k ∈ rs.map CostRecord.key
  fields : ∀ r ∈ out, ∃ s ∈ rs,
    r.kind = s.kind ∧ r.strategy = s.strategy ∧ r.dimensions = s.dimensions
  endTime : ∀ r ∈ out, (r.key.within rs).getLast?.map (·.endTime) = some r.endTime
  value : ∀ r ∈ out, r.value = Amount.total (r.key.amounts rs)

/-- A record whose key is that of one of some records has its fields. -/
theorem exists_fields_of_key {r : CostRecord} {rs : List CostRecord}
    (h : r.key ∈ rs.map CostRecord.key) :
    ∃ s ∈ rs, r.kind = s.kind ∧ r.strategy = s.strategy ∧ r.dimensions = s.dimensions := by
  obtain ⟨s, hs, hkey⟩ := List.mem_map.1 h
  obtain ⟨hkind, hstrategy, hdimensions⟩ := CostKey.mk.inj hkey
  exact ⟨s, hs, hkind.symm, hstrategy.symm, hdimensions.symm⟩

theorem MergeOf.nil : MergeOf [] [] := by
  constructor <;> simp

theorem MergeOf.eq_nil {rs : List CostRecord} (h : MergeOf rs []) : rs = [] := by
  cases rs with
  | nil => rfl
  | cons r rs => simpa using (h.keys r.key).2 (by simp)

theorem MergeOf.out_eq_nil {out : List CostRecord} (h : MergeOf [] out) : out = [] := by
  cases out with
  | nil => rfl
  | cons r out => simpa using (h.keys r.key).1 (by simp)

/-- A record of the buffer after one more was received is an old one of another key, an old one
of the same key with the new one merged into it, or the new one. -/
theorem mem_receive {r x : CostRecord} {xs : List CostRecord}
    (hnd : (xs.map CostRecord.key).Nodup) (hx : x ∈ receive r xs) :
    (x ∈ xs ∧ x.key ≠ r.key) ∨ (∃ y ∈ xs, y.key = r.key ∧ x = merged y r) ∨
      (r.key ∉ xs.map CostRecord.key ∧ x = r) := by
  induction xs with
  | nil => exact .inr (.inr ⟨by simp, by simpa [receive] using hx⟩)
  | cons y ys ih =>
      rw [List.map_cons, List.nodup_cons] at hnd
      by_cases hy : y.key = r.key
      · rw [receive, if_pos hy] at hx
        rcases List.mem_cons.1 hx with rfl | hx
        · exact .inr (.inl ⟨y, List.mem_cons_self, hy, rfl⟩)
        · refine .inl ⟨List.mem_cons_of_mem _ hx, fun hk => hnd.1 ?_⟩
          rw [hy, ← hk]
          exact List.mem_map_of_mem hx
      · rw [receive, if_neg hy] at hx
        rcases List.mem_cons.1 hx with rfl | hx
        · exact .inl ⟨List.mem_cons_self, hy⟩
        · rcases ih hnd.2 hx with ⟨hmem, hne⟩ | ⟨z, hz, hk, rfl⟩ | ⟨hnew, rfl⟩
          · exact .inl ⟨List.mem_cons_of_mem _ hmem, hne⟩
          · exact .inr (.inl ⟨z, List.mem_cons_of_mem _ hz, hk, rfl⟩)
          · refine .inr (.inr ⟨?_, rfl⟩)
            simpa [Ne.symm hy] using hnew

theorem MergeOf.keys_receive {rs out : List CostRecord} (h : MergeOf rs out) (r : CostRecord)
    (k : CostKey) : k ∈ (MergeBuffer.receive r out).map CostRecord.key ↔
      k ∈ (rs ++ [r]).map CostRecord.key := by
  rw [mem_keys_receive, h.keys]
  simp [or_comm, eq_comm]

/-- Receiving one more record keeps the buffer the merge of what was received. -/
theorem MergeOf.receive {rs out : List CostRecord} (h : MergeOf rs out) (r : CostRecord) :
    MergeOf (rs ++ [r]) (MergeBuffer.receive r out) where
  distinct := nodup_keys_receive r h.distinct
  keys := h.keys_receive r
  fields x hx := exists_fields_of_key ((h.keys_receive r x.key).1 (List.mem_map_of_mem hx))
  endTime x hx := by
    rcases mem_receive h.distinct hx with ⟨hmem, hne⟩ | ⟨y, -, hk, rfl⟩ | ⟨hnew, rfl⟩
    · rw [CostKey.within_concat_of_ne (Ne.symm hne)]
      exact h.endTime x hmem
    · rw [key_merged, hk, CostKey.within_concat_self]
      simp [merged]
    · rw [CostKey.within_concat_self]
      simp
  value x hx := by
    rcases mem_receive h.distinct hx with ⟨hmem, hne⟩ | ⟨y, hmem, hk, rfl⟩ | ⟨hnew, rfl⟩
    · rw [CostKey.amounts, CostKey.within_concat_of_ne (Ne.symm hne)]
      exact h.value x hmem
    · have hold : r.key.amounts rs ≠ [] := by
        rw [Ne, CostKey.amounts_eq_nil, not_not, ← h.keys, ← hk]
        exact List.mem_map_of_mem hmem
      rw [key_merged, hk, CostKey.amounts_concat_self, Amount.total_concat hold, ← hk,
        ← h.value y hmem]
      rfl
    · have hold : x.key.amounts rs = [] := CostKey.amounts_eq_nil.2 (mt (h.keys _).2 hnew)
      rw [CostKey.amounts_concat_self, hold]
      rfl

/-- Merging keeps the sum under a key if no partial sum leaves the range. -/
theorem MergeOf.sumOf_eq {rs out : List CostRecord} (h : MergeOf rs out) {k : CostKey}
    (hexact : Amount.Exact (k.amounts rs)) : k.sumOf out = k.sumOf rs := by
  by_cases hk : k ∈ out.map CostRecord.key
  · obtain ⟨r, hr, rfl⟩ := List.mem_map.1 hk
    rw [CostKey.sumOf_of_mem h.distinct hr, h.value r hr, Amount.total_eq_sum hexact]
    rfl
  · rw [CostKey.sumOf_eq_zero hk, CostKey.sumOf_eq_zero (mt (h.keys k).2 hk)]

/-- Merging several lists keeps the sum under a key if no partial sum leaves the range. -/
theorem MergeOf.sumOf_flatten {parts outs : List (List CostRecord)}
    (h : List.Forall₂ MergeOf parts outs) {k : CostKey}
    (hexact : ∀ part ∈ parts, Amount.Exact (k.amounts part)) :
    k.sumOf outs.flatten = k.sumOf parts.flatten := by
  induction h with
  | nil => rfl
  | cons hpart _ ih =>
      rw [List.flatten_cons, List.flatten_cons, CostKey.sumOf_append, CostKey.sumOf_append,
        hpart.sumOf_eq (hexact _ List.mem_cons_self),
        ih fun part hmem => hexact part (List.mem_cons_of_mem _ hmem)]

/-- Merging several lists brings in no key and loses none. -/
theorem MergeOf.mem_keys_flatten {parts outs : List (List CostRecord)}
    (h : List.Forall₂ MergeOf parts outs) (k : CostKey) :
    k ∈ outs.flatten.map CostRecord.key ↔ k ∈ parts.flatten.map CostRecord.key := by
  induction h with
  | nil => rfl
  | cons hpart _ ih =>
      rw [List.flatten_cons, List.flatten_cons, List.map_append, List.map_append,
        List.mem_append, List.mem_append, hpart.keys, ih]

theorem MergeOf.nodup_keys {parts outs : List (List CostRecord)}
    (h : List.Forall₂ MergeOf parts outs) : ∀ out ∈ outs, (out.map CostRecord.key).Nodup := by
  induction h with
  | nil => simp
  | cons hpart _ ih => exact List.forall_mem_cons.2 ⟨hpart.distinct, ih⟩

theorem MergeBuffer.eq_empty {b : MergeBuffer} (h : b.records = []) : b = .empty := by
  obtain ⟨records, distinct⟩ := b
  subst h
  rfl

/-! ## The account of a stage -/

/-- The records that a stage received, divided at the places where its buffer was taken. -/
structure Intake where
  /-- What was received up to each of these places, since the one before. -/
  closed : List (List CostRecord) := []
  /-- What was received since the last of them. -/
  pending : List CostRecord := []
  deriving DecidableEq, Repr

namespace Intake

/-- One more record is received. -/
def receive (r : CostRecord) (i : Intake) : Intake := { i with pending := i.pending ++ [r] }

/-- The buffer is taken. -/
def cut (i : Intake) : Intake := { closed := i.closed ++ [i.pending], pending := [] }

/-- Everything received, in order. -/
def all (i : Intake) : List CostRecord := i.closed.flatten ++ i.pending

/-- No sum under a key stopped at an end of the range, in any of the parts. -/
def Exact (k : CostKey) (i : Intake) : Prop :=
  ∀ part ∈ i.closed ++ [i.pending], Amount.Exact (k.amounts part)

instance (k : CostKey) (i : Intake) : Decidable (i.Exact k) :=
  inferInstanceAs (Decidable (∀ part ∈ _, _))

@[simp] theorem all_receive (r : CostRecord) (i : Intake) : (i.receive r).all = i.all ++ [r] := by
  simp [all, receive]

@[simp] theorem all_cut (i : Intake) : i.cut.all = i.all := by
  simp [all, cut]

end Intake

/-- The account of a stage: each closed part of its intake was merged into what was taken at its
end, and the open part is merged in the buffer. -/
structure MergeAccount (i : Intake) (taken : List (List CostRecord)) (b : MergeBuffer) :
    Prop where
  taken : List.Forall₂ MergeOf i.closed taken
  held : MergeOf i.pending b.records

namespace MergeAccount

variable {i : Intake} {taken : List (List CostRecord)} {b : MergeBuffer}

theorem empty : MergeAccount {} [] .empty := ⟨.nil, .nil⟩

theorem push (h : MergeAccount i taken b) (r : CostRecord) :
    MergeAccount (i.receive r) taken (b.push r) :=
  ⟨h.taken, h.held.receive r⟩

theorem drain (h : MergeAccount i taken b) :
    MergeAccount i.cut (taken ++ [b.drain.1]) b.drain.2 :=
  ⟨List.rel_append h.taken (.cons h.held .nil), .nil⟩

/-- What was taken and what is held add up to what was received. -/
theorem sumOf_all (h : MergeAccount i taken b) {k : CostKey} (hexact : i.Exact k) :
    k.sumOf taken.flatten + k.sumOf b.records = k.sumOf i.all := by
  have hopen : Amount.Exact (k.amounts i.pending) := hexact _ (by simp)
  have hclosed : ∀ part ∈ i.closed, Amount.Exact (k.amounts part) := fun part hpart =>
    hexact part (List.mem_append_left _ hpart)
  rw [MergeOf.sumOf_flatten h.taken hclosed, h.held.sumOf_eq hopen, Intake.all,
    CostKey.sumOf_append]

/-- Once nothing is pending, what was taken has the keys of what was received, and as long as no sum
stops at an end of the range the same sums. -/
theorem conserves (h : MergeAccount i taken b) (hpending : i.pending = [])
    {delivered : List CostRecord} (hperm : delivered.Perm taken.flatten) (k : CostKey) :
    (k ∈ delivered.map CostRecord.key ↔ k ∈ i.all.map CostRecord.key) ∧
      (i.Exact k → k.sumOf delivered = k.sumOf i.all) := by
  constructor
  · rw [(hperm.map CostRecord.key).mem_iff, MergeOf.mem_keys_flatten h.taken, Intake.all, hpending,
      List.append_nil]
  · intro hexact
    have hbuffer : b.records = [] := (hpending ▸ h.held).out_eq_nil
    rw [k.sumOf_eq_of_perm hperm, ← h.sumOf_all hexact, hbuffer, CostKey.sumOf_nil, Int.add_zero]

end MergeAccount

/-! ## Receiving and draining in any order -/

/-- What may happen to the buffer of a stage; each is one atomic step of some caller. -/
inductive BufferOp where
  /-- A record is received. -/
  | receive (r : CostRecord)
  /-- Everything is taken by a caller. -/
  | drain
  /-- Everything is taken in order to be handed on. -/
  | flush
  deriving DecidableEq, Repr

namespace BufferOp

/-- The record received, if any. -/
def record? : BufferOp → Option CostRecord
  | .receive r => some r
  | _ => none

/-- The records received by a list of operations. -/
def received (ops : List BufferOp) : List CostRecord := ops.filterMap record?

/-- The intake of a stage after one more operation. -/
def addTo (i : Intake) : BufferOp → Intake
  | .receive r => i.receive r
  | .drain => i.cut
  | .flush => i.cut

/-- What a list of operations hands to a stage, divided where the buffer is taken. -/
def intake (ops : List BufferOp) : Intake := ops.foldl addTo {}

theorem all_foldl_addTo (ops : List BufferOp) (i : Intake) :
    (ops.foldl addTo i).all = i.all ++ received ops := by
  induction ops generalizing i with
  | nil => simp [received]
  | cons op ops ih =>
      rw [List.foldl_cons, ih]
      cases op <;> simp [addTo, received, List.filterMap_cons, record?]

theorem all_intake (ops : List BufferOp) : (intake ops).all = received ops := by
  simpa [intake, Intake.all] using all_foldl_addTo ops {}

end BufferOp

namespace Buffering

/-- What an operation makes of a stage, and what was taken out of its buffer. -/
def operate : BufferOp → Buffering × Metrics → List (List CostRecord) × Buffering × Metrics
  | .receive r, s => ([], (step (.push r) s).2)
  | .drain, (b, m) => let (records, s) := b.drain m; ([records], s)
  | .flush, s => let (records, s) := step .flush s; ([records], s)

/-- What a list of operations makes of a stage, and what was taken by each that took the buffer. -/
def operateAll : List BufferOp → Buffering × Metrics →
    List (List CostRecord) × Buffering × Metrics
  | [], s => ([], s)
  | op :: ops, s =>
    let (taken, s) := operate op s
    let (rest, s) := operateAll ops s
    (taken ++ rest, s)

/-- One operation keeps the account of a stage. -/
theorem account_operate (op : BufferOp) {i : Intake} {taken : List (List CostRecord)}
    {s : Buffering × Metrics} (h : MergeAccount i taken s.1.buffer) :
    MergeAccount (op.addTo i) (taken ++ (operate op s).1) (operate op s).2.1.buffer := by
  obtain ⟨b, m⟩ := s
  cases op with
  | receive r =>
      rw [operate, List.append_nil]
      exact h.push r
  | drain => exact h.drain
  | flush => exact h.drain

/-- A list of operations keeps the account of a stage. -/
theorem account_operateAll (ops : List BufferOp) {i : Intake} {taken : List (List CostRecord)}
    {s : Buffering × Metrics} (h : MergeAccount i taken s.1.buffer) :
    MergeAccount (ops.foldl BufferOp.addTo i) (taken ++ (operateAll ops s).1)
      (operateAll ops s).2.1.buffer := by
  induction ops generalizing i taken s with
  | nil => simpa [operateAll] using h
  | cons op ops ih =>
      have hstep := ih (account_operate op h)
      rw [List.append_assoc] at hstep
      exact hstep

/-- **The law of the merge buffer.** However the records of any number of producers come in
between the drains and flushes of a stage, each of these takes what was received since the one
before, merged by key, and the rest is merged in the buffer. As long as no sum stops at an end of
the range, what was taken and what is held add up to what was received, key by key. -/
theorem taken_merges (b : Buffering) (m : Metrics) (hempty : b.buffer = .empty)
    (ops : List BufferOp) :
    let after := operateAll ops (b, m)
    List.Forall₂ MergeOf (BufferOp.intake ops).closed after.1 ∧
      MergeOf (BufferOp.intake ops).pending after.2.1.buffer.records ∧
      ∀ k : CostKey, (BufferOp.intake ops).Exact k →
        k.sumOf after.1.flatten + k.sumOf after.2.1.buffer.records =
          k.sumOf (BufferOp.received ops) := by
  have hstart : MergeAccount {} [] b.buffer := hempty ▸ MergeAccount.empty
  have haccount := account_operateAll ops (s := (b, m)) hstart
  refine ⟨haccount.taken, haccount.held, fun k hexact => ?_⟩
  rw [← BufferOp.all_intake]
  exact haccount.sumOf_all hexact

/-- An amount for processor time without dimensions, in the second given. -/
def cpuRecord (value seconds : Int) : CostRecord where
  kind := .cpu
  strategy := "CPUPricingStrategy"
  value
  dimensions := .empty
  endTime := ⟨seconds, 0⟩

/-- Two records of one key are drained as one; a third waits for the next drain. -/
theorem taken_merges_two_then_one :
    let b := fresh "stats" (.ofSeconds 300)
    let k := (cpuRecord 0 0).key
    let ops : List BufferOp :=
      [.receive (cpuRecord 5 100), .receive (cpuRecord 3 200), .drain, .receive (cpuRecord 2 300)]
    let after := operateAll ops (b, .fresh)
    b.buffer = .empty ∧ (BufferOp.intake ops).Exact k ∧
      List.Forall₂ MergeOf [[cpuRecord 5 100, cpuRecord 3 200]] after.1 ∧
      k.sumOf after.1.flatten + k.sumOf after.2.1.buffer.records = 10 := by
  intro b k ops after
  have hexact : (BufferOp.intake ops).Exact k := by decide
  obtain ⟨htaken, -, hsum⟩ := taken_merges b .fresh rfl ops
  exact ⟨rfl, hexact, htaken, hsum k hexact⟩

example : (operateAll [.receive (cpuRecord 5 100), .receive (cpuRecord 3 200), .drain]
    (fresh "stats" (.ofSeconds 300), .fresh)).1 = [[cpuRecord 8 200]] := by decide

end Buffering

end Chargeback
