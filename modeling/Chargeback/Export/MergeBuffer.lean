import Chargeback.Number.Amount
import Chargeback.Record.Basic

/-!
# The merge buffer

A buffer holds at most one record for every key. A record for a key that is there already is
MERGED into it: the amounts are added, stopping at the ends of their range, and the end time is
that of the record received last. Draining takes everything at once.
-/

namespace Chargeback

/-- Records waiting for the next flush, one for every key, in the order in which the keys were
first received. -/
structure MergeBuffer where
  records : List CostRecord
  distinct : (records.map CostRecord.key).Nodup
  deriving DecidableEq, Repr

namespace MergeBuffer

/-! ## Receiving one record -/

/-- The record in the buffer with a later one of the same key added. -/
def merged (held r : CostRecord) : CostRecord :=
  { held with value := Amount.add held.value r.value, endTime := r.endTime }

/-- The records after one more was received. -/
def receive (r : CostRecord) : List CostRecord → List CostRecord
  | [] => [r]
  | x :: xs => if x.key = r.key then merged x r :: xs else x :: receive r xs

@[simp] theorem key_merged (held r : CostRecord) : (merged held r).key = held.key := rfl

/-- A key is held afterwards if it was held before or is that of the record received. -/
theorem mem_keys_receive (r : CostRecord) (xs : List CostRecord) (k : CostKey) :
    k ∈ (receive r xs).map CostRecord.key ↔ k = r.key ∨ k ∈ xs.map CostRecord.key := by
  induction xs with
  | nil => simp [receive]
  | cons x xs ih =>
    unfold receive
    split
    next h => simp [h]
    next h =>
      rw [List.map_cons, List.mem_cons, ih, List.map_cons, List.mem_cons]
      exact or_left_comm

theorem nodup_keys_receive (r : CostRecord) {xs : List CostRecord}
    (h : (xs.map CostRecord.key).Nodup) : ((receive r xs).map CostRecord.key).Nodup := by
  induction xs with
  | nil => simp [receive]
  | cons x xs ih =>
    rw [List.map_cons, List.nodup_cons] at h
    unfold receive
    split
    · simpa using h
    next hne =>
      rw [List.map_cons, List.nodup_cons]
      refine ⟨fun hmem => ?_, ih h.2⟩
      rcases (mem_keys_receive r xs x.key).1 hmem with hk | hk
      · exact hne hk
      · exact h.1 hk

/-! ## The buffer -/

/-- The buffer without records. -/
def empty : MergeBuffer := ⟨[], List.nodup_nil⟩

instance : Inhabited MergeBuffer := ⟨empty⟩

/-- Receives one record. -/
def push (r : CostRecord) (b : MergeBuffer) : MergeBuffer :=
  ⟨receive r b.records, nodup_keys_receive r b.distinct⟩

/-- The number of records held. -/
def size (b : MergeBuffer) : Nat := b.records.length

/-- Takes every record and leaves the empty buffer. -/
def drain (b : MergeBuffer) : List CostRecord × MergeBuffer := (b.records, empty)

/-- The record held for a key. -/
def find? (k : CostKey) (b : MergeBuffer) : Option CostRecord := b.records.find? (·.key == k)

end MergeBuffer

end Chargeback
