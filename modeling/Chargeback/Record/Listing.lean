import Chargeback.Record.Basic
import Chargeback.Time.Rfc3339

/-!
# Listings of records

Records that were gathered in no particular order are listed by kind, strategy and dimensions,
and those about the same cost by value and end time.
-/

namespace Chargeback.CostRecord

/-- What a record is about, as words that are compared from the first on. -/
def words (r : CostRecord) : List String :=
  r.kind.name :: r.strategy :: r.dimensions.entries.flatMap fun (k, v) => [k, v]

/-- The first record may stand before the second one. -/
def isListedBefore (a b : CostRecord) : Bool :=
  if a.words != b.words then a.words < b.words
  else if a.value != b.value then a.value < b.value
  else a.endTime.toText ≤ b.endTime.toText

/-- The records in the order of a listing. -/
def listed (rs : List CostRecord) : List CostRecord := rs.mergeSort isListedBefore

end Chargeback.CostRecord
