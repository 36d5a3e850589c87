import Chargeback.Assoc
import Chargeback.Time.Instant

/-!
# Cost records

A record says what an amount of cost, in millionths of a cent, is for: its kind, the strategy
that priced it, its dimensions and the end of the time it covers. Records with the same kind,
strategy and dimensions are about the same cost, so their amounts can be added.
-/

namespace Chargeback

/-- What a cost figure stands for. -/
inductive CostKind where
  | cpu
  | memory
  | gpu
  | weighted
  | node
  deriving DecidableEq, Repr

namespace CostKind

/-- The word for the kind. -/
def name : CostKind → String
  | .cpu => "cpu"
  | .memory => "memory"
  | .gpu => "gpu"
  | .weighted => "weighted"
  | .node => "node"

/-- All kinds in their order. -/
def all : List CostKind := [.cpu, .memory, .gpu, .weighted, .node]

/-- The kind that a word names. -/
def ofName? (s : String) : Option CostKind := all.find? (·.name == s)

end CostKind

/-- What a record is about. -/
structure CostKey where
  kind : CostKind
  strategy : String
  dimensions : Labels
  deriving DecidableEq, Repr

/-- An amount of cost. -/
structure CostRecord where
  kind : CostKind
  strategy : String
  value : Int
  dimensions : Labels
  endTime : Instant
  deriving DecidableEq, Repr

namespace CostRecord

/-- What the record is about. -/
def key (r : CostRecord) : CostKey := ⟨r.kind, r.strategy, r.dimensions⟩

end CostRecord

end Chargeback
