import Chargeback.Assoc
import Chargeback.Inventory.Quantity

/-!
# The inventory of a cluster

Workloads ask for resources and are scheduled on nodes, which advertise them. Prices are per
milli-CPU, per byte of memory and per whole GPU.
-/

namespace Chargeback

/-- The resources that have a price. -/
inductive Resource where
  | cpu
  | memory
  | gpu
  deriving DecidableEq, Repr

namespace Resource

/-- The name under which objects list the resource. -/
def name : Resource → String
  | .cpu => "cpu"
  | .memory => "memory"
  | .gpu => "nvidia.com/gpu"

/-- The quantity in the unit that has a price. -/
def unitsOf (r : Resource) (q : Quantity) : Except QuantityError Int :=
  match r with
  | .cpu => q.milli
  | .memory => q.value
  | .gpu => q.value

end Resource

/-- What workloads and nodes have in common. -/
structure Metadata where
  name : String := ""
  namespaceName : String := ""
  labels : Labels := .empty
  annotations : Labels := .empty
  deriving DecidableEq, Repr, Inhabited

/-- A container of a workload and what it asks for. -/
structure Container where
  name : String := ""
  requests : Assoc Quantity := .empty
  deriving DecidableEq, Repr, Inhabited

/-- A unit of scheduling. -/
structure Workload where
  metadata : Metadata := {}
  nodeName : String := ""
  containers : List Container := []
  phase : String := ""
  deriving DecidableEq, Repr, Inhabited

/-- A member of the cluster and what it advertises. -/
structure Node where
  metadata : Metadata := {}
  capacities : Assoc Quantity := .empty
  deriving DecidableEq, Repr, Inhabited

namespace Workload

/-- The key of the workload in a snapshot. -/
def key (w : Workload) : String := w.metadata.namespaceName ++ "/" ++ w.metadata.name

/-- The workload is in its running phase. -/
def isRunning (w : Workload) : Bool := w.phase == "Running"

end Workload

namespace Node

/-- The key of the node in a snapshot. -/
def key (n : Node) : String := n.metadata.name

/-- The capacity for a resource in the unit that has a price; zero if the node does not
advertise it. -/
def capacity (n : Node) (r : Resource) : Except QuantityError Int :=
  match n.capacities.get? r.name with
  | some q => r.unitsOf q
  | none => .ok 0

end Node

end Chargeback
