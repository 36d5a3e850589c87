import Chargeback.Inventory.Manifest
import Chargeback.Pricing.Strategy

/-!
# The view of a cost item

The tree in which mapping rules look up dimensions: kind, strategy and value of the item, its
workload under `Pod` and its node under `Node`, each only if the item has one. The metadata of an
object stand under `ObjectMeta` and, promoted, in the object itself.
-/

namespace Chargeback

namespace CostItem

/-- The metadata fields of a node, in the order of their names. -/
def nodeMeta (m : Metadata) : List (String × Datum) :=
  [("Labels", Labels.toDatum m.labels), ("Name", .text m.name)]

/-- The metadata fields of a workload, in the order of their names. -/
def workloadMeta (m : Metadata) : List (String × Datum) :=
  [("Annotations", Labels.toDatum m.annotations), ("Labels", Labels.toDatum m.labels),
    ("Name", .text m.name), ("Namespace", .text m.namespaceName)]

/-- The view of a workload. -/
def workloadView (w : Workload) : Datum :=
  let fields := workloadMeta w.metadata
  .ofFields (fields ++ [("ObjectMeta", .ofFields fields),
    ("Spec", .ofFields [("NodeName", .text w.nodeName)]),
    ("Status", .ofFields [("Phase", .text w.phase)])])

/-- The view of a node. -/
def nodeView (n : Node) : Datum :=
  let fields := nodeMeta n.metadata
  .ofFields (fields ++ [("ObjectMeta", .ofFields fields)])

/-- The view of an item. -/
def view (i : CostItem) : Datum :=
  .ofFields ([("Kind", .text i.kind.name)] ++
    (i.node.toList.map fun n => ("Node", nodeView n)) ++
    (i.workload.toList.map fun w => ("Pod", workloadView w)) ++
    [("Strategy", .text i.strategy), ("Value", .integer i.value)])

end CostItem

end Chargeback
