import Chargeback.Pricing.Allocation
import Chargeback.Pricing.Table
import Chargeback.Record.Basic

/-!
# Pricing strategies

A strategy turns an inventory and a span of time into cost items. Three strategies price what
workloads ask for of one resource; the weighted strategy distributes what a node costs in
proportion to the requests on it; the node strategy prices what nodes have, whether it is asked
for or not.

What cannot be priced, for want of a known node or of a pricing entry, gives no item.
-/

namespace Chargeback

/-- A priced observation. -/
structure CostItem where
  kind : CostKind
  strategy : String
  value : Int
  workload : Option Workload
  node : Option Node
  deriving DecidableEq, Repr

/-- The ways of pricing an inventory. -/
inductive Strategy where
  | gpu
  | cpu
  | memory
  | weighted
  | node
  deriving DecidableEq, Repr

namespace Strategy

/-- Every strategy in the order of evaluation. -/
def all : List Strategy := [.gpu, .cpu, .memory, .weighted, .node]

/-- The name that items and records carry. -/
def name : Strategy → String
  | .cpu => "CPUPricingStrategy"
  | .memory => "MemoryPricingStrategy"
  | .gpu => "GPUPricingStrategy"
  | .weighted => "WeightedPricingStrategy"
  | .node => "NodePricingStrategy"

/-- The kind of the items. -/
def kind : Strategy → CostKind
  | .cpu => .cpu
  | .memory => .memory
  | .gpu => .gpu
  | .weighted => .weighted
  | .node => .node

/-- The strategy that a word of the configuration names. -/
def ofName? (s : String) : Option Strategy := all.find? (·.kind.name == s)

/-- An item of the strategy. -/
def item (s : Strategy) (value : Int) (w : Option Workload) (n : Option Node) : CostItem :=
  { kind := s.kind, strategy := s.name, value, workload := w, node := n }

/-- The cost of an amount of a resource. -/
def resourceCost (e : PricingEntry) (r : Resource) (quantity : Binary64) (span : Span) : Int :=
  match r with
  | .cpu => e.cpuCost quantity span
  | .memory => e.memoryCost quantity span
  | .gpu => e.gpuCost quantity span

/-- The item for the request of one workload for one resource. Workloads without GPUs are left
out of GPU pricing. -/
def requestItem? (s : Strategy) (r : Resource) (t : PricingTable) (span : Span)
    (nodes : Assoc Node) (w : Workload) : Option CostItem :=
  let requested := w.request r
  if r = .gpu ∧ requested = 0 then none
  else match nodes.get? w.nodeName with
    | none => none
    | some n => match t.find n.metadata.labels with
      | .error _ => none
      | .ok e => some (s.item (resourceCost e r (Binary64.ofInt requested) span) (some w) (some n))

/-- What workloads ask for of one resource at the rate of their nodes. -/
def requestItems (s : Strategy) (r : Resource) (t : PricingTable) (span : Span)
    (ws : List Workload) (ns : List Node) : List CostItem :=
  ws.filterMap (requestItem? s r t span (Node.byName ns))

/-- The item for the share of one workload in its node: each request scaled by the capacity for
each unit asked for. -/
def weightedItem? (t : PricingTable) (span : Span) (allocations : Assoc Allocation)
    (w : Workload) : Option CostItem :=
  match allocations.get? w.nodeName with
  | none => none
  | some a => match t.find a.node.metadata.labels with
    | .error _ => none
    | .ok e =>
      let share (r : Resource) : Int :=
        resourceCost e r (Binary64.ofInt (w.request r) * a.scaleFactor r) span
      let value := Amount.add (Amount.add (share .cpu) (share .memory)) (share .gpu)
      some (Strategy.weighted.item value (some w) (some a.node))

/-- The cost of every node distributed over the workloads on it. -/
def weightedItems (t : PricingTable) (span : Span) (ws : List Workload) (ns : List Node) :
    List CostItem :=
  ws.filterMap (weightedItem? t span (Allocation.all ws ns))

/-- The item for everything a node has. A node whose CPU or memory capacity cannot be read has
none; an unreadable number of GPUs counts as zero. -/
def nodeItem? (t : PricingTable) (span : Span) (n : Node) : Option CostItem :=
  match t.find n.metadata.labels, n.capacity .cpu, n.capacity .memory with
  | .ok e, .ok milli, .ok bytes =>
    let devices := match n.capacity .gpu with
      | .ok v => v
      | .error _ => 0
    let cost (r : Resource) (amount : Int) : Int :=
      resourceCost e r (Binary64.ofInt amount) span
    let value := Amount.add (Amount.add (cost .memory bytes) (cost .cpu milli)) (cost .gpu devices)
    some (Strategy.node.item value none (some n))
  | _, _, _ => none

/-- The cost of every node. -/
def nodeItems (t : PricingTable) (span : Span) (ns : List Node) : List CostItem :=
  ns.filterMap (nodeItem? t span)

/-- The items of one strategy. -/
def items (s : Strategy) (t : PricingTable) (span : Span) (ws : List Workload) (ns : List Node) :
    List CostItem :=
  match s with
  | .cpu => s.requestItems .cpu t span ws ns
  | .memory => s.requestItems .memory t span ws ns
  | .gpu => s.requestItems .gpu t span ws ns
  | .weighted => weightedItems t span ws ns
  | .node => nodeItems t span ns

end Strategy

/-- The items of several strategies, one after the other. -/
def calculate (ss : List Strategy) (t : PricingTable) (span : Span) (ws : List Workload)
    (ns : List Node) : List CostItem :=
  ss.flatMap fun s => s.items t span ws ns

end Chargeback
