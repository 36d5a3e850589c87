import Chargeback.Pricing.Strategy
import Chargeback.Proofs.NodeAccount

/-!
# The tenants of a node are priced by themselves

Every strategy prices the whole inventory at once, and the weighted strategy does so with one
table of allocations that all workloads are charged to. Still the items of one node are those of
a cluster which consists of that node only (`items_concerning`). So they stay the same whatever
happens elsewhere: to workloads on other nodes or on no node at all, and to the other nodes, be
they without a price or without a capacity that can be read (`calculate_concerning`).

The reason is the same for all strategies. An item is made of one member of the inventory, and what
is looked up for it is looked up under the name of its node, where nothing is kept but what the
members of that name have put there.
-/

namespace Chargeback

/-- What is made of the members of a list may be selected before it is made, if the selection agrees
and what is made of the selected members is the same. -/
theorem filter_filterMap {α β : Type} {l : List α} {f g : α → Option β} {p : β → Bool}
    {q : α → Bool} (hselect : ∀ a b, f a = some b → p b = q a)
    (hmade : ∀ a, q a = true → f a = g a) :
    (l.filterMap f).filter p = (l.filter q).filterMap g := by
  induction l with
  | nil => rfl
  | cons a l ih =>
      rw [List.filterMap_cons]
      by_cases hq : q a = true
      · rw [List.filter_cons_of_pos hq, List.filterMap_cons, ← hmade a hq]
        cases hf : f a with
        | none => exact ih
        | some b =>
            have hp : p b = true := (hselect a b hf).trans hq
            show (b :: l.filterMap f).filter p = b :: (l.filter q).filterMap g
            rw [List.filter_cons_of_pos hp, ih]
      · rw [List.filter_cons_of_neg hq]
        cases hf : f a with
        | none => exact ih
        | some b =>
            have hp : ¬p b = true := by
              rw [hselect a b hf]
              exact hq
            show (b :: l.filterMap f).filter p = _
            rw [List.filter_cons_of_neg hp, ih]

/-! ## What belongs to a node -/

/-- The workload is scheduled on the node of a name. -/
def Workload.isOn (k : String) (w : Workload) : Bool := w.nodeName = k

/-- The node has a name. -/
def Node.isNamed (k : String) (n : Node) : Bool := n.metadata.name = k

/-- The item is for a workload on the node of a name or, without a workload, for a node of that
name. -/
def CostItem.concerns (k : String) (i : CostItem) : Bool :=
  match i.workload with
  | some w => w.isOn k
  | none => i.node.any (·.isNamed k)

variable {k : String} {ws : List Workload} {ns : List Node} {w : Workload}

/-! ## What is looked up under the name of a node -/

theorem Node.named?_isNamed (ns : List Node) (k : String) :
    Node.named? (ns.filter (·.isNamed k)) k = Node.named? ns k := by
  simp [named?, isNamed, List.filter_filter]

theorem Node.get?_byName_isNamed (hw : w.isOn k = true) :
    (Node.byName ns).get? w.nodeName = (Node.byName (ns.filter (·.isNamed k))).get? w.nodeName := by
  obtain rfl : w.nodeName = k := by simpa [Workload.isOn] using hw
  rw [get?_byName, get?_byName, named?_isNamed]

/-- The workloads on other nodes have no part in the account of a node. -/
theorem Allocation.account_isOn {n : Node} (hn : n.metadata.name = k) :
    account (ws.filter (·.isOn k)) n = account ws n := by
  simp [account, Workload.isOn, hn, List.filter_filter]

/-- The allocation of a node is that of the node with its own workloads. -/
theorem Allocation.get?_all_isNamed (hw : w.isOn k = true) :
    (all ws ns).get? w.nodeName =
      (all (ws.filter (·.isOn k)) (ns.filter (·.isNamed k))).get? w.nodeName := by
  obtain rfl : w.nodeName = k := by simpa [Workload.isOn] using hw
  rw [get?_all, get?_all, Node.named?_isNamed]
  cases hnamed : Node.named? ns w.nodeName with
  | none => rfl
  | some n =>
      have hn : n.metadata.name = w.nodeName := by
        simpa using (List.mem_filter.1 (List.mem_of_getLast? hnamed)).2
      rw [Option.map_some, Option.map_some, account_isOn hn]

/-! ## The items of a node -/

namespace Strategy

variable {s : Strategy} {t : PricingTable} {span : Span} {i : CostItem}

theorem workload_of_requestItem? {r : Resource} {nodes : Assoc Node}
    (h : s.requestItem? r t span nodes w = some i) : i.workload = some w := by
  simp only [requestItem?] at h
  split at h
  · cases h
  · split at h
    · cases h
    · split at h
      · cases h
      · cases h
        rfl

theorem workload_of_weightedItem? {allocations : Assoc Allocation}
    (h : weightedItem? t span allocations w = some i) : i.workload = some w := by
  unfold weightedItem? at h
  split at h
  · cases h
  · split at h
    · cases h
    · cases h
      rfl

theorem node_of_nodeItem? {n : Node} (h : nodeItem? t span n = some i) :
    i.workload = none ∧ i.node = some n := by
  unfold nodeItem? at h
  split at h
  · cases h
    exact ⟨rfl, rfl⟩
  · cases h

variable (s t span k ws ns)

theorem requestItems_concerning (r : Resource) :
    (s.requestItems r t span ws ns).filter (·.concerns k) =
      s.requestItems r t span (ws.filter (·.isOn k)) (ns.filter (·.isNamed k)) := by
  refine filter_filterMap ?_ ?_
  · intro w i hi
    rw [CostItem.concerns, workload_of_requestItem? hi]
  · intro w hw
    rw [requestItem?, requestItem?, Node.get?_byName_isNamed hw]

theorem weightedItems_concerning :
    (weightedItems t span ws ns).filter (·.concerns k) =
      weightedItems t span (ws.filter (·.isOn k)) (ns.filter (·.isNamed k)) := by
  refine filter_filterMap ?_ ?_
  · intro w i hi
    rw [CostItem.concerns, workload_of_weightedItem? hi]
  · intro w hw
    rw [weightedItem?, weightedItem?, Allocation.get?_all_isNamed hw]

theorem nodeItems_concerning :
    (nodeItems t span ns).filter (·.concerns k) = nodeItems t span (ns.filter (·.isNamed k)) := by
  refine filter_filterMap ?_ ?_
  · intro n i hi
    obtain ⟨hworkload, hnode⟩ := node_of_nodeItem? hi
    rw [CostItem.concerns, hworkload, hnode]
    rfl
  · intro n _
    rfl

/-- The items of a node are those of the cluster that has nothing but this node and its tenants. -/
theorem items_concerning :
    (s.items t span ws ns).filter (·.concerns k) =
      s.items t span (ws.filter (·.isOn k)) (ns.filter (·.isNamed k)) := by
  cases s with
  | cpu | memory | gpu => exact requestItems_concerning k ws ns _ t span _
  | weighted => exact weightedItems_concerning k ws ns t span
  | node => exact nodeItems_concerning k ns t span

end Strategy

theorem calculate_concerns (ss : List Strategy) (t : PricingTable) (span : Span) (k : String)
    (ws : List Workload) (ns : List Node) :
    (calculate ss t span ws ns).filter (·.concerns k) =
      calculate ss t span (ws.filter (·.isOn k)) (ns.filter (·.isNamed k)) := by
  rw [calculate, List.filter_flatMap]
  exact congrArg (ss.flatMap ·) (funext fun s => s.items_concerning k ws ns t span)

/-- **Tenants of a node are priced independently of the rest of the cluster.** Two inventories with
the same workloads on a node and the same nodes of its name, in the same order, give the same items
for them, by each strategy and by all strategies together. -/
theorem calculate_concerning (ss : List Strategy) (t : PricingTable) (span : Span) (k : String)
    {ws ws' : List Workload} {ns ns' : List Node}
    (hws : ws.filter (·.isOn k) = ws'.filter (·.isOn k))
    (hns : ns.filter (·.isNamed k) = ns'.filter (·.isNamed k)) :
    (∀ s : Strategy, (s.items t span ws ns).filter (·.concerns k) =
      (s.items t span ws' ns').filter (·.concerns k)) ∧
      (calculate ss t span ws ns).filter (·.concerns k) =
        (calculate ss t span ws' ns').filter (·.concerns k) := by
  constructor
  · intro s
    rw [s.items_concerning k ws ns, s.items_concerning k ws' ns', hws, hns]
  · rw [calculate_concerns, calculate_concerns, hws, hns]

/-- The tenant of a node that can be read shares its cluster with a node that cannot, a workload on
that one and a workload on no node at all. None of them shows in what it costs. -/
theorem calculate_concerning_quiet_neighbours :
    let tenant (node cpu : String) : Workload :=
      { nodeName := node, containers := [{ requests := .ofList [("cpu", ⟨cpu⟩)] }] }
    let member (name cpu : String) : Node :=
      { metadata := { name }, capacities := .ofList [("cpu", ⟨cpu⟩)] }
    let t : PricingTable := { entries := [{ cpuRate := .ofNat 6 }] }
    let alone := calculate Strategy.all t (.ofSeconds 60) [tenant "n" "1"] [member "n" "4"]
    let crowded := calculate Strategy.all t (.ofSeconds 60)
      [tenant "m" "1", tenant "n" "1", tenant "nowhere" "2"] [member "m" "much", member "n" "4"]
    alone.filter (·.concerns "n") = crowded.filter (·.concerns "n") ∧
      (alone.filter (·.concerns "n")).length = 4 ∧ alone ≠ crowded := by
  intro tenant member t alone crowded
  have hws : [tenant "n" "1"].filter (·.isOn "n") =
      [tenant "m" "1", tenant "n" "1", tenant "nowhere" "2"].filter (·.isOn "n") := by decide
  have hns : [member "n" "4"].filter (·.isNamed "n") =
      [member "m" "much", member "n" "4"].filter (·.isNamed "n") := by decide
  exact ⟨(calculate_concerning Strategy.all t (.ofSeconds 60) "n" hws hns).2,
    by decide +kernel, by decide +kernel⟩

end Chargeback
