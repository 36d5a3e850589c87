import Chargeback.Pricing.Strategy
import Chargeback.Proofs.AllocationTable

/-!
# What the strategies price

Whether a workload is priced, on which node and with which entry, is the same for all strategies that
price workloads: this is its RATING, and a workload has one if its node is known and some entry fits
that node. The strategies for one resource look up the node by its name and the weighted strategy looks
up its allocation, but under a name both have the last node of that name. So the items of every such
strategy are the ratings of the inventory in their order, each with its own price
(`items_of_ratings`); GPU pricing leaves out those who ask for none.

The node strategy prices the nodes themselves, one item for each that it can value.
-/

namespace Chargeback

/-! ## The entry for a node -/

/-- Every label of the selector is one of the labels. -/
def Labels.ContainedIn (selector labels : Labels) : Prop :=
  ∀ k v, selector.get? k = some v → labels.get? k = some v

theorem Labels.fits_iff {selector labels : Labels} :
    Labels.fits selector labels = true ↔ selector.ContainedIn labels := by
  rw [Labels.fits, List.all_eq_true]
  constructor
  · intro h k v hk
    exact beq_iff_eq.1 (h (k, v) (Assoc.mem_entries.2 hk))
  · rintro h ⟨k, v⟩ he
    exact beq_iff_eq.2 (h k v (Assoc.mem_entries.1 he))

namespace PricingTable

variable {t : PricingTable} {labels : Labels} {e : PricingEntry}

/-- The first entry of the table, whatever comes after it, with a selector contained in the labels. -/
def IsFirst (t : PricingTable) (labels : Labels) (e : PricingEntry) : Prop :=
  ∃ before after, t.entries = before ++ e :: after ∧ e.labels.ContainedIn labels ∧
    ∀ b ∈ before, ¬b.labels.ContainedIn labels

theorem find_eq_ok : t.find labels = .ok e ↔ t.IsFirst labels e := by
  have hfind : t.find labels = .ok e ↔ t.entries.find? (·.fits labels) = some e := by
    rw [find]
    cases t.entries.find? (·.fits labels) <;> simp
  rw [hfind, List.find?_eq_some_iff_append]
  constructor
  · rintro ⟨hfits, before, after, hentries, hbefore⟩
    refine ⟨before, after, hentries, Labels.fits_iff.1 hfits, fun b hb hcontained => ?_⟩
    simpa using (hbefore b hb).symm.trans (congrArg _ (Labels.fits_iff.2 hcontained))
  · rintro ⟨before, after, hentries, hcontained, hbefore⟩
    refine ⟨Labels.fits_iff.2 hcontained, before, after, hentries, fun b hb => ?_⟩
    simpa [PricingEntry.fits] using fun hfits => hbefore b hb (Labels.fits_iff.1 hfits)

end PricingTable

/-! ## Ratings of workloads -/

/-- A workload with the node and the entry that it is priced with. -/
structure Rating where
  workload : Workload
  node : Node
  entry : PricingEntry

/-- The rating is right: the node is the last one of the name that the workload is scheduled on, and
the entry is the first one for it. -/
structure Rating.Holds (t : PricingTable) (ns : List Node) (x : Rating) : Prop where
  last : IsLast (·.metadata.name) ns x.node
  scheduled : x.node.metadata.name = x.workload.nodeName
  entry : t.IsFirst x.node.metadata.labels x.entry

/-- The rating of a workload, if it has one. -/
def Workload.rating? (t : PricingTable) (ns : List Node) (w : Workload) : Option Rating :=
  (Node.named? ns w.nodeName).bind fun n => (t.find n.metadata.labels).toOption.map fun e => ⟨w, n, e⟩

/-- The ratings of the workloads that have one, in order. -/
def Rating.all (t : PricingTable) (ws : List Workload) (ns : List Node) : List Rating :=
  ws.filterMap (·.rating? t ns)

section Ratings

variable {t : PricingTable} {ws : List Workload} {ns : List Node} {w : Workload} {x : Rating}

theorem Except.toOption_eq_some {ε α : Type} {result : Except ε α} {a : α} :
    result.toOption = some a ↔ result = .ok a := by
  cases result <;> simp [Except.toOption]

theorem Workload.rating?_eq_some :
    w.rating? t ns = some x ↔ x.workload = w ∧ x.Holds t ns := by
  rw [rating?, Option.bind_eq_some_iff]
  constructor
  · rintro ⟨n, hnamed, hentry⟩
    obtain ⟨e, he, rfl⟩ := Option.map_eq_some_iff.1 hentry
    obtain ⟨hlast, hname⟩ := getLast?_filter_eq_some.1 hnamed
    exact ⟨rfl, hlast, hname, PricingTable.find_eq_ok.1 (Except.toOption_eq_some.1 he)⟩
  · rintro ⟨rfl, hlast, hname, hentry⟩
    have he := Except.toOption_eq_some.2 (PricingTable.find_eq_ok.2 hentry)
    exact ⟨x.node, getLast?_filter_eq_some.2 ⟨hlast, hname⟩, by rw [he]; rfl⟩

theorem Rating.holds_of_mem_all (hx : x ∈ Rating.all t ws ns) : x.Holds t ns := by
  obtain ⟨w, -, hw⟩ := List.mem_filterMap.1 hx
  exact (Workload.rating?_eq_some.1 hw).2

end Ratings

/-! ## Items of workloads -/

namespace Rating

/-- The item for what the workload asks for of one resource. -/
def item (s : Strategy) (r : Resource) (span : Span) (x : Rating) : CostItem :=
  s.item (Strategy.resourceCost x.entry r (Binary64.ofInt (x.workload.request r)) span)
    (some x.workload) (some x.node)

/-- The cost of what the workload asks for of one resource, scaled by what the node has for each unit
asked for. -/
def scaledCost (ws : List Workload) (span : Span) (x : Rating) (r : Resource) : Int :=
  Strategy.resourceCost x.entry r
    (Binary64.ofInt (x.workload.request r) * (Allocation.account ws x.node).scaleFactor r) span

/-- The item for the share of the workload in its node. -/
def share (ws : List Workload) (span : Span) (x : Rating) : CostItem :=
  Strategy.weighted.item
    (Amount.add (Amount.add (x.scaledCost ws span .cpu) (x.scaledCost ws span .memory))
      (x.scaledCost ws span .gpu))
    (some x.workload) (some x.node)

/-- The workload asks for GPUs. -/
def asksForGpus (x : Rating) : Bool := x.workload.request .gpu ≠ 0

end Rating

namespace Strategy

variable (s : Strategy) (t : PricingTable) (span : Span) (ws : List Workload) (ns : List Node)

/-- Unless it is left out of GPU pricing, a workload has an item for one resource if it has a
rating. -/
theorem requestItem?_eq {r : Resource} {w : Workload} (h : ¬(r = .gpu ∧ w.request r = 0)) :
    s.requestItem? r t span (Node.byName ns) w = (w.rating? t ns).map (·.item s r span) := by
  simp only [requestItem?, if_neg h, Workload.rating?, Node.get?_byName]
  cases Node.named? ns w.nodeName with
  | none => rfl
  | some n =>
      simp only [Option.bind_some]
      cases t.find n.metadata.labels <;> rfl

theorem requestItems_eq {r : Resource} (h : r ≠ .gpu) :
    s.requestItems r t span ws ns = (Rating.all t ws ns).map (·.item s r span) := by
  rw [requestItems, Rating.all, List.map_filterMap]
  exact List.filterMap_congr fun w _ => requestItem?_eq s t span ns fun hgpu => h hgpu.1

theorem gpuItems_eq :
    Strategy.gpu.requestItems .gpu t span ws ns =
      ((Rating.all t ws ns).filter (·.asksForGpus)).map (·.item .gpu .gpu span) := by
  rw [requestItems, Rating.all, List.filter_filterMap, List.map_filterMap]
  refine List.filterMap_congr fun w _ => ?_
  by_cases hnone : w.request .gpu = 0
  · -- The workload is left out, whatever its rating is.
    have hskipped : Strategy.gpu.requestItem? .gpu t span (Node.byName ns) w = none := by
      simp [requestItem?, hnone]
    rw [hskipped]
    cases hrating : w.rating? t ns with
    | none => rfl
    | some x =>
        have hworkload := (Workload.rating?_eq_some.1 hrating).1
        simp [Option.filter, Rating.asksForGpus, hworkload, hnone]
  · rw [requestItem?_eq _ t span ns fun h => hnone h.2]
    cases hrating : w.rating? t ns with
    | none => rfl
    | some x =>
        have hworkload := (Workload.rating?_eq_some.1 hrating).1
        simp [Option.filter, Rating.asksForGpus, hworkload, hnone]

theorem weightedItems_eq :
    weightedItems t span ws ns = (Rating.all t ws ns).map (·.share ws span) := by
  rw [weightedItems, Rating.all, List.map_filterMap]
  refine List.filterMap_congr fun w _ => ?_
  rw [weightedItem?, Allocation.get?_all, Workload.rating?]
  cases Node.named? ns w.nodeName with
  | none => rfl
  | some n =>
      simp only [Option.map_some, Option.bind_some, Allocation.node_account]
      cases t.find n.metadata.labels <;> rfl

end Strategy

/-! ## Items of nodes -/

/-- A node with the entry that it is priced with. -/
structure Valuation where
  node : Node
  entry : PricingEntry

/-- A capacity of a node can be read. -/
def Node.Readable (n : Node) (r : Resource) : Prop := ∃ v, n.capacity r = .ok v

/-- The valuation of a node, if it has one. -/
def Node.valuation? (t : PricingTable) (n : Node) : Option Valuation :=
  match t.find n.metadata.labels, n.capacity .cpu, n.capacity .memory with
  | .ok e, .ok _, .ok _ => some ⟨n, e⟩
  | _, _, _ => none

theorem Node.valuation?_eq_some {t : PricingTable} {n : Node} {x : Valuation} :
    n.valuation? t = some x ↔
      x.node = n ∧ n.Readable .cpu ∧ n.Readable .memory ∧ t.IsFirst n.metadata.labels x.entry := by
  unfold valuation? Readable
  rw [← PricingTable.find_eq_ok]
  cases t.find n.metadata.labels with
  | error _ => simp
  | ok e =>
      cases n.capacity .cpu with
      | error _ => simp
      | ok milli =>
          cases n.capacity .memory with
          | error _ => simp
          | ok bytes =>
              obtain ⟨node, entry⟩ := x
              simp [eq_comm]

namespace Valuation

/-- The cost of all that the node has of one resource. -/
def cost (span : Span) (x : Valuation) (r : Resource) : Int :=
  Strategy.resourceCost x.entry r (Binary64.ofInt (x.node.offered r)) span

/-- The item for all that the node has. -/
def item (span : Span) (x : Valuation) : CostItem :=
  Strategy.node.item
    (Amount.add (Amount.add (x.cost span .memory) (x.cost span .cpu)) (x.cost span .gpu))
    none (some x.node)

end Valuation

theorem Strategy.nodeItems_eq (t : PricingTable) (span : Span) (ns : List Node) :
    nodeItems t span ns = (ns.filterMap (·.valuation? t)).map (·.item span) := by
  rw [nodeItems, List.map_filterMap]
  refine List.filterMap_congr fun n _ => ?_
  simp only [nodeItem?, Node.valuation?, Valuation.item, Valuation.cost]
  cases t.find n.metadata.labels with
  | error _ => rfl
  | ok e =>
      cases hcpu : n.capacity .cpu with
      | error _ => rfl
      | ok milli =>
          cases hmemory : n.capacity .memory with
          | error _ => rfl
          | ok bytes =>
              have hmilli : n.offered .cpu = milli := by rw [Node.offered_eq, hcpu]
              have hbytes : n.offered .memory = bytes := by rw [Node.offered_eq, hmemory]
              cases hgpu : n.capacity .gpu <;>
                simp only [Option.map_some, hmilli, hbytes, Node.offered_eq n .gpu, hgpu]

/-! ## All strategies -/

end Chargeback
