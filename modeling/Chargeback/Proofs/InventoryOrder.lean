import Chargeback.Pricing.Strategy
import Chargeback.Proofs.NodeAccount
import Mathlib.Data.List.Forall2
import Mathlib.Data.List.Perm.Basic

/-!
# Prices do not depend on the order of the inventory

An inventory is listed in no particular order, so workloads, nodes and the containers of a workload
may stand in another order at every cycle. The items priced are the same then, each of them with
its workload in whatever order that has its containers (`calculate_rearranged`).

Two things could stand in the way. Nodes are looked up by name, and of several with one name the
last counts; with distinct names there is one only. And requests are added within the range of
amounts, where the order matters as soon as the signs are mixed; sums of requests that are not
negative are exact sums cut off once.
-/

namespace Chargeback

/-! ## Lists in another order -/

section Rearranged

variable {α β γ δ : Type} {R : α → β → Prop} {S : γ → δ → Prop} {l : List α} {l' : List β}

/-- The second list has the members of the first in some order, each replaced by a related one. -/
def Rearranged (R : α → β → Prop) (l : List α) (l' : List β) : Prop :=
  ∃ m, l.Perm m ∧ List.Forall₂ R m l'

theorem Rearranged.nil : Rearranged R [] [] := ⟨[], .refl _, .nil⟩

theorem Rearranged.append {k : List α} {k' : List β} (h : Rearranged R l l')
    (hk : Rearranged R k k') : Rearranged R (l ++ k) (l' ++ k') := by
  obtain ⟨m, hperm, hrel⟩ := h
  obtain ⟨n, hperm', hrel'⟩ := hk
  exact ⟨m ++ n, hperm.append hperm', List.rel_append hrel hrel'⟩

/-- What is made of related members stays related, and is left out on both sides or on neither. -/
theorem Rearranged.filterMap {f : α → Option γ} {g : β → Option δ} (h : Rearranged R l l')
    (hfg : ∀ a ∈ l, ∀ b, R a b → Option.Rel S (f a) (g b)) :
    Rearranged S (l.filterMap f) (l'.filterMap g) := by
  obtain ⟨m, hperm, hrel⟩ := h
  have hfg : ∀ a ∈ m, ∀ b, R a b → Option.Rel S (f a) (g b) := fun a ha =>
    hfg a (hperm.mem_iff.2 ha)
  refine ⟨m.filterMap f, hperm.filterMap f, ?_⟩
  clear hperm
  induction hrel with
  | nil => exact .nil
  | @cons a b m l' hab hrest ih =>
      have hrest := ih fun a ha => hfg a (List.mem_cons_of_mem _ ha)
      have himage := hfg a List.mem_cons_self b hab
      rw [List.filterMap_cons, List.filterMap_cons]
      generalize f a = c at himage ⊢
      generalize g b = d at himage ⊢
      cases himage with
      | none => exact hrest
      | some hcd => exact .cons hcd hrest

/-- Related members that have the same image give the same images in some order. -/
theorem Rearranged.map_perm {f : α → γ} {g : β → γ} (h : Rearranged R l l')
    (hfg : ∀ a ∈ l, ∀ b, R a b → f a = g b) : (l.map f).Perm (l'.map g) := by
  obtain ⟨m, hperm, hrel⟩ := h
  have hfg : ∀ a ∈ m, ∀ b, R a b → f a = g b := fun a ha => hfg a (hperm.mem_iff.2 ha)
  have hmap : m.map f = l'.map g := by
    clear hperm
    induction hrel with
    | nil => rfl
    | @cons a b m l' hab hrest ih =>
        rw [List.map_cons, List.map_cons, hfg a List.mem_cons_self b hab,
          ih fun a ha => hfg a (List.mem_cons_of_mem _ ha)]
  exact hmap ▸ hperm.map f

theorem Rearranged.filter {p : α → Bool} {q : β → Bool} (h : Rearranged R l l')
    (hpq : ∀ a ∈ l, ∀ b, R a b → p a = q b) : Rearranged R (l.filter p) (l'.filter q) := by
  rw [← List.filterMap_eq_filter, ← List.filterMap_eq_filter]
  refine h.filterMap fun a ha b hab => ?_
  have heq := hpq a ha b hab
  cases hb : q b with
  | false => simp [Option.guard, heq, hb]
  | true => simpa [Option.guard, heq, hb] using hab

end Rearranged

/-! ## Containers in another order -/

/-- The same workload with its containers in some order. -/
structure Workload.Reordered (w w' : Workload) : Prop where
  containers : w.containers.Perm w'.containers
  rest : w' = { w with containers := w'.containers }

namespace Workload.Reordered

variable {w w' : Workload}

theorem nodeName_eq (h : w.Reordered w') : w'.nodeName = w.nodeName := by
  rw [h.rest]

theorem asked_perm (h : w.Reordered w') (r : Resource) : (w.asked r).Perm (w'.asked r) :=
  h.containers.filterMap _

theorem asksNonnegative (h : w.Reordered w') (hw : w.AsksNonnegative) : w'.AsksNonnegative :=
  fun r m hm => hw r m ((h.asked_perm r).mem_iff.2 hm)

/-- The order of the containers is no matter where none asks for less than nothing. -/
theorem request_eq (h : w.Reordered w') (hw : w.AsksNonnegative) (r : Resource) :
    w.request r = w'.request r := by
  rw [Workload.request_eq, Workload.request_eq,
    Amount.foldl_add_of_nonneg Amount.inRange_zero (hw r),
    Amount.foldl_add_of_nonneg Amount.inRange_zero (h.asksNonnegative hw r),
    (h.asked_perm r).sum_eq]

end Workload.Reordered

/-! ## Nodes in another order -/

/-- With distinct names it is no matter in which order nodes are listed. -/
theorem Node.named?_perm {ns ns' : List Node} (h : ns.Perm ns')
    (hnames : (ns.map (·.metadata.name)).Nodup) (k : String) :
    Node.named? ns k = Node.named? ns' k := by
  have halone {ms : List Node} (hms : (ms.map (·.metadata.name)).Nodup) :
      (ms.filter (·.metadata.name = k)).Pairwise fun _ _ => False := by
    refine ((List.pairwise_map.1 hms).filter _).imp_of_mem fun ha hb hne => hne ?_
    exact (of_decide_eq_true (List.mem_filter.1 ha).2).trans
      (of_decide_eq_true (List.mem_filter.1 hb).2).symm
  have hfilter : ns.filter (·.metadata.name = k) = ns'.filter (·.metadata.name = k) :=
    (h.filter _).eq_of_pairwise (fun _ _ _ _ hab => hab.elim) (halone hnames)
      (halone ((h.map _).nodup_iff.1 hnames))
  rw [Node.named?, Node.named?, hfilter]

/-! ## The account of a node -/

section Inventory

variable {ws ws' : List Workload} {ns ns' : List Node}

/-- What is used of a node is a sum, so the order of its workloads is no matter. -/
theorem Allocation.account_rearranged (h : Rearranged Workload.Reordered ws ws')
    (hws : ∀ w ∈ ws, w.AsksNonnegative) (n : Node) :
    Allocation.account ws n = Allocation.account ws' n := by
  have hcharged : Rearranged Workload.Reordered (ws.filter (·.nodeName = n.metadata.name))
      (ws'.filter (·.nodeName = n.metadata.name)) :=
    h.filter fun w _ w' hww' => by rw [hww'.nodeName_eq]
  have hasks : ∀ w ∈ ws.filter (·.nodeName = n.metadata.name), w.AsksNonnegative := fun w hw =>
    hws w (List.mem_of_mem_filter hw)
  -- None of the requests is negative, so their sum is cut off only at its end and the order of the
  -- workloads does not show.
  have hused (r : Resource) :
      ((ws.filter (·.nodeName = n.metadata.name)).map (·.request r)).foldl Amount.add 0 =
        ((ws'.filter (·.nodeName = n.metadata.name)).map (·.request r)).foldl Amount.add 0 := by
    have hperm := hcharged.map_perm fun w hw w' hww' => hww'.request_eq (hasks w hw) r
    have hnonneg : ∀ v ∈ (ws.filter (·.nodeName = n.metadata.name)).map (·.request r), 0 ≤ v := by
      intro v hv
      obtain ⟨w, hw, rfl⟩ := List.mem_map.1 hv
      exact Workload.request_nonneg (hasks w hw) r
    rw [Amount.foldl_add_of_nonneg Amount.inRange_zero hnonneg,
      Amount.foldl_add_of_nonneg Amount.inRange_zero fun v hv => hnonneg v (hperm.mem_iff.2 hv),
      hperm.sum_eq]
  have hidle (r : Resource) : (Allocation.idle n).used.get r = 0 := by cases r <;> rfl
  simp only [Allocation.account, Allocation.foldl_charge, hidle, hused]

/-! ## Items -/

/-- The same item, whose workload has its containers in some order. -/
structure CostItem.Reordered (i i' : CostItem) : Prop where
  workload : Option.Rel Workload.Reordered i.workload i'.workload
  rest : i' = { i with workload := i'.workload }

theorem Strategy.item_reordered (s : Strategy) (value : Int) (n : Option Node) {w w' : Workload}
    (h : w.Reordered w') : (s.item value (some w) n).Reordered (s.item value (some w') n) :=
  ⟨.some h, rfl⟩

namespace Strategy

variable (s : Strategy) (t : PricingTable) (span : Span)

theorem requestItems_rearranged (r : Resource) (h : Rearranged Workload.Reordered ws ws')
    (hws : ∀ w ∈ ws, w.AsksNonnegative) (hns : ns.Perm ns')
    (hnames : (ns.map (·.metadata.name)).Nodup) :
    Rearranged CostItem.Reordered (s.requestItems r t span ws ns)
      (s.requestItems r t span ws' ns') := by
  refine h.filterMap fun w hw w' hww' => ?_
  simp only [requestItem?, hww'.nodeName_eq, ← hww'.request_eq (hws w hw), Node.get?_byName,
    ← Node.named?_perm hns hnames]
  split
  · exact .none
  · cases Node.named? ns w.nodeName with
    | none => exact .none
    | some n =>
        dsimp only
        cases t.find n.metadata.labels with
        | error _ => exact .none
        | ok e => exact .some (s.item_reordered _ _ hww')

theorem weightedItems_rearranged (h : Rearranged Workload.Reordered ws ws')
    (hws : ∀ w ∈ ws, w.AsksNonnegative) (hns : ns.Perm ns')
    (hnames : (ns.map (·.metadata.name)).Nodup) :
    Rearranged CostItem.Reordered (weightedItems t span ws ns) (weightedItems t span ws' ns') := by
  refine h.filterMap fun w hw w' hww' => ?_
  simp only [weightedItem?, hww'.nodeName_eq, ← hww'.request_eq (hws w hw), Allocation.get?_all,
    ← Node.named?_perm hns hnames]
  cases Node.named? ns w.nodeName with
  | none => exact .none
  | some n =>
      simp only [Option.map_some, ← Allocation.account_rearranged h hws n]
      cases t.find (Allocation.account ws n).node.metadata.labels with
      | error _ => exact .none
      | ok e => exact .some (Strategy.weighted.item_reordered _ _ hww')

theorem nodeItems_rearranged (hns : ns.Perm ns') :
    Rearranged CostItem.Reordered (nodeItems t span ns) (nodeItems t span ns') := by
  refine ⟨_, hns.filterMap _, List.forall₂_same.2 fun i hi => ?_⟩
  obtain ⟨n, -, hn⟩ := List.mem_filterMap.1 hi
  have hworkload : i.workload = none := by
    unfold nodeItem? at hn
    split at hn
    · obtain rfl : _ = i := by simpa using hn
      rfl
    · cases hn
  exact ⟨by rw [hworkload]; exact .none, rfl⟩

/-- Every strategy gives the same items in some order. -/
theorem items_rearranged (h : Rearranged Workload.Reordered ws ws')
    (hws : ∀ w ∈ ws, w.AsksNonnegative) (hns : ns.Perm ns')
    (hnames : (ns.map (·.metadata.name)).Nodup) :
    Rearranged CostItem.Reordered (s.items t span ws ns) (s.items t span ws' ns') := by
  cases s with
  | cpu => exact requestItems_rearranged _ t span .cpu h hws hns hnames
  | memory => exact requestItems_rearranged _ t span .memory h hws hns hnames
  | gpu => exact requestItems_rearranged _ t span .gpu h hws hns hnames
  | weighted => exact weightedItems_rearranged t span h hws hns hnames
  | node => exact nodeItems_rearranged t span hns

end Strategy

/-- **Prices do not depend on the order of the inventory.** Listing the workloads, their containers
and the nodes in another order gives the same items in some order, for each strategy and for all
strategies together, provided that no container asks for less than nothing and that the nodes have
distinct names. -/
theorem calculate_rearranged (ss : List Strategy) (t : PricingTable) (span : Span)
    (h : Rearranged Workload.Reordered ws ws') (hws : ∀ w ∈ ws, w.AsksNonnegative)
    (hns : ns.Perm ns') (hnames : (ns.map (·.metadata.name)).Nodup) :
    (∀ s : Strategy,
      Rearranged CostItem.Reordered (s.items t span ws ns) (s.items t span ws' ns')) ∧
      Rearranged CostItem.Reordered (calculate ss t span ws ns) (calculate ss t span ws' ns') := by
  have hitems (s : Strategy) := s.items_rearranged t span h hws hns hnames
  refine ⟨hitems, ?_⟩
  induction ss with
  | nil => exact .nil
  | cons s ss ih => exact (hitems s).append ih

/-- A container that asks for processor time. -/
def Container.askingFor (cpu : String) : Container := { requests := .ofList [("cpu", ⟨cpu⟩)] }

/-- Two workloads on two nodes, listed the other way round and with the containers of the first one
swapped: all strategies give the same items in some order. -/
theorem calculate_swapped :
    let pair : Workload :=
      { nodeName := "n", containers := [.askingFor "500m", .askingFor "1"] }
    let swapped : Workload := { pair with containers := [.askingFor "1", .askingFor "500m"] }
    let single : Workload := { nodeName := "m", containers := [.askingFor "0.25"] }
    let n : Node := { metadata := { name := "n" }, capacities := .ofList [("cpu", ⟨"4"⟩)] }
    let m : Node := { metadata := { name := "m" }, capacities := .ofList [("cpu", ⟨"2"⟩)] }
    let t : PricingTable := { entries := [{ cpuRate := .ofNat 6 }] }
    Rearranged Workload.Reordered [pair, single] [single, swapped] ∧
      (∀ w ∈ [pair, single], w.AsksNonnegative) ∧ [n, m].Perm [m, n] ∧
      ([n, m].map (·.metadata.name)).Nodup ∧
      Rearranged CostItem.Reordered
        (calculate Strategy.all t (.ofSeconds 60) [pair, single] [n, m])
        (calculate Strategy.all t (.ofSeconds 60) [single, swapped] [m, n]) := by
  intro pair swapped single n m t
  have hws : Rearranged Workload.Reordered [pair, single] [single, swapped] :=
    ⟨[single, pair], .swap _ _ _, .cons ⟨.refl _, rfl⟩ (.cons ⟨.swap _ _ _, rfl⟩ .nil)⟩
  have hasks : ∀ w ∈ [pair, single], w.AsksNonnegative := by
    have hall : ∀ w ∈ [pair, single], ∀ r ∈ [Resource.cpu, .memory, .gpu], ∀ v ∈ w.asked r,
        0 ≤ v := by decide +kernel
    intro w hw r
    exact hall w hw r (by cases r <;> decide)
  have hns : [n, m].Perm [m, n] := .swap _ _ _
  have hnames : ([n, m].map (·.metadata.name)).Nodup := by decide
  exact ⟨hws, hasks, hns, hnames,
    (calculate_rearranged Strategy.all t (.ofSeconds 60) hws hasks hns hnames).2⟩

end Inventory

end Chargeback
