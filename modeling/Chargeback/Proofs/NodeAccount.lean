import Chargeback.Pricing.Allocation
import Chargeback.Proofs.LastEntries
import Mathlib.Algebra.Order.BigOperators.Group.List
import Mathlib.Algebra.Ring.Int.Defs

/-!
# The account of a node

What an allocation says about one node, in closed form. The node is the last one of its name, and
what is used of it is the sum, within the range of amounts, of what the workloads scheduled on it
ask for, in their order: workloads on other nodes have no part in it (`all_get?`).

A sum of amounts of which none is negative stops at the greatest amount only, so it is the exact
sum cut off once, at the end (`foldl_add_of_nonneg`).
-/

namespace Chargeback

namespace Amount

/-- Amounts that are not negative can be added exactly and cut off at the end. -/
theorem foldl_add_of_nonneg {a : Int} (ha : InRange a) {vs : List Int} (hvs : ∀ v ∈ vs, 0 ≤ v) :
    vs.foldl add a = clamp (a + vs.sum) := by
  induction vs generalizing a with
  | nil => simp [clamp_of_inRange ha]
  | cons v vs ih =>
      have hv : 0 ≤ v := hvs v List.mem_cons_self
      have hrest : ∀ v ∈ vs, 0 ≤ v := fun v hv => hvs v (List.mem_cons_of_mem _ hv)
      have hsum : 0 ≤ vs.sum := List.sum_nonneg hrest
      rw [List.foldl_cons, add, ih (inRange_clamp _) hrest, List.sum_cons]
      simp only [InRange, clamp, least, greatest] at ha ⊢
      omega

theorem inRange_zero : InRange 0 := by decide

theorem foldl_add_nonneg {vs : List Int} (hvs : ∀ v ∈ vs, 0 ≤ v) : 0 ≤ vs.foldl add 0 := by
  have hsum : 0 ≤ vs.sum := List.sum_nonneg hvs
  rw [foldl_add_of_nonneg inRange_zero hvs, Int.zero_add]
  exact clamp_nonneg hsum

theorem inRange_foldl_add {a : Int} (ha : InRange a) (vs : List Int) : InRange (vs.foldl add a) := by
  induction vs generalizing a with
  | nil => exact ha
  | cons v vs ih => exact ih (inRange_clamp _)

end Amount

/-! ## What a workload asks for -/

/-- What a container asks for of a resource in thousandths, if that can be read. -/
def Container.asked? (r : Resource) (c : Container) : Option Int :=
  (c.requests.get? r.name).bind fun q => q.milli.toOption

/-- Thousandths in the unit of a resource, cut toward zero. -/
def Resource.units : Resource → Int → Int
  | .cpu, m => m
  | .memory, m => m.tdiv 1000
  | .gpu, m => m.tdiv 1000

theorem Resource.units_le_greatest (r : Resource) {m : Int} (h : m ≤ Amount.greatest) :
    r.units m ≤ Amount.greatest := by
  have htdiv : m.tdiv 1000 ≤ Amount.greatest := by
    rcases le_total 0 m with hm | hm
    · exact (Int.tdiv_le_self _ hm).trans h
    · have hneg : 0 ≤ (-m).tdiv 1000 := Int.tdiv_nonneg (Int.neg_nonneg_of_nonpos hm) (by decide)
      rw [Int.neg_tdiv, Int.neg_nonneg] at hneg
      exact hneg.trans (by decide)
  cases r with
  | cpu => exact h
  | memory | gpu => exact htdiv

namespace Workload

/-- What the containers of a workload ask for of a resource, as far as it can be read. -/
def asked (r : Resource) (w : Workload) : List Int := w.containers.filterMap (·.asked? r)

/-- No container of the workload asks for less than nothing. -/
def AsksNonnegative (w : Workload) : Prop := ∀ r, ∀ m ∈ w.asked r, 0 ≤ m

theorem foldl_asked (r : Resource) (cs : List Container) (total : Int) :
    cs.foldl (fun total c =>
      match (c.requests.get? r.name).map Quantity.milli with
      | some (.ok m) => Amount.add total m
      | _ => total) total = (cs.filterMap (·.asked? r)).foldl Amount.add total := by
  induction cs generalizing total with
  | nil => rfl
  | cons c cs ih =>
      rw [List.foldl_cons, List.filterMap_cons, ih]
      cases hq : c.requests.get? r.name with
      | none => simp [Container.asked?, hq]
      | some q => cases hm : q.milli <;> simp [Container.asked?, hq, hm, Except.toOption]

/-- The request of a workload is the sum of what its containers ask for. -/
theorem request_eq (w : Workload) (r : Resource) :
    w.request r = r.units ((w.asked r).foldl Amount.add 0) := by
  cases r with
  | cpu => exact foldl_asked .cpu w.containers 0
  | memory => exact congrArg (·.tdiv 1000) (foldl_asked .memory w.containers 0)
  | gpu => exact congrArg (·.tdiv 1000) (foldl_asked .gpu w.containers 0)

theorem request_nonneg {w : Workload} (h : w.AsksNonnegative) (r : Resource) : 0 ≤ w.request r := by
  have hsum := Amount.foldl_add_nonneg (h r)
  rw [request_eq]
  cases r with
  | cpu => exact hsum
  | memory | gpu => exact Int.tdiv_nonneg hsum (by decide)

theorem request_le_greatest (w : Workload) (r : Resource) : w.request r ≤ Amount.greatest := by
  rw [request_eq]
  exact r.units_le_greatest (Amount.inRange_foldl_add Amount.inRange_zero _).2

end Workload

theorem Resources.get_of (f : Resource → Int) (r : Resource) : (Resources.of f).get r = f r := by
  cases r <;> rfl

/-! ## The nodes by name -/

/-- The last node of a name. -/
def Node.named? (ns : List Node) (k : String) : Option Node :=
  (ns.filter (·.metadata.name = k)).getLast?

/-- Values put under the names of nodes, one after the other: the last one of a name counts. -/
theorem Node.get?_foldl_put {α : Type} (f : Node → α) (ns : List Node) (k : String) :
    (ns.foldl (fun m n => m.put n.metadata.name (f n)) Assoc.empty).get? k =
      (Node.named? ns k).map f :=
  Assoc.get?_foldl_put (·.metadata.name) f ns k

theorem Node.get?_byName (ns : List Node) (k : String) :
    (Node.byName ns).get? k = Node.named? ns k := by
  rw [Node.byName, Node.get?_foldl_put (fun n => n), Option.map_id']

namespace Allocation

/-! ## Charging workloads -/

/-- Charging workloads adds what they ask for, in their order, and changes nothing else. -/
theorem foldl_charge (ws : List Workload) (a : Allocation) :
    ws.foldl charge a =
      { a with used := .of fun r => (ws.map (·.request r)).foldl Amount.add (a.used.get r) } := by
  induction ws generalizing a with
  | nil => rfl
  | cons w ws ih =>
      rw [List.foldl_cons, ih]
      rfl

/-- Workloads are charged to their own node only. -/
theorem get?_foldl_chargeTo (ws : List Workload) (m : Assoc Allocation) (k : String) :
    (ws.foldl chargeTo m).get? k =
      (m.get? k).map ((ws.filter (·.nodeName = k)).foldl charge) := by
  induction ws generalizing m with
  | nil => simp
  | cons w ws ih =>
      rw [List.foldl_cons, ih, chargeTo]
      by_cases h : w.nodeName = k
      · subst h
        cases ha : m.get? w.nodeName with
        | none => simp [ha]
        | some a => simp [Assoc.get?_put]
      · cases ha : m.get? w.nodeName with
        | none => simp [h]
        | some a => simp [Assoc.get?_put, h, Ne.symm h]

/-- The workloads scheduled on a node, charged to it. -/
def account (ws : List Workload) (n : Node) : Allocation :=
  ((ws.filter (·.nodeName = n.metadata.name)).foldl charge (idle n)).settle

theorem node_account {ws : List Workload} {n : Node} : (account ws n).node = n := by
  rw [account, foldl_charge]
  rfl

/-- The allocation under a name is the account of the last node of that name. -/
theorem get?_all (ws : List Workload) (ns : List Node) (k : String) :
    (all ws ns).get? k = (Node.named? ns k).map (account ws) := by
  rw [all, Assoc.get?_map, get?_foldl_chargeTo, Node.get?_foldl_put, Option.map_map, Option.map_map]
  cases h : Node.named? ns k with
  | none => rfl
  | some n =>
      have hname : n.metadata.name = k := by
        simpa using (List.mem_filter.1 (List.mem_of_getLast? h)).2
      simp [account, hname]

end Allocation

end Chargeback
