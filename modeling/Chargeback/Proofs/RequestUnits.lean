import Chargeback.Proofs.AllocationTable

/-!
# Requests and capacities in whole units

Memory and GPUs are priced in whole units and written in thousandths. A capacity is rounded UP to
whole units, and what the containers of a workload ask for is added in thousandths and then cut toward
zero. So the same quantity, asked for and offered, is the same number of units if it is a whole number
of them or not positive (`Resource.units_eq_roundedUp_iff`), and otherwise the request is one unit
less.

A workload that asks for everything that its node has therefore uses everything, but for a positive
quantity with a fraction of a unit (`Allocation.used_eq_available_iff`). There it uses one unit less,
unless this leaves nothing: what nobody asks for counts as fully used.
-/

namespace Chargeback

namespace Resource

/-- Thousandths in the unit of a resource, rounded up. -/
def roundedUp : Resource → Int → Int
  | .cpu, m => m
  | .memory, m => Quantity.ceilDiv m 1000
  | .gpu, m => Quantity.ceilDiv m 1000

variable {r : Resource} {q : Quantity} {m : Int}

/-- The units of a quantity are its thousandths, rounded up. -/
theorem unitsOf_of_milli (h : q.milli = .ok m) : r.unitsOf q = .ok (r.roundedUp m) := by
  have hvalue : q.value = .ok (Quantity.ceilDiv m 1000) := by
    rw [Quantity.value, h]
    rfl
  cases r with
  | cpu => exact h
  | memory => exact hvalue
  | gpu => exact hvalue

/-- Cutting toward zero differs from rounding up where there is a positive amount with a fraction of a
unit. -/
theorem tdiv_eq_ceilDiv_iff (m : Int) :
    m.tdiv 1000 = Quantity.ceilDiv m 1000 ↔ m ≤ 0 ∨ 1000 ∣ m := by
  rw [Quantity.ceilDiv]
  rcases le_total 0 m with hm | hm
  · rw [Int.tdiv_eq_ediv_of_nonneg hm]
    omega
  · obtain ⟨k, rfl⟩ : ∃ k, m = -k := ⟨-m, (Int.neg_neg m).symm⟩
    rw [Int.neg_tdiv, Int.tdiv_eq_ediv_of_nonneg (by omega)]
    omega

theorem units_eq_roundedUp_iff : r.units m = r.roundedUp m ↔ r = .cpu ∨ m ≤ 0 ∨ 1000 ∣ m := by
  cases r with
  | cpu => simp [units, roundedUp]
  | memory => simpa [units, roundedUp] using tdiv_eq_ceilDiv_iff m
  | gpu => simpa [units, roundedUp] using tdiv_eq_ceilDiv_iff m

/-- Where cutting and rounding up differ, they differ by one unit. -/
theorem units_add_one (h : r.units m ≠ r.roundedUp m) : r.units m + 1 = r.roundedUp m := by
  have hpos : ¬(r = .cpu ∨ m ≤ 0 ∨ 1000 ∣ m) := fun hsame => h (units_eq_roundedUp_iff.2 hsame)
  have hcut : m.tdiv 1000 + 1 = Quantity.ceilDiv m 1000 := by
    rw [Quantity.ceilDiv, Int.tdiv_eq_ediv_of_nonneg (by omega)]
    omega
  cases r with
  | cpu => exact absurd (.inl rfl) hpos
  | memory => exact hcut
  | gpu => exact hcut

/-- What is cut to nothing is less than one unit. -/
theorem units_eq_zero_iff : r.units m = 0 ↔ m = 0 ∨ r ≠ .cpu ∧ -1000 < m ∧ m < 1000 := by
  have hcut : m.tdiv 1000 = 0 ↔ -1000 < m ∧ m < 1000 := by
    rcases le_total 0 m with hm | hm
    · rw [Int.tdiv_eq_ediv_of_nonneg hm]
      omega
    · obtain ⟨k, rfl⟩ : ∃ k, m = -k := ⟨-m, (Int.neg_neg m).symm⟩
      rw [Int.neg_tdiv, Int.tdiv_eq_ediv_of_nonneg (by omega)]
      omega
  cases r with
  | cpu => simp [units]
  | memory | gpu =>
      simp only [units, hcut, ne_eq, reduceCtorEq, not_false_eq_true, true_and]
      omega

/-- The units that a request comes to where nothing counts as everything. -/
def unitsOr (r : Resource) (m all : Int) : Int := if r.units m = 0 then all else r.units m

/-- An amount of less than a unit is cut to nothing and so counts as all of it. -/
theorem unitsOr_eq_roundedUp_iff :
    r.unitsOr m (r.roundedUp m) = r.roundedUp m ↔ r = .cpu ∨ m ≤ 1000 ∨ 1000 ∣ m := by
  by_cases hcpu : r = .cpu
  · subst hcpu
    refine iff_of_true ?_ (.inl rfl)
    show (if m = 0 then m else m) = m
    exact ite_self m
  · rw [unitsOr]
    split
    next hzero =>
      rw [units_eq_zero_iff] at hzero
      have hless : m ≤ 1000 := by omega
      simp [hless]
    next hzero =>
      rw [units_eq_zero_iff] at hzero
      have hfull : m ≤ -1000 ∨ 1000 ≤ m := by
        by_contra hpart
        exact hzero (.inr ⟨hcpu, by omega, by omega⟩)
      simp only [units_eq_roundedUp_iff, hcpu, false_or]
      omega

theorem unitsOr_add_one (h : r.unitsOr m (r.roundedUp m) ≠ r.roundedUp m) :
    r.unitsOr m (r.roundedUp m) + 1 = r.roundedUp m := by
  rw [unitsOr] at h ⊢
  split at h
  next => exact absurd rfl h
  next hzero =>
    rw [if_neg hzero]
    exact units_add_one h

theorem inRange_units (h : Amount.InRange m) : Amount.InRange (r.units m) := by
  refine ⟨?_, r.units_le_greatest h.2⟩
  have hcut : Amount.least ≤ m.tdiv 1000 := by
    rcases le_total 0 m with hm | hm
    · exact le_trans (by decide) (Int.tdiv_nonneg hm (by decide))
    · have hle : (-m).tdiv 1000 ≤ -m := Int.tdiv_le_self _ (by omega)
      rw [Int.neg_tdiv] at hle
      have hleast := h.1
      omega
  cases r with
  | cpu => exact h.1
  | memory => exact hcut
  | gpu => exact hcut

end Resource

/-! ## One container -/

namespace Workload

variable {w : Workload} {c : Container} {r : Resource}

theorem asked_single (hc : w.containers = [c]) : w.asked r = (c.asked? r).toList := by
  rw [asked, hc]
  cases h : c.asked? r with
  | none => exact List.filterMap_cons_none h
  | some m => exact List.filterMap_cons_some h

/-- A workload with one container asks for what that container asks for. -/
theorem request_single (hc : w.containers = [c]) {q : Quantity} {m : Int}
    (hq : c.requests.get? r.name = some q) (hm : q.milli = .ok m) : w.request r = r.units m := by
  have hasked : c.asked? r = some m := by
    simp [Container.asked?, hq, hm, Except.toOption]
  have hrange : Amount.InRange m := Quantity.inRange_of_milli hm
  rw [request_eq, asked_single hc, hasked, Option.toList_some, List.foldl_cons, List.foldl_nil,
    Amount.add, Int.zero_add, Amount.clamp_of_inRange hrange]

theorem request_none (hc : w.containers = [c]) (hq : c.requests.get? r.name = none) :
    w.request r = 0 := by
  have hasked : c.asked? r = none := by
    rw [Container.asked?, hq]
    rfl
  rw [request_eq, asked_single hc, hasked]
  cases r <;> rfl

theorem inRange_request (w : Workload) (r : Resource) : Amount.InRange (w.request r) := by
  rw [request_eq]
  exact Resource.inRange_units (Amount.inRange_foldl_add Amount.inRange_zero _)

/-- The only workload on a node asks for all that is asked of the node. -/
theorem askedOf_single {ws : List Workload} {k : String} (h : ws.filter (·.nodeName = k) = [w])
    (r : Resource) : askedOf ws k r = w.request r := by
  rw [askedOf, h, List.map_singleton, List.foldl_cons, List.foldl_nil, Amount.add, Int.zero_add,
    Amount.clamp_of_inRange (inRange_request w r)]

end Workload

/-! ## Everything that a node has -/

namespace Allocation

variable {ws : List Workload} {ns : List Node} {n : Node} {w : Workload} {c : Container}

/-- **Asking for everything.** A workload of one container is alone on a node and asks for the very
quantities that the node advertises. Then its request for a resource is the capacity if and only if
the quantity is a whole number of units or is not positive, and the allocation of the node says that
all of the resource is used if and only if, besides, the quantity is no more than one unit. Where the
two differ, one unit less is used than the node has. CPU, which is priced in thousandths, is always
used up, and of what the node does not advertise nothing is used. -/
theorem used_eq_available_iff (halone : ws.filter (·.nodeName = n.metadata.name) = [w])
    (hlast : IsLast (·.metadata.name) ns n) (hc : w.containers = [c])
    (hsame : ∀ r : Resource, c.requests.get? r.name = n.capacities.get? r.name) :
    ∃ a, (all ws ns).get? n.metadata.name = some a ∧ a.node = n ∧
      ∀ r : Resource,
        (n.capacities.get? r.name = none → a.used.get r = 0 ∧ a.available.get r = 0) ∧
        ∀ (q : Quantity) (m : Int), n.capacities.get? r.name = some q → q.milli = .ok m →
          r.unitsOf q = .ok (a.available.get r) ∧
          (w.request r = a.available.get r ↔ r = .cpu ∨ m ≤ 0 ∨ 1000 ∣ m) ∧
          (a.used.get r = a.available.get r ↔ r = .cpu ∨ m ≤ 1000 ∨ 1000 ∣ m) ∧
          (a.used.get r ≠ a.available.get r → a.used.get r + 1 = a.available.get r) := by
  have hentry : (all ws ns).get? n.metadata.name = some (account ws n) := by
    rw [get?_all, Option.map_eq_some_iff]
    exact ⟨n, getLast?_filter_eq_some.2 ⟨hlast, rfl⟩, rfl⟩
  have hasked (r : Resource) : Workload.askedOf ws n.metadata.name r = w.request r :=
    Workload.askedOf_single halone r
  refine ⟨account ws n, hentry, node_account, fun r => ⟨?_, ?_⟩⟩
  · intro hq
    have hoffered : n.offered r = 0 := by
      rw [Node.offered, hq]
      rfl
    have hrequest : w.request r = 0 := Workload.request_none hc ((hsame r).trans hq)
    rw [get_used_account, get_available_account, hasked, hoffered, hrequest, if_pos rfl]
    exact ⟨rfl, rfl⟩
  intro q m hq hm
  have hunits : r.unitsOf q = .ok (r.roundedUp m) := Resource.unitsOf_of_milli hm
  have havailable : (account ws n).available.get r = r.roundedUp m := by
    have hcapacity : n.capacity r = .ok (r.roundedUp m) := by
      rw [Node.capacity, hq]
      exact hunits
    rw [get_available_account, Node.offered_of_capacity hcapacity]
  have hrequest : w.request r = r.units m := Workload.request_single hc ((hsame r).trans hq) hm
  have hused : (account ws n).used.get r = r.unitsOr m (r.roundedUp m) := by
    rw [get_used_account, hasked, hrequest, ← get_available_account ws, havailable]
    rfl
  rw [havailable, hrequest, hused]
  exact ⟨hunits, Resource.units_eq_roundedUp_iff, Resource.unitsOr_eq_roundedUp_iff,
    Resource.unitsOr_add_one⟩

/-- A node offers 2500 thousandths of a byte and half a GPU, and a workload asks for all of it. Three
bytes are there and two are used; the half GPU is asked for as none and counts as one that is fully
used. -/
theorem used_eq_available_fractions :
    let everything : Assoc Quantity :=
      .ofList [("cpu", ⟨"250m"⟩), ("memory", ⟨"2500m"⟩), ("nvidia.com/gpu", ⟨"500m"⟩)]
    let n : Node := { metadata := { name := "n" }, capacities := everything }
    let c : Container := { requests := everything }
    let w : Workload := { nodeName := "n", containers := [c] }
    [w].filter (·.nodeName = "n") = [w] ∧ IsLast (·.metadata.name) [n] n ∧
      ∃ a, (all [w] [n]).get? "n" = some a ∧
        (a.used.cpu = a.available.cpu ∧ a.used.gpu = a.available.gpu) ∧
        (w.request .gpu ≠ a.available.gpu ∧ a.used.memory + 1 = a.available.memory) := by
  intro everything n c w
  have halone : [w].filter (·.nodeName = n.metadata.name) = [w] := by decide +kernel
  have hlast : IsLast (·.metadata.name) [n] n := ⟨[], [], rfl, by simp⟩
  obtain ⟨a, ha, -, hunits⟩ := used_eq_available_iff halone hlast (c := c) rfl fun _ => rfl
  obtain ⟨-, -, hcpu, -⟩ :=
    (hunits .cpu).2 ⟨"250m"⟩ 250 (by decide +kernel) (by decide +kernel)
  obtain ⟨-, -, hmemory, hless⟩ :=
    (hunits .memory).2 ⟨"2500m"⟩ 2500 (by decide +kernel) (by decide +kernel)
  obtain ⟨-, hrequest, hgpu, -⟩ :=
    (hunits .gpu).2 ⟨"500m"⟩ 500 (by decide +kernel) (by decide +kernel)
  refine ⟨halone, hlast, a, ha, ⟨hcpu.2 (.inl rfl), hgpu.2 (.inr (.inl (by decide)))⟩, ?_, ?_⟩
  · intro hsame
    exact absurd (hrequest.1 hsame) (by decide)
  · apply hless
    intro hsame
    exact absurd (hmemory.1 hsame) (by decide)

/-- A workload that is alone on a node asks for just what the node advertises, a byte and a half, and
does not use all of it. -/
theorem used_lt_available :
    let n : Node :=
      { metadata := { name := "n" }, capacities := .ofList [("memory", ⟨"1500m"⟩)] }
    let w : Workload :=
      { nodeName := "n", containers := [{ requests := .ofList [("memory", ⟨"1500m"⟩)] }] }
    Quantity.milli ⟨"1500m"⟩ = .ok 1500 ∧ Resource.unitsOf .memory ⟨"1500m"⟩ = .ok 2 ∧
      w.request .memory = 1 ∧
      ((all [w] [n]).get? "n").map (fun a => (a.used.memory, a.available.memory)) = some (1, 2) := by
  decide +kernel

end Allocation

end Chargeback
