import Chargeback.Proofs.NodeAccount
import Chargeback.Proofs.RoundingError

/-!
# One account for every node

The table of allocations is made in three passes: nodes are put in under their names, workloads are
charged to them, and what nobody asks for is counted as fully used. What comes out has one entry for
every name, and the entry is the account of the last node of that name (`all_exact`).

A resource counts as unused only where there is none of it. So a scale factor is a quotient by
something else than zero wherever there is anything to scale, and such a quotient of amounts is far
from being rounded to zero: it is zero if and only if the node has none of the resource
(`ofInt_div_ofInt`).
-/

namespace Chargeback

/-! ## Quotients of amounts -/

theorem Amount.natAbs_le {i : Int} (h : InRange i) : i.natAbs ≤ 2 ^ 63 := by
  unfold InRange least greatest at h
  omega

namespace Binary64

/-- The sign has no part in a rounding. -/
theorem round_of_round_false {num den u : ℕ} (h : round false num den = .finite false u)
    (neg : Bool) : round neg num den = .finite neg u := by
  rw [round_eq] at h ⊢
  split at h
  next hfinite =>
    cases h
    rw [if_pos hfinite]
  next => cases h

/-- An amount is rounded to a number of its sign and with the magnitude of its absolute value. -/
theorem ofInt_eq {i : ℤ} (h : Amount.InRange i) :
    ∃ u, ofInt i = .finite (decide (i < 0)) u ∧ Near 1 (.finite false u) i.natAbs := by
  have hnear := near_ofNat ((Amount.natAbs_le h).trans (Nat.pow_le_pow_right two_pos (by decide)))
  obtain ⟨u, hu⟩ := hnear.exists_finite
  have hsign : decide ((i.natAbs : ℤ) < 0) = false := by simp
  have hround : round false (i.natAbs * unitsPerOne) 1 = .finite false u := by
    rw [← hu, ← hsign]
    rfl
  exact ⟨u, round_of_round_false hround _, hu ▸ hnear⟩

theorem Near.units_pos {k u : ℕ} {q : ℚ} (h : Near k (.finite false u) q) (hq : 0 < q) : 0 < u := by
  obtain ⟨_, hu, hleast, -⟩ := h
  cases hu
  rw [← Nat.cast_pos (α := ℚ)]
  exact (mul_pos (mul_pos hq (one_sub_epsilon_pow_pos k)) perOne_pos).trans_le hleast

/-- A quotient of amounts is a number, and zero only if its dividend is. -/
theorem ofInt_div_ofInt {i j : ℤ} (hi : Amount.InRange i) (hj : Amount.InRange j) (hne : j ≠ 0) :
    ∃ neg u, ofInt i / ofInt j = .finite neg u ∧ (u = 0 ↔ i = 0) := by
  obtain ⟨m, hm, hmnear⟩ := ofInt_eq hi
  obtain ⟨n, hn, hnnear⟩ := ofInt_eq hj
  obtain ⟨v, hvnear, hvleast, hvmost⟩ := hnnear.exact (by decide)
  have hjone : (1 : ℚ) ≤ j.natAbs := by exact_mod_cast Int.natAbs_pos.2 hne
  have hjmost : (j.natAbs : ℚ) ≤ 2 ^ 63 := by exact_mod_cast Amount.natAbs_le hj
  have himost : (i.natAbs : ℚ) ≤ 2 ^ 63 := by exact_mod_cast Amount.natAbs_le hi
  have hv : 0 < v := by linarith
  have hnpos : 0 < n := hvnear.units_pos hv
  have hmoderate : Moderate (i.natAbs / v) := by
    rcases Nat.eq_zero_or_pos i.natAbs with hzero | hpos
    · exact .inl (by rw [hzero, Nat.cast_zero, zero_div])
    · have hione : (1 : ℚ) ≤ i.natAbs := by exact_mod_cast hpos
      refine .inr ⟨?_, ?_⟩
      · rw [le_div_iff₀ hv]
        linarith
      · rw [div_le_iff₀ hv]
        linarith
  have hquotient := hmnear.div hvnear hv hmoderate (by decide)
  obtain ⟨u, hu⟩ := hquotient.exists_finite
  have hround := finite_div_finite false false m hnpos.ne' ▸ hu
  refine ⟨decide (i < 0) != decide (j < 0), u, ?_, ?_⟩
  · rw [hm, hn, finite_div_finite _ _ _ hnpos.ne', round_of_round_false hround]
  · rw [hu] at hquotient
    constructor
    · intro hzero
      by_contra hi0
      have hpos : (0 : ℚ) < i.natAbs := by exact_mod_cast Int.natAbs_pos.2 hi0
      exact (hquotient.units_pos (div_pos hpos hv)).ne' hzero
    · rintro rfl
      rw [Int.natAbs_zero, Nat.cast_zero, zero_div] at hquotient
      have hzero := hquotient.eq_zero
      cases hzero
      rfl

theorem same_zero_finite {neg : Bool} {u : ℕ} : same (.finite neg u) zero = true ↔ u = 0 := by
  cases neg with
  | false => simp [same, zero, signedUnits]
  | true => simp [same, zero, signedUnits]

end Binary64

/-! ## What a node has -/

/-- A quantity that can be read is an amount. -/
theorem Quantity.inRange_of_milli {q : Quantity} {m : Int} (h : q.milli = .ok m) :
    Amount.InRange m := by
  simp only [milli] at h
  -- Whole numbers and doubles end with the same check.
  repeat' split at h
  all_goals cases h
  all_goals assumption

theorem Resource.inRange_of_unitsOf {r : Resource} {q : Quantity} {v : Int}
    (h : r.unitsOf q = .ok v) : Amount.InRange v := by
  have hvalue (h : q.value = .ok v) : Amount.InRange v := by
    rw [Quantity.value] at h
    cases hmilli : q.milli with
    | error fault =>
        rw [hmilli] at h
        cases h
    | ok m =>
        have hm := Quantity.inRange_of_milli hmilli
        rw [hmilli] at h
        obtain rfl : Quantity.ceilDiv m 1000 = v := Except.ok.inj h
        simp only [Amount.InRange, Amount.least, Amount.greatest, Quantity.ceilDiv] at hm ⊢
        omega
  cases r with
  | cpu => exact Quantity.inRange_of_milli h
  | memory | gpu => exact hvalue h

/-- What a node has of a resource, in the unit that has a price. What it does not advertise, or in
a form that cannot be read, it does not have. -/
def Node.offered (n : Node) (r : Resource) : Int :=
  ((n.capacities.get? r.name).bind fun q => (r.unitsOf q).toOption).getD 0

theorem Node.offered_eq (n : Node) (r : Resource) :
    n.offered r = match n.capacity r with
      | .ok v => v
      | .error _ => 0 := by
  rw [Node.capacity, Node.offered]
  cases n.capacities.get? r.name with
  | none => rfl
  | some q => cases hunits : r.unitsOf q <;> simp [hunits, Except.toOption]

theorem Node.offered_of_capacity {n : Node} {r : Resource} {v : Int} (h : n.capacity r = .ok v) :
    n.offered r = v := by
  rw [offered_eq, h]

theorem Node.inRange_offered (n : Node) (r : Resource) : Amount.InRange (n.offered r) := by
  unfold offered
  cases n.capacities.get? r.name with
  | none => exact Amount.inRange_zero
  | some q =>
      cases hunits : r.unitsOf q with
      | error fault => simpa [hunits, Except.toOption] using Amount.inRange_zero
      | ok v => simpa [hunits, Except.toOption] using Resource.inRange_of_unitsOf hunits

/-- What the workloads scheduled on the node of a name ask for of a resource, added in their order
within the range of amounts. -/
def Workload.askedOf (ws : List Workload) (k : String) (r : Resource) : Int :=
  ((ws.filter (·.nodeName = k)).map (·.request r)).foldl Amount.add 0

namespace Allocation

variable {ws : List Workload} {ns : List Node} {n : Node} {a : Allocation} {k : String}

/-! ## The account of one node -/

theorem get_available_account (ws : List Workload) (n : Node) (r : Resource) :
    (account ws n).available.get r = n.offered r := by
  rw [account, foldl_charge, Node.offered_eq]
  exact Resources.get_of _ r

theorem get_used_account (ws : List Workload) (n : Node) (r : Resource) :
    (account ws n).used.get r =
      if Workload.askedOf ws n.metadata.name r = 0 then n.offered r
      else Workload.askedOf ws n.metadata.name r := by
  have hidle : (idle n).used.get r = 0 := by
    cases r <;> rfl
  have havailable : (idle n).available.get r = n.offered r := by
    rw [← get_available_account ws, account, foldl_charge]
    rfl
  simp only [account, foldl_charge, settle, Resources.get_of, hidle, havailable, Workload.askedOf]
  rfl

/-- A resource counts as unused only where there is none of it. -/
theorem offered_of_unused {r : Resource} (h : (account ws n).used.get r = 0) : n.offered r = 0 := by
  rw [get_used_account] at h
  split at h
  next => exact h
  next hasked => exact absurd h hasked

theorem inRange_used (ws : List Workload) (n : Node) (r : Resource) :
    Amount.InRange ((account ws n).used.get r) := by
  rw [get_used_account]
  split
  next => exact n.inRange_offered r
  next => exact Amount.inRange_foldl_add Amount.inRange_zero _

/-- The scale factor of a node is a number, and zero if and only if there is nothing to scale. -/
theorem scaleFactor_account_zero (ws : List Workload) (n : Node) (r : Resource) :
    ((account ws n).scaleFactor r).isFinite = true ∧
      (((account ws n).scaleFactor r).same .zero = true ↔ n.offered r = 0) := by
  rw [scaleFactor, get_available_account]
  split
  next hunused =>
    exact ⟨rfl, fun _ => offered_of_unused hunused, fun _ => rfl⟩
  next hused =>
    obtain ⟨neg, u, hquotient, hzero⟩ :=
      Binary64.ofInt_div_ofInt (n.inRange_offered r) (inRange_used ws n r) hused
    rw [hquotient, Binary64.same_zero_finite]
    exact ⟨rfl, hzero⟩

/-! ## The table -/

theorem named?_of_get?_all (h : (all ws ns).get? k = some a) :
    ∃ n, Node.named? ns k = some n ∧ n.metadata.name = k ∧ a = account ws n := by
  rw [get?_all, Option.map_eq_some_iff] at h
  obtain ⟨n, hnamed, rfl⟩ := h
  exact ⟨n, hnamed, (getLast?_filter_eq_some.1 hnamed).2, rfl⟩

/-- The table has an entry for the name of every node, and no other. -/
theorem mem_keys_all : k ∈ (all ws ns).keys ↔ k ∈ ns.map (·.metadata.name) := by
  rw [Assoc.mem_keys, List.mem_map]
  constructor
  · rintro ⟨a, ha⟩
    obtain ⟨n, hnamed, hname, -⟩ := named?_of_get?_all ha
    exact ⟨n, (getLast?_filter_eq_some.1 hnamed).1.mem, hname⟩
  · rintro ⟨n, hn, rfl⟩
    obtain ⟨last, hlast⟩ : ∃ last, IsLast (·.metadata.name) ns last ∧
        last.metadata.name = n.metadata.name := exists_isLast hn
    refine ⟨account ws last, ?_⟩
    rw [get?_all, Option.map_eq_some_iff]
    exact ⟨last, getLast?_filter_eq_some.2 hlast, rfl⟩

/-- **The allocation of a node is its account.** The table has one entry for every name of a node.
The entry is about the last node of the name, the one that the nodes by name have too. For every
resource, what is available is what that node offers, and what is used is the sum of what exactly the
workloads scheduled on the name ask for, or what is available where that sum is zero. So a resource
is unused only where there is none of it, and the scale factor is a number that is zero just there;
everywhere else it is the quotient by a number other than zero. -/
theorem all_exact (ws : List Workload) (ns : List Node) :
    (all ws ns).keys.Nodup ∧
      (∀ k, k ∈ (all ws ns).keys ↔ k ∈ ns.map (·.metadata.name)) ∧
      ∀ k a, (all ws ns).get? k = some a →
        IsLast (·.metadata.name) ns a.node ∧ a.node.metadata.name = k ∧
          (Node.byName ns).get? k = some a.node ∧
          ∀ r : Resource,
            a.available.get r = a.node.offered r ∧
            a.used.get r =
              (if Workload.askedOf ws k r = 0 then a.available.get r
                else Workload.askedOf ws k r) ∧
            (a.used.get r = 0 → a.available.get r = 0) ∧
            (a.available.get r ≠ 0 → a.used.get r ≠ 0 ∧ a.scaleFactor r =
              Binary64.ofInt (a.available.get r) / Binary64.ofInt (a.used.get r)) ∧
            (a.scaleFactor r).isFinite = true ∧
            ((a.scaleFactor r).same .zero = true ↔ a.available.get r = 0) := by
  refine ⟨Assoc.nodup_keys _, fun k => mem_keys_all, fun k a ha => ?_⟩
  obtain ⟨n, hnamed, rfl, rfl⟩ := named?_of_get?_all ha
  rw [node_account]
  refine ⟨(getLast?_filter_eq_some.1 hnamed).1, rfl, (Node.get?_byName ns _).trans hnamed, ?_⟩
  intro r
  obtain ⟨hfinite, hzero⟩ := scaleFactor_account_zero ws n r
  rw [get_available_account]
  refine ⟨rfl, get_used_account ws n r, offered_of_unused, fun hoffered => ?_, hfinite, hzero⟩
  have hused : (account ws n).used.get r ≠ 0 := fun hunused => hoffered (offered_of_unused hunused)
  refine ⟨hused, ?_⟩
  rw [scaleFactor, if_neg hused, get_available_account]

/-- Of two nodes with one name the first does not count. What is asked for is used, and what nobody
asks for is fully used. -/
theorem all_exact_two_of_a_name :
    let older : Node := { metadata := { name := "n" }, capacities := .ofList [("cpu", ⟨"8"⟩)] }
    let newer : Node :=
      { metadata := { name := "n" },
        capacities := .ofList [("cpu", ⟨"2"⟩), ("memory", ⟨"1Ki"⟩), ("nvidia.com/gpu", ⟨"few"⟩)] }
    let w : Workload :=
      { nodeName := "n", containers := [{ requests := .ofList [("cpu", ⟨"500m"⟩)] }] }
    let a := account [w] newer
    (all [w] [older, newer]).get? "n" = some a ∧
      IsLast (·.metadata.name) [older, newer] newer ∧ a.used = ⟨500, 1024, 0⟩ ∧
      ∀ r, (a.scaleFactor r).same .zero = true ↔ a.available.get r = 0 := by
  intro older newer w a
  obtain ⟨-, -, hall⟩ := all_exact [w] [older, newer]
  have ha : (all [w] [older, newer]).get? "n" = some a := by decide +kernel
  obtain ⟨hlast, -, -, hresources⟩ := hall "n" a ha
  exact ⟨ha, hlast, by decide +kernel, fun r => (hresources r).2.2.2.2.2⟩

end Allocation

end Chargeback
