import Chargeback.Cycle.Emission
import Chargeback.Proofs.NodeShares
import Chargeback.Proofs.PricedInventory

/-!
# The sign of a cost

A cost is a product of doubles that is cut to an amount, and amounts are added. Nothing here asks for
magnitudes: a product may leave the range of the doubles and a sum the range of the amounts. What
carries the argument through all of this is the sign alone.

Two facts about doubles do the work. A number that is not below zero stays so when it is multiplied by
another one (`NotNegative.mul`); an infinity may be such a number, and what is no number is one, as it
counts as no amount. And nothing stays nothing, or becomes no number at all, whatever it is multiplied
by (`Vanishes.mul`), even by an infinity.

So no item is below zero, and a workload that asks for nothing costs nothing
(`no_negative_or_phantom_cost`).
-/

namespace Chargeback

namespace Binary64

variable {x y : Binary64}

/-! ## Numbers that are not below zero -/

/-- The number is not below zero. The negative zero is one of these, and so is what is no number. -/
def NotNegative (x : Binary64) : Prop := x.lt .zero = false

theorem notNegative_finite {neg : Bool} {u : ℕ} :
    NotNegative (.finite neg u) ↔ (neg = true → u = 0) := by
  cases neg with
  | false => simp [NotNegative, lt, zero, signedUnits]
  | true => simp [NotNegative, lt, zero, signedUnits]

theorem notNegative_infinite {neg : Bool} : NotNegative (.infinite neg) ↔ neg = false := Iff.rfl

theorem notNegative_nan : NotNegative .nan := rfl

theorem notNegative_round {neg : Bool} {num den : ℕ} (hden : 0 < den) (h : neg = true → num = 0) :
    NotNegative (round neg num den) := by
  cases neg with
  | true =>
      rw [h rfl, round_zero hden, notNegative_finite]
      exact fun _ => rfl
  | false =>
      rw [round_eq]
      split
      · exact notNegative_finite.2 fun hneg => absurd hneg (by decide)
      · exact notNegative_infinite.2 rfl

/-- A magnitude with its sign times infinity, or divided by zero. -/
theorem notNegative_unbounded {neg : Bool} {u : ℕ} (h : neg = true → u = 0) :
    NotNegative (if u = 0 then .nan else .infinite neg) := by
  split
  next => exact notNegative_nan
  next hne => exact notNegative_infinite.2 (Bool.eq_false_iff.2 fun hneg => hne (h hneg))

/-- Two such magnitudes have different signs only if one of them is zero. -/
theorem mul_eq_zero_of_signs {a b : Bool} {m n : ℕ} (hm : a = true → m = 0) (hn : b = true → n = 0)
    (hsigns : (a != b) = true) : m * n = 0 := by
  cases a with
  | true => rw [hm rfl, Nat.zero_mul]
  | false => rw [hn (Bool.false_bne b ▸ hsigns), Nat.mul_zero]

theorem NotNegative.mul (hx : x.NotNegative) (hy : y.NotNegative) : (x * y).NotNegative := by
  cases x with
  | nan => exact notNegative_nan
  | infinite a =>
      obtain rfl := notNegative_infinite.1 hx
      cases y with
      | nan => exact notNegative_nan
      | infinite b =>
          obtain rfl := notNegative_infinite.1 hy
          exact notNegative_infinite.2 rfl
      | finite b n =>
          have hproduct := notNegative_unbounded (notNegative_finite.1 hy)
          rwa [← Bool.false_bne b] at hproduct
  | finite a m =>
      have hm := notNegative_finite.1 hx
      cases y with
      | nan => exact notNegative_nan
      | infinite b =>
          obtain rfl := notNegative_infinite.1 hy
          have hproduct := notNegative_unbounded hm
          rwa [← Bool.bne_false a] at hproduct
      | finite b n =>
          rw [finite_mul_finite]
          exact notNegative_round unitsPerOne_pos
            (mul_eq_zero_of_signs hm (notNegative_finite.1 hy))

/-- An integer that is not negative has no sign as a double, be it zero or beyond the range. -/
theorem ofInt_of_nonneg {i : ℤ} (h : 0 ≤ i) :
    (∃ u, ofInt i = .finite false u) ∨ ofInt i = .infinite false := by
  have hsign : decide (i < 0) = false := decide_eq_false (Int.not_lt.2 h)
  rw [ofInt, hsign, round_eq]
  split
  · exact .inl ⟨_, rfl⟩
  · exact .inr rfl

theorem notNegative_ofInt {i : ℤ} (h : 0 ≤ i) : NotNegative (ofInt i) := by
  rcases ofInt_of_nonneg h with ⟨u, hu⟩ | hu
  · rw [hu, notNegative_finite]
    exact fun hneg => absurd hneg (by decide)
  · rw [hu, notNegative_infinite]

theorem NotNegative.div_ofInt (hx : x.NotNegative) {i : ℤ} (hi : 0 ≤ i) :
    (x / ofInt i).NotNegative := by
  show NotNegative (div x (ofInt i))
  rcases ofInt_of_nonneg hi with ⟨n, hn⟩ | hn
  · rw [hn]
    cases x with
    | nan => exact notNegative_nan
    | infinite a =>
        obtain rfl := notNegative_infinite.1 hx
        rw [div, notNegative_infinite, Bool.bne_false]
    | finite a m =>
        have hm := notNegative_finite.1 hx
        rw [div, Bool.bne_false]
        split
        next => exact notNegative_unbounded hm
        next hne =>
          refine notNegative_round (Nat.pos_of_ne_zero hne) fun hneg => ?_
          rw [hm hneg, Nat.zero_mul]
  · rw [hn]
    cases x with
    | nan => exact notNegative_nan
    | infinite a => rw [div]; exact notNegative_nan
    | finite a m =>
        rw [div, notNegative_finite]
        exact fun _ => rfl

theorem NotNegative.ofBinary64 (hx : x.NotNegative) : 0 ≤ Amount.ofBinary64 x := by
  cases x with
  | nan => exact le_rfl
  | infinite a =>
      obtain rfl := notNegative_infinite.1 hx
      exact (by decide : 0 ≤ Amount.greatest)
  | finite a m =>
      rw [Amount.ofBinary64]
      refine Amount.clamp_nonneg ?_
      split
      next hneg =>
        rw [notNegative_finite.1 hx hneg, Nat.zero_div]
        rfl
      next => exact Int.natCast_nonneg _

/-! ## Nothing -/

/-- Nothing, or no number at all. -/
inductive Vanishes : Binary64 → Prop
  | zero (neg : Bool) : Vanishes (.finite neg 0)
  | nan : Vanishes .nan

theorem Vanishes.mul (hx : x.Vanishes) (y : Binary64) : (x * y).Vanishes := by
  cases hx with
  | nan => exact .nan
  | zero a =>
      cases y with
      | nan => exact .nan
      | infinite b => exact .nan
      | finite b n =>
          rw [finite_mul_finite, Nat.zero_mul, round_zero unitsPerOne_pos]
          exact .zero _

theorem vanishes_ofInt_zero : Vanishes (ofInt 0) := by
  rw [ofInt, Int.natAbs_zero, Nat.zero_mul, round_zero one_pos]
  exact .zero _

theorem Vanishes.ofBinary64 (hx : x.Vanishes) : Amount.ofBinary64 x = 0 := by
  cases hx with
  | nan => rfl
  | zero a =>
      rw [Amount.ofBinary64, Nat.zero_div]
      cases a <;> rfl

end Binary64

open Binary64

/-! ## Costs -/

theorem Amount.add_nonneg {a b : ℤ} (ha : 0 ≤ a) (hb : 0 ≤ b) : 0 ≤ Amount.add a b :=
  Amount.clamp_nonneg (Int.add_nonneg ha hb)

theorem Span.notNegative_hours (span : Span) : span.hours.NotNegative :=
  (notNegative_ofInt (Int.natCast_nonneg _)).div_ofInt (Int.natCast_nonneg _)

namespace PricingEntry

variable {e : PricingEntry} {r : Resource} {quantity : Binary64} {span : Span}

theorem resourceCost_nonneg (hrate : (e.rate r).NotNegative) (hquantity : quantity.NotNegative) :
    0 ≤ Strategy.resourceCost e r quantity span := by
  rw [resourceCost_eq, costOf_eq]
  exact ((hquantity.mul span.notNegative_hours).mul hrate).ofBinary64

theorem resourceCost_of_vanishes (hquantity : quantity.Vanishes) :
    Strategy.resourceCost e r quantity span = 0 := by
  rw [resourceCost_eq, costOf_eq]
  exact ((hquantity.mul _).mul _).ofBinary64

/-- No rate of a checked table is below zero. -/
theorem notNegative_rate {t : PricingTable} (h : Settings.checkRates t = .ok ()) {labels : Labels}
    (he : t.IsFirst labels e) (r : Resource) : (e.rate r).NotNegative :=
  have hmem := PricingTable.mem_of_find (PricingTable.find_eq_ok.2 he)
  (Settings.isRate_eq_true.1 (isRate_of_checkRates h hmem r)).2

end PricingEntry

/-! ## What is asked for and what there is -/

/-- No request and no capacity that can be read is below zero. -/
structure NonnegativeInventory (ws : List Workload) (ns : List Node) : Prop where
  asked : ∀ w ∈ ws, w.AsksNonnegative
  offered : ∀ n ∈ ns, ∀ r v, n.capacity r = .ok v → 0 ≤ v

namespace NonnegativeInventory

variable {ws : List Workload} {ns : List Node} {n : Node}

theorem offered_nonneg (h : NonnegativeInventory ws ns) (hn : n ∈ ns) (r : Resource) :
    0 ≤ n.offered r := by
  rw [Node.offered_eq]
  split
  next v hv => exact h.offered n hn r v hv
  next => exact le_rfl

theorem askedOf_nonneg (h : NonnegativeInventory ws ns) (k : String) (r : Resource) :
    0 ≤ Workload.askedOf ws k r := by
  refine Amount.foldl_add_nonneg (List.forall_mem_map.2 fun w hw => ?_)
  exact Workload.request_nonneg (h.asked w (List.mem_filter.1 hw).1) r

theorem notNegative_scaleFactor (h : NonnegativeInventory ws ns) (hn : n ∈ ns) (r : Resource) :
    ((Allocation.account ws n).scaleFactor r).NotNegative := by
  have hused : 0 ≤ (Allocation.account ws n).used.get r := by
    rw [Allocation.get_used_account]
    split
    · exact h.offered_nonneg hn r
    · exact h.askedOf_nonneg _ r
  rw [Allocation.scaleFactor, Allocation.get_available_account]
  split
  · exact notNegative_finite.2 fun hneg => absurd hneg (by decide)
  · exact (notNegative_ofInt (h.offered_nonneg hn r)).div_ofInt hused

end NonnegativeInventory

/-- A workload whose containers ask for none of a resource has no request for it. -/
theorem Workload.request_eq_zero {w : Workload} {r : Resource} (h : ∀ m ∈ w.asked r, m = 0) :
    w.request r = 0 := by
  have hsum : (w.asked r).foldl Amount.add 0 = 0 := by
    rw [Amount.foldl_add_of_nonneg Amount.inRange_zero fun m hm => (h m hm).ge,
      List.sum_eq_zero h]
    rfl
  rw [request_eq, hsum]
  cases r <;> rfl

/-! ## Items -/

/-- The resources whose requests enter the price of a workload. -/
def Strategy.Prices : Strategy → Resource → Prop
  | .cpu, r => r = .cpu
  | .memory, r => r = .memory
  | .gpu, r => r = .gpu
  | .weighted, _ => True
  | .node, _ => False

namespace Rating

variable {t : PricingTable} {ws : List Workload} {ns : List Node} {x : Rating} {span : Span}

theorem mem_of_mem_all (hx : x ∈ Rating.all t ws ns) : x.workload ∈ ws := by
  obtain ⟨w, hw, hrating⟩ := List.mem_filterMap.1 hx
  rw [(Workload.rating?_eq_some.1 hrating).1]
  exact hw

theorem item_nonneg (hrates : Settings.checkRates t = .ok ()) (h : NonnegativeInventory ws ns)
    (hx : x ∈ Rating.all t ws ns) (s : Strategy) (r : Resource) : 0 ≤ (x.item s r span).value :=
  PricingEntry.resourceCost_nonneg
    (PricingEntry.notNegative_rate hrates (holds_of_mem_all hx).entry r)
    (notNegative_ofInt (Workload.request_nonneg (h.asked _ (mem_of_mem_all hx)) r))

theorem scaledCost_nonneg (hrates : Settings.checkRates t = .ok ()) (h : NonnegativeInventory ws ns)
    (hx : x ∈ Rating.all t ws ns) (r : Resource) : 0 ≤ x.scaledCost ws span r := by
  have hholds := holds_of_mem_all hx
  have hrequest := Workload.request_nonneg (h.asked _ (mem_of_mem_all hx)) r
  exact PricingEntry.resourceCost_nonneg (PricingEntry.notNegative_rate hrates hholds.entry r)
    ((notNegative_ofInt hrequest).mul (h.notNegative_scaleFactor hholds.last.mem r))

theorem share_nonneg (hrates : Settings.checkRates t = .ok ()) (h : NonnegativeInventory ws ns)
    (hx : x ∈ Rating.all t ws ns) : 0 ≤ (x.share ws span).value := by
  have hcost (r : Resource) : 0 ≤ x.scaledCost ws span r := scaledCost_nonneg hrates h hx r
  exact Amount.add_nonneg (Amount.add_nonneg (hcost .cpu) (hcost .memory)) (hcost .gpu)

theorem item_eq_zero {r : Resource} (hnone : x.workload.request r = 0) (s : Strategy) :
    (x.item s r span).value = 0 := by
  show Strategy.resourceCost x.entry r (ofInt (x.workload.request r)) span = 0
  rw [hnone]
  exact PricingEntry.resourceCost_of_vanishes vanishes_ofInt_zero

theorem share_eq_zero (hnone : ∀ r, x.workload.request r = 0) : (x.share ws span).value = 0 := by
  have hcost (r : Resource) : x.scaledCost ws span r = 0 := by
    rw [scaledCost, hnone]
    exact PricingEntry.resourceCost_of_vanishes (vanishes_ofInt_zero.mul _)
  show Amount.add (Amount.add (x.scaledCost ws span .cpu) (x.scaledCost ws span .memory))
    (x.scaledCost ws span .gpu) = 0
  rw [hcost, hcost, hcost]
  rfl

end Rating

theorem Valuation.item_nonneg {t : PricingTable} {ws : List Workload} {ns : List Node} {span : Span}
    {x : Valuation} (hrates : Settings.checkRates t = .ok ()) (h : NonnegativeInventory ws ns)
    (hx : x ∈ ns.filterMap (·.valuation? t)) : 0 ≤ (x.item span).value := by
  obtain ⟨n, hn, hvaluation⟩ := List.mem_filterMap.1 hx
  obtain ⟨rfl, -, -, hentry⟩ := Node.valuation?_eq_some.1 hvaluation
  have hcost (r : Resource) : 0 ≤ x.cost span r :=
    PricingEntry.resourceCost_nonneg (PricingEntry.notNegative_rate hrates hentry r)
      (notNegative_ofInt (h.offered_nonneg hn r))
  exact Amount.add_nonneg (Amount.add_nonneg (hcost .memory) (hcost .cpu)) (hcost .gpu)

namespace Strategy

variable {s : Strategy} {t : PricingTable} {span : Span} {ws : List Workload} {ns : List Node}
  {i : CostItem}

/-- Where an item comes from: a rating for one resource, a rating for all of them, or a node. -/
theorem item_cases (hi : i ∈ s.items t span ws ns) :
    (∃ x ∈ Rating.all t ws ns, ∃ r, s.Prices r ∧ i = x.item s r span) ∨
      (s = .weighted ∧ ∃ x ∈ Rating.all t ws ns, i = x.share ws span) ∨
      ∃ x ∈ ns.filterMap (·.valuation? t), i = x.item span := by
  cases s with
  | cpu =>
      rw [items, requestItems_eq _ _ _ _ _ (by decide)] at hi
      obtain ⟨x, hx, rfl⟩ := List.mem_map.1 hi
      exact .inl ⟨x, hx, .cpu, rfl, rfl⟩
  | memory =>
      rw [items, requestItems_eq _ _ _ _ _ (by decide)] at hi
      obtain ⟨x, hx, rfl⟩ := List.mem_map.1 hi
      exact .inl ⟨x, hx, .memory, rfl, rfl⟩
  | gpu =>
      rw [items, gpuItems_eq] at hi
      obtain ⟨x, hx, rfl⟩ := List.mem_map.1 hi
      exact .inl ⟨x, (List.mem_filter.1 hx).1, .gpu, rfl, rfl⟩
  | weighted =>
      rw [items, weightedItems_eq] at hi
      obtain ⟨x, hx, rfl⟩ := List.mem_map.1 hi
      exact .inr (.inl ⟨rfl, x, hx, rfl⟩)
  | node =>
      rw [items, nodeItems_eq] at hi
      obtain ⟨x, hx, rfl⟩ := List.mem_map.1 hi
      exact .inr (.inr ⟨x, hx, rfl⟩)

theorem value_nonneg (hrates : Settings.checkRates t = .ok ()) (h : NonnegativeInventory ws ns)
    (hi : i ∈ s.items t span ws ns) : 0 ≤ i.value := by
  rcases item_cases hi with ⟨x, hx, r, -, rfl⟩ | ⟨-, x, hx, rfl⟩ | ⟨x, hx, rfl⟩
  · exact Rating.item_nonneg hrates h hx s r
  · exact Rating.share_nonneg hrates h hx
  · exact Valuation.item_nonneg hrates h hx

theorem value_eq_zero {w : Workload} (hi : i ∈ s.items t span ws ns) (hw : i.workload = some w)
    (hnone : ∀ r, s.Prices r → w.request r = 0) : i.value = 0 := by
  rcases item_cases hi with ⟨x, -, r, hr, rfl⟩ | ⟨rfl, x, -, rfl⟩ | ⟨x, -, rfl⟩
  · obtain rfl : x.workload = w := Option.some.inj hw
    exact Rating.item_eq_zero (hnone r hr) s
  · obtain rfl : x.workload = w := Option.some.inj hw
    exact Rating.share_eq_zero fun r => hnone r trivial
  · cases hw

end Strategy

/-- Costs that are not below zero are counted without an error. -/
theorem Exporter.errors_attributeAll {rs : List CostRecord} (h : ∀ r ∈ rs, 0 ≤ r.value)
    (s : Surroundings) : (attributeAll rs s).metrics.exportErrors = s.metrics.exportErrors := by
  induction rs generalizing s with
  | nil => rfl
  | cons r rs ih =>
      obtain ⟨hr, hrs⟩ := List.forall_mem_cons.1 h
      have hfirst : (s.metrics.costAttributed statsName r).exportErrors = s.metrics.exportErrors := by
        rw [Metrics.costAttributed, if_neg (Int.not_lt.2 hr)]
      exact (ih hrs { s with metrics := s.metrics.costAttributed statsName r }).trans hfirst

/-- **No strategy invents a cost.** At checked rates, over any span and for any inventory without a
negative request or capacity, every item of every strategy is zero or more, however large its factors
are, so the exporter of costs as metrics counts no error when it receives the records of the items. An
item of a workload is exactly zero if the workload has no request for any resource that the strategy
prices, and it has none where none of its containers asks for any. -/
theorem no_negative_or_phantom_cost {t : PricingTable} {ws : List Workload} {ns : List Node}
    (hrates : Settings.checkRates t = .ok ()) (hinventory : NonnegativeInventory ws ns)
    (s : Strategy) (span : Span) :
    (∀ i ∈ s.items t span ws ns, 0 ≤ i.value) ∧
      (∀ (c : Coster) (now : Instant) (world : Surroundings),
        (Exporter.stats.acceptAll ((s.items t span ws ns).map (c.toRecord now))
          world).2.metrics.exportErrors = world.metrics.exportErrors) ∧
      (∀ i ∈ s.items t span ws ns, ∀ w, i.workload = some w →
        (∀ r, s.Prices r → w.request r = 0) → i.value = 0) ∧
      ∀ (w : Workload) (r : Resource), (∀ m ∈ w.asked r, m = 0) → w.request r = 0 := by
  have hnonneg : ∀ i ∈ s.items t span ws ns, 0 ≤ i.value := fun i hi =>
    Strategy.value_nonneg hrates hinventory hi
  refine ⟨hnonneg, fun c now world => ?_, fun i hi w hw hnone => ?_, fun w r hnone => ?_⟩
  · exact Exporter.errors_attributeAll (List.forall_mem_map.2 hnonneg) world
  · exact Strategy.value_eq_zero hi hw hnone
  · exact Workload.request_eq_zero hnone

/-- Two requests that add up to more than the greatest amount, at the rate of `2 ^ 1023` for `2 ^ 64`
seconds, cost the greatest amount. The neighbour that asks for nothing costs nothing, though its zero is
multiplied by all of this, and by the negative zero. -/
theorem no_negative_or_phantom_cost_beyond_range :
    let t : PricingTable :=
      { entries := [{ cpuRate := .finite false (2 ^ 2097), memoryRate := .finite true 0 }] }
    let n : Node := { metadata := { name := "n" },
                      capacities := .ofList [("cpu", ⟨"9223372036854775"⟩), ("memory", ⟨"1Gi"⟩)] }
    let most : Container := { requests := .ofList [("cpu", ⟨"9223372036854775"⟩)] }
    let greedy : Workload := { nodeName := "n", containers := [most, most] }
    let quiet : Workload :=
      { nodeName := "n", containers := [{ requests := .ofList [("cpu", ⟨"0"⟩), ("memory", ⟨"-"⟩)] }] }
    let items := Strategy.weighted.items t (.ofSeconds (2 ^ 64)) [greedy, quiet] [n]
    Settings.checkRates t = .ok () ∧ NonnegativeInventory [greedy, quiet] [n] ∧
      items.map (·.value) = [Amount.greatest, 0] ∧ (∀ i ∈ items, 0 ≤ i.value) ∧
      (∀ r, quiet.request r = 0) ∧ ∀ i ∈ items, i.workload = some quiet → i.value = 0 := by
  intro t n most greedy quiet items
  have hrates : Settings.checkRates t = .ok () := by decide +kernel
  have hcapacity (r : Resource) : ∃ v, n.capacity r = .ok v ∧ 0 ≤ v := by
    cases r with
    | cpu => exact ⟨9223372036854775000, by decide +kernel, by decide⟩
    | memory => exact ⟨2 ^ 30, by decide +kernel, by decide⟩
    | gpu => exact ⟨0, by decide +kernel, by decide⟩
  have hinventory : NonnegativeInventory [greedy, quiet] [n] := by
    refine ⟨fun w hw r => ?_, fun m hm r v hv => ?_⟩
    · revert w
      cases r <;> decide +kernel
    · obtain rfl := List.mem_singleton.1 hm
      obtain ⟨_, hread, hnonneg⟩ := hcapacity r
      obtain rfl := Except.ok.inj (hread.symm.trans hv)
      exact hnonneg
  have hquiet (r : Resource) : quiet.request r = 0 := by
    cases r <;> decide +kernel
  obtain ⟨hnonneg, -, hzero, -⟩ :=
    no_negative_or_phantom_cost hrates hinventory .weighted (.ofSeconds (2 ^ 64))
  exact ⟨hrates, hinventory, by decide +kernel, hnonneg, hquiet, fun i hi hw =>
    hzero i hi quiet hw fun r _ => hquiet r⟩

end Chargeback
