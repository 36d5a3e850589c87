import Chargeback.Pricing.Strategy
import Chargeback.Proofs.AllocationTable
import Chargeback.Proofs.NodeTenancy
import Chargeback.Proofs.ValidatedSettings
import Mathlib.Algebra.BigOperators.Ring.Finset

/-!
# The workloads on a node share what it costs

The weighted strategy scales each request by the capacity for each unit asked for, so the shares of a
resource add up to its capacity, and their costs to the cost of the node. This is exact for the numbers
that are meant. The numbers that are computed differ from these by a rounding for every operation, and
each cost is cut toward zero to a whole amount (`Binary64.Near`, `Binary64.Cuts`).

What is lost or gained for one resource is therefore less than one for each share cut, as long as the
roundings of a whole cost do not add up to one; they do not below `2 ^ 50` (`sum_cuts_bounds`). The
three resources together give the bound for the items of a node (`weighted_items_share_node`).
-/

namespace Chargeback

open Binary64

/-! ## Adding up what was cut -/

section Sums

variable {α : Type} {k : ℕ} {q : α → ℚ} {i : α → ℤ}

/-- Numbers cut one by one lose less than one each. -/
theorem sum_cuts {l : List α} (h : ∀ a ∈ l, Cuts k (q a) (i a)) :
    ((l.map i).sum : ℚ) ≤ (l.map q).sum * (1 + epsilon) ^ k ∧
      (l.map q).sum * (1 - epsilon) ^ k ≤ (l.map i).sum + l.length := by
  induction l with
  | nil => simp
  | cons a l ih =>
      obtain ⟨ha, hrest⟩ := List.forall_mem_cons.1 h
      obtain ⟨hmost, hleast⟩ := ih hrest
      rw [List.map_cons, List.sum_cons, List.map_cons, List.sum_cons, Int.cast_add, List.length_cons,
        Nat.cast_succ]
      constructor
      · linarith [ha.le]
      · linarith [ha.lt]

/-- Shares that add up to a whole, cut one by one, and the whole, cut at once: the shares are one more
at most, and less by one for each of them at most. -/
theorem sum_cuts_bounds {l : List α} (h : ∀ a ∈ l, Cuts 4 (q a) (i a)) {whole : ℤ}
    (hwhole : Cuts 2 (l.map q).sum whole) (hsmall : whole < 2 ^ 50) :
    whole - l.length ≤ (l.map i).sum ∧ (l.map i).sum ≤ whole + 1 := by
  obtain ⟨hmost, hleast⟩ := sum_cuts h
  have hle := hwhole.le
  have hlt := hwhole.lt
  have hfifty : (whole : ℚ) + 1 ≤ 2 ^ 50 := by exact_mod_cast hsmall
  generalize (l.map q).sum = exact at hmost hleast hle hlt
  generalize (l.map i).sum = parts at hmost hleast ⊢
  norm_num [epsilon] at hmost hleast hle hlt
  have hbelow : (whole : ℚ) < parts + l.length + 1 := by linarith
  have habove : (parts : ℚ) < whole + 2 := by linarith
  have hbelow : whole < parts + l.length + 1 := by exact_mod_cast hbelow
  have habove : parts < whole + 2 := by exact_mod_cast habove
  constructor
  · omega
  · omega

end Sums

/-! ## Hours -/

namespace Span

/-- A span as a fraction of an hour. -/
def hours (s : Span) : Binary64 := Binary64.ofNat s.nanos / Binary64.ofNat (3600 * perSecond)

/-- The fraction of an hour that a span is meant to be. -/
theorem fraction_range {nanos : ℕ} (h : nanos < 2 ^ 64 * perSecond) :
    (nanos : ℚ) / (3600 * perSecond : ℕ) = 0 ∨
      1 / 2 ^ 42 ≤ (nanos : ℚ) / (3600 * perSecond : ℕ) ∧
        (nanos : ℚ) / (3600 * perSecond : ℕ) ≤ 2 ^ 53 := by
  have hlength : ((3600 * perSecond : ℕ) : ℚ) = 3600 * 10 ^ 9 := by norm_num [perSecond]
  rcases Nat.eq_zero_or_pos nanos with rfl | hpos
  · left
    rw [Nat.cast_zero, zero_div]
  · right
    have hleast : (1 : ℚ) ≤ nanos := by exact_mod_cast hpos
    have hmost : (nanos : ℚ) ≤ 2 ^ 64 * 10 ^ 9 := by exact_mod_cast h.le
    rw [hlength, le_div_iff₀ (by norm_num), div_le_iff₀ (by norm_num)]
    constructor
    · linarith
    · linarith

/-- The hours of a span of less than `2 ^ 64` seconds are none, or no very small and no very great
part of an hour. -/
theorem hours_near {s : Span} (h : s.nanos < 2 ^ 64 * perSecond) :
    ∃ f, Near 0 s.hours f ∧ (f = 0 ∨ 1 / 2 ^ 43 ≤ f) ∧ f ≤ 2 ^ 54 := by
  have hhour : Near 0 (Binary64.ofNat (3600 * perSecond)) (3600 * perSecond : ℕ) :=
    near_ofInt (i := (3600 * perSecond : ℕ)) (Int.natCast_nonneg _) (by decide)
  have hnanos : Near 1 (Binary64.ofNat s.nanos) s.nanos := near_ofNat (h.le.trans (by decide))
  have hlength : (0 : ℚ) < (3600 * perSecond : ℕ) := by norm_num [perSecond]
  have hrange := fraction_range h
  have hmoderate : Moderate ((s.nanos : ℚ) / (3600 * perSecond : ℕ)) := by
    refine hrange.imp_right fun ⟨hleast, hmost⟩ => ⟨?_, ?_⟩
    · exact le_trans (by norm_num) hleast
    · exact hmost.trans (by norm_num)
  obtain ⟨f, hf, hfleast, hfmost⟩ := (hnanos.div hhour hlength hmoderate (by decide)).exact (by decide)
  generalize (s.nanos : ℚ) / (3600 * perSecond : ℕ) = p at hrange hfleast hfmost
  refine ⟨f, hf, ?_⟩
  rcases hrange with rfl | ⟨hleast, hmost⟩
  · have hzero : f = 0 := by linarith
    exact ⟨.inl hzero, by rw [hzero]; norm_num⟩
  · exact ⟨.inr (by linarith), by linarith⟩

end Span

theorem costOf_eq (q : Binary64) (span : Span) (rate : Binary64) :
    costOf q span rate = Amount.ofBinary64 (q * span.hours * rate) := rfl

/-! ## The shares of one resource -/

/-- What counts as used of a resource: what is asked for, or all of it if nothing is. -/
def usedOf (available : ℤ) (asked : List ℤ) : ℤ :=
  if Amount.clamp asked.sum = 0 then available else Amount.clamp asked.sum

/-- How much of a resource there is for each unit used. -/
def scaleOf (available used : ℤ) : Binary64 :=
  if used = 0 then .zero else Binary64.ofInt available / Binary64.ofInt used

/-- The cost of the share that a request gets of a resource. -/
def costOfShare (available : ℤ) (asked : List ℤ) (span : Span) (rate : Binary64) (a : ℤ) : ℤ :=
  costOf (Binary64.ofInt a * scaleOf available (usedOf available asked)) span rate

/-- Where nothing is available, nothing is the share of every request. -/
theorem scaleOf_zero {used : ℤ} (hused : 0 ≤ used) (hrange : used ≤ Amount.greatest) :
    scaleOf 0 used = .zero := by
  rw [scaleOf]
  split
  next => rfl
  next hne =>
    have hpos : 0 < used := lt_of_le_of_ne hused (Ne.symm hne)
    have hnothing : Binary64.ofInt 0 = .zero :=
      Near.eq_zero (by exact_mod_cast near_ofInt le_rfl (by decide))
    rw [hnothing]
    exact zero_div_eq (near_ofInt_of_le_greatest hused hrange) (Int.cast_pos.2 hpos)

/-- What is asked for is used, if it is some and not too much. -/
theorem usedOf_eq_sum {available : ℤ} {asked : List ℤ} (hpos : 0 < asked.sum)
    (hsmall : asked.sum < 2 ^ 53) : usedOf available asked = asked.sum := by
  have hrange : Amount.InRange asked.sum :=
    ⟨le_trans (by decide) hpos.le, hsmall.le.trans (by decide)⟩
  rw [usedOf, Amount.clamp_of_inRange hrange, if_neg hpos.ne']

theorem scaleOf_near {available used : ℤ} (havailable : 0 < available) (hsmall : available < 2 ^ 53)
    (hused : 0 < used) (hfew : used < 2 ^ 53) :
    Near 1 (scaleOf available used) (available / used) ∧ 1 / 2 ^ 53 ≤ (available : ℚ) / used := by
  have hleast : (1 : ℚ) ≤ available := by exact_mod_cast havailable
  have hmost : (available : ℚ) ≤ 2 ^ 53 := by exact_mod_cast hsmall.le
  have husedleast : (1 : ℚ) ≤ used := by exact_mod_cast hused
  have husedmost : (used : ℚ) ≤ 2 ^ 53 := by exact_mod_cast hfew.le
  have hpos : (0 : ℚ) < used := lt_of_lt_of_le one_pos husedleast
  have hscaleleast : 1 / 2 ^ 53 ≤ (available : ℚ) / used := by
    rw [le_div_iff₀ hpos]
    linarith
  have hscalemost : (available : ℚ) / used ≤ 2 ^ 53 := by
    rw [div_le_iff₀ hpos]
    linarith
  have hmoderate : Moderate ((available : ℚ) / used) :=
    .inr ⟨le_trans (by norm_num) hscaleleast, hscalemost.trans (by norm_num)⟩
  rw [scaleOf, if_neg hused.ne']
  exact ⟨(near_ofInt havailable.le hsmall.le).div (near_ofInt hused.le hfew.le) hpos hmoderate
    (by decide), hscaleleast⟩

/-- A request is scaled up or down to a share of what is available, and the shares are all of it. -/
theorem scaled_near {available : ℤ} {asked : List ℤ} (havailable : 0 ≤ available)
    (hsmall : available < 2 ^ 53) (hasked : ∀ a ∈ asked, 0 ≤ a ∧ a ≤ Amount.greatest)
    (htotal : available ≠ 0 → 0 < asked.sum ∧ asked.sum < 2 ^ 53) :
    ∃ s : ℚ, asked.sum * s = available ∧ ∀ a ∈ asked,
      Near 2 (Binary64.ofInt a * scaleOf available (usedOf available asked)) (a * s) ∧
      (a * s = 0 ∨ 1 / 2 ^ 53 ≤ a * s) ∧ a * s ≤ available := by
  have hnonneg : ∀ a ∈ asked, 0 ≤ a := fun a ha => (hasked a ha).1
  have hsum : 0 ≤ asked.sum := List.sum_nonneg hnonneg
  rcases havailable.eq_or_lt with rfl | hpos
  · have hscale : scaleOf 0 (usedOf 0 asked) = .zero := by
      refine scaleOf_zero ?_ ?_
      · simp only [usedOf, Amount.clamp, Amount.least, Amount.greatest]
        omega
      · simp only [usedOf, Amount.clamp, Amount.least, Amount.greatest]
        omega
    refine ⟨0, by rw [mul_zero, Int.cast_zero], fun a ha => ?_⟩
    obtain ⟨hanonneg, hale⟩ := hasked a ha
    have hproduct :=
      (near_ofInt_of_le_greatest hanonneg hale).mul (near_zero 0) (.inl (mul_zero _)) (by decide)
    rw [mul_zero] at hproduct
    rw [hscale, mul_zero]
    exact ⟨hproduct, .inl rfl, by rw [Int.cast_zero]⟩
  · obtain ⟨hsumpos, hsumsmall⟩ := htotal hpos.ne'
    obtain ⟨hscale, hleast⟩ := scaleOf_near hpos hsmall hsumpos hsumsmall
    have hwhole : (asked.sum : ℚ) * (available / asked.sum) = available :=
      mul_div_cancel₀ _ (Int.cast_ne_zero.2 hsumpos.ne')
    have hmost : (available : ℚ) ≤ 2 ^ 53 := by exact_mod_cast hsmall.le
    rw [usedOf_eq_sum hsumpos hsumsmall]
    generalize (available : ℚ) / asked.sum = s at hscale hleast hwhole
    refine ⟨s, hwhole, fun a ha => ?_⟩
    have hspos : 0 < s := lt_of_lt_of_le (by norm_num) hleast
    have hle : a ≤ asked.sum := List.single_le_sum hnonneg a ha
    have hshare : a * s ≤ available := by
      rw [← hwhole]
      exact mul_le_mul_of_nonneg_right (by exact_mod_cast hle) hspos.le
    have hrange : (a : ℚ) * s = 0 ∨ 1 / 2 ^ 53 ≤ a * s := by
      rcases (hnonneg a ha).eq_or_lt with rfl | hapos
      · exact .inl (by rw [Int.cast_zero, zero_mul])
      · have hone : (1 : ℚ) ≤ a := by exact_mod_cast hapos
        exact .inr (hleast.trans (le_mul_of_one_le_left hspos.le hone))
    have hmoderate : Moderate (a * s) := by
      refine hrange.imp_right fun hleast => ⟨le_trans (by norm_num) hleast, ?_⟩
      exact (hshare.trans hmost).trans (by norm_num)
    have hproduct :=
      (near_ofInt (hnonneg a ha) (hle.trans hsumsmall.le)).mul hscale hmoderate (by decide)
    exact ⟨hproduct, hrange, hshare⟩

/-- What is held for some hours is no very small and no very great number. -/
theorem moderate_mul_hours {q f : ℚ} (hq : q = 0 ∨ 1 / 2 ^ 53 ≤ q) (hqmost : q ≤ 2 ^ 53)
    (hf : f = 0 ∨ 1 / 2 ^ 43 ≤ f) (hfmost : f ≤ 2 ^ 54) : Moderate (q * f) := by
  rcases hq with rfl | hq
  · exact .inl (zero_mul f)
  rcases hf with rfl | hf
  · exact .inl (mul_zero q)
  have hfpos : 0 ≤ f := le_trans (by norm_num) hf
  refine .inr ⟨?_, ?_⟩
  · calc (1 : ℚ) / 2 ^ 120 ≤ 1 / 2 ^ 53 * (1 / 2 ^ 43) := by norm_num
      _ ≤ q * f := mul_le_mul hq hf (by norm_num) (le_trans (by norm_num) hq)
  · calc q * f ≤ 2 ^ 53 * 2 ^ 54 := mul_le_mul hqmost hfmost hfpos (by norm_num)
      _ ≤ 2 ^ 120 := by norm_num

/-- A capacity held for some hours. -/
theorem held_near {available : ℤ} (havailable : 0 ≤ available) (hsmall : available < 2 ^ 53)
    {hours : Binary64} {f : ℚ} (hhours : Near 0 hours f) (hf : f = 0 ∨ 1 / 2 ^ 43 ≤ f)
    (hfmost : f ≤ 2 ^ 54) : Near 1 (Binary64.ofInt available * hours) (available * f) := by
  have hmost : (available : ℚ) ≤ 2 ^ 53 := by exact_mod_cast hsmall.le
  have hrange : (available : ℚ) = 0 ∨ 1 / 2 ^ 53 ≤ (available : ℚ) := by
    rcases havailable.eq_or_lt with rfl | hpos
    · exact .inl Int.cast_zero
    · have hone : (1 : ℚ) ≤ available := by exact_mod_cast hpos
      exact .inr (le_trans (by norm_num) hone)
  have hmoderate := moderate_mul_hours hrange hmost hf hfmost
  have hheld := (near_ofInt havailable hsmall.le).mul hhours hmoderate (by decide)
  exact hheld

/-- What a node has costs nothing or something. -/
theorem costOf_nonneg {available : ℤ} (havailable : 0 ≤ available) (hsmall : available < 2 ^ 53)
    {span : Span} (hspan : span.nanos < 2 ^ 64 * Span.perSecond) {rate : Binary64}
    (hrate : Settings.isRate rate = true) : 0 ≤ costOf (Binary64.ofInt available) span rate := by
  obtain ⟨f, hf, hfrange, hfmost⟩ := Span.hours_near hspan
  obtain ⟨hfinite, hsign⟩ := Settings.isRate_eq_true.1 hrate
  rw [costOf_eq]
  exact (held_near havailable hsmall hf hfrange hfmost).cost_nonneg hfinite hsign

/-- The cost of a capacity that costs little is what it is meant to be, cut at once. -/
theorem whole_cuts {available : ℤ} (havailable : 0 ≤ available) (hsmall : available < 2 ^ 53)
    {span : Span} {f : ℚ} (hhours : Near 0 span.hours f) (hf : f = 0 ∨ 1 / 2 ^ 43 ≤ f)
    (hfmost : f ≤ 2 ^ 54) {rate : Binary64} (hrate : Settings.isRate rate = true)
    (hcost : costOf (Binary64.ofInt available) span rate < 2 ^ 50) :
    Cuts 2 (available * f * rate.magnitude) (costOf (Binary64.ofInt available) span rate) ∧
      available * f * rate.magnitude ≤ 2 ^ 51 := by
  obtain ⟨hfinite, hsign⟩ := Settings.isRate_eq_true.1 hrate
  have hheld := held_near havailable hsmall hhours hf hfmost
  have hlimit : costOf (Binary64.ofInt available) span rate < 2 ^ 60 := hcost.trans (by norm_num)
  have hfifty : (costOf (Binary64.ofInt available) span rate : ℚ) + 1 ≤ 2 ^ 50 := by
    exact_mod_cast hcost
  rw [costOf_eq] at hlimit hfifty ⊢
  have hcuts := hheld.cuts hfinite hsign (.inr hlimit) (by decide)
  refine ⟨hcuts, ?_⟩
  calc (available : ℚ) * f * rate.magnitude
      ≤ 2 * (Amount.ofBinary64 (Binary64.ofInt available * span.hours * rate) + 1) :=
        hcuts.le_double (by decide)
    _ ≤ 2 * 2 ^ 50 := mul_le_mul_of_nonneg_left hfifty (by norm_num)
    _ = 2 ^ 51 := by norm_num

/-- The costs of the shares of a resource add up to the cost of all that is available, but for less
than one for each of them and one more. -/
theorem costs_of_shares {available : ℤ} {asked : List ℤ} (havailable : 0 ≤ available)
    (hsmall : available < 2 ^ 53) (hasked : ∀ a ∈ asked, 0 ≤ a ∧ a ≤ Amount.greatest)
    (htotal : available ≠ 0 → 0 < asked.sum ∧ asked.sum < 2 ^ 53) {span : Span}
    (hspan : span.nanos < 2 ^ 64 * Span.perSecond) {rate : Binary64}
    (hrate : Settings.isRate rate = true) (hcost : costOf (Binary64.ofInt available) span rate < 2 ^ 50) :
    (∀ a ∈ asked, 0 ≤ costOfShare available asked span rate a) ∧
      costOf (Binary64.ofInt available) span rate - asked.length ≤
        (asked.map (costOfShare available asked span rate)).sum ∧
      (asked.map (costOfShare available asked span rate)).sum ≤
        costOf (Binary64.ofInt available) span rate + 1 := by
  obtain ⟨f, hf, hfrange, hfmost⟩ := Span.hours_near hspan
  obtain ⟨s, hwhole, hshares⟩ := scaled_near havailable hsmall hasked htotal
  obtain ⟨hfinite, hsign⟩ := Settings.isRate_eq_true.1 hrate
  have hmost : (available : ℚ) ≤ 2 ^ 53 := by exact_mod_cast hsmall.le
  have hfnonneg := hf.nonneg
  have hrho := rate.magnitude_nonneg
  obtain ⟨hall, hexact⟩ := whole_cuts havailable hsmall hf hfrange hfmost hrate hcost
  have hcuts : ∀ a ∈ asked, Cuts 4 (a * (s * f * rate.magnitude))
      (costOfShare available asked span rate a) := by
    intro a ha
    obtain ⟨hnear, hleast, hle⟩ := hshares a ha
    have hheld := hnear.mul hf (moderate_mul_hours hleast (hle.trans hmost) hfrange hfmost) (by decide)
    have hexact : a * s * f * rate.magnitude ≤ 2 ^ 59 := by
      calc (a : ℚ) * s * f * rate.magnitude ≤ available * f * rate.magnitude := by gcongr
        _ ≤ 2 ^ 51 := hexact
        _ ≤ 2 ^ 59 := by norm_num
    have hcut := hheld.cuts hfinite hsign (.inl hexact) (by decide)
    rw [← costOf_eq] at hcut
    rwa [show (a : ℚ) * s * f * rate.magnitude = a * (s * f * rate.magnitude) by ring] at hcut
  refine ⟨fun a ha => (hcuts a ha).nonneg, sum_cuts_bounds hcuts ?_ hcost⟩
  rw [List.sum_map_mul_right, ← Int.cast_list_sum, mul_assoc s, ← mul_assoc, hwhole, ← mul_assoc]
  exact hall

/-! ## Sums of three amounts -/

namespace Amount

variable {a b c : ℤ}

/-- A sum that stays small was not stopped. -/
theorem add_add_of_lt (ha : 0 ≤ a) (hb : 0 ≤ b) (hc : 0 ≤ c) (h : add (add a b) c < 2 ^ 50) :
    add (add a b) c = a + b + c ∧ a < 2 ^ 50 ∧ b < 2 ^ 50 ∧ c < 2 ^ 50 := by
  simp only [add, clamp, least, greatest] at h ⊢
  omega

theorem add_add_of_le (ha : 0 ≤ a ∧ a ≤ 2 ^ 50) (hb : 0 ≤ b ∧ b ≤ 2 ^ 50) (hc : 0 ≤ c ∧ c ≤ 2 ^ 50) :
    add (add a b) c = a + b + c := by
  simp only [add, clamp, least, greatest]
  omega

end Amount

/-! ## Rates and scale factors -/

theorem PricingTable.mem_of_find {t : PricingTable} {labels : Labels} {e : PricingEntry}
    (h : t.find labels = .ok e) : e ∈ t.entries := by
  rw [find] at h
  split at h
  next hfound =>
    cases h
    exact List.mem_of_find?_eq_some hfound
  next => cases h

namespace PricingEntry

/-- The hourly rate of a resource. -/
def rate (e : PricingEntry) : Resource → Binary64
  | .cpu => e.cpuRate
  | .memory => e.memoryRate
  | .gpu => e.gpuRate

theorem resourceCost_eq (e : PricingEntry) (r : Resource) (q : Binary64) (span : Span) :
    Strategy.resourceCost e r q span = costOf q span (e.rate r) := by
  cases r <;> rfl

/-- The rates of a checked table can be used. -/
theorem isRate_of_checkRates {t : PricingTable} (h : Settings.checkRates t = .ok ())
    {e : PricingEntry} (he : e ∈ t.entries) (r : Resource) : Settings.isRate (e.rate r) = true := by
  obtain ⟨i, hi⟩ := List.mem_iff_getElem?.1 he
  obtain ⟨name, hname⟩ : ∃ name, (name, e.rate r) ∈ e.namedRates := by
    cases r with
    | cpu => exact ⟨_, List.mem_cons_self⟩
    | memory => exact ⟨_, List.mem_cons_of_mem _ List.mem_cons_self⟩
    | gpu => exact ⟨_, List.mem_cons_of_mem _ (List.mem_cons_of_mem _ List.mem_cons_self)⟩
  have hentry := forM_eq_ok.1 h (e, i) (List.mem_zipIdx_iff_getElem?.2 hi)
  exact Settings.demand_eq_ok.1 (forM_eq_ok.1 hentry _ hname)

end PricingEntry

namespace Allocation

variable {n : Node} {ws : List Workload} {r : Resource} {c : ℤ}

theorem available_account (hcapacity : n.capacity r = .ok c) : (account ws n).available.get r = c := by
  rw [get_available_account, Node.offered_of_capacity hcapacity]

theorem used_account (hcapacity : n.capacity r = .ok c)
    (hrequests : ∀ w ∈ ws.filter (·.isOn n.metadata.name), 0 ≤ w.request r) :
    (account ws n).used.get r =
      usedOf c ((ws.filter (·.isOn n.metadata.name)).map (·.request r)) := by
  have hsum : Workload.askedOf ws n.metadata.name r =
      Amount.clamp (0 + ((ws.filter (·.isOn n.metadata.name)).map (·.request r)).sum) :=
    Amount.foldl_add_of_nonneg Amount.inRange_zero (List.forall_mem_map.2 hrequests)
  rw [get_used_account, Node.offered_of_capacity hcapacity, hsum, Int.zero_add, usedOf]

/-- How much of a resource the tenants of a node get for each unit used. -/
theorem scaleFactor_account (hcapacity : n.capacity r = .ok c)
    (hrequests : ∀ w ∈ ws.filter (·.isOn n.metadata.name), 0 ≤ w.request r) :
    (account ws n).scaleFactor r =
      scaleOf c (usedOf c ((ws.filter (·.isOn n.metadata.name)).map (·.request r))) := by
  simp only [scaleFactor, scaleOf, available_account hcapacity, used_account hcapacity hrequests]

end Allocation

/-! ## The items of a node -/

/-- A node with few of everything, and tenants that ask for some of whatever it has. -/
structure Node.Loaded (n : Node) (capacity : Resource → ℤ) (tenants : List Workload) : Prop where
  readable : ∀ r, n.capacity r = .ok (capacity r)
  nonneg : ∀ r, 0 ≤ capacity r
  few : ∀ r, capacity r < 2 ^ 53
  requests : ∀ w ∈ tenants, ∀ r, 0 ≤ w.request r
  total : ∀ r, capacity r ≠ 0 → 0 < (tenants.map (·.request r)).sum ∧
    (tenants.map (·.request r)).sum < 2 ^ 53

/-- What a node costs for one resource. -/
def wholeCost (capacity : Resource → ℤ) (e : PricingEntry) (span : Span) (r : Resource) : ℤ :=
  costOf (Binary64.ofInt (capacity r)) span (e.rate r)

/-- What a tenant of a node costs for one resource. -/
def shareCost (capacity : Resource → ℤ) (tenants : List Workload) (e : PricingEntry) (span : Span)
    (r : Resource) (w : Workload) : ℤ :=
  costOfShare (capacity r) (tenants.map (·.request r)) span (e.rate r) (w.request r)

/-- The value of the item for a node. -/
def wholeValue (capacity : Resource → ℤ) (e : PricingEntry) (span : Span) : ℤ :=
  Amount.add (Amount.add (wholeCost capacity e span .memory) (wholeCost capacity e span .cpu))
    (wholeCost capacity e span .gpu)

/-- The value of the item for a tenant of a node. -/
def shareValue (capacity : Resource → ℤ) (tenants : List Workload) (e : PricingEntry) (span : Span)
    (w : Workload) : ℤ :=
  Amount.add (Amount.add (shareCost capacity tenants e span .cpu w)
    (shareCost capacity tenants e span .memory w)) (shareCost capacity tenants e span .gpu w)

section Values

variable {n : Node} {capacity : Resource → ℤ} {tenants : List Workload} {e : PricingEntry} {span : Span}

theorem Node.Loaded.wholeCost_nonneg (h : n.Loaded capacity tenants)
    (hspan : span.nanos < 2 ^ 64 * Span.perSecond) {r : Resource}
    (hrate : Settings.isRate (e.rate r) = true) : 0 ≤ wholeCost capacity e span r :=
  costOf_nonneg (h.nonneg r) (h.few r) hspan hrate

/-- The tenants of a node share what it costs for one resource. -/
theorem Node.Loaded.shareCost_bounds (h : n.Loaded capacity tenants)
    (hspan : span.nanos < 2 ^ 64 * Span.perSecond) {r : Resource}
    (hrate : Settings.isRate (e.rate r) = true) (hcost : wholeCost capacity e span r < 2 ^ 50) :
    (∀ w ∈ tenants, 0 ≤ shareCost capacity tenants e span r w) ∧
      wholeCost capacity e span r - tenants.length ≤
        (tenants.map (shareCost capacity tenants e span r)).sum ∧
      (tenants.map (shareCost capacity tenants e span r)).sum ≤ wholeCost capacity e span r + 1 := by
  have hasked : ∀ a ∈ tenants.map (·.request r), 0 ≤ a ∧ a ≤ Amount.greatest :=
    List.forall_mem_map.2 fun w hw => ⟨h.requests w hw r, w.request_le_greatest r⟩
  obtain ⟨hnonneg, hleast, hmost⟩ :=
    costs_of_shares (h.nonneg r) (h.few r) hasked (h.total r) hspan hrate hcost
  have hmap : tenants.map (shareCost capacity tenants e span r) =
      (tenants.map (·.request r)).map
        (costOfShare (capacity r) (tenants.map (·.request r)) span (e.rate r)) := by
    rw [List.map_map]
    exact List.map_congr_left fun w _ => by rw [Function.comp_apply, shareCost]
  rw [hmap]
  rw [List.length_map] at hleast
  exact ⟨fun w hw => hnonneg _ (List.mem_map_of_mem hw), hleast, hmost⟩

/-- The tenants of a node share what it costs for all resources. -/
theorem Node.Loaded.shareValue_bounds (h : n.Loaded capacity tenants)
    (hspan : span.nanos < 2 ^ 64 * Span.perSecond) (hrates : ∀ r, Settings.isRate (e.rate r) = true)
    (hvalue : wholeValue capacity e span < 2 ^ 50) :
    |(tenants.map (shareValue capacity tenants e span)).sum - wholeValue capacity e span| ≤
      3 * tenants.length + 3 := by
  have hnonneg (r : Resource) := h.wholeCost_nonneg hspan (hrates r)
  obtain ⟨hwhole, hmemory, hcpu, hgpu⟩ :=
    Amount.add_add_of_lt (hnonneg .memory) (hnonneg .cpu) (hnonneg .gpu) hvalue
  have hcost (r : Resource) : wholeCost capacity e span r < 2 ^ 50 := by
    cases r with
    | cpu => exact hcpu
    | memory => exact hmemory
    | gpu => exact hgpu
  have hshares (r : Resource) := h.shareCost_bounds hspan (hrates r) (hcost r)
  have hfew (r : Resource) {w : Workload} (hw : w ∈ tenants) :
      0 ≤ shareCost capacity tenants e span r w ∧ shareCost capacity tenants e span r w ≤ 2 ^ 50 := by
    obtain ⟨hnonneg, -, hmost⟩ := hshares r
    have hsingle := List.single_le_sum (List.forall_mem_map.2 hnonneg) _ (List.mem_map_of_mem hw)
    exact ⟨hnonneg w hw, hsingle.trans (hmost.trans (Int.add_one_le_of_lt (hcost r)))⟩
  have hvalues : (tenants.map (shareValue capacity tenants e span)).sum =
      (tenants.map (shareCost capacity tenants e span .cpu)).sum +
        (tenants.map (shareCost capacity tenants e span .memory)).sum +
        (tenants.map (shareCost capacity tenants e span .gpu)).sum := by
    rw [← List.sum_map_add, ← List.sum_map_add]
    exact congrArg List.sum (List.map_congr_left fun w hw =>
      Amount.add_add_of_le (hfew .cpu hw) (hfew .memory hw) (hfew .gpu hw))
  obtain ⟨hcpuleast, hcpumost⟩ := (hshares .cpu).2
  obtain ⟨hmemoryleast, hmemorymost⟩ := (hshares .memory).2
  obtain ⟨hgpuleast, hgpumost⟩ := (hshares .gpu).2
  rw [hvalues, wholeValue, hwhole, abs_le]
  constructor
  · linarith
  · linarith

end Values

namespace Strategy

variable {t : PricingTable} {span : Span} {ws : List Workload} {ns : List Node} {n : Node}
  {capacity : Resource → ℤ} {e : PricingEntry}

/-- Every tenant of a node that has a price has an item. -/
theorem weightedItems_of_loaded (hnamed : Node.named? ns n.metadata.name = some n)
    (hprice : t.find n.metadata.labels = .ok e)
    (h : n.Loaded capacity (ws.filter (·.isOn n.metadata.name))) :
    (weightedItems t span ws ns).filter (·.concerns n.metadata.name) =
      (ws.filter (·.isOn n.metadata.name)).map fun w => Strategy.weighted.item
        (shareValue capacity (ws.filter (·.isOn n.metadata.name)) e span w) (some w) (some n) := by
  rw [← List.filterMap_eq_map]
  refine filter_filterMap ?_ ?_
  · intro w i hi
    rw [CostItem.concerns, workload_of_weightedItem? hi]
  · intro w hw
    have hname : w.nodeName = n.metadata.name := of_decide_eq_true hw
    have hscale (r : Resource) :=
      Allocation.scaleFactor_account (h.readable r) fun w hw => h.requests w hw r
    rw [weightedItem?, Allocation.get?_all, hname, hnamed, Option.map_some]
    simp only [Allocation.node_account, hprice, hscale, PricingEntry.resourceCost_eq]
    rfl

/-- A node that has a price and capacities that can be read has one item. -/
theorem nodeItems_of_loaded (hname : ns.filter (·.isNamed n.metadata.name) = [n])
    (hprice : t.find n.metadata.labels = .ok e) (h : ∀ r, n.capacity r = .ok (capacity r)) :
    (nodeItems t span ns).filter (·.concerns n.metadata.name) =
      [Strategy.node.item (wholeValue capacity e span) none (some n)] := by
  rw [nodeItems_concerning, hname, nodeItems, List.filterMap_cons, List.filterMap_nil, nodeItem?]
  simp only [hprice, h, PricingEntry.resourceCost_eq]
  rfl

end Strategy

/-- **The tenants of a node share what it costs.** At checked rates, a node that has a price and few of
everything has one item, and each of its tenants has one. If the node costs little, what the tenants
cost adds up to that, but for three for each tenant and three more. The span may be any of less than
`2 ^ 64` seconds, which is what a clock can measure. -/
theorem weighted_items_share_node {t : PricingTable} {span : Span} {ws : List Workload}
    {ns : List Node} {n : Node} {e : PricingEntry} {capacity : Resource → ℤ}
    (hrates : Settings.checkRates t = .ok ()) (hspan : span.nanos < 2 ^ 64 * Span.perSecond)
    (hnames : (ns.map (·.metadata.name)).Nodup) (hn : n ∈ ns)
    (hprice : t.find n.metadata.labels = .ok e)
    (hloaded : n.Loaded capacity (ws.filter (·.isOn n.metadata.name))) :
    let tenants := ws.filter (·.isOn n.metadata.name)
    let shares := (Strategy.weighted.items t span ws ns).filter (·.concerns n.metadata.name)
    shares.length = tenants.length ∧
      ∃ whole, (Strategy.node.items t span ws ns).filter (·.concerns n.metadata.name) = [whole] ∧
        (whole.value < 2 ^ 50 →
          |(shares.map (·.value)).sum - whole.value| ≤ 3 * tenants.length + 3) := by
  intro tenants shares
  have honly : ns.filter (·.isNamed n.metadata.name) = [n] := filter_key_of_nodup hnames hn
  have hnamed : Node.named? ns n.metadata.name = some n := congrArg List.getLast? honly
  have hshares : shares = tenants.map fun w => Strategy.weighted.item
      (shareValue capacity tenants e span w) (some w) (some n) :=
    Strategy.weightedItems_of_loaded hnamed hprice hloaded
  have hrate (r : Resource) : Settings.isRate (e.rate r) = true :=
    PricingEntry.isRate_of_checkRates hrates (PricingTable.mem_of_find hprice) r
  refine ⟨by rw [hshares, List.length_map], _,
    Strategy.nodeItems_of_loaded honly hprice hloaded.readable, fun hvalue => ?_⟩
  rw [hshares, List.map_map]
  exact hloaded.shareValue_bounds hspan hrate hvalue

/-- Three tenants of a node lose two of what it costs in a minute, beside a node that cannot be read
and its tenant. -/
theorem weighted_items_share_node_minute :
    let tenant (node cpu memory : String) : Workload :=
      { nodeName := node,
        containers := [{ requests := .ofList [("cpu", ⟨cpu⟩), ("memory", ⟨memory⟩)] }] }
    let member (name cpu : String) : Node :=
      { metadata := { name }, capacities := .ofList [("cpu", ⟨cpu⟩), ("memory", ⟨"1Gi"⟩)] }
    let t : PricingTable := { entries := [{ cpuRate := .ofNat 1000, memoryRate := .ofNat 1 }] }
    let capacity : Resource → ℤ
      | .cpu => 1000
      | .memory => 2 ^ 30
      | .gpu => 0
    let ws := [tenant "n" "500m" "32Mi", tenant "m" "1" "1Gi", tenant "n" "250m" "32Mi",
      tenant "n" "0" "16Mi"]
    let ns := [member "m" "much", member "n" "1"]
    let shares := (Strategy.weighted.items t (.ofSeconds 60) ws ns).filter (·.concerns "n")
    Settings.checkRates t = .ok () ∧ (ns.map (·.metadata.name)).Nodup ∧
      (member "n" "1").Loaded capacity (ws.filter (·.isOn "n")) ∧
      shares.map (·.value) = [7169389, 7163833, 3579139] ∧
      |(shares.map (·.value)).sum - 17912363| ≤ 12 := by
  intro tenant member t capacity ws ns shares
  have hrates : Settings.checkRates t = .ok () := by decide +kernel
  have hnames : (ns.map (·.metadata.name)).Nodup := by decide +kernel
  have hloaded : (member "n" "1").Loaded capacity (ws.filter (·.isOn "n")) := by
    refine ⟨fun r => ?_, fun r => ?_, fun r => ?_, fun w hw r => ?_, fun r => ?_⟩
    · cases r <;> decide +kernel
    · cases r <;> decide
    · cases r <;> decide
    · revert w
      cases r <;> decide +kernel
    · cases r <;> decide +kernel
  have hvalue : ((Strategy.node.items t (.ofSeconds 60) ws ns).filter (·.concerns "n")).map (·.value) =
      [17912363] := by decide +kernel
  obtain ⟨-, whole, hwhole, hbound⟩ := weighted_items_share_node (n := member "n" "1")
    (e := { cpuRate := .ofNat 1000, memoryRate := .ofNat 1 }) hrates
    (by decide : (Span.ofSeconds 60).nanos < 2 ^ 64 * Span.perSecond) hnames
    (List.mem_cons_of_mem _ List.mem_cons_self) (by decide +kernel) hloaded
  have hwhole : whole.value = 17912363 :=
    List.singleton_inj.1 ((congrArg (List.map CostItem.value) hwhole).symm.trans hvalue)
  rw [hwhole] at hbound
  exact ⟨hrates, hnames, hloaded, by decide +kernel, hbound (by decide)⟩

end Chargeback
