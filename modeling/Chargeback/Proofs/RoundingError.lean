import Chargeback.Number.Amount
import Chargeback.Proofs.Counting
import Mathlib.Data.Nat.Cast.Order.Field
import Mathlib.Tactic.FieldSimp
import Mathlib.Tactic.Linarith
import Mathlib.Tactic.Ring

/-!
# The error of rounding

An operation of double-precision numbers is an exact result followed by one rounding. Away from the
ends of the range a rounding changes a number by a part of `2 ^ (-53)` at most, so a chain of `k`
operations gives the exact result up to `k` such parts (`Near`). Each operation adds one to `k`, and
that is all there is to know of it.

Amounts are cut toward zero at the end of such a chain (`Cuts`). There the ends of the range do not
matter any more: a number so small that it is rounded by more is cut to zero, and a number that is too
large is stopped at the greatest amount, which can be seen from the amount.

Everything is compared in units, of which `unitsPerOne` are one. Nothing computes with that number.
-/

namespace Chargeback

namespace Binary64

/-- The part by which one rounding changes a number at most. -/
def epsilon : ℚ := 1 / 2 ^ 53

theorem epsilon_pos : 0 < epsilon := by norm_num [epsilon]

theorem one_sub_epsilon_pos : 0 < 1 - epsilon := by norm_num [epsilon]

/-- How many units make up the number one, as a number that is not unfolded. -/
@[irreducible] def perOne : ℚ := unitsPerOne

theorem perOne_eq : perOne = unitsPerOne := by rw [perOne]

/-- One is far from the smallest numbers, and from the greatest. -/
theorem perOne_bounds : 2 ^ 200 ≤ perOne ∧ 2 ^ 200 * perOne ≤ overflowUnits := by
  obtain ⟨one, limit, hone, hlimit, hfar, hroom⟩ : ∃ one limit, unitsPerOne = 2 ^ one ∧
      overflowUnits = 2 ^ limit ∧ 200 ≤ one ∧ 200 + one ≤ limit :=
    ⟨1074, 2098, rfl, rfl, by decide, by decide⟩
  rw [perOne_eq, hone, hlimit]
  push_cast
  rw [← pow_add]
  exact ⟨pow_le_pow_right₀ (by norm_num) hfar, pow_le_pow_right₀ (by norm_num) hroom⟩

theorem perOne_pos : 0 < perOne := lt_of_lt_of_le (by norm_num) perOne_bounds.1

theorem unitsPerOne_pos : 0 < unitsPerOne := Nat.cast_pos.1 (perOne_eq ▸ perOne_pos)

theorem lt_overflowUnits {u : ℕ} (h : (u : ℚ) < 2 ^ 200 * perOne) : u < overflowUnits :=
  Nat.cast_lt.1 (h.trans_le perOne_bounds.2)

theorem overflowUnits_pos : 0 < overflowUnits :=
  lt_overflowUnits (by rw [Nat.cast_zero]; exact mul_pos (by norm_num) perOne_pos)

/-! ## One rounding -/

/-- The nearest whole number is half a one away at most. -/
theorem nearest_bounds (num : ℕ) {den : ℕ} (hden : 0 < den) :
    2 * (nearest num den * den) ≤ 2 * num + den ∧ 2 * num ≤ 2 * (nearest num den * den) + den := by
  have hdiv := Nat.div_add_mod' num den
  have hmod := Nat.mod_lt num hden
  have hnext : (num / den + 1) * den = num / den * den + den := Nat.succ_mul _ _
  rw [nearest]
  split
  next h => omega
  next h => omega

theorem nearest_error (num : ℕ) {den : ℕ} (hden : 0 < den) :
    |(nearest num den : ℚ) - num / den| ≤ 1 / 2 := by
  obtain ⟨habove, hbelow⟩ := nearest_bounds num hden
  have hpos : (0 : ℚ) < den := Nat.cast_pos.2 hden
  have habove : 2 * ((nearest num den : ℚ) * den) ≤ 2 * num + den := by exact_mod_cast habove
  have hbelow : 2 * (num : ℚ) ≤ 2 * (nearest num den * den) + den := by exact_mod_cast hbelow
  have hnum : (num : ℚ) / den * den = num := div_mul_cancel₀ _ hpos.ne'
  rw [abs_le]
  constructor
  · nlinarith
  · nlinarith

theorem spacing_le (q : ℕ) : spacing q = 1 ∨ spacing q * 2 ^ 52 ≤ q := by
  by_cases hlog : q.log2 ≤ 52
  · left
    rw [spacing, Nat.sub_eq_zero_of_le hlog, Nat.pow_zero]
  · right
    have hne : q ≠ 0 := by
      rintro rfl
      simp at hlog
    rw [spacing, ← Nat.pow_add, Nat.sub_add_cancel (by omega)]
    exact Nat.log2_self_le hne

/-- What a rounding makes of a magnitude, as long as that is no infinity. -/
def rounded (num den : ℕ) : ℕ :=
  nearest num (den * spacing (num / den)) * spacing (num / den)

theorem round_eq (neg : Bool) (num den : ℕ) :
    round neg num den =
      if rounded num den < overflowUnits then .finite neg (rounded num den) else .infinite neg := rfl

/-- A magnitude of `2 ^ 52` units or more is changed by a small part of it, and a smaller one by half a
unit. -/
theorem rounded_error (num : ℕ) {den : ℕ} (hden : 0 < den) :
    |(rounded num den : ℚ) - num / den| ≤ max (1 / 2) (num / den * epsilon) := by
  obtain ⟨step, hstep⟩ : ∃ step, step = spacing (num / den) := ⟨_, rfl⟩
  have hpos : (0 : ℚ) < step := by
    rw [hstep]
    exact Nat.cast_pos.2 (Nat.two_pow_pos _)
  have hden' : (0 : ℚ) < den := Nat.cast_pos.2 hden
  have hnearest := nearest_error num (Nat.mul_pos hden (Nat.cast_pos.1 hpos))
  have herror : |(rounded num den : ℚ) - num / den| ≤ step / 2 := by
    have hscaled : (rounded num den : ℚ) - num / den =
        ((nearest num (den * step) : ℚ) - num / (den * step : ℕ)) * step := by
      rw [rounded, ← hstep]
      push_cast
      field_simp
    rw [hscaled, abs_mul, abs_of_pos hpos]
    linarith [mul_le_mul_of_nonneg_right hnearest hpos.le]
  refine herror.trans ?_
  rcases spacing_le (num / den) with hsmall | hlarge
  · rw [← hstep] at hsmall
    rw [hsmall]
    exact (le_of_eq (by norm_num)).trans (le_max_left _ _)
  · refine le_trans ?_ (le_max_right _ _)
    have hquotient : ((num / den : ℕ) : ℚ) ≤ num / den := Nat.cast_div_le
    have hlarge : (step : ℚ) * 2 ^ 52 ≤ (num / den : ℕ) := by
      rw [hstep]
      exact_mod_cast hlarge
    rw [epsilon]
    linarith

/-! ## Chains of operations -/

/-- A number that is not negative and differs from an exact one by `k` roundings at most. -/
def Near (k : ℕ) (x : Binary64) (q : ℚ) : Prop :=
  ∃ u : ℕ, x = .finite false u ∧ q * (1 - epsilon) ^ k * perOne ≤ u ∧
    (u : ℚ) ≤ q * (1 + epsilon) ^ k * perOne

/-- Zero, or a number that is neither very small nor very great. -/
def Moderate (q : ℚ) : Prop := q = 0 ∨ 1 / 2 ^ 120 ≤ q ∧ q ≤ 2 ^ 120

theorem one_sub_epsilon_pow_pos (k : ℕ) : 0 < (1 - epsilon) ^ k := pow_pos one_sub_epsilon_pos k

theorem one_add_epsilon_pow_pos (k : ℕ) : 0 < (1 + epsilon) ^ k :=
  pow_pos (by linarith [epsilon_pos]) k

/-- Up to eight roundings keep a number within its double and its half. -/
theorem one_sub_epsilon_pow_ge {k : ℕ} (hk : k ≤ 8) : 1 / 2 ≤ (1 - epsilon) ^ k := by
  calc (1 / 2 : ℚ) ≤ (1 - epsilon) ^ 8 := by norm_num [epsilon]
    _ ≤ (1 - epsilon) ^ k :=
      pow_le_pow_of_le_one one_sub_epsilon_pos.le (by linarith [epsilon_pos]) hk

theorem one_add_epsilon_pow_le {k : ℕ} (hk : k ≤ 8) : (1 + epsilon) ^ k ≤ 2 := by
  calc (1 + epsilon) ^ k ≤ (1 + epsilon) ^ 8 :=
        pow_le_pow_right₀ (by linarith [epsilon_pos]) hk
    _ ≤ 2 := by norm_num [epsilon]

/-- A magnitude of `2 ^ 52` units or more is changed by a part of it only. -/
theorem rounded_bounds {num den : ℕ} (hden : 0 < den) (hlarge : (2 : ℚ) ^ 52 ≤ num / den) :
    (num : ℚ) / den * (1 - epsilon) ≤ rounded num den ∧
      (rounded num den : ℚ) ≤ num / den * (1 + epsilon) := by
  have herror := rounded_error num hden
  rw [max_eq_right (by rw [epsilon]; linarith)] at herror
  obtain ⟨hbelow, habove⟩ := abs_le.1 herror
  constructor
  · linarith
  · linarith

/-- A rounding gives no infinity far from the greatest numbers. -/
theorem round_of_lt {num den : ℕ} (h : (rounded num den : ℚ) < 2 ^ 200 * perOne) (neg : Bool) :
    round neg num den = .finite neg (rounded num den) := by
  rw [round_eq, if_pos (lt_overflowUnits h)]

theorem rounded_zero {den : ℕ} (hden : 0 < den) : rounded 0 den = 0 := by
  have herror := rounded_error 0 hden
  rw [Nat.cast_zero, zero_div, zero_mul, sub_zero, max_eq_left (by norm_num)] at herror
  have hle : (rounded 0 den : ℚ) ≤ 1 / 2 := (le_abs_self _).trans herror
  have hlt : rounded 0 den < 1 := by
    rw [← Nat.cast_lt (α := ℚ)]
    exact hle.trans_lt (by norm_num)
  omega

theorem round_zero {den : ℕ} (hden : 0 < den) (neg : Bool) : round neg 0 den = .finite neg 0 := by
  rw [round_eq, rounded_zero hden, if_pos overflowUnits_pos]

theorem near_finite {k u : ℕ} {q : ℚ} :
    Near k (.finite false u) q ↔
      q * (1 - epsilon) ^ k ≤ u / perOne ∧ u / perOne ≤ q * (1 + epsilon) ^ k := by
  rw [le_div_iff₀ perOne_pos, div_le_iff₀ perOne_pos]
  constructor
  · rintro ⟨u', hu, hleast, hmost⟩
    cases hu
    exact ⟨hleast, hmost⟩
  · rintro ⟨hleast, hmost⟩
    exact ⟨u, rfl, hleast, hmost⟩

theorem Near.exists_finite {k : ℕ} {x : Binary64} {q : ℚ} (h : Near k x q) :
    ∃ u, x = .finite false u := by
  obtain ⟨u, hx, -⟩ := h
  exact ⟨u, hx⟩

theorem near_zero (k : ℕ) : Near k zero 0 :=
  ⟨0, rfl, by rw [zero_mul, zero_mul, Nat.cast_zero], by rw [zero_mul, zero_mul, Nat.cast_zero]⟩

/-- One rounding of a number that is close to a moderate one. -/
theorem near_round {num den : ℕ} (hden : 0 < den) {q : ℚ} (hq : Moderate q) {k : ℕ} (hk : k ≤ 7)
    (hleast : q * (1 - epsilon) ^ k * perOne ≤ num / den)
    (hmost : (num : ℚ) / den ≤ q * (1 + epsilon) ^ k * perOne) :
    Near (k + 1) (round false num den) q := by
  have hone := perOne_pos
  have hden' : (0 : ℚ) < den := Nat.cast_pos.2 hden
  rcases hq with rfl | ⟨hqleast, hqmost⟩
  · have hnum : num = 0 := by
      rw [zero_mul, zero_mul, div_le_iff₀ hden', zero_mul] at hmost
      exact_mod_cast le_antisymm hmost (Nat.cast_nonneg num)
    rw [hnum, round_zero hden]
    exact near_zero _
  · have hq : 0 < q := lt_of_lt_of_le (by positivity) hqleast
    have hhalf : 1 / 2 ≤ (1 - epsilon) ^ k := one_sub_epsilon_pow_ge (by omega)
    have hdouble : (1 + epsilon) ^ (k + 1) ≤ 2 := one_add_epsilon_pow_le (by omega)
    have hfar := perOne_bounds.1
    have hlarge : (2 : ℚ) ^ 52 ≤ num / den := by
      calc (2 : ℚ) ^ 52 ≤ 1 / 2 ^ 120 * (1 / 2) * 2 ^ 200 := by norm_num
        _ ≤ q * (1 - epsilon) ^ k * perOne := by
          gcongr
        _ ≤ num / den := hleast
    obtain ⟨hbelow, habove⟩ := rounded_bounds hden hlarge
    have hmost' : (rounded num den : ℚ) ≤ q * (1 + epsilon) ^ (k + 1) * perOne := by
      calc (rounded num den : ℚ) ≤ num / den * (1 + epsilon) := habove
        _ ≤ q * (1 + epsilon) ^ k * perOne * (1 + epsilon) := by
          gcongr
          linarith [epsilon_pos]
        _ = q * (1 + epsilon) ^ (k + 1) * perOne := by ring
    have hfinite : (rounded num den : ℚ) < 2 ^ 200 * perOne := by
      calc (rounded num den : ℚ) ≤ q * (1 + epsilon) ^ (k + 1) * perOne := hmost'
        _ ≤ 2 ^ 120 * 2 * perOne := by
          gcongr
          exact (one_add_epsilon_pow_pos _).le
        _ < 2 ^ 200 * perOne := by
          gcongr
          norm_num
    rw [round_of_lt hfinite]
    refine ⟨_, rfl, ?_, hmost'⟩
    calc q * (1 - epsilon) ^ (k + 1) * perOne
        = q * (1 - epsilon) ^ k * perOne * (1 - epsilon) := by ring
      _ ≤ num / den * (1 - epsilon) := by
        gcongr
        exact one_sub_epsilon_pos.le
      _ ≤ rounded num den := hbelow

theorem Near.nonneg {k : ℕ} {x : Binary64} {q : ℚ} (h : Near k x q) : 0 ≤ q := by
  obtain ⟨u, -, -, hmost⟩ := h
  have hu : (0 : ℚ) ≤ u := Nat.cast_nonneg u
  by_contra hq
  have hneg : q * (1 + epsilon) ^ k * perOne < 0 :=
    mul_neg_of_neg_of_pos (mul_neg_of_neg_of_pos (not_le.1 hq) (one_add_epsilon_pow_pos k)) perOne_pos
  linarith

/-- What a number is, exactly, after a few roundings. -/
theorem Near.exact {k : ℕ} {x : Binary64} {q : ℚ} (h : Near k x q) (hk : k ≤ 8) :
    ∃ v, Near 0 x v ∧ q / 2 ≤ v ∧ v ≤ q * 2 := by
  have hq := h.nonneg
  obtain ⟨u, rfl⟩ := h.exists_finite
  obtain ⟨hleast, hmost⟩ := near_finite.1 h
  refine ⟨u / perOne, near_finite.2 (by simp), ?_, ?_⟩
  · rw [div_eq_mul_one_div]
    exact (mul_le_mul_of_nonneg_left (one_sub_epsilon_pow_ge hk) hq).trans hleast
  · exact hmost.trans (mul_le_mul_of_nonneg_left (one_add_epsilon_pow_le hk) hq)

/-- A whole number is rounded once. -/
theorem near_ofNat {n : ℕ} (h : n ≤ 2 ^ 120) : Near 1 (ofNat n) n := by
  have hsign : decide ((n : ℤ) < 0) = false := by simp
  have hvalue : ((n * unitsPerOne : ℕ) : ℚ) / (1 : ℕ) = n * perOne := by
    rw [Nat.cast_mul, perOne_eq, Nat.cast_one, div_one]
  have hmoderate : Moderate n := by
    rcases Nat.eq_zero_or_pos n with rfl | hpos
    · exact .inl Nat.cast_zero
    · have hone : (1 : ℚ) ≤ n := by exact_mod_cast hpos
      exact .inr ⟨le_trans (by norm_num) hone, by exact_mod_cast h⟩
  show Near 1 (round (decide ((n : ℤ) < 0)) (n * unitsPerOne) 1) n
  rw [hsign]
  refine near_round Nat.one_pos hmoderate (k := 0) (by decide) ?_ ?_
  · rw [pow_zero, mul_one, hvalue]
  · rw [pow_zero, mul_one, hvalue]

/-- An amount is rounded once. -/
theorem near_ofInt_of_le_greatest {i : ℤ} (hnonneg : 0 ≤ i) (hle : i ≤ Amount.greatest) :
    Near 1 (ofInt i) i := by
  obtain ⟨n, rfl⟩ := Int.eq_ofNat_of_zero_le hnonneg
  have hn : n ≤ 2 ^ 120 := by
    rw [Amount.greatest] at hle
    omega
  rw [Int.cast_natCast]
  exact near_ofNat hn

/-- A whole number up to `2 ^ 53` is exact. -/
theorem near_ofInt {i : ℤ} (hnonneg : 0 ≤ i) (hsmall : i ≤ 2 ^ 53) : Near 0 (ofInt i) i := by
  obtain ⟨n, rfl⟩ := Int.eq_ofNat_of_zero_le hnonneg
  have hn : n ≤ 2 ^ 53 := by exact_mod_cast hsmall
  have hvalue : (n : ℚ) * perOne = (n * unitsPerOne : ℕ) := by rw [Nat.cast_mul, perOne_eq]
  refine ⟨n * unitsPerOne, ofNat_eq hn, ?_, ?_⟩
  · rw [pow_zero, mul_one, Int.cast_natCast, hvalue]
  · rw [pow_zero, mul_one, Int.cast_natCast, hvalue]

theorem finite_mul_finite (a b : Bool) (m n : ℕ) :
    finite a m * finite b n = round (a != b) (m * n) unitsPerOne := by
  show mul (finite a m) (finite b n) = _
  rw [mul]

theorem finite_div_finite (a b : Bool) (m : ℕ) {n : ℕ} (hn : n ≠ 0) :
    finite a m / finite b n = round (a != b) (m * unitsPerOne) n :=
  if_neg hn

/-- A product has one rounding more than its factors. -/
theorem Near.mul {a b : ℕ} {x y : Binary64} {p q : ℚ} (hx : Near a x p) (hy : Near b y q)
    (hpq : Moderate (p * q)) (hab : a + b ≤ 7) : Near (a + b + 1) (x * y) (p * q) := by
  have hp := hx.nonneg
  have hq := hy.nonneg
  obtain ⟨m, rfl, hxleast, hxmost⟩ := hx
  obtain ⟨n, rfl, hyleast, hymost⟩ := hy
  have hone := perOne_pos
  have hlow := one_sub_epsilon_pow_pos
  have hhigh := one_add_epsilon_pow_pos
  rw [finite_mul_finite, Bool.bne_false]
  refine near_round unitsPerOne_pos hpq hab ?_ ?_
  · rw [← perOne_eq, Nat.cast_mul, le_div_iff₀ hone]
    calc p * q * (1 - epsilon) ^ (a + b) * perOne * perOne
        = p * (1 - epsilon) ^ a * perOne * (q * (1 - epsilon) ^ b * perOne) := by ring
      _ ≤ m * n := by
        gcongr
        exact mul_nonneg (mul_nonneg hq (hlow b).le) hone.le
  · rw [← perOne_eq, Nat.cast_mul, div_le_iff₀ hone]
    calc (m : ℚ) * n ≤ p * (1 + epsilon) ^ a * perOne * (q * (1 + epsilon) ^ b * perOne) := by
          gcongr
          exact mul_nonneg (mul_nonneg hp (hhigh a).le) hone.le
      _ = p * q * (1 + epsilon) ^ (a + b) * perOne * perOne := by ring

/-- A quotient by an exact number has one rounding more than its dividend. -/
theorem Near.div {a : ℕ} {x y : Binary64} {p q : ℚ} (hx : Near a x p) (hy : Near 0 y q) (hq : 0 < q)
    (hpq : Moderate (p / q)) (ha : a ≤ 7) : Near (a + 1) (x / y) (p / q) := by
  obtain ⟨m, rfl, hxleast, hxmost⟩ := hx
  obtain ⟨n, rfl, hyleast, hymost⟩ := hy
  have hone := perOne_pos
  have hn : (n : ℚ) = q * perOne := by
    rw [pow_zero, mul_one] at hyleast hymost
    exact le_antisymm hymost hyleast
  have hnpos : 0 < n := by
    rw [← Nat.cast_pos (α := ℚ), hn]
    exact mul_pos hq hone
  have hquotient : ((m * unitsPerOne : ℕ) : ℚ) / n = m / q := by
    rw [Nat.cast_mul, ← perOne_eq, hn]
    field_simp
  rw [finite_div_finite false false m hnpos.ne', Bool.bne_false]
  refine near_round hnpos hpq ha ?_ ?_
  · rw [hquotient, le_div_iff₀ hq]
    calc p / q * (1 - epsilon) ^ a * perOne * q = p * (1 - epsilon) ^ a * perOne := by field_simp
      _ ≤ m := hxleast
  · rw [hquotient, div_le_iff₀ hq]
    calc (m : ℚ) ≤ p * (1 + epsilon) ^ a * perOne := hxmost
      _ = p / q * (1 + epsilon) ^ a * perOne * q := by field_simp

/-- Only zero is near zero. -/
theorem Near.eq_zero {k : ℕ} {x : Binary64} (h : Near k x 0) : x = zero := by
  obtain ⟨u, rfl, -, hmost⟩ := h
  rw [zero_mul, zero_mul] at hmost
  have hu : u = 0 := by exact_mod_cast le_antisymm hmost (Nat.cast_nonneg u)
  rw [hu, zero]

/-- Zero is divided. -/
theorem zero_div_eq {k : ℕ} {x : Binary64} {q : ℚ} (hx : Near k x q) (hq : 0 < q) : zero / x = zero := by
  obtain ⟨u, rfl, hleast, -⟩ := hx
  have hu : 0 < u := by
    rw [← Nat.cast_pos (α := ℚ)]
    exact (mul_pos (mul_pos hq (one_sub_epsilon_pow_pos k)) perOne_pos).trans_le hleast
  rw [zero, finite_div_finite false false 0 hu.ne', Nat.zero_mul, round_zero hu, Bool.bne_false]

/-! ## Cutting -/

/-- An amount is an exact number, up to `k` roundings, cut toward zero. -/
structure Cuts (k : ℕ) (q : ℚ) (i : ℤ) : Prop where
  nonneg : 0 ≤ i
  le : (i : ℚ) ≤ q * (1 + epsilon) ^ k
  lt : q * (1 - epsilon) ^ k < i + 1

/-- What is cut to few was not much. -/
theorem Cuts.le_double {k : ℕ} {q : ℚ} {i : ℤ} (h : Cuts k q i) (hk : k ≤ 8) : q ≤ 2 * (i + 1) := by
  have hnonneg : (0 : ℚ) ≤ i := Int.cast_nonneg h.nonneg
  by_contra hlarge
  have hq : 0 ≤ q := by linarith
  have hhalf := mul_le_mul_of_nonneg_left (one_sub_epsilon_pow_ge hk) hq
  linarith [h.lt]

/-- Units cut to whole ones. -/
theorem cut_bounds (u : ℕ) :
    ((u / unitsPerOne : ℕ) : ℚ) * perOne ≤ u ∧ (u : ℚ) < ((u / unitsPerOne : ℕ) + 1) * perOne := by
  have hnext := Nat.lt_mul_div_succ u unitsPerOne_pos
  rw [perOne_eq]
  constructor
  · exact_mod_cast Nat.div_mul_le_self u unitsPerOne
  · rw [mul_comm]
    exact_mod_cast hnext

/-- A rounded magnitude cut to whole ones. What is small enough to be rounded by more than a small part
of it is cut to zero. -/
theorem cuts_rounded {num den : ℕ} (hden : 0 < den) {v : ℚ} (hv : (num : ℚ) / den = v * perOne) :
    Cuts 1 v (rounded num den / unitsPerOne : ℕ) := by
  have hone := perOne_pos
  have hnonneg : 0 ≤ v := by
    have hquotient : (0 : ℚ) ≤ num / den := by positivity
    rw [hv] at hquotient
    exact nonneg_of_mul_nonneg_left hquotient hone
  obtain ⟨hbelow, habove⟩ := cut_bounds (rounded num den)
  by_cases hlarge : (2 : ℚ) ^ 52 ≤ num / den
  · obtain ⟨hleast, hmost⟩ := rounded_bounds hden hlarge
    rw [hv] at hleast hmost
    refine ⟨Int.natCast_nonneg _, ?_, ?_⟩
    · rw [pow_one, Int.cast_natCast, ← mul_le_mul_iff_left₀ hone]
      linarith
    · rw [pow_one, Int.cast_natCast, ← mul_lt_mul_iff_left₀ hone]
      linarith
  · have hsmall := not_le.1 hlarge
    have herror : (rounded num den : ℚ) - num / den ≤ 1 := by
      refine (le_abs_self _).trans ((rounded_error num hden).trans (max_le (by norm_num) ?_))
      rw [epsilon]
      linarith
    have hfar : (2 : ℚ) ^ 52 + 1 < perOne := lt_of_lt_of_le (by norm_num) perOne_bounds.1
    have hzero : rounded num den / unitsPerOne = 0 := by
      have hlt := lt_of_mul_lt_mul_right (hbelow.trans_lt (by linarith : _ < 1 * perOne)) hone.le
      exact Nat.lt_one_iff.1 (by exact_mod_cast hlt)
    have hv1 : v < 1 := lt_of_mul_lt_mul_right (by linarith : v * perOne < 1 * perOne) hone.le
    rw [hzero, Int.natCast_zero]
    refine ⟨le_rfl, ?_, ?_⟩
    · rw [Int.cast_zero]
      exact mul_nonneg hnonneg (one_add_epsilon_pow_pos 1).le
    · rw [Int.cast_zero, zero_add, pow_one]
      nlinarith [epsilon_pos]

/-- The amount of a rounded magnitude is that magnitude cut to whole ones, if these are few. -/
theorem ofBinary64_of_few {num den : ℕ} (h : rounded num den / unitsPerOne ≤ 2 ^ 61) :
    Amount.ofBinary64 (round false num den) = (rounded num den / unitsPerOne : ℕ) := by
  have hfinite : (rounded num den : ℚ) < 2 ^ 200 * perOne := by
    have hfew : ((rounded num den / unitsPerOne : ℕ) : ℚ) ≤ 2 ^ 61 := by exact_mod_cast h
    refine (cut_bounds _).2.trans_le ?_
    exact mul_le_mul_of_nonneg_right (by linarith) perOne_pos.le
  rw [round_of_lt hfinite]
  show Amount.clamp (rounded num den / unitsPerOne : ℕ) = _
  refine Amount.clamp_of_inRange ⟨?_, ?_⟩
  · exact le_trans (by decide) (Int.natCast_nonneg _)
  · refine le_trans ?_ (by decide : (2 : ℤ) ^ 61 ≤ Amount.greatest)
    exact_mod_cast h

/-- An amount that is not very great was not stopped at the greatest one. -/
theorem few_of_ofBinary64 {num den : ℕ} (h : Amount.ofBinary64 (round false num den) < 2 ^ 60) :
    rounded num den / unitsPerOne ≤ 2 ^ 61 := by
  rw [round_eq] at h
  split at h
  next hfinite =>
    have hmin : Amount.clamp (rounded num den / unitsPerOne : ℕ) < 2 ^ 60 := h
    simp only [Amount.clamp, Amount.least, Amount.greatest] at hmin
    omega
  next => exact absurd h (by decide)

/-- One rounding of a magnitude, cut to an amount. -/
theorem cuts_round {num den : ℕ} (hden : 0 < den) {v : ℚ} (hv : (num : ℚ) / den = v * perOne)
    (hsmall : v ≤ 2 ^ 60 ∨ Amount.ofBinary64 (round false num den) < 2 ^ 60) :
    Cuts 1 v (Amount.ofBinary64 (round false num den)) := by
  have hcuts := cuts_rounded hden hv
  have hfew : rounded num den / unitsPerOne ≤ 2 ^ 61 := by
    rcases hsmall with hv60 | hlt
    · have hle : ((rounded num den / unitsPerOne : ℕ) : ℚ) ≤ 2 ^ 61 := by
        calc ((rounded num den / unitsPerOne : ℕ) : ℚ) ≤ v * (1 + epsilon) ^ 1 := by
              exact_mod_cast hcuts.le
          _ ≤ 2 ^ 60 * 2 := by
            gcongr
            · exact (one_add_epsilon_pow_pos 1).le
            · exact one_add_epsilon_pow_le (by decide)
          _ = 2 ^ 61 := by norm_num
      exact_mod_cast hle
    · exact few_of_ofBinary64 hlt
  rw [ofBinary64_of_few hfew]
  exact hcuts

/-- A number that is near another one is cut as that one with its roundings more. -/
theorem Cuts.of_near {k : ℕ} {q v : ℚ} {i : ℤ} (h : Cuts 1 v i) (hleast : q * (1 - epsilon) ^ k ≤ v)
    (hmost : v ≤ q * (1 + epsilon) ^ k) : Cuts (k + 1) q i := by
  refine ⟨h.nonneg, ?_, ?_⟩
  · calc (i : ℚ) ≤ v * (1 + epsilon) ^ 1 := h.le
      _ ≤ q * (1 + epsilon) ^ k * (1 + epsilon) ^ 1 :=
        mul_le_mul_of_nonneg_right hmost (one_add_epsilon_pow_pos 1).le
      _ = q * (1 + epsilon) ^ (k + 1) := by ring
  · calc q * (1 - epsilon) ^ (k + 1) = q * (1 - epsilon) ^ k * (1 - epsilon) ^ 1 := by ring
      _ ≤ v * (1 - epsilon) ^ 1 := mul_le_mul_of_nonneg_right hleast (one_sub_epsilon_pow_pos 1).le
      _ < i + 1 := h.lt

/-- The magnitude of a number. -/
def magnitude : Binary64 → ℚ
  | .finite _ u => u / perOne
  | _ => 0

theorem magnitude_nonneg (x : Binary64) : 0 ≤ x.magnitude := by
  cases x with
  | finite neg u => exact div_nonneg (Nat.cast_nonneg u) perOne_pos.le
  | infinite neg => exact le_rfl
  | nan => exact le_rfl

/-- A finite number that is not below zero is a magnitude or the negative zero. -/
theorem finite_of_not_lt {x : Binary64} (hfinite : x.isFinite = true) (hsign : x.lt .zero = false) :
    ∃ n, x = .finite false n ∨ n = 0 ∧ x = .finite true n := by
  cases x with
  | nan => cases hfinite
  | infinite neg => cases hfinite
  | finite neg n =>
      cases neg with
      | false => exact ⟨n, .inl rfl⟩
      | true =>
          refine ⟨n, .inr ⟨?_, rfl⟩⟩
          simpa [lt, zero, signedUnits] using hsign

theorem ofBinary64_mul_negative_zero (m : ℕ) :
    Amount.ofBinary64 (finite false m * finite true 0) = 0 := by
  have hcut : Amount.ofBinary64 (finite true 0) = 0 := by
    show Amount.clamp (-((0 / unitsPerOne : ℕ) : ℤ)) = 0
    rw [Nat.zero_div]
    rfl
  rw [finite_mul_finite, Nat.mul_zero, round_zero unitsPerOne_pos, Bool.false_bne, hcut]

/-- A number at a rate, cut to an amount. -/
theorem Near.cuts {k : ℕ} {x rate : Binary64} {q : ℚ} (hx : Near k x q) (hrate : rate.isFinite = true)
    (hsign : rate.lt .zero = false)
    (hsmall : q * rate.magnitude ≤ 2 ^ 59 ∨ Amount.ofBinary64 (x * rate) < 2 ^ 60) (hk : k ≤ 8) :
    Cuts (k + 1) (q * rate.magnitude) (Amount.ofBinary64 (x * rate)) := by
  have hone := perOne_pos
  obtain ⟨m, rfl⟩ := hx.exists_finite
  obtain ⟨hleast, hmost⟩ := near_finite.1 hx
  obtain ⟨n, rfl | ⟨rfl, rfl⟩⟩ := finite_of_not_lt hrate hsign
  · rw [finite_mul_finite, Bool.bne_false] at hsmall ⊢
    obtain ⟨v, hv⟩ : ∃ v : ℚ, v = m / perOne * (n / perOne) := ⟨_, rfl⟩
    have hexact : ((m * n : ℕ) : ℚ) / unitsPerOne = v * perOne := by
      rw [Nat.cast_mul, ← perOne_eq, hv]
      field_simp
    have hn : (0 : ℚ) ≤ n / perOne := div_nonneg (Nat.cast_nonneg n) hone.le
    have hvleast : q * (n / perOne) * (1 - epsilon) ^ k ≤ v := by
      rw [hv, mul_right_comm]
      exact mul_le_mul_of_nonneg_right hleast hn
    have hvmost : v ≤ q * (n / perOne) * (1 + epsilon) ^ k := by
      rw [hv, mul_right_comm]
      exact mul_le_mul_of_nonneg_right hmost hn
    show Cuts (k + 1) (q * (n / perOne)) _
    refine (cuts_round unitsPerOne_pos hexact (hsmall.imp_left fun hq => ?_)).of_near hvleast hvmost
    have hq : q * (n / perOne) ≤ 2 ^ 59 := hq
    calc v ≤ q * (n / perOne) * (1 + epsilon) ^ k := hvmost
      _ ≤ 2 ^ 59 * 2 := mul_le_mul hq (one_add_epsilon_pow_le hk) (one_add_epsilon_pow_pos k).le
        (by norm_num)
      _ = 2 ^ 60 := by norm_num
  · have hnone : q * (finite true 0).magnitude = 0 := by
      rw [magnitude, Nat.cast_zero, zero_div, mul_zero]
    rw [ofBinary64_mul_negative_zero, hnone]
    exact ⟨le_rfl, by simp, by simp⟩

/-- A number at a rate is never cut to a negative amount, not even where it is not small. -/
theorem Near.cost_nonneg {k : ℕ} {x rate : Binary64} {q : ℚ} (hx : Near k x q)
    (hrate : rate.isFinite = true) (hsign : rate.lt .zero = false) :
    0 ≤ Amount.ofBinary64 (x * rate) := by
  obtain ⟨m, rfl⟩ := hx.exists_finite
  obtain ⟨n, rfl | ⟨rfl, rfl⟩⟩ := finite_of_not_lt hrate hsign
  · rw [finite_mul_finite, Bool.bne_false, round_eq]
    split
    next => exact Amount.clamp_nonneg (Int.natCast_nonneg _)
    next =>
      show 0 ≤ Amount.greatest
      decide
  · rw [ofBinary64_mul_negative_zero]

end Binary64

end Chargeback
