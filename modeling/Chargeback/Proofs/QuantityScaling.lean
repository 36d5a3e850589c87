import Chargeback.Proofs.QuantityNotation
import Chargeback.Proofs.RoundingError
import Mathlib.Data.Rat.Floor

/-!
# Quantities scaled as doubles

A number with a point, or one beyond the range of wide integers, is read as a double, multiplied by the
factor of its suffix and by a thousand, divided by the part that the suffix stands for, and rounded up.
Each of these steps rounds once, and three things can be said of the result:

* It is off by four small parts and a few units at most (`Off`). Unlike `Near` this holds down to zero,
  as a quantity may be written with any number of zeros after the point.
* Where every step gives a number of few binary places, nothing is rounded at all (`rounded_exact`).
* What is too large stays too large, also where the double is an infinity already (`Reaches`).

Magnitudes are in units, as in the rounding of a double; the sign of a double is kept by every step.
-/

namespace Chargeback

namespace Binary64

/-- One is a power of two, and it is far from the smallest and the greatest numbers. -/
theorem exists_places : ∃ places, unitsPerOne = 2 ^ places ∧ 1040 ≤ places ∧ places ≤ 1200 :=
  ⟨_, unitsPerOne.eq_1, by decide, by decide⟩

theorem two_pow_le_perOne {k : ℕ} (hk : k ≤ 1040) : (2 : ℚ) ^ k ≤ perOne := by
  obtain ⟨places, hplaces, hleast, -⟩ := exists_places
  rw [perOne_eq, hplaces]
  push_cast
  exact pow_le_pow_right₀ (by norm_num) (by omega)

/-! ## Magnitudes that are off -/

/-- A whole number of units is a magnitude up to `k` small parts of it and `a` units. -/
def Off (k a : ℕ) (u : ℕ) (q : ℚ) : Prop := |(u : ℚ) - q| ≤ k / 2 ^ 52 * q + a

theorem Off.mono {k a b u : ℕ} {q : ℚ} (h : Off k a u q) (hab : a ≤ b) : Off k b u q := by
  have hab' : (a : ℚ) ≤ b := by exact_mod_cast hab
  unfold Off at h ⊢
  linarith

theorem small_part_le {k : ℕ} {q : ℚ} (hq : 0 ≤ q) (hk : k ≤ 9) : (k : ℚ) / 2 ^ 52 * q ≤ q := by
  have hk' : (k : ℚ) ≤ 9 := by exact_mod_cast hk
  refine mul_le_of_le_one_left hq ?_
  rw [div_le_one (by positivity)]
  exact hk'.trans (by norm_num)

/-- Rounding a magnitude that is off adds one small part, and doubles the units. -/
theorem off_rounded {num den k a : ℕ} {q : ℚ} (hden : 0 < den) (hq : 0 ≤ q) (hk : k ≤ 8)
    (h : |(num : ℚ) / den - q| ≤ k / 2 ^ 52 * q + a) :
    Off (k + 1) (2 * a + 1) (rounded num den) q := by
  have ha : (0 : ℚ) ≤ a := Nat.cast_nonneg a
  have herror := rounded_error num hden
  obtain ⟨v, hv⟩ : ∃ v : ℚ, v = num / den := ⟨_, rfl⟩
  have hv0 : 0 ≤ v := hv ▸ div_nonneg (Nat.cast_nonneg _) (Nat.cast_nonneg _)
  rw [← hv] at h herror
  have hsmall := small_part_le hq (hk.trans (by decide : 8 ≤ 9))
  have hv2 : v ≤ 2 * q + a := by linarith [(abs_le.1 h).2]
  have hrounded : |(rounded num den : ℚ) - v| ≤ 1 / 2 ^ 52 * q + (a + 1) := by
    refine herror.trans (max_le ?_ ?_)
    · have : (0 : ℚ) ≤ 1 / 2 ^ 52 * q := by positivity
      linarith
    · rw [epsilon]
      linarith
  unfold Off
  calc |(rounded num den : ℚ) - q| ≤ |(rounded num den : ℚ) - v| + |v - q| := abs_sub_le _ _ _
    _ ≤ (1 / 2 ^ 52 * q + (a + 1)) + (k / 2 ^ 52 * q + a) := add_le_add hrounded h
    _ = ((k + 1 : ℕ) : ℚ) / 2 ^ 52 * q + (2 * a + 1 : ℕ) := by push_cast; ring

theorem Off.le_double {k a u : ℕ} {q : ℚ} (h : Off k a u q) (hq : 0 ≤ q) (hk : k ≤ 9) :
    (u : ℚ) ≤ 2 * q + a := by
  linarith [(abs_le.1 h).2, small_part_le hq hk]

/-- The rounding is finite far from the greatest numbers. -/
theorem off_round {num den k a : ℕ} {q : ℚ} (hden : 0 < den) (hq : 0 ≤ q) (hk : k ≤ 8)
    (hlimit : q ≤ 2 ^ 120 * perOne) (ha : a ≤ 2 ^ 100)
    (h : |(num : ℚ) / den - q| ≤ k / 2 ^ 52 * q + a) (neg : Bool) :
    round neg num den = .finite neg (rounded num den) ∧
      Off (k + 1) (2 * a + 1) (rounded num den) q := by
  have hoff := off_rounded hden hq hk h
  refine ⟨round_of_lt ?_ neg, hoff⟩
  have ha' : ((2 * a + 1 : ℕ) : ℚ) ≤ 2 ^ 102 := by exact_mod_cast (by omega : 2 * a + 1 ≤ 2 ^ 102)
  have hone : (2 : ℚ) ^ 102 ≤ perOne := two_pow_le_perOne (by decide)
  calc (rounded num den : ℚ) ≤ 2 * q + (2 * a + 1 : ℕ) := hoff.le_double hq (by omega)
    _ ≤ 2 * (2 ^ 120 * perOne) + 1 * perOne := by linarith
    _ = (2 * 2 ^ 120 + 1) * perOne := by ring
    _ < 2 ^ 200 * perOne := mul_lt_mul_of_pos_right (by norm_num) perOne_pos

theorem finite_mul_whole (neg : Bool) (u c : ℕ) :
    finite neg u * finite false (c * unitsPerOne) =
      round neg (u * (c * unitsPerOne)) unitsPerOne := by
  rw [finite_mul_finite, Bool.bne_false]

theorem finite_div_whole (neg : Bool) (u : ℕ) {c : ℕ} (hc : 0 < c) :
    finite neg u / finite false (c * unitsPerOne) =
      round neg (u * unitsPerOne) (c * unitsPerOne) := by
  rw [finite_div_finite _ _ _ (Nat.mul_pos hc unitsPerOne_pos).ne', Bool.bne_false]

theorem infinite_mul_whole (neg : Bool) {c : ℕ} (hc : 0 < c) :
    infinite neg * finite false (c * unitsPerOne) = .infinite neg := by
  have hne : c * unitsPerOne ≠ 0 := (Nat.mul_pos hc unitsPerOne_pos).ne'
  show mul (infinite neg) (finite false (c * unitsPerOne)) = _
  rw [mul, if_neg hne, Bool.bne_false]

theorem mul_whole_value (u c : ℕ) :
    ((u * (c * unitsPerOne) : ℕ) : ℚ) / unitsPerOne = u * c := by
  have hone : (unitsPerOne : ℚ) ≠ 0 := Nat.cast_ne_zero.2 unitsPerOne_pos.ne'
  push_cast
  field_simp

theorem div_whole_value (u c : ℕ) :
    ((u * unitsPerOne : ℕ) : ℚ) / ((c * unitsPerOne : ℕ) : ℚ) = u / c := by
  have hone : (unitsPerOne : ℚ) ≠ 0 := Nat.cast_ne_zero.2 unitsPerOne_pos.ne'
  push_cast
  exact mul_div_mul_right _ _ hone

/-- A product with a whole number. -/
theorem Off.mul {k a u c : ℕ} {q : ℚ} (h : Off k a u q) (hq : 0 ≤ q) (hk : k ≤ 8)
    (hlimit : q * c ≤ 2 ^ 120 * perOne) (ha : a * c ≤ 2 ^ 100) (neg : Bool) :
    ∃ v, finite neg u * finite false (c * unitsPerOne) = .finite neg v ∧
      Off (k + 1) (2 * (a * c) + 1) v (q * c) := by
  have hc : (0 : ℚ) ≤ c := Nat.cast_nonneg c
  have hscaled : |((u * (c * unitsPerOne) : ℕ) : ℚ) / unitsPerOne - q * c| ≤
      k / 2 ^ 52 * (q * c) + (a * c : ℕ) := by
    rw [mul_whole_value]
    calc |(u : ℚ) * c - q * c| = |(u : ℚ) - q| * c := by
          rw [← sub_mul, abs_mul, abs_of_nonneg hc]
      _ ≤ (k / 2 ^ 52 * q + a) * c := mul_le_mul_of_nonneg_right h hc
      _ = k / 2 ^ 52 * (q * c) + (a * c : ℕ) := by push_cast; ring
  obtain ⟨hround, hoff⟩ :=
    off_round unitsPerOne_pos (mul_nonneg hq hc) hk hlimit ha hscaled neg
  exact ⟨_, (finite_mul_whole neg u c).trans hround, hoff⟩

/-- A quotient by a whole number. -/
theorem Off.div {k a u c : ℕ} {q : ℚ} (h : Off k a u q) (hq : 0 ≤ q) (hk : k ≤ 8) (hc : 0 < c)
    (hlimit : q / c ≤ 2 ^ 120 * perOne) (ha : a ≤ 2 ^ 100) (neg : Bool) :
    ∃ v, finite neg u / finite false (c * unitsPerOne) = .finite neg v ∧
      Off (k + 1) (2 * a + 1) v (q / c) := by
  have hc' : (0 : ℚ) < c := Nat.cast_pos.2 hc
  have hc1 : (1 : ℚ) ≤ c := by exact_mod_cast hc
  have ha0 : (0 : ℚ) ≤ a := Nat.cast_nonneg a
  have hscaled : |((u * unitsPerOne : ℕ) : ℚ) / ((c * unitsPerOne : ℕ) : ℚ) - q / c| ≤
      k / 2 ^ 52 * (q / c) + a := by
    rw [div_whole_value]
    calc |(u : ℚ) / c - q / c| = |(u : ℚ) - q| / c := by
          rw [← sub_div, abs_div, abs_of_pos hc']
      _ ≤ (k / 2 ^ 52 * q + a) / c := div_le_div_of_nonneg_right h hc'.le
      _ = k / 2 ^ 52 * (q / c) + a / c := by ring
      _ ≤ k / 2 ^ 52 * (q / c) + a := by
        gcongr
        exact div_le_self ha0 hc1
  obtain ⟨hround, hoff⟩ := off_round (Nat.mul_pos hc unitsPerOne_pos) (div_nonneg hq hc'.le) hk
    hlimit ha hscaled neg
  exact ⟨_, (finite_div_whole neg u hc).trans hround, hoff⟩

/-! ## Magnitudes that are exact -/

/-- What has fifty-three binary places at most is not rounded. -/
theorem rounded_exact {num den m places : ℕ} (hden : 0 < den) (hnum : num = m * 2 ^ places * den)
    (hm : m ≤ 2 ^ 53) : rounded num den = m * 2 ^ places := by
  obtain ⟨w, hw⟩ : ∃ w, w = m * 2 ^ places := ⟨_, rfl⟩
  have hdvd : spacing w ∣ w := by
    rw [hw]
    exact two_pow_log2_dvd hm places
  rw [← hw] at hnum ⊢
  rw [rounded, hnum, Nat.mul_div_cancel _ hden]
  obtain ⟨step, hstep⟩ : ∃ step, step = spacing w := ⟨_, rfl⟩
  have hpos : 0 < step := hstep ▸ Nat.two_pow_pos _
  rw [← hstep] at hdvd ⊢
  obtain ⟨s, rfl⟩ := hdvd
  have hpart : step * s * den = s * (den * step) := by ring
  rw [nearest, hpart, Nat.mul_div_cancel _ (Nat.mul_pos hden hpos), Nat.mul_mod_left,
    if_pos (.inl (Nat.mul_pos hden hpos)), Nat.mul_comm]

theorem round_exact {num den m places : ℕ} (hden : 0 < den) (hnum : num = m * 2 ^ places * den)
    (hm : m ≤ 2 ^ 53) (hlimit : ((m * 2 ^ places : ℕ) : ℚ) < 2 ^ 200 * perOne) (neg : Bool) :
    round neg num den = .finite neg (m * 2 ^ places) := by
  have hexact := rounded_exact hden hnum hm
  rw [round_of_lt (hexact ▸ hlimit), hexact]

theorem few_places_lt {m rest : ℕ} (hm : m ≤ 2 ^ 53) (hrest : 2 ^ rest ≤ unitsPerOne) :
    ((m * 2 ^ rest : ℕ) : ℚ) < 2 ^ 200 * perOne := by
  have hm' : (m : ℚ) ≤ 2 ^ 53 := by exact_mod_cast hm
  have hrest' : (2 : ℚ) ^ rest ≤ perOne := by
    rw [perOne_eq]
    exact_mod_cast hrest
  push_cast
  calc (m : ℚ) * 2 ^ rest ≤ 2 ^ 53 * perOne :=
        mul_le_mul hm' hrest' (by positivity) (by positivity)
    _ < 2 ^ 200 * perOne := mul_lt_mul_of_pos_right (by norm_num) perOne_pos

/-- A whole number of few binary places is a double. -/
theorem ofNat_exact {n m places : ℕ} (hn : n = m * 2 ^ places) (hm : m ≤ 2 ^ 53)
    (hlimit : n ≤ 2 ^ 120) : ofNat n = .finite false (n * unitsPerOne) := by
  have hsign : decide ((n : ℤ) < 0) = false := by simp
  obtain ⟨one, hone, -⟩ := exists_places
  have hunits : n * unitsPerOne = m * 2 ^ (places + one) := by rw [hn, hone, pow_add, mul_assoc]
  have hfinite : ((m * 2 ^ (places + one) : ℕ) : ℚ) < 2 ^ 200 * perOne := by
    have hn' : (n : ℚ) ≤ 2 ^ 120 := by exact_mod_cast hlimit
    rw [← hunits, Nat.cast_mul, ← perOne_eq]
    exact mul_lt_mul_of_pos_right (hn'.trans_lt (by norm_num)) perOne_pos
  show round (decide ((n : ℤ) < 0)) (n * unitsPerOne) 1 = _
  rw [hsign, hunits, round_exact Nat.one_pos (mul_one _).symm hm hfinite]

/-! ## Magnitudes that are too large -/

/-- A magnitude of some whole number at least, or an infinity. -/
inductive Reaches (b : ℕ) : Binary64 → Prop where
  | finite {neg : Bool} {u : ℕ} (h : b * unitsPerOne ≤ u) : Reaches b (.finite neg u)
  | infinite {neg : Bool} : Reaches b (.infinite neg)

/-- A rounding does not halve a magnitude. -/
theorem reaches_round {b num den : ℕ} (hb : 0 < b) (hden : 0 < den)
    (h : 2 * b * unitsPerOne * den ≤ num) (neg : Bool) : Reaches b (round neg num den) := by
  have hden' : (0 : ℚ) < den := Nat.cast_pos.2 hden
  have hone : 1 ≤ b * unitsPerOne := Nat.mul_pos hb unitsPerOne_pos
  have hone' : (1 : ℚ) ≤ b * unitsPerOne := by exact_mod_cast hone
  have hvalue : 2 * (b * unitsPerOne : ℚ) ≤ num / den := by
    rw [le_div_iff₀ hden', ← mul_assoc]
    exact_mod_cast h
  have herror := (abs_le.1 (rounded_error num hden)).1
  have hmax : max (1 / 2) ((num : ℚ) / den * epsilon) ≤ num / den / 2 := by
    refine max_le (by linarith) ?_
    rw [epsilon]
    linarith
  have hrounded : b * unitsPerOne ≤ rounded num den := by
    have : (b : ℚ) * unitsPerOne ≤ rounded num den := by linarith
    exact_mod_cast this
  rw [round_eq]
  split
  · exact .finite hrounded
  · exact .infinite

theorem Reaches.mul {b c : ℕ} {x : Binary64} (h : Reaches (2 * b) x) (hb : 0 < b) (hc : 0 < c) :
    Reaches (b * c) (x * .finite false (c * unitsPerOne)) := by
  cases h with
  | @finite neg u h =>
      rw [finite_mul_whole]
      refine reaches_round (Nat.mul_pos hb hc) unitsPerOne_pos ?_ neg
      calc 2 * (b * c) * unitsPerOne * unitsPerOne
          = 2 * b * unitsPerOne * (c * unitsPerOne) := by ring
        _ ≤ u * (c * unitsPerOne) := Nat.mul_le_mul_right _ h
  | infinite =>
      rw [infinite_mul_whole _ hc]
      exact .infinite

theorem Reaches.div {b c : ℕ} {x : Binary64} (h : Reaches (2 * b * c) x) (hb : 0 < b) (hc : 0 < c) :
    Reaches b (x / .finite false (c * unitsPerOne)) := by
  cases h with
  | @finite neg u h =>
      rw [finite_div_whole neg u hc]
      refine reaches_round hb (Nat.mul_pos hc unitsPerOne_pos) ?_ neg
      calc 2 * b * unitsPerOne * (c * unitsPerOne)
          = 2 * b * c * unitsPerOne * unitsPerOne := by ring
        _ ≤ u * unitsPerOne := Nat.mul_le_mul_right _ h
  | infinite => exact .infinite

theorem Reaches.mono {b c : ℕ} {x : Binary64} (h : Reaches c x) (hbc : b ≤ c) : Reaches b x := by
  cases h with
  | finite h => exact .finite ((Nat.mul_le_mul_right _ hbc).trans h)
  | infinite => exact .infinite

/-! ## Rounding up -/

/-- The exact value of a signed number of units. -/
def signedValue (neg : Bool) (u : ℕ) : ℚ := (if neg then -(u : ℚ) else u) / perOne

/-- Rounding up gives whole ones, and those of the exact value. -/
theorem exists_ceil (neg : Bool) (u : ℕ) : ∃ c : ℕ,
    (finite neg u).ceil = .finite neg (c * unitsPerOne) ∧
      ⌈signedValue neg u⌉ = signedUnits neg c := by
  have hone := unitsPerOne_pos
  have hone' : (0 : ℚ) < unitsPerOne := Nat.cast_pos.2 hone
  cases neg with
  | true =>
      refine ⟨u / unitsPerOne, rfl, ?_⟩
      have hvalue : signedValue true u = -((u : ℚ) / unitsPerOne) := by
        rw [signedValue, if_pos rfl, perOne_eq, neg_div]
      rw [hvalue, Int.ceil_neg, Rat.floor_natCast_div_natCast, signedUnits, if_pos rfl,
        Int.natCast_div]
  | false =>
      refine ⟨(u + unitsPerOne - 1) / unitsPerOne, rfl, ?_⟩
      obtain ⟨c, hc⟩ : ∃ c, c = (u + unitsPerOne - 1) / unitsPerOne := ⟨_, rfl⟩
      have hdiv := Nat.div_add_mod' (u + unitsPerOne - 1) unitsPerOne
      have hmod := Nat.mod_lt (u + unitsPerOne - 1) hone
      rw [← hc] at hdiv ⊢
      have hbelow : c * unitsPerOne < u + unitsPerOne := by omega
      have habove : u ≤ c * unitsPerOne := by omega
      have hbelow' : (c : ℚ) * unitsPerOne < u + unitsPerOne := by exact_mod_cast hbelow
      have habove' : (u : ℚ) ≤ c * unitsPerOne := by exact_mod_cast habove
      have hvalue : signedValue false u = (u : ℚ) / unitsPerOne := by
        rw [signedValue, if_neg Bool.false_ne_true, perOne_eq]
      have hsigned : signedUnits false c = (c : ℤ) := rfl
      rw [hvalue, hsigned, Int.ceil_eq_iff, lt_div_iff₀ hone', div_le_iff₀ hone']
      push_cast
      exact ⟨by linarith, habove'⟩

theorem Reaches.ceil {b : ℕ} {x : Binary64} (h : Reaches b x) : Reaches b x.ceil := by
  have hone := unitsPerOne_pos
  cases h with
  | @finite neg u h =>
      cases neg with
      | true =>
          refine .finite (Nat.mul_le_mul_right _ ?_)
          rw [Nat.le_div_iff_mul_le hone]
          exact h
      | false =>
          refine .finite (Nat.mul_le_mul_right _ ?_)
          rw [Nat.le_div_iff_mul_le hone]
          exact h.trans (by omega)
  | infinite => exact .infinite

end Binary64

/-! ## Reading decimals -/

namespace Decimal

open Binary64

theorem lt_pow_digitCount (n : ℕ) : n < 10 ^ digitCount n := by
  rw [digitCount]
  split
  next h => rw [h]; exact Nat.one_pos
  next h =>
    have hne : 0 < (Nat.toDigits 10 n).length := List.length_pos_iff.2 Nat.toDigits_ne_nil
    exact (Nat.length_toDigits_le_iff (by decide) hne).1 le_rfl

theorem pow_le_of_lt_digitCount {n k : ℕ} (hk : k < digitCount n) : 10 ^ k ≤ n := by
  rw [digitCount] at hk
  split at hk
  next h => omega
  next h =>
    by_contra hlt
    by_cases hzero : k = 0
    · subst hzero
      omega
    · have := (Nat.length_toDigits_le_iff (by decide) (Nat.pos_of_ne_zero hzero)).2 (not_le.1 hlt)
      omega

/-- Only what is very small or very large is not multiplied out. -/
theorem toBinary64_cases (neg : Bool) (digits places : ℕ) :
    ∃ huge, 2 ^ 120 < huge ∧ unitsPerOne < huge ∧
      (digits * huge ≤ 10 ^ places ∧ toBinary64 neg ⟨digits, -places⟩ = .finite neg 0 ∨
        huge * 10 ^ places ≤ digits ∧ toBinary64 neg ⟨digits, -places⟩ = .infinite neg ∨
        toBinary64 neg ⟨digits, -places⟩ = round neg (digits * unitsPerOne) (10 ^ places)) := by
  obtain ⟨one, hone, -, hmost⟩ := exists_places
  -- The exponent is given a name so that nothing computes with the power.
  obtain ⟨far, hfar⟩ : ∃ far : ℕ, far = 400 := ⟨_, rfl⟩
  have hpow : (2 : ℕ) ^ (3 * far) < 10 ^ far := by
    rw [Nat.pow_mul]
    exact Nat.pow_lt_pow_left (by decide) (by omega)
  refine ⟨10 ^ far, ?_, ?_, ?_⟩
  · exact (Nat.pow_lt_pow_right (by decide) (by omega)).trans hpow
  · rw [hone]
    exact (Nat.pow_le_pow_right (by decide) (by omega)).trans_lt hpow
  · unfold toBinary64
    simp only
    split
    next h =>
      refine .inl ⟨?_, rfl⟩
      rw [Bool.or_eq_true, decide_eq_true_eq, decide_eq_true_eq] at h
      rcases h with rfl | h
      · rw [Nat.zero_mul]
        exact Nat.zero_le _
      · calc digits * 10 ^ far ≤ 10 ^ digitCount digits * 10 ^ far :=
              Nat.mul_le_mul_right _ (lt_pow_digitCount digits).le
          _ = 10 ^ (digitCount digits + far) := (Nat.pow_add _ _ _).symm
          _ ≤ 10 ^ places := Nat.pow_le_pow_right (by decide) (by omega)
    next =>
      split
      next h =>
        refine .inr (.inl ⟨?_, rfl⟩)
        rw [← Nat.pow_add]
        exact pow_le_of_lt_digitCount (by omega)
      next =>
        refine .inr (.inr ?_)
        split
        next h =>
          obtain rfl : places = 0 := by omega
          simp
        next => rw [neg_neg, Int.toNat_natCast]

/-- A decimal is read with one rounding. -/
theorem toBinary64_off (neg : Bool) {digits places : ℕ} (hlimit : digits ≤ 2 ^ 120 * 10 ^ places) :
    ∃ v, toBinary64 neg ⟨digits, -places⟩ = .finite neg v ∧
      Off 1 1 v (digits / 10 ^ places * perOne) := by
  have hone := perOne_pos
  have hpos : 0 < 10 ^ places := Nat.pow_pos (by decide)
  have hpow : (0 : ℚ) < 10 ^ places := by exact_mod_cast hpos
  have hq : (0 : ℚ) ≤ digits / 10 ^ places * perOne := by positivity
  obtain ⟨huge, hfar, hunits, ⟨hsmall, heq⟩ | ⟨hlarge, -⟩ | heq⟩ :=
    toBinary64_cases neg digits places
  · refine ⟨0, heq, ?_⟩
    have hunits' : perOne ≤ huge := by
      rw [perOne_eq]
      exact_mod_cast hunits.le
    have hsmall' : (digits : ℚ) * huge ≤ 10 ^ places := by exact_mod_cast hsmall
    have hle : (digits : ℚ) / 10 ^ places * perOne ≤ 1 := by
      rw [div_mul_eq_mul_div, div_le_one hpow]
      exact (mul_le_mul_of_nonneg_left hunits' (Nat.cast_nonneg _)).trans hsmall'
    have hpart : (0 : ℚ) ≤ (1 : ℕ) / 2 ^ 52 * (digits / 10 ^ places * perOne) := by positivity
    unfold Off
    rw [Nat.cast_zero, zero_sub, abs_neg, abs_of_nonneg hq]
    push_cast at hpart ⊢
    linarith
  · have hlt := Nat.mul_lt_mul_of_pos_right hfar hpos
    omega
  · have hvalue : ((digits * unitsPerOne : ℕ) : ℚ) / ((10 ^ places : ℕ) : ℚ) =
        digits / 10 ^ places * perOne := by
      rw [perOne_eq]
      push_cast
      ring
    have hlimit' : (digits : ℚ) / 10 ^ places * perOne ≤ 2 ^ 120 * perOne := by
      refine mul_le_mul_of_nonneg_right ?_ hone.le
      rw [div_le_iff₀ hpow]
      exact_mod_cast hlimit
    obtain ⟨hround, hoff⟩ := off_round (k := 0) (a := 0) hpos hq (by decide)
      hlimit' (by decide) (by rw [hvalue, sub_self, abs_zero]; simp) neg
    exact ⟨_, heq.trans hround, hoff⟩

/-- A decimal of few binary places is read as it is. -/
theorem toBinary64_exact (neg : Bool) {digits places a b rest : ℕ}
    (hvalue : digits * 2 ^ b = a * 10 ^ places) (ha : a ≤ 2 ^ 53)
    (hrest : unitsPerOne = 2 ^ (b + rest)) :
    toBinary64 neg ⟨digits, -places⟩ = .finite neg (a * 2 ^ rest) := by
  have hpos : 0 < 10 ^ places := Nat.pow_pos (by decide)
  obtain ⟨huge, hfar, hunits, ⟨hsmall, heq⟩ | ⟨hlarge, -⟩ | heq⟩ :=
    toBinary64_cases neg digits places
  · -- So small a number is not above zero.
    have hle : a * huge * 10 ^ places ≤ 2 ^ b * 10 ^ places := by
      calc a * huge * 10 ^ places = digits * huge * 2 ^ b := by
            rw [Nat.mul_right_comm, ← hvalue, Nat.mul_right_comm]
        _ ≤ 10 ^ places * 2 ^ b := Nat.mul_le_mul_right _ hsmall
        _ = 2 ^ b * 10 ^ places := Nat.mul_comm _ _
    have hle' : a * huge ≤ 2 ^ b := Nat.le_of_mul_le_mul_right hle hpos
    have hlt : 2 ^ b < huge := by
      refine lt_of_le_of_lt ?_ hunits
      rw [hrest]
      exact Nat.pow_le_pow_right (by decide) (by omega)
    obtain rfl : a = 0 := by
      by_contra hne
      have := Nat.le_mul_of_pos_left huge (Nat.pos_of_ne_zero hne)
      omega
    rw [heq, Nat.zero_mul]
  · have hle : digits ≤ 2 ^ 120 * 10 ^ places := by
      calc digits ≤ digits * 2 ^ b := Nat.le_mul_of_pos_right _ (Nat.two_pow_pos b)
        _ = a * 10 ^ places := hvalue
        _ ≤ 2 ^ 120 * 10 ^ places := Nat.mul_le_mul_right _ (ha.trans (by decide))
    have hlt := Nat.mul_lt_mul_of_pos_right hfar hpos
    omega
  · rw [heq]
    have hle : 2 ^ rest ≤ unitsPerOne := by
      rw [hrest]
      exact Nat.pow_le_pow_right (by decide) (Nat.le_add_left _ _)
    refine round_exact hpos ?_ ha (few_places_lt ha hle) neg
    rw [hrest, pow_add, ← mul_assoc, hvalue]
    ring

/-- A large whole number is read as a large number. -/
theorem toBinary64_reaches (neg : Bool) {digits b : ℕ} (hb : 0 < b) (h : 2 * b ≤ digits) :
    Reaches b (toBinary64 neg ⟨digits, 0⟩) := by
  have hcases := toBinary64_cases neg digits 0
  rw [Nat.cast_zero, neg_zero, Nat.pow_zero] at hcases
  obtain ⟨huge, hfar, -, ⟨hsmall, -⟩ | ⟨-, heq⟩ | heq⟩ := hcases
  · have hle : 1 * huge ≤ digits * huge := Nat.mul_le_mul_right _ (by omega)
    omega
  · rw [heq]
    exact .infinite
  · rw [heq]
    refine reaches_round hb Nat.one_pos ?_ neg
    rw [Nat.mul_one]
    exact Nat.mul_le_mul_right _ h

end Decimal

/-! ## The steps of the scaling -/

namespace Quantity

open Binary64

/-- A number in thousandths of its unit, before it is rounded up. -/
def scaled (x : Binary64) (s : Scale) : Binary64 :=
  x * Binary64.ofNat s.num * Binary64.ofNat 1000 / Binary64.ofNat s.den

/-- The factors of the suffixes are doubles. -/
theorem ofNat_scale (u : Suffix) :
    Binary64.ofNat u.scale.num = .finite false (u.scale.num * unitsPerOne) ∧
      Binary64.ofNat u.scale.den = .finite false (u.scale.den * unitsPerOne) := by
  obtain ⟨-, -, hnum, hden⟩ := u.scale_bounds
  have hfew : u.scale.num ≤ 2 ^ 53 ∨
      u.scale.num = u.scale.num / 2 ^ 18 * 2 ^ 18 ∧ u.scale.num / 2 ^ 18 ≤ 2 ^ 53 := by
    cases u <;> decide
  constructor
  · rcases hfew with hfew | ⟨hplaces, hfew⟩
    · exact ofNat_eq hfew
    · exact ofNat_exact hplaces hfew (hnum.trans (by decide))
  · exact ofNat_eq (hden.trans (by decide))

theorem scaled_suffix (x : Binary64) (u : Suffix) :
    scaled x u.scale = x * .finite false (u.scale.num * unitsPerOne) *
      .finite false (1000 * unitsPerOne) / .finite false (u.scale.den * unitsPerOne) := by
  obtain ⟨hnum, hden⟩ := ofNat_scale u
  rw [scaled, hnum, hden, ofNat_eq (n := 1000) (by decide)]

/-- A number is scaled with three roundings more. -/
theorem off_scaled (u : Suffix) {v : ℕ} {q : ℚ} (hoff : Off 1 1 v q) (hq : 0 ≤ q)
    (hlimit : q * u.scale.num ≤ 2 ^ 110 * perOne) (neg : Bool) :
    ∃ w, scaled (.finite neg v) u.scale = .finite neg w ∧
      Off 4 (2 ^ 75) w (q * u.scale.num * 1000 / u.scale.den) := by
  obtain ⟨hnumpos, hdenpos, hnum, -⟩ := u.scale_bounds
  have hone := perOne_pos
  have hq1 : 0 ≤ q * u.scale.num := mul_nonneg hq (Nat.cast_nonneg _)
  have hq2 : 0 ≤ q * u.scale.num * (1000 : ℕ) := mul_nonneg hq1 (Nat.cast_nonneg _)
  have hlimit2 : q * u.scale.num * (1000 : ℕ) ≤ 2 ^ 120 * perOne := by
    calc q * u.scale.num * (1000 : ℕ) ≤ 2 ^ 110 * perOne * (1000 : ℕ) :=
          mul_le_mul_of_nonneg_right hlimit (Nat.cast_nonneg _)
      _ = (2 ^ 110 * 1000) * perOne := by push_cast; ring
      _ ≤ 2 ^ 120 * perOne := mul_le_mul_of_nonneg_right (by norm_num) hone.le
  have hlimit1 : q * u.scale.num ≤ 2 ^ 120 * perOne :=
    hlimit.trans (mul_le_mul_of_nonneg_right (by norm_num) hone.le)
  have hlimit3 : q * u.scale.num * (1000 : ℕ) / u.scale.den ≤ 2 ^ 120 * perOne :=
    (div_le_self hq2 (by exact_mod_cast hdenpos)).trans hlimit2
  obtain ⟨v1, hv1, hoff1⟩ := hoff.mul hq (by decide) hlimit1 (by omega) neg
  obtain ⟨v2, hv2, hoff2⟩ := (hoff1.mono (b := 2 ^ 62) (by omega)).mul hq1 (by decide) hlimit2
    (by decide) neg
  obtain ⟨w, hw, hoff3⟩ := (hoff2.mono (b := 2 ^ 74 - 1) (by decide)).div hq2 (by decide) hdenpos
    hlimit3 (by decide) neg
  refine ⟨w, ?_, ?_⟩
  · rw [scaled_suffix, hv1, hv2, hw]
  · have hoff3 := hoff3.mono (b := 2 ^ 75) (by decide)
    rwa [Nat.cast_ofNat] at hoff3

theorem mul_exact {m c rest : ℕ} (hmc : m * c ≤ 2 ^ 53) (hrest : 2 ^ rest ≤ unitsPerOne)
    (neg : Bool) :
    Binary64.finite neg (m * 2 ^ rest) * .finite false (c * unitsPerOne) =
      .finite neg (m * c * 2 ^ rest) := by
  have hnum : m * 2 ^ rest * (c * unitsPerOne) = m * c * 2 ^ rest * unitsPerOne := by ring
  rw [finite_mul_whole, round_exact unitsPerOne_pos hnum hmc (few_places_lt hmc hrest)]

/-- Where the digits do not grow beyond the binary places of a double, only the division rounds. -/
theorem scaled_exact (u : Suffix) {a rest : ℕ} (ha : 1000 * a * u.scale.num ≤ 2 ^ 53)
    (hrest : 2 ^ rest ≤ unitsPerOne) (neg : Bool) :
    scaled (.finite neg (a * 2 ^ rest)) u.scale =
      round neg (1000 * a * u.scale.num * 2 ^ rest * unitsPerOne) (u.scale.den * unitsPerOne) := by
  obtain ⟨-, hdenpos, -⟩ := u.scale_bounds
  have hfirst : a * u.scale.num ≤ 1000 * a * u.scale.num :=
    Nat.mul_le_mul_right _ (Nat.le_mul_of_pos_left _ (by decide))
  have hsecond : a * u.scale.num * 1000 = 1000 * a * u.scale.num := by ring
  rw [scaled_suffix, mul_exact (hfirst.trans ha) hrest, mul_exact (hsecond ▸ ha) hrest,
    finite_div_whole neg _ hdenpos, hsecond]

/-- What is too large stays too large when it is scaled. -/
theorem reaches_scaled (u : Suffix) {x : Binary64} (h : Reaches (2 ^ 126) x) :
    Reaches (2 ^ 64) (scaled x u.scale) := by
  obtain ⟨hnumpos, hdenpos, -, hden⟩ := u.scale_bounds
  rw [scaled_suffix]
  have hfirst : Reaches (2 ^ 125 * u.scale.num) (x * .finite false (u.scale.num * unitsPerOne)) :=
    Reaches.mul h (by decide) hnumpos
  have hsecond := (hfirst.mono (b := 2 * 2 ^ 124) (by omega)).mul (by decide) (c := 1000) (by decide)
  exact (hsecond.mono (b := 2 * 2 ^ 64 * u.scale.den) (by omega)).div (by decide) hdenpos

/-! ## Rounding up to an amount -/

theorem doubleMilli?_eq (x : Binary64) (s : Scale) :
    doubleMilli? x s =
      if (Binary64.ofInt Amount.greatest).lt (scaled x s).ceil.abs then none
      else (scaled x s).ceil.truncate? := rfl

/-- The greatest amount as a double is the number after it. -/
theorem ofInt_greatest :
    Binary64.ofInt Amount.greatest = .finite false (2 ^ 63 * unitsPerOne) := by
  decide +kernel

theorem lt_magnitudes (u v : ℕ) :
    (Binary64.finite false u).lt (.finite false v) = decide (u < v) := by
  rw [Bool.eq_iff_iff, decide_eq_true_eq]
  show decide ((u : ℤ) < v) = true ↔ _
  rw [decide_eq_true_eq, Int.ofNat_lt]

/-- A scaled number gives its exact value rounded up, if that is an amount. -/
theorem bounded_doubleMilli? {x : Binary64} {s : Scale} {neg : Bool} {w : ℕ}
    (h : scaled x s = .finite neg w) (written : String) :
    bounded written (doubleMilli? x s) =
      if Amount.InRange ⌈signedValue neg w⌉ then .ok ⌈signedValue neg w⌉
      else .error (.outOfRange written) := by
  obtain ⟨c, hceil, hvalue⟩ := exists_ceil neg w
  have habs : (Binary64.finite neg (c * unitsPerOne)).abs = .finite false (c * unitsPerOne) := rfl
  have hcut : (Binary64.finite neg (c * unitsPerOne)).truncate? = some (signedUnits neg c) := by
    rw [truncate?, Nat.mul_div_cancel _ unitsPerOne_pos, signedUnits]
  have hlimit : 2 ^ 63 * unitsPerOne < c * unitsPerOne ↔ 2 ^ 63 < c :=
    Nat.mul_lt_mul_right unitsPerOne_pos
  rw [doubleMilli?_eq, h, hceil, habs, ofInt_greatest, lt_magnitudes, decide_eq_decide.2 hlimit,
    hvalue, hcut]
  by_cases hlarge : 2 ^ 63 < c
  · have hout : ¬ Amount.InRange (signedUnits neg c) := by
      unfold Amount.InRange Amount.least Amount.greatest signedUnits
      split
      next => omega
      next => omega
    rw [if_pos (decide_eq_true hlarge), if_neg hout]
    rfl
  · rw [if_neg (by simpa using hlarge)]
    rfl

/-- A number that is too large is no amount, whether it is finite or not. -/
theorem doubleMilli?_eq_none {x : Binary64} {s : Scale} (h : Reaches (2 ^ 64) (scaled x s)) :
    doubleMilli? x s = none := by
  rw [doubleMilli?_eq, ofInt_greatest]
  generalize hx : (scaled x s).ceil = y
  have hreach : Reaches (2 ^ 64) y := hx ▸ h.ceil
  cases hreach with
  | @finite neg w hw =>
      have habs : (Binary64.finite neg w).abs = .finite false w := rfl
      have hlt : 2 ^ 63 * unitsPerOne < w :=
        (Nat.mul_lt_mul_of_pos_right (by decide) unitsPerOne_pos).trans_le hw
      rw [habs, lt_magnitudes, if_pos (decide_eq_true hlt)]
  | infinite => exact if_pos rfl

end Quantity

end Chargeback
