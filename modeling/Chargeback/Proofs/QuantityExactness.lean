import Chargeback.Proofs.QuantityScaling

/-!
# How exact quantities are

A whole number with a suffix is scaled by integers as long as it fits, and as a double from there on,
where the result is too large for an amount in any case. So the thousandths of a whole number are exact,
or there are none (`Quantity.milli_digits`).

A number with a point is scaled as a double. Its thousandths are those of a number that is off by four
parts in `2 ^ 52`, rounded up, and rounding up makes a whole thousandth of the least excess
(`Quantity.milli_point`): they are exact where no whole number is that close, or where the number has few
binary places, such as `2.5` and `3.0`. But `2.007` is 2008 thousandths (`Quantity.not_milli_exact`).
-/

namespace Chargeback

open Text

namespace Quantity

open Binary64

/-! ## Rounding up -/

theorem ceilDiv_eq_ceil (i : ℤ) (d : ℕ) : ceilDiv i d = ⌈(i : ℚ) / d⌉ :=
  (Rat.ceil_intCast_div_natCast i d).symm

/-- Rounding up to thousandths first makes no difference for whole ones. -/
theorem ceil_ceil_div (x : ℚ) {d : ℕ} (hd : 0 < d) : ⌈(⌈x⌉ : ℚ) / d⌉ = ⌈x / d⌉ := by
  have hd' : (0 : ℚ) < d := Nat.cast_pos.2 hd
  apply eq_of_forall_ge_iff
  intro k
  have hcast : (k : ℚ) * d = (k * d : ℤ) := by push_cast; rfl
  rw [Int.ceil_le, Int.ceil_le, div_le_iff₀ hd', div_le_iff₀ hd', hcast, Int.cast_le, Int.ceil_le]

/-- Two numbers round up alike if no whole number is as close to the one as they are to each other. -/
theorem ceil_eq_of_far {z y : ℚ} (h : ∀ k : ℤ, |z - y| < |k - y|) : ⌈z⌉ = ⌈y⌉ := by
  apply eq_of_forall_ge_iff
  intro k
  have hfar := h k
  rw [Int.ceil_le, Int.ceil_le]
  constructor
  · intro hz
    by_contra hy
    have hneg : (k : ℚ) - y < 0 := by linarith [not_le.1 hy]
    rw [abs_of_neg hneg] at hfar
    linarith [neg_abs_le (z - y)]
  · intro hy
    by_contra hz
    rw [abs_of_nonneg (sub_nonneg.2 hy)] at hfar
    linarith [le_abs_self (z - y), not_le.1 hz]

/-- What is less than one off a whole number rounds up to it or to the next one. -/
theorem ceil_near_whole {z : ℚ} {i : ℤ} (h : |z - i| < 1) : ⌈z⌉ = i ∨ ⌈z⌉ = i + 1 := by
  obtain ⟨hbelow, habove⟩ := abs_lt.1 h
  have hleast : i ≤ ⌈z⌉ := by
    rw [Int.le_ceil_iff]
    linarith
  have hmost : ⌈z⌉ ≤ i + 1 := by
    rw [Int.ceil_le]
    push_cast
    linarith
  omega

/-- A fraction that is no whole number is no closer to one than its denominator says. -/
theorem fraction_far {p : ℤ} {d : ℕ} (hd : 0 < d) {k : ℤ} (hk : (p : ℚ) / d ≠ k) :
    1 / (d : ℚ) ≤ |(k : ℚ) - p / d| := by
  have hd' : (0 : ℚ) < d := Nat.cast_pos.2 hd
  have hne : k * d - p ≠ 0 := by
    intro hzero
    refine hk ?_
    rw [div_eq_iff hd'.ne']
    exact_mod_cast (sub_eq_zero.1 hzero).symm
  have hone : (1 : ℚ) ≤ |(k * d - p : ℤ)| := by exact_mod_cast Int.one_le_abs hne
  have hsplit : (k : ℚ) - p / d = (k * d - p : ℤ) / d := by
    push_cast
    field_simp
  rw [hsplit, abs_div, abs_of_pos hd', div_le_div_iff_of_pos_right hd']
  exact_mod_cast hone

/-! ## Whole numbers -/

section Whole

variable {q : Quantity} {s : Sign} {ds : List Char} {u : Suffix} {n : ℤ}

/-- The exact thousandths of a whole number. -/
theorem ceil_whole (n : ℤ) (u : Suffix) :
    ⌈1000 * (n : ℚ) * u.value⌉ = ceilDiv (n * u.scale.num * 1000) u.scale.den := by
  rw [ceilDiv_eq_ceil, u.value_eq]
  push_cast
  congr 1
  ring

/-- What leaves the range of wide integers is no amount when it is divided. -/
theorem not_inRange_ceilDiv {t : ℤ} {d : ℕ} (hd : 0 < d) (hd' : d ≤ 2 ^ 30)
    (ht : t < -2 ^ 127 ∨ 2 ^ 127 ≤ t) : ¬ Amount.InRange (ceilDiv t d) := by
  rintro ⟨hleast, hmost⟩
  rw [Amount.least] at hleast
  rw [Amount.greatest] at hmost
  have hdiv := Int.emod_add_mul_ediv (-t) d
  have hmod := Int.emod_nonneg (-t) (by omega : (d : ℤ) ≠ 0)
  have hmod' := Int.emod_lt_of_pos (-t) (by omega : (0 : ℤ) < d)
  rw [ceilDiv] at hleast hmost
  have hbelow : -2 ^ 63 * (d : ℤ) ≤ d * ((-t) / d) := by nlinarith
  have habove : d * ((-t) / d) ≤ 2 ^ 63 * (d : ℤ) := by nlinarith
  omega

theorem wholeMilli?_eq (n : ℤ) (u : Suffix) :
    wholeMilli? n u.scale =
      if fitsWide (n * u.scale.num) && fitsWide (n * u.scale.num * 1000) then
        some ⌈1000 * (n : ℚ) * u.value⌉
      else none := by
  rw [ceil_whole]
  rfl

theorem fitsWide_iff {i : ℤ} : fitsWide i = true ↔ -2 ^ 127 ≤ i ∧ i < 2 ^ 127 := by
  rw [fitsWide, Bool.and_eq_true, decide_eq_true_eq, decide_eq_true_eq]

/-- Within the range of wide integers the thousandths are exact, or out of range. -/
theorem bounded_wholeMilli? (n : ℤ) (u : Suffix) (written : String) :
    bounded written (wholeMilli? n u.scale) =
      if Amount.InRange ⌈1000 * (n : ℚ) * u.value⌉ then .ok ⌈1000 * (n : ℚ) * u.value⌉
      else .error (.outOfRange written) := by
  obtain ⟨-, hdenpos, -, hden⟩ := u.scale_bounds
  rw [wholeMilli?_eq]
  by_cases hfits : (fitsWide (n * u.scale.num) && fitsWide (n * u.scale.num * 1000)) = true
  · rw [if_pos hfits]
    rfl
  · have hwide : n * u.scale.num * 1000 < -2 ^ 127 ∨ 2 ^ 127 ≤ n * u.scale.num * 1000 := by
      rw [Bool.and_eq_true, fitsWide_iff, fitsWide_iff] at hfits
      omega
    rw [if_neg hfits, if_neg (ceil_whole n u ▸ not_inRange_ceilDiv hdenpos hden hwide)]
    rfl

theorem natAbs_factor_mul (s : Sign) (m : ℕ) : (s.factor * m).natAbs = m := by
  cases s <;> simp [Sign.factor]

/-- A number beyond the range of wide integers is no amount with any suffix. -/
theorem not_inRange_of_wide (u : Suffix) (hwide : n < -2 ^ 127 ∨ 2 ^ 127 ≤ n) :
    ¬ Amount.InRange ⌈1000 * (n : ℚ) * u.value⌉ := by
  obtain ⟨hnumpos, hdenpos, -, hden⟩ := u.scale_bounds
  have hnum : (1 : ℤ) ≤ u.scale.num := by exact_mod_cast hnumpos
  rw [ceil_whole]
  apply not_inRange_ceilDiv hdenpos hden
  rcases hwide with hlow | hhigh
  · left
    nlinarith
  · right
    nlinarith

/-- The double that is read there is too large as well, if it is finite at all. -/
theorem milli_of_wide (hwritten : trim q.text.toList = s.text ++ ds ++ u.text)
    (hds : ∀ c ∈ ds, isDigit c = true) (hne : ds ≠ []) (hn : n = s.factor * digitsValue ds)
    (hwide : n < -2 ^ 127 ∨ 2 ^ 127 ≤ n) : ∃ e, q.milli = .error e := by
  have hdigits : 2 * 2 ^ 126 ≤ digitsValue ds := by
    have habs := natAbs_factor_mul s (digitsValue ds)
    rw [← hn] at habs
    omega
  have hreach := Decimal.toBinary64_reaches s.isMinus (b := 2 ^ 126) (by decide) hdigits
  have hunread : ∀ i, Decimal.readInt? (s.text ++ ds) = some i → fitsWide i = false := by
    intro i hi
    rw [readInt?_digits s hds hne, ← hn] at hi
    obtain rfl : n = i := Option.some.inj hi
    rw [← Bool.not_eq_true, fitsWide_iff]
    omega
  rw [milli_of_double (endsNumber_digits s hds hne) hwritten hunread (read?_digits s hds hne),
    doubleMilli?_eq_none (reaches_scaled u hreach)]
  split
  next => exact ⟨_, rfl⟩
  next => exact ⟨_, rfl⟩

/-- A whole number has its exact thousandths if these are an amount, and none otherwise. -/
theorem milli_whole_cases (hwritten : trim q.text.toList = s.text ++ ds ++ u.text)
    (hds : ∀ c ∈ ds, isDigit c = true) (hne : ds ≠ []) (hn : n = s.factor * digitsValue ds) :
    Amount.InRange ⌈1000 * (n : ℚ) * u.value⌉ ∧ q.milli = .ok ⌈1000 * (n : ℚ) * u.value⌉ ∨
    ¬ Amount.InRange ⌈1000 * (n : ℚ) * u.value⌉ ∧ ∃ e, q.milli = .error e ∧
      (fitsWide n = true → e = .outOfRange (String.ofList (s.text ++ ds ++ u.text))) := by
  by_cases hfits : fitsWide n = true
  · have hread := readInt?_digits s hds hne
    rw [← hn] at hread
    rw [milli_of_whole (endsNumber_digits s hds hne) hwritten hread hfits, bounded_wholeMilli?]
    by_cases hrange : Amount.InRange ⌈1000 * (n : ℚ) * u.value⌉
    · exact .inl ⟨hrange, if_pos hrange⟩
    · exact .inr ⟨hrange, _, if_neg hrange, fun _ => rfl⟩
  · have hwide : n < -2 ^ 127 ∨ 2 ^ 127 ≤ n := by
      rw [fitsWide_iff] at hfits
      omega
    obtain ⟨e, herr⟩ := milli_of_wide hwritten hds hne hn hwide
    exact .inr ⟨not_inRange_of_wide u hwide, e, herr, fun h => absurd h hfits⟩

/-- WHOLE NUMBERS ARE EXACT: an optional sign, digits and a suffix give the thousandths of the number
that they denote, rounded up, exactly if these are an amount, and then also the whole units, rounded
up. Otherwise both fail in the same way, with the fault that says so if the digits are not too many for
a wide integer. -/
theorem milli_digits (hwritten : trim q.text.toList = s.text ++ ds ++ u.text)
    (hds : ∀ c ∈ ds, isDigit c = true) (hne : ds ≠ []) (hn : n = s.factor * digitsValue ds) :
    (∀ i, q.milli = .ok i ↔
      Amount.InRange ⌈1000 * (n : ℚ) * u.value⌉ ∧ i = ⌈1000 * (n : ℚ) * u.value⌉) ∧
    (∀ i, q.value = .ok i ↔
      Amount.InRange ⌈1000 * (n : ℚ) * u.value⌉ ∧ i = ⌈(n : ℚ) * u.value⌉) ∧
    (¬ Amount.InRange ⌈1000 * (n : ℚ) * u.value⌉ →
      ∃ e, q.milli = .error e ∧ q.value = .error e ∧
        (-2 ^ 127 ≤ n → n < 2 ^ 127 →
          e = .outOfRange (String.ofList (s.text ++ ds ++ u.text)))) := by
  have hunits : ceilDiv ⌈1000 * (n : ℚ) * u.value⌉ 1000 = ⌈(n : ℚ) * u.value⌉ := by
    rw [ceilDiv_eq_ceil, ceil_ceil_div _ (by decide)]
    congr 1
    push_cast
    ring
  rcases milli_whole_cases hwritten hds hne hn with ⟨hrange, hok⟩ | ⟨hout, e, herr, hfault⟩
  · have hvalue : q.value = .ok ⌈(n : ℚ) * u.value⌉ := by
      rw [value, hok, ← hunits]
      rfl
    refine ⟨?_, ?_, ?_⟩
    · intro i
      rw [hok, Except.ok.injEq, and_iff_right hrange, eq_comm]
    · intro i
      rw [hvalue, Except.ok.injEq, and_iff_right hrange, eq_comm]
    · intro hout
      exact absurd hrange hout
  · have hvalue : q.value = .error e := by
      rw [value, herr]
      rfl
    refine ⟨?_, ?_, ?_⟩
    · intro i
      rw [herr]
      exact ⟨nofun, fun h => absurd h.1 hout⟩
    · intro i
      rw [hvalue]
      exact ⟨nofun, fun h => absurd h.1 hout⟩
    · intro _
      refine ⟨e, herr, hvalue, ?_⟩
      intro hlow hhigh
      exact hfault (fitsWide_iff.2 ⟨hlow, hhigh⟩)

/-- Also below zero the result is the next whole number above. -/
theorem milli_digits_negative : (⟨" -1500u"⟩ : Quantity).milli = .ok (-1) ∧
    (⟨" -1500u"⟩ : Quantity).value = .ok 0 := by
  have hexact := milli_digits (q := ⟨" -1500u"⟩) (s := .minus) (u := .micro) (n := -1500)
    (by decide : _ = Sign.text .minus ++ ['1', '5', '0', '0'] ++ Suffix.text .micro)
    (by simp [isDigit]) (by decide) (by decide)
  have hmilli : ⌈1000 * ((-1500 : ℤ) : ℚ) * Suffix.micro.value⌉ = -1 :=
    Int.ceil_eq_iff.2 (by norm_num [Suffix.value])
  have hunits : ⌈((-1500 : ℤ) : ℚ) * Suffix.micro.value⌉ = 0 :=
    Int.ceil_eq_iff.2 (by norm_num [Suffix.value])
  rw [hmilli, hunits] at hexact
  exact ⟨(hexact.1 (-1)).2 ⟨by decide, rfl⟩, (hexact.2.1 0).2 ⟨by decide, rfl⟩⟩

end Whole

/-! ## Numbers with a point -/

theorem factor_mul_eq (s : Sign) (x : ℚ) : s.factor * x = if s.isMinus then -x else x := by
  cases s <;> simp [Sign.factor, Sign.isMinus]

theorem abs_factor_mul (s : Sign) (x : ℚ) : |s.factor * x| = |x| := by
  rw [factor_mul_eq]
  split
  · exact abs_neg x
  · rfl

theorem signedValue_eq (s : Sign) (w : ℕ) :
    signedValue s.isMinus w = s.factor * ((w : ℚ) / perOne) := by
  rw [signedValue, factor_mul_eq]
  split
  · rw [neg_div]
  · rfl

theorem abs_le_of_inRange {y : ℚ} (h : Amount.InRange ⌈y⌉) : |y| ≤ 2 ^ 64 := by
  obtain ⟨hleast, hmost⟩ := h
  have hleast' : ((-2 ^ 63 : ℤ) : ℚ) ≤ ⌈y⌉ := by exact_mod_cast hleast
  have hmost' : (⌈y⌉ : ℚ) ≤ (2 ^ 63 - 1 : ℤ) := by exact_mod_cast hmost
  push_cast at hleast' hmost'
  have habove := Int.le_ceil y
  have hbelow := Int.ceil_lt_add_one y
  rw [abs_le]
  constructor
  · linarith
  · linarith

section Point

variable {q : Quantity} {s : Sign} {ds fs : List Char} {u : Suffix} {y : ℚ}

/-- The thousandths without their sign. -/
theorem abs_thousandths (s : Sign) (ds fs : List Char) (u : Suffix) :
    |1000 * decimalValue s ds fs * u.value| =
      (digitsValue (ds ++ fs) : ℚ) / 10 ^ fs.length * u.scale.num * 1000 / u.scale.den := by
  have hsplit : 1000 * decimalValue s ds fs * u.value = s.factor *
      ((digitsValue (ds ++ fs) : ℚ) / 10 ^ fs.length * u.scale.num * 1000 / u.scale.den) := by
    rw [decimalValue, u.value_eq]
    ring
  rw [hsplit, abs_factor_mul, abs_of_nonneg (by positivity)]

theorem thousandths_eq (s : Sign) (ds fs : List Char) (u : Suffix) :
    1000 * decimalValue s ds fs * u.value =
      s.factor * |1000 * decimalValue s ds fs * u.value| := by
  rw [abs_thousandths, decimalValue, u.value_eq]
  ring

/-- The sign does not matter for how far a number is off. -/
theorem abs_signedValue_sub (hy : y = s.factor * |y|) (w : ℕ) :
    |signedValue s.isMinus w - y| = |(w : ℚ) - |y| * perOne| / perOne := by
  have hone := perOne_pos
  have hcommon : (w : ℚ) / perOne - |y| = (w - |y| * perOne) / perOne := by field_simp
  calc |signedValue s.isMinus w - y| = |s.factor * ((w : ℚ) / perOne - |y|)| := by
        rw [signedValue_eq, mul_sub, ← hy]
    _ = |(w : ℚ) - |y| * perOne| / perOne := by
        rw [abs_factor_mul, hcommon, abs_div, abs_of_pos hone]

/-- Before the division a number is larger than its thousandths by the denominator at most. -/
theorem magnitude_limits (u : Suffix) {x : ℚ} (hx : 0 ≤ x)
    (hle : x * u.scale.num * 1000 / u.scale.den ≤ 2 ^ 64) :
    x * u.scale.num ≤ 2 ^ 110 ∧ x ≤ 2 ^ 120 := by
  obtain ⟨hnumpos, hdenpos, -, hden⟩ := u.scale_bounds
  have hnum1 : (1 : ℚ) ≤ u.scale.num := by exact_mod_cast hnumpos
  have hden0 : (0 : ℚ) < u.scale.den := Nat.cast_pos.2 hdenpos
  have hden' : (u.scale.den : ℚ) ≤ 2 ^ 30 := by exact_mod_cast hden
  have hlimit : x * u.scale.num ≤ 2 ^ 110 := by
    rw [div_le_iff₀ hden0] at hle
    linarith
  refine ⟨hlimit, ?_⟩
  calc x = x * 1 := (mul_one x).symm
    _ ≤ x * u.scale.num := mul_le_mul_of_nonneg_left hnum1 hx
    _ ≤ 2 ^ 110 := hlimit
    _ ≤ 2 ^ 120 := by norm_num

/-- An amount of thousandths is scaled to a finite double, which is off by four small parts. -/
theorem exists_scaled (s : Sign) {ds fs : List Char} {u : Suffix}
    (hy : y = 1000 * decimalValue s ds fs * u.value) (hrange : Amount.InRange ⌈y⌉) :
    ∃ v w, Decimal.toBinary64 s.isMinus ⟨digitsValue (ds ++ fs), -fs.length⟩ =
        .finite s.isMinus v ∧
      scaled (.finite s.isMinus v) u.scale = .finite s.isMinus w ∧
      |signedValue s.isMinus w - y| ≤ |y| / 2 ^ 50 + 1 / 2 ^ 150 := by
  have hone := perOne_pos
  obtain ⟨x, hx⟩ : ∃ x : ℚ, x = (digitsValue (ds ++ fs) : ℚ) / 10 ^ fs.length := ⟨_, rfl⟩
  have hx0 : 0 ≤ x := hx ▸ by positivity
  have habs : |y| = x * u.scale.num * 1000 / u.scale.den := by rw [hy, abs_thousandths, hx]
  obtain ⟨hlimit, hread⟩ := magnitude_limits u hx0 (habs ▸ abs_le_of_inRange hrange)
  have hdigits : digitsValue (ds ++ fs) ≤ 2 ^ 120 * 10 ^ fs.length := by
    rw [hx, div_le_iff₀ (by positivity)] at hread
    exact_mod_cast hread
  obtain ⟨v, hv, hoff⟩ := Decimal.toBinary64_off s.isMinus hdigits
  rw [← hx] at hoff
  have hlimit' : x * perOne * u.scale.num ≤ 2 ^ 110 * perOne := by
    rw [mul_right_comm]
    exact mul_le_mul_of_nonneg_right hlimit hone.le
  obtain ⟨w, hw, hoff⟩ := off_scaled u hoff (mul_nonneg hx0 hone.le) hlimit' s.isMinus
  refine ⟨v, w, hv, hw, ?_⟩
  have hexact : x * perOne * u.scale.num * 1000 / u.scale.den = |y| * perOne := by
    rw [habs]
    ring
  rw [hexact] at hoff
  have hfar : (2 : ℚ) ^ 225 ≤ perOne := two_pow_le_perOne (by decide)
  rw [abs_signedValue_sub (by rw [hy]; exact thousandths_eq s ds fs u), div_le_iff₀ hone]
  calc |(w : ℚ) - |y| * perOne| ≤ (4 : ℕ) / 2 ^ 52 * (|y| * perOne) + (2 ^ 75 : ℕ) := hoff
    _ = |y| / 2 ^ 50 * perOne + 1 / 2 ^ 150 * 2 ^ 225 := by
      push_cast
      ring
    _ ≤ |y| / 2 ^ 50 * perOne + 1 / 2 ^ 150 * perOne := by gcongr
    _ = (|y| / 2 ^ 50 + 1 / 2 ^ 150) * perOne := by ring

/-- The thousandths are those of the scaled double, rounded up. -/
theorem milli_of_scaled (hwritten : trim q.text.toList = s.text ++ (ds ++ '.' :: fs) ++ u.text)
    (hds : ∀ c ∈ ds, isDigit c = true) (hfs : ∀ c ∈ fs, isDigit c = true) (hne : ds ++ fs ≠ [])
    {v w : ℕ} (hread : Decimal.toBinary64 s.isMinus ⟨digitsValue (ds ++ fs), -fs.length⟩ =
      .finite s.isMinus v)
    (hscaled : scaled (.finite s.isMinus v) u.scale = .finite s.isMinus w) :
    q.milli =
      if Amount.InRange ⌈signedValue s.isMinus w⌉ then .ok ⌈signedValue s.isMinus w⌉
      else .error (.outOfRange (String.ofList (s.text ++ (ds ++ '.' :: fs) ++ u.text))) := by
  have hunread : ∀ i, Decimal.readInt? (s.text ++ (ds ++ '.' :: fs)) = some i →
      fitsWide i = false := by
    intro i hi
    rw [readInt?_point s hds fs] at hi
    cases hi
  have hfinite : (Binary64.finite s.isMinus v).isFinite = true := rfl
  rw [milli_of_double (endsNumber_point s ds hfs) hwritten hunread (read?_point s hds hfs hne),
    hread, if_pos hfinite, bounded_doubleMilli? hscaled]

theorem eq_rounded {neg : Bool} {num den w : ℕ} (h : round neg num den = .finite neg w) :
    w = rounded num den := by
  rw [round_eq] at h
  split at h
  · cases h
    rfl
  · cases h

section Fraction

variable {n den b rest : ℕ}

/-- The rounding of a fraction with a small numerator is off by less than a part of the denominator. -/
theorem rounded_fraction_near (hy : y = s.factor * |y|)
    (habs : |y| = (n : ℚ) / (2 ^ b * den : ℕ)) (hn : n < 2 ^ 53) (hden : 0 < den)
    (hden' : den ≤ 2 ^ 30) (hb : b ≤ 1000) (hunits : unitsPerOne = 2 ^ (b + rest)) :
    |signedValue s.isMinus (rounded (n * 2 ^ rest * unitsPerOne) (den * unitsPerOne)) - y| <
      1 / (2 ^ b * den : ℕ) := by
  have hone := perOne_pos
  have hd : (0 : ℚ) < (2 ^ b * den : ℕ) := Nat.cast_pos.2 (Nat.mul_pos (Nat.two_pow_pos b) hden)
  have hquotient : ((n * 2 ^ rest * unitsPerOne : ℕ) : ℚ) / ((den * unitsPerOne : ℕ) : ℚ) =
      |y| * perOne := by
    have hden0 : (den : ℚ) ≠ 0 := Nat.cast_ne_zero.2 hden.ne'
    rw [div_whole_value, habs, perOne_eq, hunits]
    push_cast
    rw [pow_add]
    field_simp
  have herror := rounded_error (n * 2 ^ rest * unitsPerOne) (Nat.mul_pos hden unitsPerOne_pos)
  rw [hquotient] at herror
  have hsmall : |y| * epsilon < 1 / (2 ^ b * den : ℕ) := by
    have hn' : (n : ℚ) < 2 ^ 53 := by exact_mod_cast hn
    rw [habs, epsilon, div_mul_div_comm, mul_one, div_lt_div_iff₀ (mul_pos hd (by norm_num)) hd]
    linarith [mul_lt_mul_of_pos_right hn' hd]
  have htiny : 1 / 2 < 1 / ((2 ^ b * den : ℕ) : ℚ) * perOne := by
    have hpow : 2 ^ b * den ≤ 2 ^ (b + 30) := by
      rw [Nat.pow_add]
      exact Nat.mul_le_mul_left _ hden'
    have hle : ((2 ^ b * den : ℕ) : ℚ) ≤ perOne := by
      refine le_trans ?_ (two_pow_le_perOne (k := b + 30) (by omega))
      exact_mod_cast hpow
    rw [div_mul_eq_mul_div, one_mul]
    exact lt_of_lt_of_le (by norm_num) ((one_le_div hd).2 hle)
  rw [abs_signedValue_sub hy, div_lt_iff₀ hone]
  refine herror.trans_lt (max_lt htiny ?_)
  rw [mul_right_comm]
  exact mul_lt_mul_of_pos_right hsmall hone

/-- A fraction that is a whole number is not rounded. -/
theorem rounded_fraction_whole {j : ℕ} (hnj : n = j * (2 ^ b * den)) (hn : n < 2 ^ 53)
    (hden : 0 < den) (hunits : unitsPerOne = 2 ^ (b + rest)) :
    rounded (n * 2 ^ rest * unitsPerOne) (den * unitsPerOne) = j * unitsPerOne := by
  have hpart : 0 < den * unitsPerOne := Nat.mul_pos hden unitsPerOne_pos
  have hd : 0 < 2 ^ b * den := Nat.mul_pos (Nat.two_pow_pos b) hden
  have hfew : j ≤ 2 ^ 53 := (Nat.le_mul_of_pos_right j hd).trans (hnj ▸ hn.le)
  rw [hunits] at hpart ⊢
  apply rounded_exact hpart ?_ hfew
  rw [hnj, pow_add]
  ring

/-- So it rounds up as the fraction does. -/
theorem ceil_rounded_fraction (hy : y = s.factor * |y|)
    (habs : |y| = (n : ℚ) / (2 ^ b * den : ℕ)) (hn : n < 2 ^ 53) (hden : 0 < den)
    (hden' : den ≤ 2 ^ 30) (hb : b ≤ 1000) (hunits : unitsPerOne = 2 ^ (b + rest)) :
    ⌈signedValue s.isMinus (rounded (n * 2 ^ rest * unitsPerOne) (den * unitsPerOne))⌉ = ⌈y⌉ := by
  have hd : 0 < 2 ^ b * den := Nat.mul_pos (Nat.two_pow_pos b) hden
  by_cases hwhole : ∃ j : ℕ, |y| = j
  · obtain ⟨j, hj⟩ := hwhole
    have hnj : n = j * (2 ^ b * den) := by
      rw [hj, eq_comm, div_eq_iff (Nat.cast_ne_zero.2 hd.ne')] at habs
      exact_mod_cast habs
    have hvalue : ((j * unitsPerOne : ℕ) : ℚ) / perOne = j := by
      rw [Nat.cast_mul, ← perOne_eq, mul_div_cancel_right₀ _ perOne_pos.ne']
    rw [rounded_fraction_whole hnj hn hden hunits, signedValue_eq, hvalue, ← hj, ← hy]
  · have hfraction : y = (s.factor * n : ℤ) / (2 ^ b * den : ℕ) := by
      rw [hy, habs]
      push_cast
      ring
    have hnear := rounded_fraction_near hy habs hn hden hden' hb hunits
    apply ceil_eq_of_far
    intro k
    refine hnear.trans_le ?_
    rw [hfraction]
    apply fraction_far hd
    intro hk
    apply hwhole
    exact ⟨k.natAbs, by rw [hfraction, hk, Nat.cast_natAbs, Int.cast_abs]⟩

end Fraction

/-- A number of few binary places is rounded in the division only, and to no other whole number. -/
theorem ceil_of_few_places {a b : ℕ} (hb : b ≤ 1000)
    (hx : |decimalValue s ds fs| = a / 2 ^ b) (ha : 1000 * a * u.scale.num < 2 ^ 53)
    (hy : y = 1000 * decimalValue s ds fs * u.value) {v w : ℕ}
    (hread : Decimal.toBinary64 s.isMinus ⟨digitsValue (ds ++ fs), -fs.length⟩ =
      .finite s.isMinus v)
    (hscaled : scaled (.finite s.isMinus v) u.scale = .finite s.isMinus w) :
    ⌈signedValue s.isMinus w⌉ = ⌈y⌉ := by
  obtain ⟨hnumpos, hdenpos, -, hden⟩ := u.scale_bounds
  have hfew : a ≤ 2 ^ 53 := by
    have := Nat.le_mul_of_pos_right (1000 * a) hnumpos
    omega
  have hvalue : digitsValue (ds ++ fs) * 2 ^ b = a * 10 ^ fs.length := by
    rw [decimalValue, mul_div_assoc, abs_factor_mul, abs_of_nonneg (by positivity),
      div_eq_div_iff (by positivity) (by positivity)] at hx
    exact_mod_cast hx
  obtain ⟨one, hunits, hleast, -⟩ := exists_places
  obtain ⟨rest, rfl⟩ := Nat.exists_eq_add_of_le ((hb.trans (by decide)).trans hleast)
  have hrest : 2 ^ rest ≤ unitsPerOne := by
    rw [hunits]
    exact Nat.pow_le_pow_right (by decide) (Nat.le_add_left _ _)
  obtain rfl : v = a * 2 ^ rest := by
    have hv := hread.symm.trans (Decimal.toBinary64_exact s.isMinus hvalue hfew hunits)
    exact (Binary64.finite.inj hv).2
  rw [scaled_exact u ha.le hrest] at hscaled
  obtain rfl := eq_rounded hscaled
  have habs : |y| = ((1000 * a * u.scale.num : ℕ) : ℚ) / (2 ^ b * u.scale.den : ℕ) := by
    rw [hy, abs_mul, abs_mul, hx, u.value_eq, abs_of_pos (by norm_num : (0 : ℚ) < 1000),
      abs_of_nonneg (by positivity : (0 : ℚ) ≤ u.scale.num / u.scale.den)]
    push_cast
    field_simp
  have hsigned : y = s.factor * |y| := by
    rw [hy]
    exact thousandths_eq s ds fs u
  exact ceil_rounded_fraction hsigned habs ha hdenpos hden hb hunits

/-- NUMBERS WITH A POINT are scaled as doubles: the thousandths are those of a number that is off by
four parts in `2 ^ 52`, and by next to nothing near zero, rounded up. So they are those of the exact
number where no whole number is as close to it, and also where the number is a fraction of few binary
places. A whole number of thousandths may come out as the next one, and no more than that. -/
theorem milli_point (hwritten : trim q.text.toList = s.text ++ (ds ++ '.' :: fs) ++ u.text)
    (hds : ∀ c ∈ ds, isDigit c = true) (hfs : ∀ c ∈ fs, isDigit c = true) (hne : ds ++ fs ≠ [])
    (hy : y = 1000 * decimalValue s ds fs * u.value) (hrange : Amount.InRange ⌈y⌉) :
    (∃ z : ℚ, |z - y| ≤ |y| / 2 ^ 50 + 1 / 2 ^ 150 ∧
      q.milli = if Amount.InRange ⌈z⌉ then .ok ⌈z⌉
        else .error (.outOfRange (String.ofList (s.text ++ (ds ++ '.' :: fs) ++ u.text)))) ∧
    ((∀ k : ℤ, |y| / 2 ^ 50 + 1 / 2 ^ 150 < |k - y|) → q.milli = .ok ⌈y⌉) ∧
    (∀ a b : ℕ, b ≤ 1000 → |decimalValue s ds fs| = a / 2 ^ b → 1000 * a * u.scale.num < 2 ^ 53 →
      q.milli = .ok ⌈y⌉) ∧
    (∀ i : ℤ, y = i → |i| < 2 ^ 49 → q.milli = .ok i ∨ q.milli = .ok (i + 1)) := by
  obtain ⟨v, w, hread, hscaled, herror⟩ := exists_scaled s hy hrange
  have hmilli := milli_of_scaled hwritten hds hfs hne hread hscaled
  refine ⟨⟨_, herror, hmilli⟩, ?_, ?_, ?_⟩
  · intro hfar
    have hceil : ⌈signedValue s.isMinus w⌉ = ⌈y⌉ := by
      apply ceil_eq_of_far
      intro k
      exact herror.trans_lt (hfar k)
    rw [hmilli, hceil, if_pos hrange]
  · intro a b hb hx ha
    rw [hmilli, ceil_of_few_places hb hx ha hy hread hscaled, if_pos hrange]
  · intro i hi hsmall
    have hsmall' : |y| < 2 ^ 49 := by
      rw [hi]
      exact_mod_cast hsmall
    have hnear : |signedValue s.isMinus w - i| < 1 := by
      have htiny : (1 : ℚ) / 2 ^ 150 < 1 / 2 := by norm_num
      rw [← hi]
      exact herror.trans_lt (by linarith)
    have hceil := ceil_near_whole hnear
    have hamount : Amount.InRange ⌈signedValue s.isMinus w⌉ := by
      obtain ⟨hlow, hhigh⟩ := abs_lt.1 hsmall
      unfold Amount.InRange Amount.least Amount.greatest
      omega
    rw [hmilli, if_pos hamount]
    rcases hceil with h | h
    · left
      rw [h]
    · right
      rw [h]

/-- One and a half, in units of 1024. -/
theorem milli_point_half : (⟨"1.5Ki"⟩ : Quantity).milli = .ok 1536000 := by
  have hdigits : digitsValue (['1'] ++ ['5']) = 15 := by decide
  have hx : decimalValue .absent ['1'] ['5'] = 3 / 2 := by
    rw [decimalValue, hdigits]
    norm_num [Sign.factor]
  have hceil : ⌈1000 * decimalValue .absent ['1'] ['5'] * Suffix.kibi.value⌉ = 1536000 := by
    rw [hx]
    exact Int.ceil_eq_iff.2 (by norm_num [Suffix.value])
  have hexact := (milli_point (q := ⟨"1.5Ki"⟩) (s := .absent) (u := .kibi)
    (by decide : _ = Sign.text .absent ++ (['1'] ++ '.' :: ['5']) ++ Suffix.text .kibi)
    (by simp [isDigit]) (by simp [isDigit]) (by decide) rfl (by rw [hceil]; decide)).2.2.1
  rw [hceil] at hexact
  exact hexact 3 1 (by decide) (by rw [hx]; norm_num) (by decide)

/-- The thousandths of a number with a point are not always the exact ones: two and seven thousandths
are one too many, though they are a whole number of thousandths. And the same whole number with a point
after it may give others. -/
theorem not_milli_exact :
    (¬ ∀ (q : Quantity) (s : Sign) (ds fs : List Char) (u : Suffix),
      trim q.text.toList = s.text ++ (ds ++ '.' :: fs) ++ u.text →
      (∀ c ∈ ds, isDigit c = true) → (∀ c ∈ fs, isDigit c = true) → ds ≠ [] → fs ≠ [] →
      Amount.InRange ⌈1000 * decimalValue s ds fs * u.value⌉ →
      q.milli = .ok ⌈1000 * decimalValue s ds fs * u.value⌉) ∧
    (⟨"2.007"⟩ : Quantity).milli = .ok 2008 ∧
    (⟨"9007199254740993"⟩ : Quantity).milli = .ok 9007199254740993000 ∧
    (⟨"9007199254740993.0"⟩ : Quantity).milli = .ok 9007199254740992000 := by
  have hmilli : (⟨"2.007"⟩ : Quantity).milli = .ok 2008 := by decide +kernel
  refine ⟨fun hclaim => ?_, hmilli, by decide +kernel, by decide +kernel⟩
  have hdigits : digitsValue (['2'] ++ ['0', '0', '7']) = 2007 := by decide
  have hceil : ⌈1000 * decimalValue .absent ['2'] ['0', '0', '7'] * Suffix.one.value⌉ = 2007 := by
    rw [decimalValue, hdigits]
    exact Int.ceil_eq_iff.2 (by norm_num [Sign.factor, Suffix.value])
  have hexact := hclaim ⟨"2.007"⟩ .absent ['2'] ['0', '0', '7'] .one (by decide)
    (by simp [isDigit]) (by simp [isDigit]) (by decide) (by decide) (by rw [hceil]; decide)
  rw [hceil, hmilli] at hexact
  exact absurd hexact (by decide)

end Point

end Quantity

end Chargeback
