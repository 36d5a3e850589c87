import Chargeback.Metric.Metrics
import Mathlib.Algebra.BigOperators.Group.List.Basic
import Mathlib.Algebra.Order.Ring.Nat

/-!
# Counting in double precision

The counters of the process are double-precision numbers, so what a counter says is exact as long
as it stays within fifty-three binary places, and no longer: from there on a one more is rounded
away. A statement about a counter therefore says by which whole numbers it was raised, one after
the other, and what these add up to (`GrownBy`); up to `2 ^ 53` the counter is that sum
(`GrownBy.exact`).
-/

namespace Chargeback

namespace Binary64

/-! ## Whole numbers -/

/-- A magnitude that keeps to the distance of the doubles around it needs no rounding. -/
theorem round_of_dvd {neg : Bool} {u : Nat} (hstep : spacing u ∣ u) (hfinite : u < overflowUnits) :
    round neg u 1 = .finite neg u := by
  obtain ⟨q, hq⟩ := hstep
  have hpos : 0 < spacing u := Nat.two_pow_pos _
  have hmod : u % spacing u = 0 := Nat.mod_eq_zero_of_dvd ⟨q, hq⟩
  have hnearest : nearest u (1 * spacing u) = u / spacing u := by
    simp [nearest, hmod, hpos]
  have hback : u / spacing u * spacing u = u := Nat.div_mul_cancel ⟨q, hq⟩
  simp only [round, Nat.div_one, hnearest, hback, if_pos hfinite]

/-- A whole number up to `2 ^ 53` with some binary places more has fifty-three of them but for
zeros. -/
theorem two_pow_log2_dvd {n : Nat} (h : n ≤ 2 ^ 53) (places : Nat) :
    2 ^ ((n * 2 ^ places).log2 - 52) ∣ n * 2 ^ places := by
  rcases Nat.lt_or_eq_of_le h with hlt | rfl
  · have hlog : (n * 2 ^ places).log2 - 52 ≤ places := by
      by_cases hzero : n * 2 ^ places = 0
      · rw [hzero, Nat.log2_zero]
        omega
      · have hbound : n * 2 ^ places < 2 ^ (53 + places) := by
          rw [Nat.pow_add]
          exact Nat.mul_lt_mul_of_pos_right hlt (Nat.two_pow_pos _)
        have hlog := (Nat.log2_lt hzero).2 hbound
        omega
    exact (Nat.pow_dvd_pow 2 hlog).trans (Nat.dvd_mul_left _ _)
  · rw [← Nat.pow_add, Nat.log2_two_pow]
    exact Nat.pow_dvd_pow 2 (by omega)

theorem mul_two_pow_lt {n : Nat} (h : n ≤ 2 ^ 53) {places more : Nat} (hmore : 53 + places < more) :
    n * 2 ^ places < 2 ^ more := by
  calc n * 2 ^ places ≤ 2 ^ 53 * 2 ^ places := Nat.mul_le_mul_right _ h
    _ = 2 ^ (53 + places) := (Nat.pow_add 2 53 places).symm
    _ < 2 ^ more := Nat.pow_lt_pow_right (by decide) hmore

theorem round_whole {n : Nat} (h : n ≤ 2 ^ 53) :
    round false (n * unitsPerOne) 1 = .finite false (n * unitsPerOne) := by
  -- The exponents are given names so that nothing computes with the powers.
  obtain ⟨places, limit, hunits, hlimit, hroom⟩ : ∃ places limit,
      unitsPerOne = 2 ^ places ∧ overflowUnits = 2 ^ limit ∧ 53 + places < limit :=
    ⟨1074, 2098, rfl, rfl, by decide⟩
  rw [hunits]
  apply round_of_dvd
  · exact two_pow_log2_dvd h places
  · rw [hlimit]
    exact mul_two_pow_lt h hroom

/-- A whole number up to `2 ^ 53` is a double. -/
theorem ofNat_eq {n : Nat} (h : n ≤ 2 ^ 53) : ofNat n = .finite false (n * unitsPerOne) := by
  have hsign : decide ((n : Int) < 0) = false := by simp
  show round (decide ((n : Int) < 0)) (n * unitsPerOne) 1 = _
  rw [hsign, round_whole h]

theorem finite_add_finite (neg : Bool) (u v : Nat) :
    finite neg u + finite neg v = round neg (u + v) 1 := by
  show (if neg == neg then round neg (u + v) 1 else _) = _
  rw [if_pos (beq_self_eq_true neg)]

/-- Up to `2 ^ 53` whole numbers are added exactly. -/
theorem ofNat_add_ofNat {m n : Nat} (h : m + n ≤ 2 ^ 53) : ofNat m + ofNat n = ofNat (m + n) := by
  rw [ofNat_eq (n := m) (by omega), ofNat_eq (n := n) (by omega), ofNat_eq h,
    finite_add_finite, ← Nat.add_mul, round_whole h]

end Binary64

/-! ## Counters -/

/-- A counter was raised by whole numbers with some sum, one after the other. -/
def GrownBy (n : Nat) (x y : Binary64) : Prop :=
  ∃ ns : List Nat, ns.sum = n ∧ y = ns.foldl (fun x k => x + Binary64.ofNat k) x

namespace GrownBy

variable {m n : Nat} {x y z : Binary64}

theorem refl (x : Binary64) : GrownBy 0 x x := ⟨[], rfl, rfl⟩

theorem raise (x : Binary64) (n : Nat) : GrownBy n x (x + Binary64.ofNat n) :=
  ⟨[n], List.sum_singleton, rfl⟩

theorem trans (h : GrownBy m x y) (h' : GrownBy n y z) : GrownBy (m + n) x z := by
  obtain ⟨ms, rfl, rfl⟩ := h
  obtain ⟨ns, rfl, rfl⟩ := h'
  exact ⟨ms ++ ns, List.sum_append, List.foldl_append.symm⟩

/-- A counter that each of some steps raises by one is raised by their number, while all of them keep
what every step keeps. -/
theorem foldl {σ α : Type} {f : σ → α → σ} {P : σ → Prop} (counter : σ → Binary64)
    (hstep : ∀ s a, P s → P (f s a) ∧ GrownBy 1 (counter s) (counter (f s a))) {s : σ} (hs : P s)
    (as : List α) :
    P (as.foldl f s) ∧ GrownBy as.length (counter s) (counter (as.foldl f s)) := by
  induction as generalizing s with
  | nil => exact ⟨hs, .refl _⟩
  | cons a as ih =>
      obtain ⟨hnext, hfirst⟩ := hstep s a hs
      obtain ⟨hlast, hothers⟩ := ih hnext
      rw [List.length_cons, Nat.add_comm]
      exact ⟨hlast, hfirst.trans hothers⟩

/-- Up to `2 ^ 53` a counter is exact. -/
theorem exact {k : Nat} (h : GrownBy n (.ofNat k) y) (hbound : k + n ≤ 2 ^ 53) :
    y = .ofNat (k + n) := by
  obtain ⟨ns, rfl, rfl⟩ := h
  induction ns generalizing k with
  | nil => rw [List.foldl_nil, List.sum_nil, Nat.add_zero]
  | cons m ns ih =>
      rw [List.sum_cons] at hbound
      rw [List.foldl_cons, Binary64.ofNat_add_ofNat (by omega), ih (by omega), List.sum_cons,
        Nat.add_assoc]

end GrownBy

/-! ## Tallies -/

namespace Tally

variable {label other : String} {t : Tally}

theorem read_put (v : Binary64) : Tally.read label (t.put other v) =
    if label = other then v else t.read label := by
  rw [read, Assoc.get?_put]
  split
  · rfl
  · rfl

@[simp] theorem read_addCount_self (label : String) (n : Nat) (t : Tally) :
    (t.addCount label n).read label = t.read label + Binary64.ofNat n := by
  rw [addCount, add, read_put, if_pos rfl]

/-- Counting under one label value leaves the others alone. -/
theorem read_addCount_of_ne (h : other ≠ label) (n : Nat) :
    (t.addCount label n).read other = t.read other := by
  rw [addCount, add, read_put, if_neg h]

end Tally

end Chargeback
