import Chargeback.Number.Amount
import Chargeback.Record.Basic
import Mathlib.Algebra.BigOperators.Group.List.Basic
import Mathlib.Algebra.Ring.Int.Defs
import Mathlib.Data.List.Infix

/-!
# Sums of cost under a key

What a list of records says about one key: the records of that key in their order, their
amounts, and the sum of these. The sum is the EXACT one, an integer without bounds; `total`
is the sum that the program makes, which stops at the ends of the range after every addition.
The two agree as long as no partial sum leaves the range (`total_eq_sum`).
-/

namespace Chargeback

namespace Amount

/-! ## Sums that stop at the ends of the range -/

/-- The sum of amounts from left to right, stopped at the ends of the range after every
addition. It starts from the first amount. -/
def total : List Int → Int
  | [] => 0
  | v :: vs => vs.foldl add v

/-- No partial sum leaves the range. -/
def Exact (vs : List Int) : Prop := ∀ ws, ws <+: vs → InRange ws.sum

instance (vs : List Int) : Decidable (Exact vs) :=
  decidable_of_iff (∀ ws ∈ vs.inits, InRange ws.sum) (by simp [Exact, List.mem_inits])

theorem total_singleton (v : Int) : total [v] = v := rfl

theorem total_concat {vs : List Int} (h : vs ≠ []) (v : Int) :
    total (vs ++ [v]) = add (total vs) v := by
  cases vs with
  | nil => exact absurd rfl h
  | cons w ws => simp [total, List.foldl_append]

theorem Exact.of_concat {vs : List Int} {v : Int} (h : Exact (vs ++ [v])) :
    Exact vs ∧ InRange (vs.sum + v) := by
  refine ⟨fun ws hws => h ws (hws.trans (List.prefix_append _ _)), ?_⟩
  simpa using h (vs ++ [v]) (List.prefix_refl _)

theorem total_eq_sum {vs : List Int} (h : Exact vs) : total vs = vs.sum := by
  induction vs using List.reverseRecOn with
  | nil => rfl
  | append_singleton vs v ih =>
      obtain ⟨hvs, hv⟩ := h.of_concat
      by_cases hnil : vs = []
      · subst hnil
        simp [total_singleton]
      · rw [total_concat hnil, ih hvs, add, clamp_of_inRange hv]
        simp

end Amount

namespace CostKey

/-! ## The records of one key -/

/-- The records of a key, in their order. -/
def within (k : CostKey) (rs : List CostRecord) : List CostRecord := rs.filter (·.key = k)

/-- The amounts under a key, in their order. -/
def amounts (k : CostKey) (rs : List CostRecord) : List Int := (k.within rs).map (·.value)

/-- The exact sum of the amounts under a key. -/
def sumOf (k : CostKey) (rs : List CostRecord) : Int := (k.amounts rs).sum

variable {k : CostKey} {rs : List CostRecord}

theorem within_eq_nil : k.within rs = [] ↔ k ∉ rs.map CostRecord.key := by
  simp [within, List.filter_eq_nil_iff]

theorem within_concat_self (r : CostRecord) (rs : List CostRecord) :
    r.key.within (rs ++ [r]) = r.key.within rs ++ [r] := by
  simp [within]

theorem within_concat_of_ne {r : CostRecord} (h : r.key ≠ k) :
    k.within (rs ++ [r]) = k.within rs := by
  simp [within, h]

theorem amounts_concat_self (r : CostRecord) (rs : List CostRecord) :
    r.key.amounts (rs ++ [r]) = r.key.amounts rs ++ [r.value] := by
  simp [amounts, within_concat_self]

theorem amounts_eq_nil : k.amounts rs = [] ↔ k ∉ rs.map CostRecord.key := by
  rw [amounts, List.map_eq_nil_iff, within_eq_nil]

/-- With distinct keys a key has the one record only. -/
theorem within_of_mem (hnd : (rs.map CostRecord.key).Nodup) {r : CostRecord} (hr : r ∈ rs) :
    r.key.within rs = [r] := by
  induction rs with
  | nil => cases hr
  | cons x xs ih =>
      rw [List.map_cons, List.nodup_cons] at hnd
      rcases List.mem_cons.1 hr with rfl | hr
      · have hrest : r.key.within xs = [] := within_eq_nil.2 hnd.1
        simpa [within] using hrest
      · have hne : x.key ≠ r.key := fun h => hnd.1 (h ▸ List.mem_map_of_mem hr)
        simpa [within, hne] using ih hnd.2 hr

/-! ## The sum under a key -/

@[simp] theorem sumOf_nil (k : CostKey) : k.sumOf [] = 0 := rfl

@[simp] theorem sumOf_append (k : CostKey) (rs ss : List CostRecord) :
    k.sumOf (rs ++ ss) = k.sumOf rs + k.sumOf ss := by
  simp [sumOf, amounts, within]

theorem sumOf_eq_of_perm (k : CostKey) {rs ss : List CostRecord} (h : rs.Perm ss) :
    k.sumOf rs = k.sumOf ss :=
  ((h.filter _).map _).sum_eq

theorem sumOf_eq_zero (h : k ∉ rs.map CostRecord.key) : k.sumOf rs = 0 := by
  rw [sumOf, amounts_eq_nil.2 h, List.sum_nil]

theorem sumOf_of_mem (hnd : (rs.map CostRecord.key).Nodup) {r : CostRecord} (hr : r ∈ rs) :
    r.key.sumOf rs = r.value := by
  simp [sumOf, amounts, within_of_mem hnd hr]

end CostKey

end Chargeback
