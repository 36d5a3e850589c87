import Chargeback.Proofs.Counting
import Chargeback.Proofs.LastEntries
import Mathlib.Algebra.Order.BigOperators.Group.List
import Mathlib.Algebra.Ring.Int.Defs

/-!
# What a cost counter tells

A counter that records are added to one by one has one series for each combination of label values
among them, and the series says what the amounts of its records add up to, exactly as long as that is
below `2 ^ 53` (`Tells`). That leaves only the order of the series open, and what is published is sorted,
so of two counters that tell the same the same series are published (`costSeries_eq`).
-/

namespace Chargeback

/-! ## Tables of numbers under texts -/

section Tables

variable {κ α : Type} [BEq κ] [LawfulBEq κ] {k : κ} {v : α} {l : List (κ × α)}

theorem lookup_cons_of_ne {e : κ × α} (h : k ≠ e.1) (l : List (κ × α)) :
    (e :: l).lookup k = l.lookup k := by
  rw [List.lookup_cons, beq_eq_false_iff_ne.2 h]

/-- With distinct keys what is found under a key is what stands under it. -/
theorem lookup_eq_some_of_nodup (hkeys : (l.map Prod.fst).Nodup) :
    l.lookup k = some v ↔ (k, v) ∈ l := by
  constructor
  · intro h
    obtain ⟨before, after, rfl, -⟩ := List.lookup_eq_some_iff.1 h
    exact List.mem_append_right _ List.mem_cons_self
  · intro h
    obtain ⟨before, after, rfl⟩ := List.append_of_mem h
    refine List.lookup_eq_some_iff.2 ⟨before, after, rfl, fun e he => ?_⟩
    rw [List.map_append, List.map_cons, List.nodup_append] at hkeys
    simpa using Ne.symm (hkeys.2.2 e.1 (List.mem_map_of_mem he) k List.mem_cons_self)

/-- Two tables with distinct keys in which the same is found have the same entries. -/
theorem perm_of_lookup_eq {l' : List (κ × α)} (hkeys : (l.map Prod.fst).Nodup)
    (hkeys' : (l'.map Prod.fst).Nodup) (h : ∀ k, l.lookup k = l'.lookup k) : l.Perm l' := by
  rw [List.perm_ext_iff_of_nodup hkeys.of_map hkeys'.of_map]
  rintro ⟨k, v⟩
  rw [← lookup_eq_some_of_nodup hkeys, h, lookup_eq_some_of_nodup hkeys']

end Tables

namespace CostCounter

variable {c d : CostCounter} {r : CostRecord} {rs ss : List CostRecord} {values : List String}

/-! ## Adding to a series -/

/-- What is added to a series is added to what it was found to have, or to zero. -/
theorem lookup_bump_self (values : List String) (x : Binary64)
    (series : List (List String × Binary64)) :
    (bump values x series).lookup values = some ((series.lookup values).getD .zero + x) := by
  induction series with
  | nil => exact List.lookup_cons_self
  | cons s series ih =>
      by_cases hs : s.1 = values
      · subst hs
        rw [bump, if_pos rfl, List.lookup_cons_self, List.lookup_cons_self, Option.getD_some]
      · rw [bump, if_neg hs, lookup_cons_of_ne (Ne.symm hs), lookup_cons_of_ne (Ne.symm hs), ih]

/-- Other series are left alone. -/
theorem lookup_bump_of_ne {values others : List String} (h : others ≠ values) (x : Binary64)
    (series : List (List String × Binary64)) :
    (bump values x series).lookup others = series.lookup others := by
  induction series with
  | nil => exact lookup_cons_of_ne h []
  | cons s series ih =>
      by_cases hs : s.1 = values
      · rw [bump, if_pos hs, lookup_cons_of_ne h, lookup_cons_of_ne (hs ▸ h)]
      · rw [bump, if_neg hs]
        by_cases hother : others = s.1
        · subst hother
          rw [List.lookup_cons_self, List.lookup_cons_self]
        · rw [lookup_cons_of_ne hother, lookup_cons_of_ne hother, ih]

theorem keys_bump (values : List String) (x : Binary64) (series : List (List String × Binary64)) :
    (bump values x series).map Prod.fst =
      if values ∈ series.map Prod.fst then series.map Prod.fst
      else series.map Prod.fst ++ [values] := by
  induction series with
  | nil => simp [bump]
  | cons s series ih =>
      by_cases hs : s.1 = values
      · simp [bump, hs]
      · by_cases h : values ∈ series.map Prod.fst
        · simp_all [bump]
        · simp_all [bump, Ne.symm hs]

theorem nodup_keys_bump {series : List (List String × Binary64)}
    (h : (series.map Prod.fst).Nodup) (values : List String) (x : Binary64) :
    ((bump values x series).map Prod.fst).Nodup := by
  rw [keys_bump]
  split
  · exact h
  next hnew => exact List.nodup_append_comm.1 (List.nodup_cons.2 ⟨hnew, h⟩)

/-! ## Totals -/

/-- What the amounts of the records with the label values given add up to. -/
def totalOf (c : CostCounter) (values : List String) (rs : List CostRecord) : Int :=
  ((rs.filter (c.labelValues · = values)).map (·.value)).sum

/-- The records can be counted: none is negative, and the total of every series is below `2 ^ 53`. -/
structure Countable (c : CostCounter) (rs : List CostRecord) : Prop where
  nonneg : ∀ r ∈ rs, 0 ≤ r.value
  total_lt : ∀ values, c.totalOf values rs < 2 ^ 53

theorem totalOf_concat (c : CostCounter) (values : List String) (rs : List CostRecord)
    (r : CostRecord) :
    c.totalOf values (rs ++ [r]) =
      c.totalOf values rs + if c.labelValues r = values then r.value else 0 := by
  by_cases h : c.labelValues r = values <;> simp [totalOf, h]

theorem totalOf_eq_zero (h : values ∉ rs.map c.labelValues) : c.totalOf values rs = 0 := by
  have hnone : rs.filter (c.labelValues · = values) = [] := by
    rw [List.filter_eq_nil_iff]
    intro r hr hvalues
    exact h (of_decide_eq_true hvalues ▸ List.mem_map_of_mem hr)
  rw [totalOf, hnone, List.map_nil, List.sum_nil]

theorem totalOf_nonneg (h : ∀ r ∈ rs, 0 ≤ r.value) (values : List String) :
    0 ≤ c.totalOf values rs := by
  apply List.sum_nonneg
  rw [List.forall_mem_map]
  intro r hr
  exact h r (List.mem_of_mem_filter hr)

theorem totalOf_le (hnonneg : ∀ r ∈ ss, 0 ≤ r.value) (h : rs.Sublist ss) (values : List String) :
    c.totalOf values rs ≤ c.totalOf values ss := by
  apply ((h.filter _).map _).sum_le_sum
  rw [List.forall_mem_map]
  intro r hr
  exact hnonneg r (List.mem_of_mem_filter hr)

theorem Countable.of_sublist (h : c.Countable ss) (hsub : rs.Sublist ss) : c.Countable rs where
  nonneg r hr := h.nonneg r (hsub.subset hr)
  total_lt values := (totalOf_le h.nonneg hsub values).trans_lt (h.total_lt values)

/-- Records that add up to less than `2 ^ 53` can be counted. -/
theorem countable_of_sum_lt (hnonneg : ∀ r ∈ rs, 0 ≤ r.value)
    (hsum : (rs.map (·.value)).sum < 2 ^ 53) : c.Countable rs := by
  refine ⟨hnonneg, fun values => lt_of_le_of_lt ?_ hsum⟩
  apply (List.filter_sublist.map _).sum_le_sum
  rw [List.forall_mem_map]
  exact hnonneg

/-- Records with the same totals as others that can be counted can be counted as well. -/
theorem Countable.of_totalOf_eq (h : c.Countable rs) (hnonneg : ∀ r ∈ ss, 0 ≤ r.value)
    (htotal : ∀ values, c.totalOf values ss = c.totalOf values rs) : c.Countable ss :=
  ⟨hnonneg, fun values => htotal values ▸ h.total_lt values⟩

/-! ## A counter and its records -/

/-- The counter has one series for each combination of label values among the records, with what their
amounts add up to. -/
structure Tells (c : CostCounter) (rs : List CostRecord) : Prop where
  distinct : (c.series.map Prod.fst).Nodup
  lookup : ∀ values, c.series.lookup values =
    if values ∈ rs.map c.labelValues then some (Binary64.ofInt (c.totalOf values rs)) else none

theorem Tells.nil (h : c.series = []) : c.Tells [] := by
  constructor <;> simp [h]

theorem ofInt_zero : Binary64.ofInt 0 = .zero := by
  show Binary64.ofNat 0 = _
  rw [Binary64.ofNat_eq (Nat.zero_le _), Nat.zero_mul, Binary64.zero]

/-- Two amounts that are not negative are added exactly if the sum is below `2 ^ 53`. -/
theorem ofInt_add_ofInt {i j : Int} (hi : 0 ≤ i) (hj : 0 ≤ j) (h : i + j < 2 ^ 53) :
    Binary64.ofInt i + Binary64.ofInt j = Binary64.ofInt (i + j) := by
  obtain ⟨m, rfl⟩ := Int.eq_ofNat_of_zero_le hi
  obtain ⟨n, rfl⟩ := Int.eq_ofNat_of_zero_le hj
  exact Binary64.ofNat_add_ofNat (by exact_mod_cast h.le)

/-- One record more is counted. -/
theorem Tells.add (h : c.Tells rs) (hcount : c.Countable (rs ++ [r])) : (c.add r).Tells (rs ++ [r]) := by
  have hnonneg : ∀ r ∈ rs, 0 ≤ r.value := fun x hx => hcount.nonneg x (List.mem_append_left _ hx)
  have hvalue : 0 ≤ r.value := hcount.nonneg r (by simp)
  have hsum := hcount.total_lt (c.labelValues r)
  rw [totalOf_concat, if_pos rfl] at hsum
  refine ⟨nodup_keys_bump h.distinct _ _, fun values => ?_⟩
  show (bump _ _ _).lookup values = if values ∈ (rs ++ [r]).map c.labelValues then
    some (Binary64.ofInt (c.totalOf values (rs ++ [r]))) else none
  by_cases hlabels : values = c.labelValues r
  · subst hlabels
    have hold : (c.series.lookup (c.labelValues r)).getD .zero =
        Binary64.ofInt (c.totalOf (c.labelValues r) rs) := by
      rw [h.lookup]
      split
      · rw [Option.getD_some]
      next hnew => rw [totalOf_eq_zero hnew, ofInt_zero, Option.getD_none]
    have hmem : c.labelValues r ∈ (rs ++ [r]).map c.labelValues := by simp
    rw [lookup_bump_self, hold, if_pos hmem, totalOf_concat, if_pos rfl,
      ofInt_add_ofInt (totalOf_nonneg hnonneg _) hvalue hsum]
  · rw [lookup_bump_of_ne hlabels, h.lookup, totalOf_concat, if_neg (Ne.symm hlabels), Int.add_zero]
    simp [hlabels]

/-- Of two counters that tell records with the same label values and the same totals, the series are the
same but for their order. -/
theorem Tells.perm (hc : c.Tells rs) (hd : d.Tells ss) (hdimensions : c.dimensions = d.dimensions)
    (hlabels : ∀ values, values ∈ rs.map c.labelValues ↔ values ∈ ss.map c.labelValues)
    (htotal : ∀ values, c.totalOf values rs = c.totalOf values ss) : c.series.Perm d.series := by
  have hvalues : d.labelValues = c.labelValues := by
    funext r
    rw [labelValues, labelValues, hdimensions]
  refine perm_of_lookup_eq hc.distinct hd.distinct fun values => ?_
  have htotal' : d.totalOf values ss = c.totalOf values rs := by
    rw [htotal, totalOf, hvalues, totalOf]
  rw [hc.lookup, hd.lookup, htotal', hvalues]
  simp only [hlabels values]

/-! ## What is published -/

/-- The labels of one series, if their names are distinct, tell its label values. -/
theorem map_get?_ofList_zip {names values : List String} (hnames : names.Nodup)
    (hlength : names.length = values.length) :
    names.map (fun n => ((Assoc.ofList (names.zip values)).get? n).getD "") = values := by
  have hkeys : ((names.zip values).map Prod.fst).Nodup := by rwa [List.map_fst_zip hlength.le]
  apply List.ext_getElem
  · rw [List.length_map, hlength]
  intro i hi hi'
  have hname : i < names.length := by simpa using hi
  have hmem : (names[i], values[i]) ∈ names.zip values :=
    List.mem_iff_getElem.2 ⟨i, by simpa using ⟨hname, hi'⟩, List.getElem_zip⟩
  rw [List.getElem_map, Assoc.get?_ofList_of_nodup hkeys hmem, Option.getD_some]

/-- Labels of the same names with the same values in the order of the names are equal. -/
theorem eq_of_sorted_values {names values others : List String} (hnames : names.Nodup)
    (hlength : names.length = values.length) (hlength' : names.length = others.length)
    (h : (Assoc.ofList (names.zip values)).entries.map Prod.snd =
      (Assoc.ofList (names.zip others)).entries.map Prod.snd) : values = others := by
  have hkeys : (Assoc.ofList (names.zip values)).keys = (Assoc.ofList (names.zip others)).keys := by
    apply Assoc.keys_eq
    intro k
    rw [Assoc.mem_keys_ofList, Assoc.mem_keys_ofList, List.map_fst_zip hlength.le,
      List.map_fst_zip hlength'.le]
  rw [← map_get?_ofList_zip hnames hlength, Assoc.eq_of_keys_values hkeys h,
    map_get?_ofList_zip hnames hlength']

theorem inOrder_trans (a b e : Labels × Reading) (hab : Metrics.inOrder a b = true)
    (hbe : Metrics.inOrder b e = true) : Metrics.inOrder a e = true := by
  rw [Metrics.inOrder, Bool.not_eq_true', decide_eq_false_iff_not] at *
  exact List.le_trans hab hbe

theorem inOrder_total (a b : Labels × Reading) :
    (Metrics.inOrder a b || Metrics.inOrder b a) = true := by
  rw [Bool.or_eq_true, Metrics.inOrder, Metrics.inOrder, Bool.not_eq_true', Bool.not_eq_true',
    decide_eq_false_iff_not, decide_eq_false_iff_not]
  exact List.le_total _ _

theorem values_eq_of_inOrder {a b : Labels × Reading} (hab : Metrics.inOrder a b = true)
    (hba : Metrics.inOrder b a = true) : a.1.entries.map Prod.snd = b.1.entries.map Prod.snd := by
  rw [Metrics.inOrder, Bool.not_eq_true', decide_eq_false_iff_not] at *
  exact List.le_antisymm hab hba

/-- Series that are the same but for their order are published as the same. -/
theorem costSeries_eq (hnames : c.labelNames.Nodup) (hdimensions : c.dimensions = d.dimensions)
    (hperm : c.series.Perm d.series) (hdistinct : (c.series.map Prod.fst).Nodup)
    (hlength : ∀ s ∈ c.series, c.labelNames.length = s.1.length) :
    Metrics.costSeries c = Metrics.costSeries d := by
  have hnames' : d.labelNames = c.labelNames := by rw [labelNames, labelNames, hdimensions]
  rw [Metrics.costSeries, Metrics.costSeries, hnames']
  apply List.Perm.eq_of_pairwise ?_ (List.pairwise_mergeSort inOrder_trans inOrder_total _)
    (List.pairwise_mergeSort inOrder_trans inOrder_total _)
  · exact (List.mergeSort_perm _ _).trans ((hperm.map _).trans (List.mergeSort_perm _ _).symm)
  · intro a b ha hb hab hba
    -- Two series that are published in either order have the same label values, so they are one.
    obtain ⟨⟨values, x⟩, hs, rfl⟩ := List.mem_map.1 (List.mem_mergeSort.1 ha)
    obtain ⟨⟨others, y⟩, ht, rfl⟩ := List.mem_map.1 (List.mem_mergeSort.1 hb)
    have ht' := hperm.mem_iff.2 ht
    have hvalues : values = others := eq_of_sorted_values hnames (hlength _ hs) (hlength _ ht')
      (values_eq_of_inOrder hab hba)
    subst hvalues
    have hx := (lookup_eq_some_of_nodup hdistinct).2 hs
    rw [(lookup_eq_some_of_nodup hdistinct).2 ht'] at hx
    rw [Option.some.inj hx]

/-- What is said about records has a value for every label. -/
theorem Tells.length_eq (h : c.Tells rs) : ∀ s ∈ c.series, c.labelNames.length = s.1.length := by
  rintro ⟨values, x⟩ hs
  have hfound := (lookup_eq_some_of_nodup h.distinct).2 hs
  rw [h.lookup] at hfound
  split at hfound
  next hmem =>
    obtain ⟨r, -, rfl⟩ := List.mem_map.1 hmem
    simp [labelNames, labelValues]
  next => cases hfound

end CostCounter

end Chargeback
