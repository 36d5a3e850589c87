import Chargeback.Export.Exporter
import Chargeback.Proofs.LastEntries
import Chargeback.Proofs.StatementColumns

/-!
# One schema of dimensions

The names of dimensions leave a mapping by two ways. As a list (`destinations`) they become labels of
the cost counter and columns of the table; as the keys of a map (`apply`) they are what a record
carries. The list keeps the FIRST place of a name, the map the LAST rule for it, and the fixed labels
and columns stand beside both.

Of a validated mapping all of these agree (`sharesSchema_of_validate`): the same names, in one order,
none of them twice, each fit to be a label and a column. So no exporter fails for a name, and no
dimension of a record is without its label and its column.
-/

namespace Chargeback

/-! ## Names in the order of their first places -/

section FirstPlaces

variable {all names : List String} {d : String}

/-- The names that occur in a list, each at the place where it is seen first. -/
structure IsFirstSeen (all names : List String) : Prop where
  mem : ∀ d, d ∈ names ↔ d ∈ all
  order : names.Pairwise fun d e => all.idxOf d < all.idxOf e

theorem IsFirstSeen.nodup (h : IsFirstSeen all names) : names.Nodup := by
  refine h.order.imp ?_
  rintro d _ hlt rfl
  exact Nat.lt_irrefl _ hlt

theorem IsFirstSeen.nil : IsFirstSeen [] [] := ⟨fun _ => Iff.rfl, .nil⟩

/-- One more name stands behind the others, unless it was seen before. -/
theorem IsFirstSeen.step (h : IsFirstSeen all names) (d : String) :
    IsFirstSeen (all ++ [d]) (if names.contains d then names else names ++ [d]) := by
  have hplace {e : String} (he : e ∈ names) : (all ++ [d]).idxOf e = all.idxOf e :=
    List.idxOf_append_of_mem ((h.mem e).1 he)
  have horder : names.Pairwise fun e f => (all ++ [d]).idxOf e < (all ++ [d]).idxOf f := by
    refine h.order.imp_of_mem fun he hf hlt => ?_
    rwa [hplace he, hplace hf]
  by_cases hd : d ∈ names
  · rw [if_pos (List.contains_iff_mem.2 hd)]
    refine ⟨fun e => ?_, horder⟩
    rw [List.mem_append, List.mem_singleton, h.mem e]
    refine ⟨.inl, ?_⟩
    rintro (he | rfl)
    · exact he
    · exact (h.mem e).1 hd
  · have hnew : d ∉ all := fun hmem => hd ((h.mem d).2 hmem)
    rw [if_neg fun hmem => hd (List.contains_iff_mem.1 hmem)]
    refine ⟨fun e => by rw [List.mem_append, List.mem_append, h.mem e], ?_⟩
    refine List.pairwise_append.2 ⟨horder, List.pairwise_singleton _ _, ?_⟩
    intro e he f hf
    obtain rfl := List.mem_singleton.1 hf
    rw [hplace he, List.idxOf_append_of_notMem hnew]
    have := List.idxOf_lt_length_of_mem ((h.mem e).1 he)
    omega

end FirstPlaces

namespace Mapping

variable {m : Mapping}

/-- The names of dimensions stand where their first rules stand. -/
theorem isFirstSeen_destinations (m : Mapping) :
    IsFirstSeen (m.rules.map (·.destination)) m.destinations := by
  obtain ⟨rules⟩ := m
  show IsFirstSeen (rules.map (·.destination)) (rules.foldl _ [])
  induction rules using List.reverseRecOn with
  | nil => exact .nil
  | append_singleton rules r ih =>
      rw [List.map_append, List.foldl_append]
      exact ih.step r.destination

theorem mem_destinations (m : Mapping) (d : String) :
    d ∈ m.destinations ↔ ∃ r ∈ m.rules, r.destination = d :=
  (m.isFirstSeen_destinations.mem d).trans List.mem_map

/-! ## The values of dimensions -/

/-- Each name of a dimension has the value of the last rule for it. -/
theorem get?_apply_of_mem {d : String} (hd : d ∈ m.destinations) (source : Datum) :
    ∃ r, IsLast (·.destination) m.rules r ∧ r.destination = d ∧
      (m.apply source).get? d = some (ruleValue r source) := by
  obtain ⟨r', hr', hdest'⟩ := (mem_destinations m d).1 hd
  obtain ⟨r, hlast, hdest⟩ : ∃ r, IsLast (·.destination) m.rules r ∧ r.destination = r'.destination :=
    exists_isLast hr'
  have hd := hdest.trans hdest'
  refine ⟨r, hlast, hd, ?_⟩
  rw [apply, Assoc.get?_foldl_put, getLast?_filter_eq_some.2 ⟨hlast, hd⟩, Option.map_some]

/-- A record has the dimensions that are named, and no others. -/
theorem mem_keys_apply (source : Datum) (d : String) :
    d ∈ (m.apply source).keys ↔ d ∈ m.destinations := by
  rw [Assoc.mem_keys]
  constructor
  · rintro ⟨v, hv⟩
    rw [apply, Assoc.get?_foldl_put] at hv
    obtain ⟨r, hr, -⟩ := Option.map_eq_some_iff.1 hv
    obtain ⟨hlast, hdest⟩ := getLast?_filter_eq_some.1 hr
    exact (mem_destinations m d).2 ⟨r, hlast.mem, hdest⟩
  · intro hd
    obtain ⟨r, -, -, hget⟩ := get?_apply_of_mem hd source
    exact ⟨_, hget⟩

theorem ruleValue_eq (r : MappingRule) (source : Datum) :
    ruleValue r source =
      if r.source.evaluate source = "" then r.default else r.source.evaluate source := by
  rw [ruleValue]
  by_cases h : r.source.evaluate source = ""
  · simp [h]
  · simp [h]

/-! ## Names fit for labels and columns -/

theorem checkDestination_of_validate (h : m.validate = .ok ()) :
    ∀ d ∈ m.destinations, checkDestination d = .ok () := by
  intro d hd
  obtain ⟨r, hr, rfl⟩ := (mem_destinations m d).1 hd
  exact forM_eq_ok.1 h r hr

/-- The labels of the cost counter are sound and differ from one another. -/
theorem labels_of_validate (h : m.validate = .ok ()) :
    ("kind" :: "strategy" :: m.destinations).Nodup ∧
      ∀ d ∈ "kind" :: "strategy" :: m.destinations, isIdentifier d = true := by
  have hreserved : ∀ d ∈ m.destinations, d ∉ reserved := fun d hd =>
    (checkDestination_eq_ok.1 (checkDestination_of_validate h d hd)).2.2
  have hkind : "kind" ∉ m.destinations := fun hd => hreserved _ hd (by decide)
  have hstrategy : "strategy" ∉ m.destinations := fun hd => hreserved _ hd (by decide)
  constructor
  · simp [hkind, hstrategy, m.isFirstSeen_destinations.nodup]
  · intro d hd
    simp only [List.mem_cons] at hd
    rcases hd with rfl | rfl | hd
    · decide
    · decide
    · exact isIdentifier_of_validate h d hd

/-- The cost counter is registered with a label for every dimension. -/
theorem registerCosts_of_validate (h : m.validate = .ok ()) {before : Metrics}
    (hbefore : before.costs = none) :
    before.registerCosts m.destinations =
      .ok { before with costs := some ⟨m.destinations, []⟩ } := by
  obtain ⟨hnodup, hwords⟩ := labels_of_validate h
  have hsound : CostCounter.namesAreSound ("kind" :: "strategy" :: m.destinations) = true := by
    rw [CostCounter.namesAreSound, Bool.and_eq_true, List.all_eq_true, decide_eq_true_iff]
    exact ⟨hwords, hnodup⟩
  simp [Metrics.registerCosts, hsound, hbefore]

/-- The exporters are built, whichever of them are configured. -/
theorem configured_of_validate (h : m.validate = .ok ()) (settings : ExporterSettings)
    {before : Metrics} (hbefore : before.costs = none) :
    ∃ exporters after, Exporter.configured settings m.destinations before = .ok (exporters, after) := by
  rw [Exporter.configured]
  by_cases hstats : settings.stats = true
  · rw [if_pos hstats, registerCosts_of_validate h hbefore]
    exact ⟨_, _, rfl⟩
  · rw [if_neg hstats]
    exact ⟨_, _, rfl⟩

/-! ## No dimension is dropped -/

/-- The value of a dimension stands under its label. -/
theorem mem_labelValues {r : CostRecord} {d v : String} (hd : d ∈ m.destinations)
    (hv : r.dimensions.get? d = some v) (series : List (List String × Binary64)) :
    (d, v) ∈ (CostCounter.labelNames ⟨m.destinations, series⟩).zip
      (CostCounter.labelValues ⟨m.destinations, series⟩ r) := by
  have hzip : m.destinations.zip (m.destinations.map fun d => (r.dimensions.get? d).getD "") =
      m.destinations.map fun d => (d, (r.dimensions.get? d).getD "") :=
    List.map_prod_left_eq_zip.symm
  rw [CostCounter.labelNames, CostCounter.labelValues, List.zip_cons_cons, List.zip_cons_cons, hzip]
  refine List.mem_cons_of_mem _ (List.mem_cons_of_mem _ (List.mem_map.2 ⟨d, hd, ?_⟩))
  rw [hv, Option.getD_some]

/-- The value of a dimension stands in its column. -/
theorem mem_rowValues {r : CostRecord} {d v : String} (hd : d ∈ m.destinations)
    (hv : r.dimensions.get? d = some v) :
    (Sql.dimensionColumn d, Sql.literal v) ∈
      (Sql.columns m.destinations).zip (Sql.rowValues m.destinations r) := by
  rw [Sql.columns, Sql.rowValues, List.zip_append ?_, List.zip_map']
  · refine List.mem_append_right _ (List.mem_map.2 ⟨d, hd, ?_⟩)
    rw [hv, Option.getD_some]
  · rfl

/-! ## The schema -/

/-- All that use the dimensions of a mapping agree on them: the map of a record, the two statements
for the table, and the labels of the cost counter. -/
structure SharesSchema (m : Mapping) : Prop where
  nodup : m.destinations.Nodup
  firstSeen : IsFirstSeen (m.rules.map (·.destination)) m.destinations
  keys : ∀ source d, d ∈ (m.apply source).keys ↔ d ∈ m.destinations
  values : ∀ source, ∀ d ∈ m.destinations, ∃ r, IsLast (·.destination) m.rules r ∧
    r.destination = d ∧ (m.apply source).get? d =
      some (if r.source.evaluate source = "" then r.default else r.source.evaluate source)
  created : ∀ table, Sql.readColumns? ("CREATE TABLE IF NOT EXISTS " ++ table)
    (Sql.createTable table m.destinations) = some (Sql.columns m.destinations)
  inserted : ∀ table rs, Sql.readColumns? ("INSERT INTO " ++ table)
    (Sql.insert table m.destinations rs) = some (Sql.columns m.destinations)
  columns : (Sql.columns m.destinations).Nodup ∧
    ∀ c ∈ Sql.columns m.destinations, isIdentifier c = true
  labels : ("kind" :: "strategy" :: m.destinations).Nodup ∧
    ∀ d ∈ "kind" :: "strategy" :: m.destinations, isIdentifier d = true
  registered : ∀ before : Metrics, before.costs = none → before.registerCosts m.destinations =
    .ok { before with costs := some ⟨m.destinations, []⟩ }
  built : ∀ settings, ∀ before : Metrics, before.costs = none →
    ∃ exporters after, Exporter.configured settings m.destinations before = .ok (exporters, after)
  carried : ∀ source (r : CostRecord), r.dimensions = m.apply source →
    ∀ d v, (m.apply source).get? d = some v →
      (∀ series, (d, v) ∈ (CostCounter.labelNames ⟨m.destinations, series⟩).zip
        (CostCounter.labelValues ⟨m.destinations, series⟩ r)) ∧
      (Sql.dimensionColumn d, Sql.literal v) ∈
        (Sql.columns m.destinations).zip (Sql.rowValues m.destinations r)

/-- **Every validated mapping gives one schema of dimensions**, whatever its rules. -/
theorem sharesSchema_of_validate {m : Mapping} (h : m.validate = .ok ()) : m.SharesSchema := by
  have hwords := isIdentifier_of_validate h
  have hnodup := m.isFirstSeen_destinations.nodup
  have hne : ∀ d ∈ m.destinations, d ≠ "" := by
    rintro d hd rfl
    exact absurd (hwords _ hd) (by decide)
  constructor
  case nodup => exact hnodup
  case firstSeen => exact m.isFirstSeen_destinations
  case keys => exact mem_keys_apply
  case values =>
    intro source d hd
    obtain ⟨r, hlast, hdest, hget⟩ := get?_apply_of_mem hd source
    exact ⟨r, hlast, hdest, by rw [hget, ruleValue_eq]⟩
  case created => exact Sql.readColumns?_createTable hwords
  case inserted => exact Sql.readColumns?_insert hwords
  case columns => exact ⟨Sql.nodup_columns hne hnodup, Sql.isIdentifier_columns hwords⟩
  case labels => exact labels_of_validate h
  case registered =>
    intro before hbefore
    exact registerCosts_of_validate h hbefore
  case built =>
    intro settings before hbefore
    exact configured_of_validate h settings hbefore
  case carried =>
    intro source r hr d v hv
    have hd : d ∈ m.destinations := (mem_keys_apply source d).1 (Assoc.mem_keys.2 ⟨v, hv⟩)
    rw [← hr] at hv
    exact ⟨mem_labelValues hd hv, mem_rowValues hd hv⟩

/-- A name with two rules, of which the later one counts, and names that are close to those of other
labels and columns. -/
theorem sharesSchema_two_rules :
    let rule (name destination default : String) : MappingRule :=
      { source := ⟨"." ++ name, [name]⟩, destination, default }
    let m : Mapping := ⟨[rule "Team" "team" "", rule "Kind" "Kind" "", rule "Node" "value" "",
      rule "Owner" "team" "nobody"]⟩
    let source := Datum.ofFields [("Team", .text "web"), ("Kind", .text "Pod")]
    m.validate = .ok () ∧ m.destinations = ["team", "Kind", "value"] ∧
      (m.apply source).entries = [("Kind", "Pod"), ("team", "nobody"), ("value", "")] ∧
      m.SharesSchema := by
  intro rule m source
  have hvalid : m.validate = .ok () := by decide
  exact ⟨hvalid, by decide, by decide, sharesSchema_of_validate hvalid⟩

end Mapping

end Chargeback
