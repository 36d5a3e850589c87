import Chargeback.Config.Validation
import Mathlib.Data.List.Basic

/-!
# What validation guarantees

Settings that pass validation satisfy every rule, since the first rule that is broken would have been
reported.
-/

namespace Chargeback

theorem Codec.Compression.ofName_name (c : Codec.Compression) :
    Codec.Compression.ofName c.name = .ok c := by
  cases c <;> rfl

theorem Codec.Compression.mem_all (c : Codec.Compression) : c ∈ Codec.Compression.all := by
  cases c <;> decide

/-- A list passes a check if every member does. -/
theorem forM_eq_ok {ε α : Type} {check : α → Except ε Unit} {l : List α} :
    l.forM check = .ok () ↔ ∀ a ∈ l, check a = .ok () := by
  induction l with
  | nil => exact iff_of_true rfl (List.forall_mem_nil _)
  | cons a l ih =>
      rw [List.forall_mem_cons, ← ih]
      show (do check a; l.forM check) = .ok () ↔ _
      cases check a <;> simp [bind, Except.bind]

namespace Mapping

theorem checkDestination_eq_ok {name : String} :
    checkDestination name = .ok () ↔
      isIdentifier name = true ∧ "__".toList.isPrefixOf name.toList = false ∧ name ∉ reserved := by
  unfold checkDestination
  generalize isIdentifier name = isWord, "__".toList.isPrefixOf name.toList = isPrivate
  cases isWord <;> cases isPrivate <;> simp

theorem isIdentifier_of_checkDestination {name : String} (h : checkDestination name = .ok ()) :
    isIdentifier name = true :=
  (checkDestination_eq_ok.1 h).1

/-- Gathering the names of rules adds no others. -/
theorem isIdentifier_of_mem_foldl {rules : List MappingRule} {names : List String}
    (hrules : ∀ r ∈ rules, isIdentifier r.destination = true)
    (hnames : ∀ d ∈ names, isIdentifier d = true) :
    ∀ d ∈ rules.foldl (fun names r =>
      if names.contains r.destination then names else names ++ [r.destination]) names,
      isIdentifier d = true := by
  induction rules generalizing names with
  | nil => exact hnames
  | cons r rules ih =>
      obtain ⟨hr, hrest⟩ := List.forall_mem_cons.1 hrules
      refine ih hrest ?_
      dsimp only
      split
      · exact hnames
      · exact List.forall_mem_append.2 ⟨hnames, by simpa using hr⟩

/-- The names of dimensions in a validated mapping are plain identifiers. -/
theorem isIdentifier_of_validate {m : Mapping} (h : m.validate = .ok ()) :
    ∀ d ∈ m.destinations, isIdentifier d = true := by
  have hrules : ∀ r ∈ m.rules, isIdentifier r.destination = true := fun r hr =>
    isIdentifier_of_checkDestination (forM_eq_ok.1 h r hr)
  exact isIdentifier_of_mem_foldl hrules (by simp)

end Mapping

namespace Settings

theorem demand_eq_ok {holds : Bool} {fault : SettingsFault} :
    demand holds fault = .ok () ↔ holds = true := by
  cases holds <;> simp [demand]

theorem isRate_eq_true {x : Binary64} :
    isRate x = true ↔ x.isFinite = true ∧ x.lt .zero = false := by
  simp [isRate]

/-- One rule after the other: all of them hold. -/
theorem andThen_eq_ok {first second : Except SettingsFault Unit} :
    (do first; second) = .ok () ↔ first = .ok () ∧ second = .ok () := by
  cases first <;> simp [bind, Except.bind]

theorem mapError_eq_ok {ε : Type} {f : ε → SettingsFault} {result : Except ε Unit} :
    result.mapError f = .ok () ↔ result = .ok () := by
  cases result <;> simp [Except.mapError]

/-- Rules that hold in some case only, before the other rules. -/
theorem whenThen_eq_ok {condition : Bool} {rules rest : Except SettingsFault Unit} :
    (if condition = true then (do rules; rest) else rest) = .ok () ↔
      (condition = true → rules = .ok ()) ∧ rest = .ok () := by
  cases condition <;> simp [andThen_eq_ok]

/-- Rules that hold in some case only, after the other rules. -/
theorem when_eq_ok {condition : Bool} {rules : Except SettingsFault Unit} :
    (if condition = true then rules else pure ()) = .ok () ↔ (condition = true → rules = .ok ()) := by
  cases condition <;> simp [pure, Except.pure]

theorem checkHttp_eq_ok {s : HttpSettings} :
    checkHttp s = .ok () ↔ s.address ≠ "" ∧ 0 < s.maxQueueSize ∧ 0 < s.batchSize ∧ 0 < s.workers ∧
      ∃ c : Codec.Compression, c.name = s.compression := by
  have hknown : ((Codec.Compression.all.map (·.name)).contains s.compression = true) ↔
      ∃ c : Codec.Compression, c.name = s.compression := by
    simp [Codec.Compression.mem_all]
  simp only [checkHttp, andThen_eq_ok, demand_eq_ok, hknown]
  simp

theorem checkClickHouse_eq_ok {s : ClickHouseSettings} :
    checkClickHouse s = .ok () ↔ s.endpoint ≠ "" ∧ 0 < s.batchSize ∧ 0 < s.maxQueueSize ∧
      isIdentifier s.database = true ∧ isIdentifier s.table = true := by
  simp only [checkClickHouse, andThen_eq_ok, demand_eq_ok]
  simp

theorem validate_eq_ok {s : Settings} :
    s.validate = .ok () ↔
      s.interval.isZero = false ∧ s.exporters.bufferInterval.isZero = false ∧
      s.pricing.fallbackCount ≤ 1 ∧ checkRates s.pricing = .ok () ∧ s.mapping.validate = .ok () ∧
      (s.exporters.http.enabled = true → checkHttp s.exporters.http = .ok ()) ∧
      (s.exporters.clickhouse.enabled = true → checkClickHouse s.exporters.clickhouse = .ok ()) := by
  simp only [validate, andThen_eq_ok, demand_eq_ok, mapError_eq_ok, whenThen_eq_ok, when_eq_ok]
  simp

theorem validateCollect_eq_ok {s : Settings} :
    s.validateCollect = .ok () ↔
      s.inventory.podsPath ≠ "" ∧ s.inventory.nodesPath ≠ "" ∧
      s.inventory.resyncInterval.isZero = false ∧ s.strategies ≠ [] ∧ s.pricing.entries ≠ [] := by
  simp only [validateCollect, andThen_eq_ok, demand_eq_ok]
  simp

end Settings

end Chargeback
