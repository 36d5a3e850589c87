import Chargeback.Inventory.Snapshot
import Chargeback.Proofs.Counting
import Chargeback.Proofs.LastEntries
import Chargeback.Yaml.Reading
import Mathlib.Data.List.Perm.Basic

/-!
# The cache serves the last good load

A cache is read from its file again and again, and the file may be missing, hold no text or hold a
text that is no list of objects. Whatever the order of such reads, what the cache says is decided
by ONE of them, the last that succeeded (`lastLoad?`): without it there is no listing, and with it
the listing has the last object of every key in that file (`Lists`), whatever was in the files
before and however often reading has failed since.

One call replaces what the cache stands for or leaves it as it was (`Holds.call`); a run of calls
follows by induction (`holds_callAll`).

The key of a workload is its namespace and its name with a slash between them. Namespaces without
a slash make that key tell the two apart (`Workload.key_inj`), and then no workload is lost.
-/

namespace Chargeback

/-! ## Calls -/

/-- A call on the cache of a snapshot. -/
inductive SnapshotCall where
  /-- The file is read, with what it holds at that time; none stands for a missing file. -/
  | sync (content : Option (List UInt8))
  /-- The file is read once more, and it is counted if that fails. -/
  | resync (content : Option (List UInt8))
  /-- The objects are listed. -/
  | list
  deriving DecidableEq, Repr

namespace SnapshotCache

variable {α : Type} (kind : SnapshotKind α) (path : String)

section

variable [Yaml.Reader]

/-- What a call makes of a cache and the metrics. -/
def call : SnapshotCall → SnapshotCache α × Metrics → SnapshotCache α × Metrics
  | .sync content, (c, m) => (c.sync kind path content m).2
  | .resync content, (c, m) => (c.resync kind path content m).2
  | .list, x => x

/-- What calls make of a cache and the metrics, one after the other. -/
def callAll (calls : List SnapshotCall) (x : SnapshotCache α × Metrics) :
    SnapshotCache α × Metrics :=
  calls.foldl (fun x e => call kind path e x) x

/-- The objects that a call loads, if it reads the file and can. -/
def loads? : SnapshotCall → Option (List α)
  | .sync content | .resync content => (Snapshot.load kind.decode path content).toOption
  | .list => none

/-- The objects of the most recent load that succeeded. -/
def lastLoad? (calls : List SnapshotCall) : Option (List α) :=
  (calls.filterMap (loads? kind path)).getLast?

theorem lastLoad?_concat (calls : List SnapshotCall) (e : SnapshotCall) :
    lastLoad? kind path (calls ++ [e]) = (loads? kind path e).or (lastLoad? kind path calls) := by
  rw [lastLoad?, List.filterMap_append, List.filterMap_cons]
  cases he : loads? kind path e with
  | none => simp [lastLoad?]
  | some items => simp

theorem lastLoad?_eq_none {calls : List SnapshotCall} :
    lastLoad? kind path calls = none ↔ ∀ e ∈ calls, loads? kind path e = none := by
  rw [lastLoad?, List.getLast?_eq_none_iff, List.filterMap_eq_nil_iff]

end

/-! ## What a cache holds -/

/-- The objects of a load by key. -/
def table (items : List α) : Assoc α := .ofList (items.map fun a => (kind.key a, a))

variable {kind path}

theorem get?_table (items : List α) (k : String) :
    (table kind items).get? k = (items.filter (kind.key · = k)).getLast? := by
  rw [table, Assoc.ofList, List.foldl_map]
  exact (Assoc.get?_foldl_put kind.key id items k).trans Option.map_id'

/-- The cache holds the objects of a load, or was never filled; and so says the gauge of its
objects, which is as it was before. -/
structure Holds (kind : SnapshotKind α) (loaded : Option (List α)) (before : Metrics)
    (x : SnapshotCache α × Metrics) : Prop where
  source : x.1.source = kind.source
  synced : x.1.isSynced = loaded.isSome
  objects : x.1.objects = loaded.elim .empty (table kind)
  gauge : x.2.objects.read kind.source = loaded.elim (before.objects.read kind.source)
    fun items => .ofNat (table kind items).entries.length

theorem read_snapshotLoaded (source : String) (n : Nat) (m : Metrics) :
    (m.snapshotLoaded source n).objects.read source = .ofNat n := by
  show Tally.read source (m.objects.put source (.ofNat n)) = .ofNat n
  rw [Tally.read_put, if_pos rfl]

theorem Holds.fresh (kind : SnapshotKind α) (m : Metrics) :
    Holds kind none m (SnapshotCache.fresh kind.source, m) := ⟨rfl, rfl, rfl, rfl⟩

section

variable [Yaml.Reader]

theorem sync_of_error {content : Option (List UInt8)} {fault : SnapshotFault}
    (h : Snapshot.load kind.decode path content = .error fault) (c : SnapshotCache α)
    (m : Metrics) : c.sync kind path content m = (.error fault, c, m) := by
  rw [sync, h]

theorem sync_of_ok {content : Option (List UInt8)} {items : List α}
    (h : Snapshot.load kind.decode path content = .ok items) (c : SnapshotCache α) (m : Metrics) :
    c.sync kind path content m =
      (.ok (table kind items).entries.length,
        { c with objects := table kind items, isSynced := true },
        m.snapshotLoaded c.source (table kind items).entries.length) := by
  rw [sync, h]
  rfl

theorem resync_of_error {content : Option (List UInt8)} {fault : SnapshotFault}
    (h : Snapshot.load kind.decode path content = .error fault) (c : SnapshotCache α)
    (m : Metrics) : c.resync kind path content m = (.error fault, c, m.snapshotFailed c.source) := by
  rw [resync, sync_of_error h]

theorem resync_of_ok {content : Option (List UInt8)} {items : List α}
    (h : Snapshot.load kind.decode path content = .ok items) (c : SnapshotCache α) (m : Metrics) :
    c.resync kind path content m = c.sync kind path content m := by
  rw [resync, sync_of_ok h]

section Step

variable {loaded : Option (List α)} {before : Metrics} {x : SnapshotCache α × Metrics}

/-- A load replaces everything that the cache stands for. -/
theorem Holds.sync (h : Holds kind loaded before x) {content : Option (List UInt8)}
    {items : List α} (hload : Snapshot.load kind.decode path content = .ok items) :
    Holds kind (some items) before (x.1.sync kind path content x.2).2 := by
  rw [sync_of_ok hload]
  refine ⟨h.source, rfl, rfl, ?_⟩
  rw [h.source, Option.elim_some]
  exact read_snapshotLoaded kind.source _ x.2

/-- A call that loads nothing leaves the cache and its gauge as they are. -/
theorem Holds.call (h : Holds kind loaded before x) (e : SnapshotCall) :
    Holds kind ((loads? kind path e).or loaded) before (SnapshotCache.call kind path e x) := by
  cases e with
  | list => exact h
  | sync content =>
      show Holds kind _ before (x.1.sync kind path content x.2).2
      cases hload : Snapshot.load kind.decode path content with
      | error fault =>
          rw [sync_of_error hload]
          simpa [loads?, hload, Except.toOption] using h
      | ok items =>
          simpa [loads?, hload, Except.toOption] using h.sync hload
  | resync content =>
      show Holds kind _ before (x.1.resync kind path content x.2).2
      cases hload : Snapshot.load kind.decode path content with
      | error fault =>
          rw [resync_of_error hload]
          have hcounted : Holds kind loaded before (x.1, x.2.snapshotFailed x.1.source) :=
            ⟨h.source, h.synced, h.objects, h.gauge⟩
          simpa [loads?, hload, Except.toOption] using hcounted
      | ok items =>
          rw [resync_of_ok hload]
          simpa [loads?, hload, Except.toOption] using h.sync hload

end Step

/-- After every run of calls the cache holds the last good load. -/
theorem holds_callAll (kind : SnapshotKind α) (path : String) (calls : List SnapshotCall)
    (m : Metrics) :
    Holds kind (lastLoad? kind path calls) m
      (callAll kind path calls (SnapshotCache.fresh kind.source, m)) := by
  induction calls using List.reverseRecOn with
  | nil => exact .fresh kind m
  | append_singleton calls e ih =>
      rw [lastLoad?_concat, callAll, List.foldl_append]
      exact ih.call e

end

/-! ## What is listed -/

/-- The objects are those of a file, one for each key: the last one that has it. -/
structure Lists (key : α → String) (items objects : List α) : Prop where
  distinct : (objects.map key).Nodup
  keys : ∀ k, k ∈ objects.map key ↔ k ∈ items.map key
  last : ∀ a ∈ objects, IsLast key items a

theorem lists_table (items : List α) :
    Lists kind.key items ((table kind items).entries.map Prod.snd) := by
  have hentry {k : String} {a : α} (h : (k, a) ∈ (table kind items).entries) :
      IsLast kind.key items a ∧ kind.key a = k := by
    rw [Assoc.mem_entries, get?_table] at h
    exact getLast?_filter_eq_some.1 h
  have hkeys : ((table kind items).entries.map Prod.snd).map kind.key = (table kind items).keys := by
    rw [List.map_map, Assoc.keys]
    refine List.map_congr_left ?_
    rintro ⟨k, a⟩ h
    exact (hentry h).2
  constructor
  · rw [hkeys]
    exact Assoc.nodup_keys _
  · intro k
    rw [hkeys, Assoc.mem_keys, List.mem_map]
    constructor
    · rintro ⟨a, ha⟩
      obtain ⟨hlast, hk⟩ := hentry (Assoc.mem_entries.2 ha)
      exact ⟨a, hlast.mem, hk⟩
    · rintro ⟨a, ha, rfl⟩
      obtain ⟨b, hb⟩ : ∃ b, IsLast kind.key items b ∧ kind.key b = kind.key a := exists_isLast ha
      exact ⟨b, (get?_table items _).trans (getLast?_filter_eq_some.2 hb)⟩
  · intro a ha
    obtain ⟨⟨k, a⟩, hmem, rfl⟩ := List.mem_map.1 ha
    exact (hentry hmem).1

/-- With distinct keys all objects of the file are listed. -/
theorem Lists.perm {key : α → String} {items objects : List α} (h : Lists key items objects)
    (hkeys : (items.map key).Nodup) : objects.Perm items := by
  refine (List.perm_ext_iff_of_nodup (.of_map key h.distinct) (.of_map key hkeys)).2 fun a => ?_
  constructor
  · intro ha
    exact (h.last a ha).mem
  · intro ha
    obtain ⟨b, hb, hkey⟩ := List.mem_map.1 ((h.keys (key a)).2 (List.mem_map_of_mem ha))
    rwa [← List.inj_on_of_nodup_map hkeys (h.last b hb).mem ha hkey]

theorem list_of_holds {loaded : Option (List α)} {before : Metrics}
    {x : SnapshotCache α × Metrics} (h : Holds kind loaded before x) :
    x.1.list = loaded.elim (.error (notSynced kind.source))
      fun items => .ok ((table kind items).entries.map Prod.snd) := by
  rw [list, h.synced, h.objects, h.source]
  cases loaded with
  | none => rfl
  | some items => rfl

end SnapshotCache

/-! ## Keys of workloads -/

/-- A text in front of a separator ends at the first one. -/
theorem append_separator_inj {c : Char} {s s' t t' : List Char} (hs : c ∉ s) (hs' : c ∉ s')
    (h : s ++ c :: t = s' ++ c :: t') : s = s' ∧ t = t' := by
  induction s generalizing s' with
  | nil =>
      cases s' with
      | nil => exact ⟨rfl, (List.cons.inj h).2⟩
      | cons d s' => exact absurd ((List.cons.inj h).1 ▸ List.mem_cons_self) hs'
  | cons d s ih =>
      cases s' with
      | nil => exact absurd ((List.cons.inj h).1 ▸ List.mem_cons_self) hs
      | cons d' s' =>
          obtain ⟨rfl, hrest⟩ := List.cons.inj h
          obtain ⟨rfl, rfl⟩ := ih (fun hc => hs (List.mem_cons_of_mem _ hc))
            (fun hc => hs' (List.mem_cons_of_mem _ hc)) hrest
          exact ⟨rfl, rfl⟩

namespace Workload

/-- The namespace of a workload and its name. -/
def qualifiedName (w : Workload) : String × String := (w.metadata.namespaceName, w.metadata.name)

/-- The key tells namespaces and names apart where the namespaces have no slash. -/
theorem key_inj {v w : Workload} (hv : '/' ∉ v.metadata.namespaceName.toList)
    (hw : '/' ∉ w.metadata.namespaceName.toList) (h : v.key = w.key) :
    v.qualifiedName = w.qualifiedName := by
  have hlist : v.metadata.namespaceName.toList ++ '/' :: v.metadata.name.toList =
      w.metadata.namespaceName.toList ++ '/' :: w.metadata.name.toList := by
    simpa [key] using congrArg String.toList h
  obtain ⟨hspace, hname⟩ := append_separator_inj hv hw hlist
  exact Prod.ext (String.toList_inj.1 hspace) (String.toList_inj.1 hname)

theorem nodup_keys {ws : List Workload} (hslash : ∀ w ∈ ws, '/' ∉ w.metadata.namespaceName.toList)
    (hnames : (ws.map qualifiedName).Nodup) : (ws.map key).Nodup := by
  refine List.Nodup.map_on ?_ (.of_map _ hnames)
  intro v hv w hw hkey
  exact List.inj_on_of_nodup_map hnames hv hw (key_inj (hslash v hv) (hslash w hw) hkey)

end Workload

/-! ## After any calls -/

namespace SnapshotCache

section

variable {α : Type} [Yaml.Reader] {kind : SnapshotKind α} {path : String}
  {calls : List SnapshotCall}

/-- A cache serves the last good load: it refuses to list as long as there is none, it lists the last
object of every key afterwards, and reading a file that cannot be loaded changes nothing, but that
it is counted if the file was read once more. -/
structure Serves (kind : SnapshotKind α) (path : String) (calls : List SnapshotCall)
    (x : SnapshotCache α × Metrics) : Prop where
  unfilled : x.1.list = .error (notSynced kind.source) ↔ ∀ e ∈ calls, loads? kind path e = none
  filled : ∀ items, lastLoad? kind path calls = some items → ∃ objects, x.1.list = .ok objects ∧
    Lists kind.key items objects ∧ x.2.objects.read kind.source = .ofNat objects.length
  failing : ∀ content fault, Snapshot.load kind.decode path content = .error fault →
    x.1.sync kind path content x.2 = (.error fault, x)
  failingAgain : ∀ content fault, Snapshot.load kind.decode path content = .error fault →
    x.1.resync kind path content x.2 = (.error fault, x.1, x.2.snapshotFailed kind.source)
  succeeding : ∀ content items, Snapshot.load kind.decode path content = .ok items →
    ∃ n, (x.1.sync kind path content x.2).1 = .ok n ∧ (x.1.resync kind path content x.2).1 = .ok n

theorem serves_of_holds {before : Metrics} {x : SnapshotCache α × Metrics}
    (h : Holds kind (lastLoad? kind path calls) before x) : Serves kind path calls x := by
  have hlist := list_of_holds h
  constructor
  · rw [← lastLoad?_eq_none, hlist]
    cases lastLoad? kind path calls <;> simp
  · intro items hitems
    rw [hitems, Option.elim_some] at hlist
    refine ⟨_, hlist, lists_table items, ?_⟩
    rw [h.gauge, hitems, Option.elim_some, List.length_map]
  · intro content fault hload
    exact sync_of_error hload x.1 x.2
  · intro content fault hload
    rw [resync_of_error hload, h.source]
  · intro content items hload
    refine ⟨(table kind items).entries.length, ?_, ?_⟩
    · rw [sync_of_ok hload]
    · rw [resync_of_ok hload, sync_of_ok hload]

/-- **The cache always serves the last good load**, after whatever reads of whatever files. Of a
file with workloads whose namespaces have no slash, and which differ in namespace or name, no
workload is missing. -/
theorem serves_callAll (kind : SnapshotKind α) (path : String) (calls : List SnapshotCall)
    (before : Metrics) :
    Serves kind path calls (callAll kind path calls (fresh kind.source, before)) ∧
      ∀ ws, lastLoad? .pods path calls = some ws →
        (∀ w ∈ ws, '/' ∉ w.metadata.namespaceName.toList) → (ws.map (·.qualifiedName)).Nodup →
        ∃ objects, (callAll .pods path calls (fresh SnapshotKind.pods.source, before)).1.list =
          .ok objects ∧ objects.Perm ws := by
  refine ⟨serves_of_holds (holds_callAll kind path calls before), ?_⟩
  intro ws hws hslash hnames
  have hserves := serves_of_holds (holds_callAll .pods path calls before)
  obtain ⟨objects, hlist, hobjects, -⟩ := hserves.filled ws hws
  exact ⟨objects, hlist, hobjects.perm (Workload.nodup_keys hslash hnames)⟩

end

/-- A file that is missing, one with a workload that is gone later, the one that counts, and one that
is cut short: what is listed is from the third. -/
theorem serves_callAll_third :
    let pod (space name phase : String) : String :=
      "\x7b\"metadata\":\x7b\"namespace\":\"" ++ space ++ "\",\"name\":\"" ++ name ++
        "\"\x7d,\"status\":\x7b\"phase\":\"" ++ phase ++ "\"\x7d\x7d"
    let workload (space name phase : String) : Workload :=
      { metadata := { name, namespaceName := space }, phase }
    let file (pods : List String) : Option (List UInt8) :=
      some (Text.encode ("[" ++ ",".intercalate pods ++ "]"))
    let third := file [pod "b" "api" "Pending", pod "a" "api" "Running"]
    let calls : List SnapshotCall := [.list, .sync none, .sync (file [pod "c" "old" "Running"]),
      .sync third, .resync (third.map (·.dropLast)), .list]
    let ws := [workload "b" "api" "Pending", workload "a" "api" "Running"]
    let x := callAll .pods "pods.json" calls (fresh "pods", .fresh)
    lastLoad? .pods "pods.json" calls = some ws ∧
      (∀ w ∈ ws, '/' ∉ w.metadata.namespaceName.toList) ∧ (ws.map (·.qualifiedName)).Nodup ∧
      (∃ objects, x.1.list = .ok objects ∧ Lists Workload.key ws objects ∧ objects.Perm ws) ∧
      x.1.sync .pods "pods.json" none x.2 = (.error (.reading "pods.json"), x) := by
  intro pod workload file third calls ws x
  have hlast : lastLoad? .pods "pods.json" calls = some ws := by decide +kernel
  have hslash : ∀ w ∈ ws, '/' ∉ w.metadata.namespaceName.toList := by decide +kernel
  have hnames : (ws.map (·.qualifiedName)).Nodup := by decide +kernel
  obtain ⟨hserves, hpods⟩ := serves_callAll .pods "pods.json" calls .fresh
  obtain ⟨objects, hlist, hperm⟩ := hpods ws hlast hslash hnames
  obtain ⟨objects', hlist', hobjects, -⟩ := hserves.filled ws hlast
  obtain rfl : objects = objects' := Except.ok.inj (hlist.symm.trans hlist')
  exact ⟨hlast, hslash, hnames, ⟨objects, hlist, hobjects, hperm⟩,
    hserves.failing none (.reading "pods.json") rfl⟩

end SnapshotCache

end Chargeback
