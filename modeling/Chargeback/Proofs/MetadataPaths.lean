import Chargeback.Dimension.View
import Chargeback.Proofs.LastEntries
import Chargeback.Proofs.PathGrammar

/-!
# Paths to the metadata of an item

A cost is charged to someone by a label or an annotation of its workload, or a label of its node, and
these have keys such as `app.kubernetes.io/name`, with marks in them that mean something in a path. A
key in single quotes is one segment, whatever else is in it (`Path.components_key`), so every label can
be addressed; and the view of an item holds each map whole, so what is found there is the value under
the key (`locate_label`).

The view has the metadata of an object twice, under `ObjectMeta` and in the object itself beside its
other fields. None of those has the name of a metadata field, so a path may leave `ObjectMeta` out
(`locate_promoted`).
-/

namespace Chargeback

/-! ## Tables with distinct keys -/

namespace Datum

/-- A table whose keys are distinct has under a key what its fields have there: the last entry is
the only one. -/
theorem get?_ofFields {fields : List (String × Datum)} (h : (fields.map Prod.fst).Nodup)
    (k : String) : (ofFields fields).get? k = fields.lookup k := by
  show lookup k (fields.map fun e => (Key.text e.1, e.2)) = fields.lookup k
  induction fields with
  | nil => rfl
  | cons e fields ih =>
      obtain ⟨he, hfields⟩ := List.nodup_cons.1 h
      have hrest := ih hfields
      rw [lookup] at hrest ⊢
      rw [Assoc.lookup_cons_eq, List.map_cons, List.reverse_cons, List.find?_append]
      by_cases hk : k = e.1
      · have hnone : (fields.map fun e => (Key.text e.1, e.2)).reverse.find? (·.1 == .text k) =
            none := by
          rw [List.find?_eq_none]
          intro entry hentry
          obtain ⟨field, hfield, rfl⟩ := List.mem_map.1 (List.mem_reverse.1 hentry)
          have hne : field.1 ≠ k := fun heq => he (hk ▸ heq ▸ List.mem_map_of_mem hfield)
          simpa using hne
        rw [hnone, if_pos hk]
        simp [hk]
      · have hother : [(Key.text e.1, e.2)].find? (·.1 == .text k) = none := by
          simpa using Ne.symm hk
        rw [if_neg hk, ← hrest, hother, Option.or_none]

end Datum

/-- A map as a table has under a key the text that the map has there. -/
theorem Labels.get?_toDatum (m : Labels) (k : String) :
    (Labels.toDatum m).get? k = (m.get? k).map .text := by
  have hkeys : (m.entries.map fun e => (e.1, Datum.text e.2)).map Prod.fst = m.keys := by
    simp [Assoc.keys]
  rw [toDatum, Datum.get?_ofFields (by rw [hkeys]; exact m.nodup_keys)]
  exact Assoc.get?_map Datum.text k m

/-! ## Metadata in the view -/

/-- What an item has metadata of. -/
inductive Owner where
  | workload
  | node
  deriving DecidableEq, Repr

namespace Owner

/-- The name under which it stands in the view. -/
def name : Owner → String
  | workload => "Pod"
  | node => "Node"

/-- The names of its metadata fields. -/
def fields : Owner → List String
  | workload => ["Name", "Namespace", "Labels", "Annotations"]
  | node => ["Name", "Labels"]

/-- The metadata of an item's workload or node, if it has one. -/
def metadata? : Owner → CostItem → Option Metadata
  | workload, i => i.workload.map (·.metadata)
  | node, i => i.node.map (·.metadata)

/-- The metadata as a table. -/
def table : Owner → Metadata → Datum
  | workload, m => .ofFields (CostItem.workloadMeta m)
  | node, m => .ofFields (CostItem.nodeMeta m)

end Owner

section View

variable {o : Owner} {field : String} {more : List String}

/-- Under `ObjectMeta` the view has the metadata. -/
theorem get?_objectMeta (o : Owner) (i : CostItem) :
    ((i.view.get? o.name).bind fun d => d.get? "ObjectMeta") = (o.metadata? i).map o.table := by
  obtain ⟨kind, strategy, value, workload, node⟩ := i
  cases o <;> cases workload <;> cases node <;> rfl

/-- A metadata field is in the object what it is under `ObjectMeta`. -/
theorem get?_promoted (i : CostItem) (h : field ∈ o.fields) :
    ((i.view.get? o.name).bind fun d => d.get? field) =
      ((i.view.get? o.name).bind fun d => d.get? "ObjectMeta").bind fun d => d.get? field := by
  rw [get?_objectMeta]
  obtain ⟨kind, strategy, value, workload, node⟩ := i
  cases o with
  | workload =>
      simp only [Owner.fields, List.mem_cons, List.not_mem_nil, or_false] at h
      rcases h with rfl | rfl | rfl | rfl <;> cases workload <;> cases node <;> rfl
  | node =>
      simp only [Owner.fields, List.mem_cons, List.not_mem_nil, or_false] at h
      rcases h with rfl | rfl <;> cases workload <;> cases node <;> rfl

/-- A path may leave `ObjectMeta` out. -/
theorem locate_promoted (i : CostItem) (h : field ∈ o.fields) :
    Path.locate (o.name :: field :: more) i.view =
      Path.locate (o.name :: "ObjectMeta" :: field :: more) i.view := by
  have hfield := congrArg (Option.bind · (Path.locate more)) (get?_promoted i h)
  simp only [Path.locate]
  simpa only [Option.bind_assoc] using hfield

/-- A path into a map of the metadata leads to the text under its key. -/
theorem locate_label {labels : Metadata → Labels} (i : CostItem) (k : String)
    (h : ∀ m, (o.table m).get? field = some (Labels.toDatum (labels m))) :
    Path.locate [o.name, "ObjectMeta", field, k] i.view =
      ((o.metadata? i).bind fun m => (labels m).get? k).map .text := by
  simp only [Path.locate]
  rw [← Option.bind_assoc, get?_objectMeta]
  cases o.metadata? i with
  | none => rfl
  | some m => simp [h, Labels.get?_toDatum]

end View

/-! ## The texts of such paths -/

namespace Path

variable {rest : String} {segments : List String}

/-- Components in braces are read as their segments. -/
theorem read_braced {s : String} (hbraces : '\x7b' ∉ s.toList ∧ '\x7d' ∉ s.toList)
    (h : Components true s.toList segments) (hne : segments ≠ []) :
    ∃ p, read ("\x7b" ++ s ++ "\x7d") = .ok p ∧ p.segments = segments := by
  have hraw : ("\x7b" ++ s ++ "\x7d").toList = '\x7b' :: (s.toList ++ ['\x7d']) := by simp
  have htrim : Text.IsTrimOf ('\x7b' :: (s.toList ++ ['\x7d'])) ('\x7b' :: (s.toList ++ ['\x7d'])) := by
    refine ⟨[], [], by simp, nofun, nofun, Text.stopsAt_cons.2 rfl, ?_⟩
    rw [List.reverse_cons, List.reverse_append]
    exact Text.stopsAt_cons.2 rfl
  have hread : readSegments ("\x7b" ++ s ++ "\x7d").toList = .ok segments := by
    rw [hraw, readSegments_eq_ok]
    exact ⟨_, s.toList, s.toList, htrim, .inl rfl, hbraces, .inl rfl, h, hne⟩
  exact ⟨⟨"\x7b" ++ s ++ "\x7d", segments⟩, by rw [read, hread], rfl⟩

theorem isIdent_iff {s : List Char} : IsIdent s ↔ s ≠ [] ∧ s.all isNameChar = true := by
  simp [IsIdent, isNameChar_iff]

theorem IsIdent.no_brace {s : List Char} (h : IsIdent s) : '\x7b' ∉ s ∧ '\x7d' ∉ s :=
  ⟨h.notMem (by decide), h.notMem (by decide)⟩

/-- An identifier after a dot, and what follows it. -/
theorem components_dotted {first : Bool} {name : String} (hname : IsIdent name.toList)
    (h : Components false rest.toList segments) :
    Components first ("." ++ name ++ rest).toList (name :: segments) := by
  simpa using Components.cons (.dotted hname) h

/-- A key in single quotes is one segment, whatever else is in it. -/
theorem components_key {k : String} (hk : '\'' ∉ k.toList) :
    Components false ("['" ++ k ++ "']").toList [k] := by
  simpa using Components.cons (.keyed (.inl rfl) hk) .nil

theorem isIdent_name (o : Owner) : IsIdent o.name.toList := by
  cases o <;> exact isIdent_iff.2 (by decide)

/-- A path into the workload or the node, in braces. -/
theorem read_owner (o : Owner) (hbraces : '\x7b' ∉ rest.toList ∧ '\x7d' ∉ rest.toList)
    (h : Components false rest.toList segments) :
    ∃ p, read ("\x7b" ++ ("." ++ o.name ++ rest) ++ "\x7d") = .ok p ∧
      p.segments = o.name :: segments := by
  have hname := (isIdent_name o).no_brace
  refine read_braced ?_ (components_dotted (isIdent_name o) h) (List.cons_ne_nil _ _)
  simpa using ⟨⟨hname.1, hbraces.1⟩, hname.2, hbraces.2⟩

/-- A quoted key behind the name of a map leads to the text under the key. -/
theorem read_label (o : Owner) {field k : String} {labels : Metadata → Labels}
    (hfield : IsIdent field.toList)
    (h : ∀ m, (o.table m).get? field = some (Labels.toDatum (labels m)))
    (hquote : '\'' ∉ k.toList) (hbraces : '\x7b' ∉ k.toList ∧ '\x7d' ∉ k.toList)
    {raw : String} (hraw : raw = "\x7b" ++ ("." ++ o.name ++ ("." ++ "ObjectMeta" ++
      ("." ++ field ++ ("['" ++ k ++ "']")))) ++ "\x7d")
    {i : CostItem} {value : Option String}
    (hvalue : ((o.metadata? i).bind fun m => (labels m).get? k) = value) :
    ∃ p, read raw = .ok p ∧ p.evaluate i.view = value.getD "" := by
  have hmeta : IsIdent "ObjectMeta".toList := isIdent_iff.2 (by decide)
  have hcomponents : Components false ("." ++ "ObjectMeta" ++
      ("." ++ field ++ ("['" ++ k ++ "']"))).toList ["ObjectMeta", field, k] :=
    components_dotted hmeta (components_dotted hfield (components_key hquote))
  have hrest : ∀ c ∈ ['\x7b', '\x7d'],
      c ∉ ("." ++ "ObjectMeta" ++ ("." ++ field ++ ("['" ++ k ++ "']"))).toList := by
    simpa using ⟨⟨hfield.no_brace.1, hbraces.1⟩, hfield.no_brace.2, hbraces.2⟩
  obtain ⟨p, hread, hsegments⟩ :=
    read_owner o ⟨hrest _ (by simp), hrest _ (by simp)⟩ hcomponents
  refine ⟨p, hraw ▸ hread, ?_⟩
  rw [evaluate, hsegments, locate_label i k h, hvalue]
  cases value <;> rfl

end Path

/-- **Every label and every annotation can be addressed.** A key without quotes and braces, put in
quotes and brackets behind the name of the map, is a path that is read, and it leads to just what the
item's workload or node has under the key, or to the empty text. And `ObjectMeta` may be left out
before every metadata field, in the segments as in the text: with it and without it the same text is
found, whatever comes after the field. -/
theorem metadata_addressable (i : CostItem) :
    (∀ k : String, '\'' ∉ k.toList → '\x7b' ∉ k.toList ∧ '\x7d' ∉ k.toList →
      (∃ p, Path.read ("\x7b.Pod.ObjectMeta.Labels['" ++ k ++ "']\x7d") = .ok p ∧
        p.evaluate i.view = (i.workload.bind fun w => w.metadata.labels.get? k).getD "") ∧
      (∃ p, Path.read ("\x7b.Pod.ObjectMeta.Annotations['" ++ k ++ "']\x7d") = .ok p ∧
        p.evaluate i.view = (i.workload.bind fun w => w.metadata.annotations.get? k).getD "") ∧
      ∃ p, Path.read ("\x7b.Node.ObjectMeta.Labels['" ++ k ++ "']\x7d") = .ok p ∧
        p.evaluate i.view = (i.node.bind fun n => n.metadata.labels.get? k).getD "") ∧
    ∀ (o : Owner) (field : String) (more : List String), field ∈ o.fields →
      (∀ p q : Path, p.segments = o.name :: "ObjectMeta" :: field :: more →
        q.segments = o.name :: field :: more → q.evaluate i.view = p.evaluate i.view) ∧
      ∀ rest : String, '\x7b' ∉ rest.toList ∧ '\x7d' ∉ rest.toList →
        Path.Components false rest.toList (field :: more) →
        ∃ p q, Path.read ("\x7b." ++ o.name ++ ".ObjectMeta" ++ rest ++ "\x7d") = .ok p ∧
          Path.read ("\x7b." ++ o.name ++ rest ++ "\x7d") = .ok q ∧
          q.evaluate i.view = p.evaluate i.view := by
  constructor
  · intro k hquote hbraces
    have hlabels : Path.IsIdent "Labels".toList := Path.isIdent_iff.2 (by decide)
    have hannotations : Path.IsIdent "Annotations".toList := Path.isIdent_iff.2 (by decide)
    refine ⟨?_, ?_, ?_⟩
    · exact Path.read_label .workload hlabels (fun _ => rfl) hquote hbraces
        (by simp [← String.toList_inj, Owner.name]) (Option.bind_map ..)
    · exact Path.read_label .workload hannotations (fun _ => rfl) hquote hbraces
        (by simp [← String.toList_inj, Owner.name]) (Option.bind_map ..)
    · exact Path.read_label .node hlabels (fun _ => rfl) hquote hbraces
        (by simp [← String.toList_inj, Owner.name]) (Option.bind_map ..)
  · intro o field more hfield
    have hsame : ∀ p q : Path, p.segments = o.name :: "ObjectMeta" :: field :: more →
        q.segments = o.name :: field :: more → q.evaluate i.view = p.evaluate i.view := by
      intro p q hp hq
      rw [Path.evaluate, Path.evaluate, hp, hq, locate_promoted i hfield]
    refine ⟨hsame, fun rest hbraces hrest => ?_⟩
    have hmeta : Path.IsIdent "ObjectMeta".toList := Path.isIdent_iff.2 (by decide)
    have hbraces' : '\x7b' ∉ ("." ++ "ObjectMeta" ++ rest).toList ∧
        '\x7d' ∉ ("." ++ "ObjectMeta" ++ rest).toList := by simpa using hbraces
    obtain ⟨p, hp, hpsegments⟩ := Path.read_owner o hbraces' (Path.components_dotted hmeta hrest)
    obtain ⟨q, hq, hqsegments⟩ := Path.read_owner o hbraces hrest
    have hlong : "\x7b" ++ ("." ++ o.name ++ ("." ++ "ObjectMeta" ++ rest)) ++ "\x7d" =
        "\x7b." ++ o.name ++ ".ObjectMeta" ++ rest ++ "\x7d" := by simp [← String.toList_inj]
    have hshort : "\x7b" ++ ("." ++ o.name ++ rest) ++ "\x7d" =
        "\x7b." ++ o.name ++ rest ++ "\x7d" := by simp [← String.toList_inj]
    exact ⟨p, q, hlong ▸ hp, hshort ▸ hq, hsame p q hpsegments hqsegments⟩

/-- A key with marks of its own, of a workload whose node is not known. -/
theorem metadata_addressable_marks :
    let m : Metadata := { labels := Assoc.empty.put "a.b/c[\"ü\"]" "checkout" }
    let i : CostItem := ⟨.cpu, "CPUPricingStrategy", 42, some { metadata := m }, none⟩
    (∃ p, Path.read "\x7b.Pod.ObjectMeta.Labels['a.b/c[\"ü\"]']\x7d" = .ok p ∧
      p.evaluate i.view = "checkout") ∧
    (∃ p, Path.read "\x7b.Node.ObjectMeta.Labels['a.b/c[\"ü\"]']\x7d" = .ok p ∧
      p.evaluate i.view = "") ∧
    ∃ p q, Path.read "\x7b.Pod.ObjectMeta.Labels['a.b/c[\"ü\"]']\x7d" = .ok p ∧
      Path.read "\x7b.Pod.Labels['a.b/c[\"ü\"]']\x7d" = .ok q ∧
      q.evaluate i.view = p.evaluate i.view := by
  intro m i
  obtain ⟨hlabel, -, hnode⟩ :=
    (metadata_addressable i).1 "a.b/c[\"ü\"]" (by decide) (by decide)
  have hread : Path.components 21 false 0 ".Labels['a.b/c[\"ü\"]']".toList =
      .ok ["Labels", "a.b/c[\"ü\"]"] := by decide
  have hrest := (Path.components_eq_ok (by decide)).1 hread
  have hpromoted := ((metadata_addressable i).2 .workload "Labels" ["a.b/c[\"ü\"]"] (by decide)).2
    ".Labels['a.b/c[\"ü\"]']" (by decide) hrest
  exact ⟨hlabel, hnode, hpromoted⟩

end Chargeback
