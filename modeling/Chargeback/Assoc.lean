/-!
# Assoc — finite maps from texts

A finite map is the list of its entries in increasing order of their keys, so two maps with the
same entries are EQUAL, whatever the order in which they were put in, and listing a map gives
its keys in order. Keys compare by code points.
-/

namespace Chargeback

/-- A finite map from texts: entries in strictly increasing order of their keys. -/
structure Assoc (α : Type) where
  entries : List (String × α)
  sorted : entries.Pairwise fun a b => a.1 < b.1
  deriving DecidableEq, Repr

namespace Assoc

variable {α β : Type}

/-! ## Order of texts -/

theorem lt_of_not_lt_of_ne {a b : String} (h : ¬a < b) (hne : a ≠ b) : b < a := by
  rcases Classical.em (b < a) with h' | h'
  · exact h'
  · exact absurd (String.le_antisymm (String.not_lt.1 h') (String.not_lt.1 h)) hne

/-! ## Putting an entry into a list in order -/

/-- The list with an entry at the place of its key, instead of the entry there. -/
def putEntry (k : String) (v : α) : List (String × α) → List (String × α)
  | [] => [(k, v)]
  | e :: r =>
    if k < e.1 then (k, v) :: e :: r
    else if k = e.1 then (k, v) :: r
    else e :: putEntry k v r

theorem mem_putEntry {k : String} {v : α} {l : List (String × α)} {e : String × α}
    (h : e ∈ putEntry k v l) : e = (k, v) ∨ e ∈ l := by
  induction l with
  | nil => simpa [putEntry] using h
  | cons a r ih =>
    unfold putEntry at h
    split at h
    · simpa using h
    · split at h
      · rcases List.mem_cons.1 h with h | h
        · exact .inl h
        · exact .inr (List.mem_cons_of_mem _ h)
      · rcases List.mem_cons.1 h with h | h
        · exact .inr (h ▸ List.mem_cons_self)
        · exact (ih h).imp_right (List.mem_cons_of_mem _)

theorem pairwise_putEntry (k : String) (v : α) {l : List (String × α)}
    (h : l.Pairwise fun a b => a.1 < b.1) : (putEntry k v l).Pairwise fun a b => a.1 < b.1 := by
  induction l with
  | nil => simp [putEntry]
  | cons a r ih =>
    rcases List.pairwise_cons.1 h with ⟨ha, hr⟩
    unfold putEntry
    split
    next hlt =>
      refine List.pairwise_cons.2 ⟨fun b hb => ?_, h⟩
      rcases List.mem_cons.1 hb with hb | hb
      · exact hb ▸ hlt
      · exact String.lt_trans hlt (ha b hb)
    next hlt =>
      split
      next heq => exact List.pairwise_cons.2 ⟨fun b hb => heq ▸ ha b hb, hr⟩
      next hne =>
        refine List.pairwise_cons.2 ⟨fun b hb => ?_, ih hr⟩
        rcases mem_putEntry hb with hb | hb
        · exact hb ▸ lt_of_not_lt_of_ne hlt hne
        · exact ha b hb

/-! ## Operations -/

/-- The map without entries. -/
def empty : Assoc α := ⟨[], List.Pairwise.nil⟩

instance : Inhabited (Assoc α) := ⟨empty⟩

/-- Puts a value under a key, instead of the one there. -/
def put (k : String) (v : α) (m : Assoc α) : Assoc α :=
  ⟨putEntry k v m.entries, pairwise_putEntry k v m.sorted⟩

/-- The value under a key. -/
def get? (k : String) (m : Assoc α) : Option α := m.entries.lookup k

/-- The map of a list of entries; of several under one key the last counts. -/
def ofList (l : List (String × α)) : Assoc α := l.foldl (fun m e => m.put e.1 e.2) empty

/-- The keys in order. -/
def keys (m : Assoc α) : List String := m.entries.map Prod.fst

/-- No entry at all. -/
def isEmpty (m : Assoc α) : Bool := m.entries.isEmpty

/-- A value for every value. -/
def map (f : α → β) (m : Assoc α) : Assoc β :=
  ⟨m.entries.map fun e => (e.1, f e.2), by
    rw [List.pairwise_map]; exact m.sorted⟩

/-! ## What is found -/

theorem lookup_cons_eq (j : String) (e : String × α) (l : List (String × α)) :
    (e :: l).lookup j = if j = e.1 then some e.2 else l.lookup j := by
  rw [List.lookup_cons]
  split
  next h => rw [if_pos (by simpa using h)]
  next h => rw [if_neg (by simpa using h)]

theorem lookup_putEntry (j k : String) (v : α) (l : List (String × α)) :
    (putEntry k v l).lookup j = if j = k then some v else l.lookup j := by
  induction l with
  | nil => rw [putEntry, lookup_cons_eq]
  | cons e r ih =>
    unfold putEntry
    split
    · rw [lookup_cons_eq]
    · split
      next heq =>
        rw [lookup_cons_eq, lookup_cons_eq, heq]
        split <;> rfl
      next hne =>
        rw [lookup_cons_eq, lookup_cons_eq, ih]
        split
        next hj => rw [if_neg fun h => hne (h.symm.trans hj)]
        next => rfl

@[simp] theorem get?_empty (k : String) : (empty : Assoc α).get? k = none := rfl

theorem get?_put (j k : String) (v : α) (m : Assoc α) :
    (m.put k v).get? j = if j = k then some v else m.get? j := lookup_putEntry j k v m.entries

@[simp] theorem get?_map (f : α → β) (k : String) (m : Assoc α) :
    (m.map f).get? k = (m.get? k).map f := by
  obtain ⟨l, h⟩ := m
  simp only [get?, map]
  clear h
  induction l with
  | nil => rfl
  | cons e r ih =>
    rw [List.map_cons, lookup_cons_eq, lookup_cons_eq, ih]
    split <;> rfl

/-! ## Entries in order -/

theorem putEntry_of_last {k : String} {v : α} {l : List (String × α)} (h : ∀ e ∈ l, e.1 < k) :
    putEntry k v l = l ++ [(k, v)] := by
  induction l with
  | nil => rfl
  | cons e r ih =>
    obtain ⟨he, hr⟩ := List.forall_mem_cons.1 h
    have hne : k ≠ e.1 := fun heq => String.lt_irrefl _ (heq ▸ he)
    rw [putEntry, if_neg (String.lt_asymm he), if_neg hne, ih hr, List.cons_append]

theorem entries_foldl_put {l : List (String × α)} (m : Assoc α)
    (h : (m.entries ++ l).Pairwise fun a b => a.1 < b.1) :
    (l.foldl (fun m e => m.put e.1 e.2) m).entries = m.entries ++ l := by
  induction l generalizing m with
  | nil => simp
  | cons e r ih =>
    have hlast : putEntry e.1 e.2 m.entries = m.entries ++ [e] :=
      putEntry_of_last fun a ha => (List.pairwise_append.1 h).2.2 a ha e List.mem_cons_self
    have hput : (m.put e.1 e.2).entries ++ r = m.entries ++ e :: r := by
      change putEntry e.1 e.2 m.entries ++ r = _
      rw [hlast, List.append_assoc, List.singleton_append]
    rw [List.foldl_cons, ih (m.put e.1 e.2) (hput ▸ h), hput]

/-- Entries in order are put together to the map they are from. -/
theorem ofList_entries (m : Assoc α) : ofList m.entries = m := by
  have hentries : (ofList m.entries).entries = m.entries := by
    rw [ofList, entries_foldl_put empty (by simpa [empty] using m.sorted)]
    rfl
  cases hm : ofList m.entries
  cases m
  simpa [hm] using hentries

end Assoc

/-- Texts under texts: the labels of an object, the dimensions of a record. -/
abbrev Labels := Assoc String

end Chargeback
