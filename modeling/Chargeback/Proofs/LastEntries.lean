import Chargeback.Assoc
import Mathlib.Data.List.Induction
import Mathlib.Data.List.Nodup

/-!
# Maps filled from lists

A map that the members of a list are put into one after the other, each under its own key, keeps of
every key the LAST member that has it. Which member that is can be said of the list alone
(`IsLast`), and the map is told by it: what is found under a key (`get?_foldl_put`), what is
listed (`mem_entries`), and that nothing is listed twice (`nodup_keys`).
-/

namespace Chargeback

section LastMember

variable {α κ : Type} {key : α → κ} {l : List α} {a b : α} {k : κ}

/-- A member of a list such that none with the same key comes after it. -/
def IsLast (key : α → κ) (l : List α) (a : α) : Prop :=
  ∃ before after, l = before ++ a :: after ∧ ∀ b ∈ after, key b ≠ key a

theorem IsLast.mem (h : IsLast key l a) : a ∈ l := by
  obtain ⟨before, after, rfl, -⟩ := h
  exact List.mem_append_right _ List.mem_cons_self

variable [DecidableEq κ]

/-- With distinct keys a member is the only one with its key. -/
theorem filter_key_of_nodup (hkeys : (l.map key).Nodup) (h : a ∈ l) :
    l.filter (key · = key a) = [a] := by
  induction l with
  | nil => cases h
  | cons b l ih =>
      rw [List.map_cons, List.nodup_cons] at hkeys
      obtain ⟨hb, hkeys⟩ := hkeys
      rcases List.mem_cons.1 h with rfl | h
      · have hrest : l.filter (key · = key a) = [] := List.filter_eq_nil_iff.2 fun c hc hkey =>
          hb (of_decide_eq_true hkey ▸ List.mem_map_of_mem hc)
        rw [List.filter_cons, if_pos (decide_eq_true rfl), hrest]
      · have hne : key b ≠ key a := fun hkey => hb (hkey ▸ List.mem_map_of_mem h)
        rw [List.filter_cons_of_neg (by simpa using hne), ih hkeys h]

/-- The last member with a key is a last member, and the other way round. -/
theorem getLast?_filter_eq_some :
    (l.filter (key · = k)).getLast? = some a ↔ IsLast key l a ∧ key a = k := by
  rw [List.getLast?_eq_some_iff]
  constructor
  · rintro ⟨earlier, hfilter⟩
    obtain ⟨before, rest, rfl, -, hrest⟩ := List.filter_eq_append_iff.1 hfilter
    obtain ⟨others, after, rfl, -, ha, hafter⟩ := List.filter_eq_cons_iff.1 hrest
    have ha : key a = k := of_decide_eq_true ha
    refine ⟨⟨before ++ others, after, by simp, fun b hb hkey => ?_⟩, ha⟩
    exact List.filter_eq_nil_iff.1 hafter b hb (decide_eq_true (hkey.trans ha))
  · rintro ⟨⟨before, after, rfl, hafter⟩, rfl⟩
    have hnone : after.filter (key · = key a) = [] :=
      List.filter_eq_nil_iff.2 fun b hb => by simpa using hafter b hb
    exact ⟨before.filter (key · = key a), by simp [hnone]⟩

/-- A key that some member has is the key of a last one. -/
theorem exists_isLast (h : a ∈ l) : ∃ b, IsLast key l b ∧ key b = key a := by
  have hne : l.filter (key · = key a) ≠ [] :=
    List.ne_nil_of_mem (List.mem_filter.2 ⟨h, decide_eq_true rfl⟩)
  obtain ⟨b, hb⟩ := Option.isSome_iff_exists.1 (List.getLast?_isSome.2 hne)
  exact ⟨b, getLast?_filter_eq_some.1 hb⟩

end LastMember

namespace Assoc

variable {α β : Type} {m : Assoc α} {k : String} {v : α}

theorem nodup_keys (m : Assoc α) : m.keys.Nodup := by
  have hsorted : m.keys.Pairwise (· < ·) := List.pairwise_map.2 m.sorted
  show m.keys.Pairwise (· ≠ ·)
  refine hsorted.imp ?_
  rintro k _ hlt rfl
  exact String.lt_irrefl k hlt

theorem mem_entries : (k, v) ∈ m.entries ↔ m.get? k = some v := by
  obtain ⟨l, hsorted⟩ := m
  show (k, v) ∈ l ↔ l.lookup k = some v
  induction l with
  | nil => simp
  | cons e l ih =>
      obtain ⟨he, hl⟩ := List.pairwise_cons.1 hsorted
      rw [lookup_cons_eq, List.mem_cons, ih hl]
      by_cases hk : k = e.1
      · have hrest : l.lookup k ≠ some v := fun h => by
          have hlt : e.1 < k := he _ ((ih hl).2 h)
          exact String.lt_irrefl _ (hk ▸ hlt)
        rw [if_pos hk]
        constructor
        · rintro (rfl | h)
          · rfl
          · exact absurd h hrest
        · intro h
          exact .inl (Prod.ext hk (Option.some.inj h).symm)
      · rw [if_neg hk]
        exact or_iff_right fun h => hk (congrArg Prod.fst h)

theorem mem_keys : k ∈ m.keys ↔ ∃ v, m.get? k = some v := by
  rw [keys, List.mem_map]
  constructor
  · rintro ⟨⟨_, v⟩, he, rfl⟩
    exact ⟨v, mem_entries.1 he⟩
  · rintro ⟨v, hv⟩
    exact ⟨(k, v), mem_entries.2 hv, rfl⟩

/-- Of several members put under one key the last one counts. -/
theorem get?_foldl_put (key : β → String) (f : β → α) (l : List β) (k : String) :
    (l.foldl (fun m b => m.put (key b) (f b)) empty).get? k =
      (l.filter (key · = k)).getLast?.map f := by
  induction l using List.reverseRecOn with
  | nil => rfl
  | append_singleton l b ih =>
      rw [List.foldl_append, List.foldl_cons, List.foldl_nil, get?_put, ih, List.filter_append]
      by_cases h : key b = k
      · simp [h]
      · simp [h, Ne.symm h]

theorem get?_ofList (l : List (String × α)) (k : String) :
    (ofList l).get? k = (l.filter (·.1 = k)).getLast?.map Prod.snd :=
  get?_foldl_put Prod.fst Prod.snd l k

/-- With distinct keys every entry of the list is found. -/
theorem get?_ofList_of_nodup {l : List (String × α)} (hkeys : (l.map Prod.fst).Nodup)
    (h : (k, v) ∈ l) : (ofList l).get? k = some v := by
  have hfilter : l.filter (·.1 = k) = [(k, v)] := filter_key_of_nodup hkeys h
  rw [get?_ofList, hfilter]
  rfl

theorem mem_keys_ofList {l : List (String × α)} : k ∈ (ofList l).keys ↔ k ∈ l.map Prod.fst := by
  rw [mem_keys, List.mem_map]
  constructor
  · rintro ⟨v, hv⟩
    rw [get?_ofList, Option.map_eq_some_iff] at hv
    obtain ⟨e, he, rfl⟩ := hv
    obtain ⟨hlast, hkey⟩ := getLast?_filter_eq_some.1 he
    exact ⟨e, hlast.mem, hkey⟩
  · rintro ⟨e, he, rfl⟩
    obtain ⟨b, hb, hkey⟩ : ∃ b, IsLast Prod.fst l b ∧ b.1 = e.1 := exists_isLast he
    exact ⟨b.2, by rw [get?_ofList, getLast?_filter_eq_some.2 ⟨hb, hkey⟩]; rfl⟩

/-- Maps with the same keys list them in the same order. -/
theorem keys_eq {m' : Assoc β} (h : ∀ k, k ∈ m.keys ↔ k ∈ m'.keys) : m.keys = m'.keys := by
  have hsorted : m.keys.Pairwise (· < ·) := List.pairwise_map.2 m.sorted
  have hsorted' : m'.keys.Pairwise (· < ·) := List.pairwise_map.2 m'.sorted
  refine List.Perm.eq_of_pairwise (fun j k _ _ hjk hkj => ?_) hsorted hsorted'
    ((List.perm_ext_iff_of_nodup m.nodup_keys m'.nodup_keys).2 h)
  exact absurd hkj (String.lt_asymm hjk)

/-- A map is told by its keys and the values in their order. -/
theorem eq_of_keys_values {m' : Assoc α} (hkeys : m.keys = m'.keys)
    (hvalues : m.entries.map Prod.snd = m'.entries.map Prod.snd) : m = m' := by
  have hentries : m.entries = m'.entries := by
    rw [← List.zip_unzip m.entries, ← List.zip_unzip m'.entries, List.unzip_eq_map,
      List.unzip_eq_map, hvalues]
    exact congrArg (List.zip · _) hkeys
  obtain ⟨l, hsorted⟩ := m
  cases hentries
  rfl

end Assoc

end Chargeback
