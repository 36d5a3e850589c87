import Chargeback.Proofs.StatementReading
import Mathlib.Data.List.Nodup

/-!
# The columns that a statement names

The statement that creates the table defines its columns, each by a name and a type; the one that
inserts rows names them alone. A database takes the names from a list in parentheses, and so does
the reader here: each item has its name in front, and an item ends at a comma or at the closing
parenthesis of the list, not at those of a type such as `DateTime64(3, 'UTC')`.

Both statements are read as naming the same columns (`readColumns?_createTable`,
`readColumns?_insert`), of which none stands there twice (`nodup_columns`). The text for the table is
not looked at, so this holds for every table.
-/

namespace Chargeback.Sql

/-! ## Reading the names -/

theorem Token.eq_word_of_name? {t : Token} {w : String} (h : t.name? = some w) : t = .word w := by
  cases t with
  | word v => exact congrArg Token.word (Option.some.inj h)
  | _ => cases h

/-- The words in front of items with commas between them, up to the closing parenthesis. The depth is
that of parentheses within an item, and there is none before the item has begun. -/
def firstWords? : Option Nat → List Token → Option (List String)
  | none, .word w :: ts => (firstWords? (some 0) ts).map (w :: ·)
  | some depth, .mark c :: ts =>
    if c == '(' then firstWords? (some (depth + 1)) ts
    else match depth with
      | 0 => if c == ')' then some [] else firstWords? none ts
      | d + 1 => firstWords? (some (if c == ')' then d else d + 1)) ts
  | some depth, _ :: ts => firstWords? (some depth) ts
  | _, _ => none

/-- What follows the head of a statement, if it has that head. -/
def afterHead? (head statement : String) : Option (List Char) :=
  if head.toList.isPrefixOf statement.toList then some (statement.toList.drop head.toList.length)
  else none

theorem afterHead?_append (head rest : String) : afterHead? head (head ++ rest) = some rest.toList := by
  have hprefix : head.toList.isPrefixOf (head.toList ++ rest.toList) = true :=
    List.isPrefixOf_iff_prefix.2 (List.prefix_append _ _)
  rw [afterHead?, String.toList_append, if_pos hprefix, List.drop_left]

/-- The names in the list in parentheses after the head of a statement. -/
def readColumns? (head statement : String) : Option (List String) :=
  match (afterHead? head statement).bind tokens? with
  | some (.mark '(' :: ts) => firstWords? none ts
  | _ => none

/-- The head of a statement is as it stands; only what follows it is read. -/
theorem readColumns?_append (head : String) {list : String} {ts : List Token}
    (hlist : tokens? list.toList = some ts) :
    readColumns? head (head ++ (" (" ++ list)) = firstWords? none ts := by
  have hopen : tokens? (" (" ++ list).toList = some (.mark '(' :: ts) := by
    have hchars : (" (" ++ list).toList = ' ' :: '(' :: list.toList := by simp
    rw [hchars, tokens?_blank, tokens?_mark (by decide), hlist, Option.map_some]
  rw [readColumns?, afterHead?_append, Option.bind_some, hopen]
  rfl

/-- Names alone are read one by one. -/
theorem firstWords?_of_items? {us ts : List Token} {names : List String}
    (h : items? Token.name? us = some (names, ts)) : firstWords? none us = some names := by
  fun_induction items? Token.name? us generalizing names with
  | case1 t c r hclose =>
      obtain ⟨w, hw, heq⟩ := Option.map_eq_some_iff.1 h
      obtain ⟨rfl, -⟩ : [w] = names ∧ r = ts := by simpa using heq
      obtain rfl := Token.eq_word_of_name? hw
      obtain rfl : c = ')' := by simpa using hclose
      rfl
  | case2 t c r hclose hcomma ih =>
      obtain ⟨w, hw, hmap⟩ := Option.bind_eq_some_iff.1 h
      obtain ⟨⟨names', ts'⟩, hrest, heq⟩ := Option.map_eq_some_iff.1 hmap
      obtain ⟨rfl, rfl⟩ : w :: names' = names ∧ ts' = ts := by simpa using heq
      obtain rfl := Token.eq_word_of_name? hw
      obtain rfl : c = ',' := by simpa using hcomma
      simp [firstWords?, ih hrest]
  | case3 => cases h
  | case4 => cases h

/-! ## Definitions of columns -/

/-- The type of a column is passed over. -/
def PassedOver (type : String) : Prop :=
  ∀ rest ts, EndsWord rest → tokens? rest = some ts →
    ∃ us, tokens? (type.toList ++ rest) = some us ∧
      firstWords? (some 0) us = firstWords? (some 0) ts

theorem passedOver_of_word {w : String} (hne : w.toList ≠ [])
    (hw : w.toList.all isWordChar = true) : PassedOver w := by
  intro rest ts hends hrest
  obtain ⟨t, ht, hname⟩ :=
    readsAs_word_of_class (p := isWordChar) (by decide) hne (List.all_eq_true.1 hw) rest ts hends hrest
  obtain rfl := Token.eq_word_of_name? hname
  exact ⟨_, ht, rfl⟩

theorem passedOver_dateTime : PassedOver "DateTime64(3, 'UTC')" := by
  intro rest ts _ hrest
  refine ⟨[.word "DateTime64", .mark '(', .word "3", .mark ',', .text "UTC", .mark ')'] ++ ts,
    ?_, by simp [firstWords?]⟩
  simp [tokens?, isMark, isPlain, readText?, hrest]

theorem passedOver_lowCardinality : PassedOver "LowCardinality(String)" := by
  intro rest ts _ hrest
  refine ⟨[.word "LowCardinality", .mark '(', .word "String", .mark ')'] ++ ts,
    ?_, by simp [firstWords?]⟩
  simp [tokens?, isMark, isPlain, hrest]

/-- The text begins with the name given, and the rest of it is passed over. -/
def Declares (definition name : String) : Prop :=
  ∀ rest ts, EndsWord rest → tokens? rest = some ts →
    ∃ us, tokens? (definition.toList ++ rest) = some (.word name :: us) ∧
      firstWords? (some 0) us = firstWords? (some 0) ts

theorem PassedOver.declares {name type : String} (htype : PassedOver type)
    (hname : ReadsAs Token.name? name name) : Declares (name ++ (" " ++ type)) name := by
  intro rest ts hends hrest
  obtain ⟨us, hus, hpass⟩ := htype rest ts hends hrest
  obtain ⟨t, ht, hword⟩ :=
    hname (' ' :: (type.toList ++ rest)) us (by simp [EndsWord, isPlain]) (by rw [tokens?_blank, hus])
  obtain rfl := Token.eq_word_of_name? hword
  exact ⟨us, by simpa using ht, hpass⟩

/-- The definitions of the columns of a table. -/
def definitions (destinations : List String) : List String :=
  ["end_time DateTime64(3, 'UTC')", "kind LowCardinality(String)",
    "strategy LowCardinality(String)", "value Int64", "dimensions String"] ++
    destinations.map fun d => dimensionColumn d ++ " String"

theorem declares_definitions {destinations : List String}
    (h : ∀ d ∈ destinations, isIdentifier d = true) :
    List.Forall₂ Declares (definitions destinations) (columns destinations) := by
  have hname := readsAs_columns h
  have hnumber : PassedOver "Int64" := passedOver_of_word (by decide) (by decide)
  have htext : PassedOver "String" := passedOver_of_word (by decide) (by decide)
  refine List.rel_append (.cons (passedOver_dateTime.declares (hname "end_time" ?_))
    (.cons (passedOver_lowCardinality.declares (hname "kind" ?_))
    (.cons (passedOver_lowCardinality.declares (hname "strategy" ?_))
    (.cons (hnumber.declares (hname "value" ?_))
    (.cons (htext.declares (hname "dimensions" ?_)) .nil))))) ?_
  · simp [columns]
  · simp [columns]
  · simp [columns]
  · simp [columns]
  · simp [columns]
  · rw [List.forall₂_map_left_iff, List.forall₂_map_right_iff, List.forall₂_same]
    intro d hd
    exact htext.declares (hname _ (List.mem_append_right _ (List.mem_map_of_mem hd)))

/-- Definitions with commas between them up to a closing parenthesis are read one by one. -/
theorem firstWords?_intercalate {items names : List String} (h : List.Forall₂ Declares items names)
    (hne : items ≠ []) {rest : List Char} {ts : List Token} (hrest : tokens? rest = some ts) :
    ∃ us, tokens? ((", ".intercalate items).toList ++ ')' :: rest) = some us ∧
      firstWords? none us = some names := by
  induction h with
  | nil => exact absurd rfl hne
  | @cons s name items names hs hitems ih =>
      cases hitems with
      | nil =>
          have hclose : tokens? (')' :: rest) = some (.mark ')' :: ts) := by
            rw [tokens?_mark (by decide), hrest, Option.map_some]
          obtain ⟨us, hus, hpass⟩ := hs (')' :: rest) _ (by simp [EndsWord, isPlain, isMark]) hclose
          refine ⟨_, by rw [String.intercalate_singleton, hus], ?_⟩
          rw [firstWords?, hpass]
          rfl
      | @cons s' name' items names hs' hitems =>
          obtain ⟨us, hus, hread⟩ := ih (by simp)
          have hcomma : tokens? (',' :: ' ' :: ((", ".intercalate (s' :: items)).toList ++
              ')' :: rest)) = some (.mark ',' :: us) := by
            rw [tokens?_mark (by decide), tokens?_blank, hus, Option.map_some]
          obtain ⟨vs, hvs, hpass⟩ := hs _ _ (by simp [EndsWord, isPlain, isMark]) hcomma
          refine ⟨.word name :: vs, ?_, ?_⟩
          · rw [String.intercalate_cons_cons]
            simpa using hvs
          · rw [firstWords?, hpass]
            simp [firstWords?, hread]

/-! ## The two statements -/

variable {destinations : List String}

/-- What follows the definitions of the columns. -/
def engine : String := " ENGINE = MergeTree ORDER BY (kind, strategy, end_time)"

theorem tokens?_engine : tokens? engine.toList =
    some [.word "ENGINE", .word "=", .word "MergeTree", .word "ORDER", .word "BY", .mark '(',
      .word "kind", .mark ',', .word "strategy", .mark ',', .word "end_time", .mark ')'] := by
  simp [engine, tokens?, isMark, isPlain]

theorem createTable_eq (table : String) (destinations : List String) :
    createTable table destinations = "CREATE TABLE IF NOT EXISTS " ++ table ++
      (" (" ++ (", ".intercalate (definitions destinations) ++ (")" ++ engine))) := by
  have hopen : createTable table destinations = "CREATE TABLE IF NOT EXISTS " ++ table ++ " (" ++
      ", ".intercalate (definitions destinations) ++ (")" ++ engine) := rfl
  rw [hopen]
  generalize ")" ++ engine = rest
  simp only [String.append_assoc]

/-- The statement that creates a table defines the columns of its rows. -/
theorem readColumns?_createTable (h : ∀ d ∈ destinations, isIdentifier d = true) (table : String) :
    readColumns? ("CREATE TABLE IF NOT EXISTS " ++ table) (createTable table destinations) =
      some (columns destinations) := by
  obtain ⟨us, hus, hread⟩ := firstWords?_intercalate (declares_definitions h)
    (List.cons_ne_nil _ _) tokens?_engine
  have hlist : tokens? (", ".intercalate (definitions destinations) ++ (")" ++ engine)).toList =
      some us := by
    rw [← hus]
    simp
  rw [createTable_eq, readColumns?_append _ hlist, hread]

/-- The rows of an insert statement are pieces that can be told apart, however many there are. -/
theorem tokens?_rows (destinations : List String) (rs : List CostRecord) :
    ∃ us, tokens? (" VALUES " ++ ", ".intercalate (rs.map (row destinations))).toList = some us := by
  have hvalues : ReadsAs Token.name? "VALUES" "VALUES" :=
    readsAs_word_of_class (p := isWordChar) (by decide) (by decide)
      (List.all_eq_true.1 (by decide : "VALUES".toList.all isWordChar = true))
  obtain ⟨ts, hts⟩ : ∃ ts, tokens? (", ".intercalate (rs.map (row destinations))).toList =
      some ts := by
    by_cases hne : rs = []
    · subst hne
      exact ⟨[], by simp [tokens?]⟩
    · obtain ⟨ts, hts, -⟩ := rows?_intercalate destinations hne
      exact ⟨ts, hts⟩
  obtain ⟨t, ht, -⟩ := hvalues (' ' :: _) ts (by simp [EndsWord, isPlain])
    ((tokens?_blank _).trans hts)
  exact ⟨t :: ts, by simpa [tokens?_blank] using ht⟩

/-- The statement that inserts rows names the columns of the rows. -/
theorem readColumns?_insert (h : ∀ d ∈ destinations, isIdentifier d = true) (table : String)
    (rs : List CostRecord) :
    readColumns? ("INSERT INTO " ++ table) (insert table destinations rs) =
      some (columns destinations) := by
  obtain ⟨ts, hts⟩ := tokens?_rows destinations rs
  obtain ⟨us, hus, hread⟩ := items?_intercalate (List.forall₂_same.2 (readsAs_columns h))
    (List.cons_ne_nil _ _) hts
  have hlist : tokens? (", ".intercalate (columns destinations) ++ (")" ++
      (" VALUES " ++ ", ".intercalate (rs.map (row destinations))))).toList = some us := by
    rw [← hus]
    simp
  have hstatement : insert table destinations rs = "INSERT INTO " ++ table ++
      (" (" ++ (", ".intercalate (columns destinations) ++ (")" ++
        (" VALUES " ++ ", ".intercalate (rs.map (row destinations)))))) := by
    simp only [insert, insertHead, String.append_assoc]
  rw [hstatement, readColumns?_append _ hlist, firstWords?_of_items? hread]

/-! ## The names -/

theorem isIdentifier_columns (h : ∀ d ∈ destinations, isIdentifier d = true) :
    ∀ c ∈ columns destinations, isIdentifier c = true := by
  intro c hc
  rcases List.mem_append.1 hc with hc | hc
  · exact (by decide : ∀ c ∈ ["end_time", "kind", "strategy", "value", "dimensions"],
      isIdentifier c = true) c hc
  · obtain ⟨d, hd, rfl⟩ := List.mem_map.1 hc
    have hword := List.all_eq_true.2 (isWordChar_of_isIdentifier (h d hd)).2
    simp [isIdentifier, dimensionColumn, hword]
    decide

theorem dimensionColumn_injective : Function.Injective dimensionColumn := by
  intro d e h
  exact (String.append_right_inj "dimensions_").1 h

/-- A column of a dimension has more than the prefix in its name, and the other columns have less. -/
theorem dimensionColumn_ne {c d : String} (hd : d ≠ "")
    (hc : c ∈ ["end_time", "kind", "strategy", "value", "dimensions"]) : c ≠ dimensionColumn d := by
  have hshort : ∀ c ∈ ["end_time", "kind", "strategy", "value", "dimensions"], c.length ≤ 11 := by
    decide
  have hlong : (dimensionColumn d).length = 11 + d.length := by
    rw [dimensionColumn, String.length_append]
    rfl
  have hpos : 0 < d.length := Nat.pos_of_ne_zero fun h => hd (String.length_eq_zero_iff.1 h)
  rintro rfl
  have := hshort _ hc
  omega

/-- No column stands for two dimensions, or for a dimension and something else. -/
theorem nodup_columns (hne : ∀ d ∈ destinations, d ≠ "") (h : destinations.Nodup) :
    (columns destinations).Nodup := by
  refine List.nodup_append.2 ⟨by decide, h.map dimensionColumn_injective, ?_⟩
  intro c hfixed _ hc
  obtain ⟨d, hd, rfl⟩ := List.mem_map.1 hc
  exact dimensionColumn_ne (hne d hd) hfixed

end Chargeback.Sql
