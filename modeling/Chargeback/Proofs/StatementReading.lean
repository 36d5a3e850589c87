import Chargeback.Dimension.Mapping
import Chargeback.Export.Sql
import Chargeback.Proofs.DigitText
import Chargeback.Proofs.ValidatedSettings
import Mathlib.Data.List.Forall2

/-!
# What a database reads in an insert statement

A database splits a statement into words, punctuation and quoted texts. A quoted text ends at the
first quote that is not escaped, and a backslash makes the character after it stand for itself;
this is the only rule by which texts from outside could leave their place in the statement.

The reader here knows nothing of how statements are written. Read by it, the statement for a list
of records has one row for each record in their order, with a value for every column, and every
text has the value that it had in the record, whatever its characters (`readInsert?_insert`).
-/

namespace Chargeback.Sql

/-! ## Splitting a statement -/

/-- A piece of a statement. -/
inductive Token where
  | word (s : String)
  | text (s : String)
  | mark (c : Char)
  deriving DecidableEq, Repr

/-- Punctuation. -/
def isMark (c : Char) : Bool := c == '(' || c == ')' || c == ','

/-- The character may stand in a word. -/
def isPlain (c : Char) : Bool := c != ' ' && c != '\'' && !isMark c

/-- The value of a quoted text after its opening quote, and what follows the closing one. -/
def readText? : List Char → Option (List Char × List Char)
  | [] => none
  | c :: r =>
    if c == '\'' then some ([], r)
    else if c == '\\' then
      match r with
      | [] => none
      | d :: r => (readText? r).map fun (s, t) => (d :: s, t)
    else (readText? r).map fun (s, t) => (c :: s, t)

theorem length_readText? {r s t : List Char} (h : readText? r = some (s, t)) :
    t.length < r.length := by
  fun_induction readText? r generalizing s with
  | case1 => cases h
  | case2 c r hquote =>
      obtain ⟨rfl, rfl⟩ : [] = s ∧ r = t := by simpa using h
      simp
  | case3 => cases h
  | case4 c hquote hescape d r ih =>
      obtain ⟨⟨s', t'⟩, hrest, heq⟩ := Option.map_eq_some_iff.1 h
      obtain ⟨rfl, rfl⟩ : d :: s' = s ∧ t' = t := by simpa using heq
      have := ih hrest
      simp only [List.length_cons]
      omega
  | case5 c r hquote hescape ih =>
      obtain ⟨⟨s', t'⟩, hrest, heq⟩ := Option.map_eq_some_iff.1 h
      obtain ⟨rfl, rfl⟩ : c :: s' = s ∧ t' = t := by simpa using heq
      have := ih hrest
      simp only [List.length_cons]
      omega

/-- The pieces of a statement. -/
def tokens? : List Char → Option (List Token)
  | [] => some []
  | c :: r =>
    if c == ' ' then tokens? r
    else if isMark c then (tokens? r).map (.mark c :: ·)
    else if c == '\'' then
      match _h : readText? r with
      | none => none
      | some (s, t) => (tokens? t).map (.text (String.ofList s) :: ·)
    else (tokens? (r.dropWhile isPlain)).map (.word (String.ofList (c :: r.takeWhile isPlain)) :: ·)
termination_by s => s.length
decreasing_by
  · simp
  · simp
  · have := length_readText? _h
    simp only [List.length_cons]
    omega
  · have := (List.dropWhile_suffix isPlain (l := r)).length_le
    simp only [List.length_cons]
    omega

/-! ## Reading an insert statement -/

/-- A value in a row. -/
inductive Value where
  | text (s : String)
  | number (i : Int)
  deriving DecidableEq, Repr

/-- The value that a piece of a statement denotes. -/
def Token.value? : Token → Option Value
  | .text s => some (.text s)
  | .word w => (Decimal.readInt? w.toList).map .number
  | .mark _ => none

/-- The name that a piece of a statement is. -/
def Token.name? : Token → Option String
  | .word w => some w
  | _ => none

/-- Items with commas between them up to a closing parenthesis, and what follows it. -/
def items? {α : Type} (item? : Token → Option α) : List Token → Option (List α × List Token)
  | t :: .mark c :: r =>
    if c == ')' then (item? t).map fun a => ([a], r)
    else if c == ',' then (item? t).bind fun a => (items? item? r).map fun (as, r) => (a :: as, r)
    else none
  | _ => none

theorem length_items? {α : Type} {item? : Token → Option α} {ts rest : List Token} {as : List α}
    (h : items? item? ts = some (as, rest)) : rest.length < ts.length := by
  fun_induction items? item? ts generalizing as with
  | case1 t c r hclose =>
      obtain ⟨a, -, heq⟩ := Option.map_eq_some_iff.1 h
      obtain ⟨-, rfl⟩ : [a] = as ∧ r = rest := by simpa using heq
      simp only [List.length_cons]
      omega
  | case2 t c r hclose hcomma ih =>
      obtain ⟨a, -, hmap⟩ := Option.bind_eq_some_iff.1 h
      obtain ⟨⟨as', rest'⟩, hrest, heq⟩ := Option.map_eq_some_iff.1 hmap
      obtain ⟨-, rfl⟩ : a :: as' = as ∧ rest' = rest := by simpa using heq
      have := ih hrest
      simp only [List.length_cons]
      omega
  | case3 => cases h
  | case4 => cases h

/-- Rows in parentheses with commas between them, up to the end. -/
def rows? : List Token → Option (List (List Value))
  | .mark '(' :: r =>
    match _h : items? Token.value? r with
    | some (row, []) => some [row]
    | some (row, .mark ',' :: r) => (rows? r).map (row :: ·)
    | _ => none
  | _ => none
termination_by ts => ts.length
decreasing_by
  have := length_items? _h
  simp only [List.length_cons] at this ⊢
  omega

/-- What an insert statement says. -/
structure InsertStatement where
  table : String
  columns : List String
  rows : List (List Value)
  deriving DecidableEq, Repr

/-- Reads an insert statement. -/
def readInsert? (statement : String) : Option InsertStatement :=
  match tokens? statement.toList with
  | some (.word insertWord :: .word into :: .word table :: .mark '(' :: r) =>
    match items? Token.name? r with
    | some (columns, .word values :: r) =>
      if insertWord == "INSERT" && into == "INTO" && values == "VALUES" then
        (rows? r).map fun rows => { table, columns, rows }
      else none
    | _ => none
  | _ => none

/-! ## Quoted texts -/

theorem readText?_quote (r : List Char) : readText? ('\'' :: r) = some ([], r) := by
  rw [readText?.eq_def]
  rfl

theorem readText?_escape (d : Char) (r : List Char) :
    readText? ('\\' :: d :: r) = (readText? r).map fun (s, t) => (d :: s, t) := by
  rw [readText?.eq_def]
  rfl

theorem readText?_other {c : Char} (hquote : c ≠ '\'') (hescape : c ≠ '\\') (r : List Char) :
    readText? (c :: r) = (readText? r).map fun (s, t) => (c :: s, t) := by
  rw [readText?.eq_def]
  simp [hquote, hescape]

theorem escapedChar_other {c : Char} (hquote : c ≠ '\'') (hescape : c ≠ '\\') :
    escapedChar c = [c] := by
  simp [escapedChar, hquote, hescape]

/-- A text in which every mark is replaced by something. -/
def replaceAll (mark : Char) (replacement s : List Char) : List Char :=
  s.flatMap fun c => if c == mark then replacement else [c]

/-- Escaping is to replace the backslashes and then the quotes: what the first step writes is left
alone by the second. -/
theorem toList_escape (s : String) :
    (escape s).toList =
      replaceAll '\'' ['\\', '\''] (replaceAll '\\' ['\\', '\\'] s.toList) := by
  rw [escape, String.toList_ofList, replaceAll, replaceAll, List.flatMap_assoc]
  refine List.flatMap_congr fun c _ => ?_
  by_cases hescape : c = '\\'
  · subst hescape
    rfl
  · simp [escapedChar, hescape]

/-- A text that was escaped ends at its own closing quote and at no quote before. -/
theorem readText?_escaped (cs rest : List Char) :
    readText? (cs.flatMap escapedChar ++ '\'' :: rest) = some (cs, rest) := by
  induction cs with
  | nil => exact readText?_quote rest
  | cons c cs ih =>
      rw [List.flatMap_cons, List.append_assoc]
      by_cases hescape : c = '\\'
      · subst hescape
        rw [show escapedChar '\\' = ['\\', '\\'] from rfl, List.cons_append, List.cons_append,
          List.nil_append, readText?_escape, ih, Option.map_some]
      by_cases hquote : c = '\''
      · subst hquote
        rw [show escapedChar '\'' = ['\\', '\''] from rfl, List.cons_append, List.cons_append,
          List.nil_append, readText?_escape, ih, Option.map_some]
      · rw [escapedChar_other hquote hescape, List.singleton_append,
          readText?_other hquote hescape, ih, Option.map_some]

/-- Text without quotes and backslashes needs no escapes. -/
theorem readText?_plain {cs : List Char} (hquote : '\'' ∉ cs) (hescape : '\\' ∉ cs)
    (rest : List Char) : readText? (cs ++ '\'' :: rest) = some (cs, rest) := by
  induction cs with
  | nil => exact readText?_quote rest
  | cons c cs ih =>
      simp only [List.mem_cons, not_or] at hquote hescape
      rw [List.cons_append, readText?_other (Ne.symm hquote.1) (Ne.symm hescape.1),
        ih hquote.2 hescape.2, Option.map_some]

/-! ## Single items -/

/-- A word ends in front of the text. -/
def EndsWord (rest : List Char) : Prop := ∀ c ∈ rest.head?, isPlain c = false

/-- A text in front of anything that ends a word is one piece, which denotes the item given. -/
def ReadsAs {α : Type} (item? : Token → Option α) (s : String) (a : α) : Prop :=
  ∀ rest ts, EndsWord rest → tokens? rest = some ts →
    ∃ t, tokens? (s.toList ++ rest) = some (t :: ts) ∧ item? t = some a

theorem readsAs_word {α : Type} {item? : Token → Option α} {w : String} {a : α}
    (hne : w.toList ≠ []) (hplain : ∀ c ∈ w.toList, isPlain c = true)
    (hitem : item? (.word w) = some a) : ReadsAs item? w a := by
  intro rest ts hrest hts
  obtain ⟨c, cs, hw⟩ := List.exists_cons_of_ne_nil hne
  rw [hw] at hplain
  have hc := hplain c List.mem_cons_self
  have hcs : ∀ d ∈ cs, isPlain d = true := fun d hd => hplain d (List.mem_cons_of_mem _ hd)
  obtain ⟨⟨hblank, hquote⟩, hmark⟩ : (c ≠ ' ' ∧ c ≠ '\'') ∧ isMark c = false := by
    simpa [isPlain] using hc
  have hfront : (cs ++ rest).takeWhile isPlain = cs ∧ (cs ++ rest).dropWhile isPlain = rest := by
    rw [List.takeWhile_append_of_pos hcs, List.dropWhile_append_of_pos hcs]
    cases rest with
    | nil => simp
    | cons d r => simp [hrest d rfl]
  refine ⟨.word w, ?_, hitem⟩
  rw [hw, List.cons_append, tokens?]
  simp [hblank, hquote, hmark, hfront, hts, ← hw]

theorem readsAs_text {s : String} {inside : List Char}
    (hread : ∀ rest, readText? (inside ++ '\'' :: rest) = some (s.toList, rest)) {quoted : String}
    (hquoted : quoted.toList = '\'' :: (inside ++ ['\''])) :
    ReadsAs Token.value? quoted (.text s) := by
  intro rest ts _ hts
  refine ⟨.text s, ?_, rfl⟩
  have happend : quoted.toList ++ rest = '\'' :: (inside ++ '\'' :: rest) := by simp [hquoted]
  rw [happend, tokens?]
  have hmark : isMark '\'' = false := by decide
  simp only [Char.reduceBEq, Bool.false_eq_true, if_false, hmark, if_true]
  split
  next h => simp [hread] at h
  next s' t h =>
    obtain ⟨rfl, rfl⟩ : s.toList = s' ∧ rest = t := by simpa [hread] using h
    simp [hts]

/-- A quoted text denotes the text that was quoted. -/
theorem readsAs_literal (s : String) : ReadsAs Token.value? (literal s) (.text s) :=
  readsAs_text (readText?_escaped s.toList) (by simp [literal, escape])

/-- A text without quotes and backslashes may be quoted as it is. -/
theorem readsAs_quoted {s : String} (hquote : '\'' ∉ s.toList) (hescape : '\\' ∉ s.toList) :
    ReadsAs Token.value? ("'" ++ s ++ "'") (.text s) :=
  readsAs_text (readText?_plain hquote hescape) (by simp)

/-- Characters of a class that has neither blanks nor quotes nor punctuation are plain. -/
theorem isPlain_of_class {p : Char → Bool}
    (hp : [' ', '\'', '(', ')', ','].any p = false) {c : Char} (h : p c = true) :
    isPlain c = true := by
  cases hplain : isPlain c with
  | true => rfl
  | false =>
      have hother : c ∈ [' ', '\'', '(', ')', ','] := by
        simp only [isPlain, isMark] at hplain
        grind
      exact absurd h (List.any_eq_false.1 hp c hother)

theorem readsAs_number (i : Int) : ReadsAs Token.value? (toString i) (.number i) := by
  have hdigit {n : Nat} {c : Char} (hc : c ∈ Nat.toDigits 10 n) : isPlain c = true :=
    isPlain_of_class (by decide) (Text.isDigit_of_mem_toDigits hc)
  refine readsAs_word ?_ ?_ (by rw [Token.value?, Decimal.readInt?_toString]; rfl)
  · cases i with
    | ofNat n => rw [Int.ofNat_eq_natCast, toList_toString_natCast]; simp
    | negSucc n => rw [toList_toString_negSucc]; simp
  · cases i with
    | ofNat n =>
        rw [Int.ofNat_eq_natCast, toList_toString_natCast]
        exact fun c hc => hdigit hc
    | negSucc n =>
        rw [toList_toString_negSucc]
        intro c hc
        rcases List.mem_cons.1 hc with rfl | hc
        · decide
        · exact hdigit hc

/-! ## Names -/

/-- A name made of plain identifiers, with points between them. -/
def IsName (s : String) : Prop :=
  ∃ parts : List String, parts ≠ [] ∧ (∀ p ∈ parts, isIdentifier p = true) ∧
    s = ".".intercalate parts

/-- The table of validated settings has such a name. -/
theorem isName_qualifiedTable {s : ClickHouseSettings} (h : Settings.checkClickHouse s = .ok ()) :
    IsName s.qualifiedTable := by
  obtain ⟨-, -, -, hdatabase, htable⟩ := Settings.checkClickHouse_eq_ok.1 h
  refine ⟨[s.database, s.table], by simp, by simp [hdatabase, htable], ?_⟩
  simp [ClickHouseSettings.qualifiedTable, String.intercalate_cons_cons]

theorem isWordChar_of_isIdentifier {s : String} (h : isIdentifier s = true) :
    s.toList ≠ [] ∧ ∀ c ∈ s.toList, isWordChar c = true := by
  unfold isIdentifier at h
  split at h
  · cases h
  · next c r hs =>
      rw [Bool.and_eq_true, List.all_eq_true] at h
      refine ⟨by simp [hs], fun d hd => ?_⟩
      rw [hs] at hd
      rcases List.mem_cons.1 hd with rfl | hd
      · simp only [isWordChar, Bool.or_eq_true] at h ⊢
        exact h.1.imp_left .inl
      · exact h.2 d hd

theorem readsAs_word_of_class {p : Char → Bool}
    (hp : [' ', '\'', '(', ')', ','].any p = false) {w : String} (hne : w.toList ≠ [])
    (hw : ∀ c ∈ w.toList, p c = true) : ReadsAs Token.name? w w :=
  readsAs_word hne (fun c hc => isPlain_of_class hp (hw c hc)) rfl

/-- The characters of a name. -/
def isNameChar (c : Char) : Bool := isWordChar c || c == '.'

theorem IsName.readsAs {s : String} (h : IsName s) : ReadsAs Token.name? s s := by
  obtain ⟨parts, hne, hparts, rfl⟩ := h
  have hword (p : String) (hp : p ∈ parts) := isWordChar_of_isIdentifier (hparts p hp)
  refine readsAs_word_of_class (p := isNameChar) (by decide) ?_ ?_
  · obtain ⟨p, ps, rfl⟩ := List.exists_cons_of_ne_nil hne
    have hp := (hword p List.mem_cons_self).1
    cases ps with
    | nil => simpa using hp
    | cons q qs => simp [hp]
  · clear hne hparts
    induction parts with
    | nil => simp
    | cons p ps ih =>
        have hp := (hword p List.mem_cons_self).2
        have hps := ih fun q hq => hword q (List.mem_cons_of_mem _ hq)
        intro c hc
        cases ps with
        | nil =>
            rw [String.intercalate_singleton] at hc
            simp [isNameChar, hp c hc]
        | cons q qs =>
            rw [String.intercalate_cons_cons, String.toList_append, String.toList_append,
              List.mem_append, List.mem_append] at hc
            rcases hc with (hc | hc) | hc
            · simp [isNameChar, hp c hc]
            · have hpoint : c = '.' := by simpa using hc
              simp [isNameChar, hpoint]
            · exact hps c hc

/-- The columns of a row are read as they are named. -/
theorem readsAs_columns {destinations : List String}
    (h : ∀ d ∈ destinations, isIdentifier d = true) :
    ∀ c ∈ columns destinations, ReadsAs Token.name? c c := by
  intro c hc
  rcases List.mem_append.1 hc with hc | hc
  · have hfixed : ∀ c ∈ ["end_time", "kind", "strategy", "value", "dimensions"],
        c.toList ≠ [] ∧ c.toList.all isWordChar = true := by decide
    exact readsAs_word_of_class (p := isWordChar) (by decide) (hfixed c hc).1
      (List.all_eq_true.1 (hfixed c hc).2)
  · obtain ⟨d, hd, rfl⟩ := List.mem_map.1 hc
    have hword := (isWordChar_of_isIdentifier (h d hd)).2
    refine readsAs_word_of_class (p := isWordChar) (by decide) (by simp [dimensionColumn]) ?_
    intro c hc
    rw [dimensionColumn, String.toList_append, List.mem_append] at hc
    rcases hc with hc | hc
    · exact List.all_eq_true.1 (by decide : "dimensions_".toList.all isWordChar = true) c hc
    · exact hword c hc

/-! ## Lists of items -/

theorem tokens?_blank (r : List Char) : tokens? (' ' :: r) = tokens? r := by
  rw [tokens?]
  rfl

theorem tokens?_mark {c : Char} (h : isMark c = true) (r : List Char) :
    tokens? (c :: r) = (tokens? r).map (.mark c :: ·) := by
  have hblank : (c == ' ') = false := by
    cases hc : c == ' ' with
    | false => rfl
    | true => rw [eq_of_beq hc] at h; exact absurd h (by decide)
  rw [tokens?]
  simp [hblank, h]

/-- Items with commas between them up to a closing parenthesis are read one by one. -/
theorem items?_intercalate {α : Type} {item? : Token → Option α} {items : List String}
    {as : List α} (h : List.Forall₂ (ReadsAs item?) items as) (hne : items ≠ []) {rest : List Char}
    {ts : List Token} (hrest : tokens? rest = some ts) :
    ∃ us, tokens? ((", ".intercalate items).toList ++ ')' :: rest) = some us ∧
      items? item? us = some (as, ts) := by
  induction h with
  | nil => exact absurd rfl hne
  | @cons s a items as hs hitems ih =>
      cases hitems with
      | nil =>
          have hclose : tokens? (')' :: rest) = some (.mark ')' :: ts) := by
            rw [tokens?_mark (by decide), hrest, Option.map_some]
          obtain ⟨t, ht, ha⟩ := hs (')' :: rest) _ (by simp [EndsWord, isPlain, isMark]) hclose
          exact ⟨_, by rw [String.intercalate_singleton, ht], by simp [items?, ha]⟩
      | @cons s' a' items as hs' hitems =>
          obtain ⟨us, hus, hread⟩ := ih (by simp)
          have hcomma : tokens? (',' :: ' ' :: ((", ".intercalate (s' :: items)).toList ++
              ')' :: rest)) = some (.mark ',' :: us) := by
            rw [tokens?_mark (by decide), tokens?_blank, hus, Option.map_some]
          obtain ⟨t, ht, ha⟩ := hs _ _ (by simp [EndsWord, isPlain, isMark]) hcomma
          refine ⟨t :: .mark ',' :: us, ?_, by simp [items?, ha, hread]⟩
          rw [String.intercalate_cons_cons]
          simpa using ht

/-! ## Rows -/

/-- The values of the row for a record. -/
def rowOf (destinations : List String) (r : CostRecord) : List Value :=
  [.text r.endTime.toMillisText, .text r.kind.name, .text r.strategy, .number r.value,
    .text (dimensionsText r)] ++ destinations.map fun d => .text ((r.dimensions.get? d).getD "")

/-- The characters of a time. -/
def isTimeChar (c : Char) : Bool := Text.isDigit c || ['-', '+', ' ', ':', '.'].contains c

theorem isTimeChar_of_mem_toMillisText (t : Instant) :
    t.toMillisText.toList.all isTimeChar = true := by
  have hpadded (width n : Nat) : (Instant.padded width n).toList.all isTimeChar = true :=
    List.all_eq_true.2 fun c hc => by simp [isTimeChar, Instant.isDigit_of_mem_padded hc]
  have hyear (y : Int) : (Instant.yearText y).toList.all isTimeChar = true := by
    unfold Instant.yearText
    split
    · exact hpadded _ _
    · rw [String.toList_append, List.all_append, hpadded, Bool.and_true]
      split <;> decide
  have hmarks : "-".toList.all isTimeChar = true ∧ " ".toList.all isTimeChar = true ∧
      ":".toList.all isTimeChar = true ∧ ".".toList.all isTimeChar = true := by decide
  simp only [Instant.toMillisText, Instant.dateText, Instant.clockText, String.toList_append,
    List.all_append, hpadded, hyear, hmarks, Bool.and_self]

theorem readsAs_rowValues (destinations : List String) (r : CostRecord) :
    List.Forall₂ (ReadsAs Token.value?) (rowValues destinations r) (rowOf destinations r) := by
  have htime (c : Char) (hc : c ∈ r.endTime.toMillisText.toList) : isTimeChar c = true :=
    List.all_eq_true.1 (isTimeChar_of_mem_toMillisText r.endTime) c hc
  have hend : ReadsAs Token.value? ("'" ++ r.endTime.toMillisText ++ "'")
      (.text r.endTime.toMillisText) :=
    readsAs_quoted (fun h => absurd (htime _ h) (by decide)) fun h => absurd (htime _ h) (by decide)
  have hkind : ReadsAs Token.value? ("'" ++ r.kind.name ++ "'") (.text r.kind.name) := by
    cases r.kind <;> exact readsAs_quoted (by decide) (by decide)
  refine List.rel_append (.cons hend (.cons hkind (.cons (readsAs_literal _)
    (.cons (readsAs_number _) (.cons (readsAs_literal _) .nil))))) ?_
  rw [List.forall₂_map_left_iff, List.forall₂_map_right_iff]
  exact List.forall₂_same.2 fun d _ => readsAs_literal _

theorem rows?_last {us : List Token} {row : List Value}
    (h : items? Token.value? us = some (row, [])) : rows? (.mark '(' :: us) = some [row] := by
  rw [rows?]
  split <;> simp_all

theorem rows?_more {us ts : List Token} {row : List Value}
    (h : items? Token.value? us = some (row, .mark ',' :: ts)) :
    rows? (.mark '(' :: us) = (rows? ts).map (row :: ·) := by
  rw [rows?]
  split <;> simp_all

/-- Every row is read as the values of its record. -/
theorem rows?_intercalate (destinations : List String) {rs : List CostRecord} (hne : rs ≠ []) :
    ∃ us, tokens? (", ".intercalate (rs.map (row destinations))).toList = some us ∧
      rows? us = some (rs.map (rowOf destinations)) := by
  have hvalues (r : CostRecord) : rowValues destinations r ≠ [] := by simp [rowValues]
  induction rs with
  | nil => exact absurd rfl hne
  | cons r rs ih =>
      cases rs with
      | nil =>
          have hrest : tokens? [] = some [] := by rw [tokens?]
          obtain ⟨us, hus, hread⟩ :=
            items?_intercalate (readsAs_rowValues destinations r) (hvalues r) hrest
          refine ⟨.mark '(' :: us, ?_, ?_⟩
          · have hopen := tokens?_mark (c := '(') (by decide)
              ((", ".intercalate (rowValues destinations r)).toList ++ [')'])
            rw [hus] at hopen
            simpa [row] using hopen
          · rw [rows?_last hread]
            rfl
      | cons s rs =>
          obtain ⟨vs, hvs, hrows⟩ := ih (by simp)
          have hrest : tokens? (',' :: ' ' ::
              (", ".intercalate ((s :: rs).map (row destinations))).toList) =
                some (.mark ',' :: vs) := by
            rw [tokens?_mark (by decide), tokens?_blank, hvs, Option.map_some]
          obtain ⟨us, hus, hread⟩ :=
            items?_intercalate (readsAs_rowValues destinations r) (hvalues r) hrest
          refine ⟨.mark '(' :: us, ?_, ?_⟩
          · have hopen := tokens?_mark (c := '(') (by decide)
              ((", ".intercalate (rowValues destinations r)).toList ++ ')' :: ',' :: ' ' ::
                (", ".intercalate ((s :: rs).map (row destinations))).toList)
            rw [hus] at hopen
            simpa [row] using hopen
          · rw [rows?_more hread, hrows]
            rfl

/-! ## Statements -/

/-- **An insert statement is read back as it was meant.** For a table and dimensions with plain
names and at least one record, whatever texts the records hold, the statement has one row for each
record in their order, with a value for every column: the end time, the kind, the strategy, the
amount, all dimensions as one text and each configured dimension, or the empty text without it. -/
theorem readInsert?_insert {table : String} {destinations : List String} {rs : List CostRecord}
    (htable : IsName table) (hdestinations : ∀ d ∈ destinations, isIdentifier d = true)
    (hne : rs ≠ []) :
    readInsert? (insert table destinations rs) =
        some ⟨table, columns destinations, rs.map (rowOf destinations)⟩ ∧
      ∀ r ∈ rs, (rowOf destinations r).length = (columns destinations).length := by
  refine ⟨?_, fun r _ => by simp [rowOf, columns]⟩
  obtain ⟨rows, hrows, hreadRows⟩ := rows?_intercalate destinations hne
  have hkeyword {w : String} (hw : w.toList ≠ [] ∧ w.toList.all isWordChar = true)
      {rest : List Char} {ts : List Token} (hts : tokens? rest = some ts) :
      tokens? (w.toList ++ ' ' :: rest) = some (.word w :: ts) := by
    obtain ⟨t, ht, hname⟩ := readsAs_word_of_class (p := isWordChar) (by decide) hw.1
      (List.all_eq_true.1 hw.2) (' ' :: rest) ts (by simp [EndsWord, isPlain])
      (by rw [tokens?_blank, hts])
    cases t <;> simp_all [Token.name?]
  -- The statement is split from its end to its front.
  have hvalues := hkeyword (w := "VALUES") (by decide) hrows
  obtain ⟨us, hus, hreadColumns⟩ := items?_intercalate (List.forall₂_same.2
    (readsAs_columns hdestinations)) (by simp [columns]) ((tokens?_blank _).trans hvalues)
  have hopen := tokens?_mark (c := '(') (by decide)
    ((", ".intercalate (columns destinations)).toList ++ ')' :: ' ' ::
      ("VALUES".toList ++ ' ' :: (", ".intercalate (rs.map (row destinations))).toList))
  rw [hus, Option.map_some] at hopen
  obtain ⟨t, ht, hname⟩ := htable.readsAs (' ' :: '(' :: _) _ (by simp [EndsWord, isPlain])
    ((tokens?_blank _).trans hopen)
  obtain rfl : t = .word table := by cases t <;> simp_all [Token.name?]
  have hall := hkeyword (w := "INSERT") (by decide) (hkeyword (w := "INTO") (by decide) ht)
  have hstatement : (insert table destinations rs).toList =
      "INSERT".toList ++ ' ' :: ("INTO".toList ++ ' ' :: (table.toList ++ ' ' :: '(' ::
        ((", ".intercalate (columns destinations)).toList ++ ')' :: ' ' :: ("VALUES".toList ++
          ' ' :: (", ".intercalate (rs.map (row destinations))).toList)))) := by
    simp [insert, insertHead]
  rw [readInsert?, hstatement, hall]
  simp [hreadColumns, hreadRows]

/-- A team whose name tries to end the statement, and a strategy that ends in a backslash. -/
theorem readInsert?_hostile :
    let r : CostRecord :=
      { kind := .cpu, strategy := "it's\\", value := -7, endTime := ⟨1714564800, 0⟩,
        dimensions := .ofList [("team", "'); DROP TABLE costs; --")] }
    IsName "billing.costs" ∧ (∀ d ∈ ["team", "app"], isIdentifier d = true) ∧ [r] ≠ [] ∧
      readInsert? (insert "billing.costs" ["team", "app"] [r]) = some
        ⟨"billing.costs", columns ["team", "app"],
          [[.text "2024-05-01 12:00:00.000", .text "cpu", .text "it's\\", .number (-7),
            .text "\x7b\"team\":\"'); DROP TABLE costs; --\"\x7d",
            .text "'); DROP TABLE costs; --", .text ""]]⟩ := by
  intro r
  have htable : IsName "billing.costs" := isName_qualifiedTable
    (s := { endpoint := "database", database := "billing", table := "costs" }) (by decide)
  have hdestinations : ∀ d ∈ ["team", "app"], isIdentifier d = true := by decide
  have hrow : [r].map (rowOf ["team", "app"]) =
      [[.text "2024-05-01 12:00:00.000", .text "cpu", .text "it's\\", .number (-7),
        .text "\x7b\"team\":\"'); DROP TABLE costs; --\"\x7d",
        .text "'); DROP TABLE costs; --", .text ""]] := by
    decide +kernel
  refine ⟨htable, hdestinations, by simp, ?_⟩
  rw [(readInsert?_insert htable hdestinations (List.cons_ne_nil r [])).1, hrow]

end Chargeback.Sql
