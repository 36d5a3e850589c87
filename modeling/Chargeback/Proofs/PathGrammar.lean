import Chargeback.Dimension.Path
import Chargeback.Proofs.TextSpan

/-!
# The grammar of path expressions

What a path expression looks like, said without the reader. Between blanks and one pair of braces, which
may be missing, there are no other braces; an optional dollar sign is followed by components, and there
is at least one (`Path.Spells`). A component is a dot with an identifier, or a quoted key in brackets,
and the first one may be an identifier alone (`Path.Component`).

The reader accepts just these expressions and gives the identifiers and the keys in their order
(`Path.read_iff_spells`). It reads in passes, one component each. An identifier is read as far as
possible, up to a dot, a bracket or the end, and this is where the grammar ends it too, as nothing else
can stand behind a component (`Path.Components.stops`). Every pass shortens what is left, so the passes
come to an end on every text.
-/

namespace Chargeback

namespace Path

open Text

/-! ## The grammar -/

/-- A letter or digit of ASCII, an underscore, a hyphen or a slash. -/
def IsIdentChar (c : Char) : Prop := c.isAlphanum = true ∨ c = '_' ∨ c = '-' ∨ c = '/'

/-- One or more of these characters. -/
def IsIdent (s : List Char) : Prop := s ≠ [] ∧ ∀ c ∈ s, IsIdentChar c

/-- The text of a component with the segment that it stands for. Only the first component may be an
identifier alone. -/
inductive Component (first : Bool) : List Char → String → Prop
  | dotted {name : List Char} (hname : IsIdent name) :
      Component first ('.' :: name) (String.ofList name)
  | keyed {q : Char} {key : List Char} (hq : q = '\'' ∨ q = '"') (hkey : q ∉ key) :
      Component first ('[' :: q :: (key ++ [q, ']'])) (String.ofList key)
  | bare {name : List Char} (hfirst : first = true) (hname : IsIdent name) :
      Component first name (String.ofList name)

/-- Components one after the other, with their segments. -/
inductive Components : Bool → List Char → List String → Prop
  | nil {first : Bool} : Components first [] []
  | cons {first : Bool} {t r : List Char} {segment : String} {segments : List String}
      (hcomponent : Component first t segment) (hrest : Components false r segments) :
      Components first (t ++ r) (segment :: segments)

/-- A text in braces, or one that does not begin with a brace. -/
def Encloses (t inner : List Char) : Prop :=
  t = '\x7b' :: (inner ++ ['\x7d']) ∨ t = inner ∧ ∀ r, t ≠ '\x7b' :: r

/-- **The grammar.** The text, but for the blanks and braces around it, has no other brace and is an
optional dollar sign with one or more components. -/
def Spells (raw : List Char) (segments : List String) : Prop :=
  ∃ t inner s, IsTrimOf t raw ∧ Encloses t inner ∧ ('\x7b' ∉ inner ∧ '\x7d' ∉ inner) ∧
    (inner = s ∨ inner = '$' :: s) ∧ Components true s segments ∧ segments ≠ []

/-! ## Identifiers -/

theorem isNameChar_iff {c : Char} : isNameChar c = true ↔ IsIdentChar c := by
  have hletter : isLetter c = c.isAlpha := by
    rw [Bool.eq_iff_iff]
    delta Char.isAlpha Char.isUpper Char.isLower
    simp [isLetter, Char.le_def, UInt32.le_iff_toNat_le, or_comm]
  have hdigit : isDigit c = c.isDigit := by
    rw [Bool.eq_iff_iff]
    simp [isDigit, Char.isDigit, Char.le_def, UInt32.le_iff_toNat_le]
  simp [isNameChar, IsIdentChar, hletter, hdigit, Char.isAlphanum, or_assoc]

/-- Other characters do not stand in an identifier. -/
theorem IsIdent.notMem {s : List Char} {c : Char} (h : IsIdent s) (hc : isNameChar c = false) :
    c ∉ s := fun hmem => Bool.false_ne_true (hc.symm.trans (isNameChar_iff.2 (h.2 c hmem)))

/-- A character that does not begin a component. -/
def staysIn (c : Char) : Bool := c != '.' && c != '['

theorem staysIn_of_isIdentChar {c : Char} (h : IsIdentChar c) : staysIn c = true := by
  rw [← isNameChar_iff] at h
  by_contra hstays
  have hmark : c = '.' ∨ c = '[' := by
    simpa [staysIn, Classical.or_iff_not_imp_left] using hstays
  rcases hmark with rfl | rfl
  · exact absurd h (by decide)
  · exact absurd h (by decide)

section Reading

variable {first : Bool} {offset : Nat} {s t r name key segment : List Char}

/-- What is read as a name is the part up to a dot, a bracket or the end. -/
theorem named_eq (offset : Nat) (s : List Char) : named offset s =
    if (s.takeWhile staysIn).isEmpty then .error (offset, .emptySegment)
    else if ((s.takeWhile staysIn).takeWhile isNameChar).length < (s.takeWhile staysIn).length then
      .error (offset + byteLength ((s.takeWhile staysIn).takeWhile isNameChar), .invalidCharacter)
    else .ok (s.takeWhile staysIn, s.dropWhile staysIn) := by
  rw [← drop_length_takeWhile staysIn s]
  rfl

/-- An identifier is read, and what follows it has to be such a mark or the end. -/
theorem named_eq_ok :
    named offset s = .ok (name, r) ↔ s = name ++ r ∧ IsIdent name ∧ StopsAt staysIn r := by
  rw [named_eq]
  constructor
  · intro h
    split at h
    next => cases h
    next hne =>
      split at h
      next => cases h
      next hgood =>
        cases h
        have hall : (s.takeWhile staysIn).takeWhile isNameChar = s.takeWhile staysIn :=
          (List.takeWhile_prefix _).eq_of_length_le (Nat.not_lt.1 hgood)
        refine ⟨List.takeWhile_append_dropWhile.symm, ⟨?_, ?_⟩, stopsAt_dropWhile staysIn s⟩
        · simpa using hne
        · intro c hc
          exact isNameChar_iff.1 (List.takeWhile_eq_self_iff.1 hall c hc)
  · rintro ⟨rfl, ⟨hne, hchars⟩, hstop⟩
    obtain ⟨htake, hdrop⟩ :=
      takeWhile_span (fun c hc => staysIn_of_isIdentChar (hchars c hc)) hstop
    have hgood : name.takeWhile isNameChar = name :=
      List.takeWhile_eq_self_iff.2 fun c hc => isNameChar_iff.2 (hchars c hc)
    rw [htake, hdrop, hgood, if_neg (by simpa using hne), if_neg (Nat.lt_irrefl _)]

/-- A mark that stands around a key. -/
def IsQuote (q : Char) : Prop := q = '\'' ∨ q = '"'

theorem takeWhile_ne_append {q : Char} (h : q ∉ key) (t : List Char) :
    (key ++ q :: t).takeWhile (· != q) = key := by
  refine (takeWhile_span (fun c hc => ?_) (stopsAt_cons.2 (by simp))).1
  simpa using ne_of_mem_of_not_mem hc h

theorem takeWhile_ne_self {q : Char} (h : q ∉ s) : s.takeWhile (· != q) = s := by
  rw [List.takeWhile_eq_self_iff]
  intro c hc
  simpa using ne_of_mem_of_not_mem hc h

/-- Behind a bracket there is no quote, a quote that is not closed, or a key in quotes, with a bracket
or without. -/
theorem key_cases (s : List Char) :
    (∀ q ∈ s.head?, ¬IsQuote q) ∨
    (∃ q r, IsQuote q ∧ s = q :: r ∧ q ∉ r) ∨
    ∃ q key t, IsQuote q ∧ q ∉ key ∧ s = q :: (key ++ q :: t) ∧
      ((∀ r, t ≠ ']' :: r) ∨ ∃ r, t = ']' :: r) := by
  cases s with
  | nil => exact .inl nofun
  | cons q r =>
      by_cases hq : IsQuote q
      · by_cases hmem : q ∈ r
        · obtain ⟨key, t, rfl, hkey⟩ := List.eq_append_cons_of_mem hmem
          refine .inr (.inr ⟨q, key, t, hq, hkey, rfl, ?_⟩)
          exact (Classical.em (∃ r, t = ']' :: r)).symm.imp_left not_exists.1
        · exact .inr (.inl ⟨q, r, hq, rfl, hmem⟩)
      · refine .inl fun c hc => ?_
        obtain rfl := Option.some.inj hc
        exact hq

theorem bracketed_of_no_quote (h : ∀ q ∈ s.head?, ¬IsQuote q) :
    bracketed offset s = .error (offset, .expectedKey) := by
  cases s with
  | nil => rfl
  | cons q r =>
      have hquote : (q == '\'' || q == '"') = false := by
        simpa [IsQuote] using h q rfl
      rw [bracketed, hquote]
      rfl

theorem bracketed_of_open {q : Char} (hq : IsQuote q) (hr : q ∉ r) :
    bracketed offset (q :: r) = .error (offset + 1, .unterminatedKey) := by
  have hquote : (q == '\'' || q == '"') = true := by simpa [IsQuote] using hq
  simp only [bracketed, hquote, if_true, takeWhile_ne_self hr, List.drop_length]

theorem bracketed_of_closed {q : Char} (hq : IsQuote q) (hkey : q ∉ key) :
    bracketed offset (q :: (key ++ q :: ']' :: r)) = .ok (key, r) := by
  have hquote : (q == '\'' || q == '"') = true := by simpa [IsQuote] using hq
  simp only [bracketed, hquote, if_true, takeWhile_ne_append hkey, List.drop_left]

theorem bracketed_of_unclosed {q : Char} (hq : IsQuote q) (hkey : q ∉ key) (ht : ∀ r, t ≠ ']' :: r) :
    bracketed offset (q :: (key ++ q :: t)) =
      .error (offset + byteLength key + 2, .expectedBracket) := by
  have hquote : (q == '\'' || q == '"') = true := by simpa [IsQuote] using hq
  simp only [bracketed, hquote, if_true, takeWhile_ne_append hkey, List.drop_left]

/-- A key is read up to the first quote of its kind, and a bracket has to follow. -/
theorem bracketed_eq_ok : bracketed offset s = .ok (key, r) ↔
    ∃ q, IsQuote q ∧ q ∉ key ∧ s = q :: (key ++ q :: ']' :: r) := by
  constructor
  · intro h
    rcases key_cases s with hnone | ⟨q, u, hq, rfl, hopen⟩ | ⟨q, name, u, hq, hname, rfl, hu | ⟨u, rfl⟩⟩
    · cases (bracketed_of_no_quote hnone).symm.trans h
    · cases (bracketed_of_open hq hopen).symm.trans h
    · cases (bracketed_of_unclosed hq hname hu).symm.trans h
    · cases (bracketed_of_closed hq hname).symm.trans h
      exact ⟨q, hq, hname, rfl⟩
  · rintro ⟨q, hq, hkey, rfl⟩
    exact bracketed_of_closed hq hkey

theorem Component.ne_nil {segment : String} (h : Component first t segment) : t ≠ [] := by
  cases h with
  | dotted hname => exact List.cons_ne_nil _ _
  | keyed hq hkey => exact List.cons_ne_nil _ _
  | bare hfirst hname => exact hname.1

/-- Components after the first begin with a dot or a bracket. -/
theorem Components.stops {segments : List String} (h : Components false s segments) :
    StopsAt staysIn s := by
  cases h with
  | nil => exact StopsAt.nil
  | cons hcomponent hrest =>
      cases hcomponent with
      | dotted hname => exact stopsAt_cons.2 rfl
      | keyed hq hkey => exact stopsAt_cons.2 rfl
      | bare hfirst hname => cases hfirst

theorem Components.append {segments segments' : List String} (hs : Components first s segments)
    (ht : Components (first && s.isEmpty) t segments') :
    Components first (s ++ t) (segments ++ segments') := by
  induction hs with
  | nil => simpa using ht
  | @cons first u r _ _ hu hrest ih =>
      have hmore : (u ++ r).isEmpty = false := by simp [hu.ne_nil]
      rw [hmore, Bool.and_false] at ht
      rw [List.append_assoc, List.cons_append]
      exact .cons hu (ih (by simpa using ht))

/-! ## One component -/

/-- What is read is a component, and it is as long as can be: behind an identifier the reader stops at
a mark, and a key ends with its bracket. -/
theorem component_sound (h : component first offset s = .ok (segment, r)) :
    ∃ t, s = t ++ r ∧ Component first t (String.ofList segment) ∧
      (StopsAt staysIn r ∨ t.getLast? = some ']') := by
  unfold component at h
  split at h
  next =>
    obtain ⟨q, hq, hkey, rfl⟩ := bracketed_eq_ok.1 h
    have hlast : ('[' :: q :: (segment ++ [q, ']'])).getLast? = some ']' := by
      rw [List.getLast?_eq_some_iff]
      exact ⟨'[' :: q :: (segment ++ [q]), by simp⟩
    exact ⟨'[' :: q :: (segment ++ [q, ']']), by simp, .keyed hq hkey, .inr hlast⟩
  next =>
    obtain ⟨rfl, hname, hstop⟩ := named_eq_ok.1 h
    exact ⟨'.' :: segment, rfl, .dotted hname, .inl hstop⟩
  next =>
    split at h
    next hfirst =>
      obtain ⟨rfl, hname, hstop⟩ := named_eq_ok.1 h
      exact ⟨segment, rfl, .bare hfirst hname, .inl hstop⟩
    next => cases h

theorem component_complete {segment : String} (h : Component first t segment)
    (hr : StopsAt staysIn r) (offset : Nat) :
    ∃ name, component first offset (t ++ r) = .ok (name, r) ∧ String.ofList name = segment := by
  cases h with
  | @dotted name hname =>
      exact ⟨name, named_eq_ok.2 ⟨rfl, hname, hr⟩, rfl⟩
  | @keyed q key hq hkey =>
      have htext : '[' :: q :: (key ++ [q, ']']) ++ r = '[' :: q :: (key ++ q :: ']' :: r) := by
        simp
      rw [htext]
      exact ⟨key, bracketed_eq_ok.2 ⟨q, hq, hkey, rfl⟩, rfl⟩
  | bare hfirst hname =>
      refine ⟨t, ?_, rfl⟩
      have hread : named offset (t ++ r) = .ok (t, r) := named_eq_ok.2 ⟨rfl, hname, hr⟩
      -- An identifier does not begin like the other components.
      obtain ⟨c, u, rfl⟩ := List.exists_cons_of_ne_nil hname.1
      have hstays : staysIn c = true := staysIn_of_isIdentChar (hname.2 c List.mem_cons_self)
      unfold component
      split
      next heq =>
        obtain rfl : c = '[' := (List.cons.inj heq).1
        exact absurd hstays (by decide)
      next heq =>
        obtain rfl : c = '.' := (List.cons.inj heq).1
        exact absurd hstays (by decide)
      next => rw [if_pos hfirst, hread]

/-- Every pass takes at least one character. -/
theorem length_lt_of_component (h : component first offset s = .ok (segment, r)) :
    r.length < s.length := by
  obtain ⟨t, rfl, ht, -⟩ := component_sound h
  have hpos := List.length_pos_iff.2 ht.ne_nil
  rw [List.length_append]
  omega

/-! ## The passes -/

theorem components_nil_iff {segments : List String} :
    Components first [] segments ↔ segments = [] := by
  constructor
  · intro h
    generalize hs : ([] : List Char) = s at h
    cases h with
    | nil => rfl
    | cons hcomponent hrest =>
        exact absurd (List.append_eq_nil_iff.1 hs.symm).1 hcomponent.ne_nil
  · rintro rfl
    exact .nil

theorem Components.eq_nil (h : Components first s []) : s = [] := by
  cases h with
  | nil => rfl

/-- With a pass for every character the reader follows the grammar. -/
theorem components_eq_ok {fuel : Nat} {segments : List String} (hfuel : s.length ≤ fuel) :
    components fuel first offset s = .ok segments ↔ Components first s segments := by
  induction fuel generalizing first offset s segments with
  | zero =>
      obtain rfl := List.length_eq_zero_iff.1 (Nat.le_zero.1 hfuel)
      rw [components_nil_iff, components, Except.ok.injEq, eq_comm]
  | succ fuel ih =>
      by_cases hs : s = []
      · subst hs
        rw [components_nil_iff, components, Except.ok.injEq, eq_comm]
      rw [components.eq_3 _ _ _ _ (by simpa using hs)]
      constructor
      · intro h
        split at h
        next => cases h
        next segment r hcomponent =>
          have hshort := length_lt_of_component hcomponent
          obtain ⟨t, rfl, ht, -⟩ := component_sound hcomponent
          split at h
          next => cases h
          next rest hrest =>
            cases h
            exact .cons ht ((ih (by omega)).1 hrest)
      · intro h
        cases h with
        | nil => exact absurd rfl hs
        | @cons _ t r segment segments ht hrest =>
            obtain ⟨name, hcomponent, rfl⟩ := component_complete ht hrest.stops offset
            have hshort := length_lt_of_component hcomponent
            rw [hcomponent]
            simp only
            rw [(ih (by omega)).2 hrest]

/-- The reader never runs out of passes. -/
theorem components_add (more : Nat) {fuel : Nat} (hfuel : s.length ≤ fuel) :
    components (fuel + more) first offset s = components fuel first offset s := by
  induction fuel generalizing first offset s with
  | zero =>
      obtain rfl := List.length_eq_zero_iff.1 (Nat.le_zero.1 hfuel)
      rw [components, components]
  | succ fuel ih =>
      by_cases hs : s = []
      · subst hs
        rw [components, components]
      rw [Nat.add_right_comm, components.eq_3 _ _ _ _ (by simpa using hs),
        components.eq_3 _ _ _ _ (by simpa using hs)]
      cases hcomponent : component first offset s with
      | error fault => rfl
      | ok read =>
          have hshort : read.2.length < s.length := length_lt_of_component hcomponent
          simp only
          rw [ih (by omega)]

end Reading

/-! ## The whole expression -/

theorem body_eq_ok {raw inner : List Char} :
    (∃ offset, body raw = .ok (offset, inner)) ↔ Encloses (trim raw) inner := by
  unfold body
  split
  next r htrim =>
    rw [htrim]
    constructor
    · rintro ⟨offset, h⟩
      split at h
      next back hback =>
        cases h
        left
        rw [List.reverse_eq_iff.1 hback, List.reverse_cons]
      next => cases h
    · rintro (h | ⟨rfl, h⟩)
      · obtain rfl : r = inner ++ ['\x7d'] := (List.cons.inj h).2
        refine ⟨byteLength raw - byteLength (trimStart raw) + 1, ?_⟩
        simp
      · exact absurd rfl (h r)
  next hopen =>
    constructor
    · rintro ⟨offset, h⟩
      cases h
      exact .inr ⟨rfl, fun r hr => hopen r hr⟩
    · rintro (h | ⟨h, -⟩)
      · exact absurd h (hopen _)
      · exact ⟨_, by rw [h]⟩

theorem any_brace_eq_false {inner : List Char} :
    (inner.any fun c => c == '\x7b' || c == '\x7d') = false ↔ '\x7b' ∉ inner ∧ '\x7d' ∉ inner := by
  rw [List.any_eq_false]
  constructor
  · intro h
    exact ⟨fun hmem => h _ hmem rfl, fun hmem => h _ hmem rfl⟩
  · rintro ⟨hopen, hclose⟩ c hc
    simp only [Bool.or_eq_true, beq_iff_eq]
    rintro (rfl | rfl)
    · exact hopen hc
    · exact hclose hc

/-- What follows an optional dollar sign, and where it begins. -/
def afterDollar (offset : Nat) : List Char → Nat × List Char
  | '$' :: r => (offset + 1, r)
  | r => (offset, r)

theorem afterDollar_cases (offset : Nat) (inner : List Char) :
    (∃ r, inner = '$' :: r ∧ afterDollar offset inner = (offset + 1, r)) ∨
    ((∀ r, inner ≠ '$' :: r) ∧ afterDollar offset inner = (offset, inner)) := by
  unfold afterDollar
  split
  next r => exact .inl ⟨r, rfl, rfl⟩
  next hdollar => exact .inr ⟨fun r hr => hdollar r hr, rfl⟩

theorem afterDollar_snd (offset : Nat) (inner : List Char) :
    inner = (afterDollar offset inner).2 ∨ inner = '$' :: (afterDollar offset inner).2 := by
  rcases afterDollar_cases offset inner with ⟨r, rfl, h⟩ | ⟨-, h⟩
  · exact .inr rfl
  · exact .inl (congrArg Prod.snd h).symm

/-- No component begins with a dollar sign. -/
theorem Components.not_dollar {first : Bool} {s : List Char} {segments : List String}
    (h : Components first s segments) : ∀ r, s ≠ '$' :: r := by
  intro r hs
  cases h with
  | nil => cases hs
  | cons hcomponent hrest =>
      cases hcomponent with
      | dotted hname => cases hs
      | keyed hq hkey => cases hs
      | bare hfirst hname =>
          obtain ⟨c, u, rfl⟩ := List.exists_cons_of_ne_nil hname.1
          obtain rfl : c = '$' := (List.cons.inj hs).1
          exact hname.notMem (by decide) List.mem_cons_self

theorem Components.afterDollar_eq {inner s : List Char} {segments : List String}
    (h : Components true s segments) (hinner : inner = s ∨ inner = '$' :: s) (offset : Nat) :
    (afterDollar offset inner).2 = s := by
  rcases hinner with rfl | rfl
  · rcases afterDollar_cases offset inner with ⟨r, hr, -⟩ | ⟨-, hread⟩
    · exact absurd hr (h.not_dollar r)
    · rw [hread]
  · rfl

/-- What the reader makes of the text between the braces. -/
theorem readSegments_of_body {raw inner : List Char} {offset : Nat}
    (h : body raw = .ok (offset, inner)) : readSegments raw =
      if inner.any fun c => c == '\x7b' || c == '\x7d' then .error (offset, .unexpectedBrace)
      else match components (afterDollar offset inner).2.length true (afterDollar offset inner).1
          (afterDollar offset inner).2 with
        | .error e => .error e
        | .ok [] => .error ((afterDollar offset inner).1, .emptyPath)
        | .ok segments => .ok segments := by
  rw [readSegments, h]
  rfl

theorem readSegments_eq_ok {raw : List Char} {segments : List String} :
    readSegments raw = .ok segments ↔ Spells raw segments := by
  constructor
  · intro h
    cases hbody : body raw with
    | error fault =>
        rw [readSegments, hbody] at h
        cases h
    | ok read =>
        obtain ⟨offset, inner⟩ := read
        have hencloses : Encloses (trim raw) inner := body_eq_ok.1 ⟨offset, hbody⟩
        rw [readSegments_of_body hbody] at h
        split at h
        next => cases h
        next hbrace =>
          rw [Bool.not_eq_true, any_brace_eq_false] at hbrace
          split at h
          next => cases h
          next => cases h
          next some hsome hread =>
            cases h
            exact ⟨trim raw, inner, _, trim_eq_iff.1 rfl, hencloses, hbrace,
              afterDollar_snd offset inner, (components_eq_ok le_rfl).1 hread,
              fun hnone => hsome hnone⟩
  · rintro ⟨t, inner, s, htrim, hencloses, hbrace, hdollar, hcomponents, hne⟩
    rw [← trim_eq_iff] at htrim
    subst htrim
    obtain ⟨offset, hbody⟩ := body_eq_ok.2 hencloses
    have hread : components s.length true (afterDollar offset inner).1 s = .ok segments :=
      (components_eq_ok le_rfl).2 hcomponents
    rw [readSegments_of_body hbody, any_brace_eq_false.2 hbrace, if_neg (by decide),
      hcomponents.afterDollar_eq hdollar, hread]
    cases segments with
    | nil => exact absurd rfl hne
    | cons segment segments => rfl

/-- **The reader follows the grammar.** An expression is read with some segments if and only if it
spells these segments, and the path keeps the text of the expression. The reading comes to an end on
every text: no sequence of passes, each from where the one before it stopped, goes on for ever, and a
pass for every character is enough, so that no more passes would change the answer. -/
theorem read_iff_spells :
    (∀ (raw : String) (p : Path),
      read raw = .ok p ↔ p.text = raw ∧ Spells raw.toList p.segments) ∧
      WellFounded (fun r s : List Char =>
        ∃ first offset segment, component first offset s = .ok (segment, r)) ∧
      ∀ first offset s more,
        components (s.length + more) first offset s = components s.length first offset s := by
  refine ⟨fun raw p => ?_, ?_, fun first offset s more => components_add more le_rfl⟩
  · have hread : read raw = .ok p ↔ p.text = raw ∧ readSegments raw.toList = .ok p.segments := by
      rw [read]
      cases readSegments raw.toList with
      | error fault => simp
      | ok segments =>
          simp only [Except.ok.injEq]
          constructor
          · rintro rfl
            exact ⟨rfl, rfl⟩
          · rintro ⟨rfl, rfl⟩
            rfl
    rw [hread, readSegments_eq_ok]
  · refine Subrelation.wf ?_ (measure List.length).wf
    rintro r s ⟨first, offset, segment, h⟩
    exact length_lt_of_component h

/-- A key in quotes is one segment, whatever marks stand in it. -/
example : readSegments " \x7b$Pod.Labels['a.b[c].d'].x\x7d ".toList =
    .ok ["Pod", "Labels", "a.b[c].d", "x"] := by decide

end Path

end Chargeback
