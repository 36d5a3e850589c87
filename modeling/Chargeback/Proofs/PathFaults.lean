import Chargeback.Proofs.PathCuts

/-!
# Where a path is misspelt

A fault in an expression is reported with a place, a number of bytes from the start. The place is
worth something if it is one of the text, between two characters, and if what stands there is what the
report says: someone who looks at the place sees the dot without a name, the character that belongs in
no name, the quote that is never closed.

What can be wrong is said here in terms of the text alone. The body of an expression stands in a frame
of blanks and, perhaps, braces (`Frame`). Behind a part of it that is well spelt there is one more
component, misspelt in one of six ways (`Misspells`); and there are three faults of the whole
(`Offends`). The passes of the reader keep to the invariant that what is behind is components and that
the offset is its length in bytes (`components_eq_error`). So every report shows such a place
(`read_error_at`).
-/

namespace Chargeback.Path

open Text

/-! ## What is wrong -/

/-- How a body that begins with the components `done` goes wrong in the next: the part of this
component before the place of the fault, and the rest of the body from there. Behind the body stands
`back`. -/
inductive Misspells (done back : List Char) : PathFault → List Char → List Char → Prop
  /-- A dot without a name. -/
  | emptySegment {rest : List Char} (hrest : StopsAt staysIn rest) :
      Misspells done back .emptySegment ['.'] rest
  /-- The first character of a segment that belongs in no name. -/
  | invalidCharacter {mark good rest : List Char} {c : Char}
      (hmark : mark = ['.'] ∨ mark = [] ∧ done = []) (hgood : ∀ g ∈ good, IsIdentChar g)
      (hstays : staysIn c = true) (hc : ¬IsIdentChar c) :
      Misspells done back .invalidCharacter (mark ++ good) (c :: rest)
  /-- An opening bracket without a quote. -/
  | expectedKey {rest : List Char} (hrest : ∀ q ∈ rest.head?, ¬IsQuote q) :
      Misspells done back .expectedKey ['['] rest
  /-- A quote that is not there again in the body. -/
  | unterminatedKey {q : Char} {rest : List Char} (hq : IsQuote q) (hrest : q ∉ rest) :
      Misspells done back .unterminatedKey ['[', q] rest
  /-- A closing quote without a closing bracket. -/
  | expectedBracket {q : Char} {key rest : List Char} (hq : IsQuote q) (hkey : q ∉ key)
      (hnext : ']' ∉ (rest ++ back).head?) :
      Misspells done back .expectedBracket ('[' :: q :: (key ++ [q])) rest
  /-- A closing bracket with neither a dot nor a bracket behind it. -/
  | expectedComponent {c : Char} {rest : List Char} (hlast : done.getLast? = some ']')
      (hstays : staysIn c = true) :
      Misspells done back .expectedComponent [] (c :: rest)

/-- The text around a body: blanks, and braces if there is one at the front. -/
inductive Frame : List Char → List Char → List Char → Prop
  | braced {before body after : List Char} (hbefore : ∀ c ∈ before, isBlank c = true)
      (hafter : ∀ c ∈ after, isBlank c = true) :
      Frame (before ++ ['\x7b']) body ('\x7d' :: after)
  | bare {before body after : List Char} (hbefore : ∀ c ∈ before, isBlank c = true)
      (hafter : ∀ c ∈ after, isBlank c = true) (hfirst : StopsAt isBlank body)
      (hlast : StopsAt isBlank body.reverse) (hopen : ∀ r, body ≠ '\x7b' :: r) :
      Frame before body after

/-- What is wrong with an expression at a place, given by the text before it and from it. -/
inductive Offends (raw : List Char) : PathFault → List Char → List Char → Prop
  | missingBrace {r : List Char} (htrim : IsTrimOf ('\x7b' :: r) raw)
      (hlast : r.getLast? ≠ some '\x7d') :
      Offends raw .missingBrace raw []
  | unexpectedBrace {front body back : List Char} (hframe : Frame front body back)
      (hbrace : '\x7b' ∈ body ∨ '\x7d' ∈ body) :
      Offends raw .unexpectedBrace front (body ++ back)
  | emptyPath {front body back : List Char} (hframe : Frame front body back)
      (hbody : body = [] ∨ body = ['$']) :
      Offends raw .emptyPath (front ++ body) back
  | misspelt {front dollar done part rest back : List Char} {segments : List String}
      {fault : PathFault} (hframe : Frame front (dollar ++ (done ++ (part ++ rest))) back)
      (hbraces : '\x7b' ∉ done ++ (part ++ rest) ∧ '\x7d' ∉ done ++ (part ++ rest))
      (hdollar : dollar = ['$'] ∨ dollar = [] ∧ ∀ r, done ++ (part ++ rest) ≠ '$' :: r)
      (hdone : Components true done segments) (hpart : Misspells done back fault part rest) :
      Offends raw fault (front ++ (dollar ++ (done ++ part))) (rest ++ back)

/-! ## One component -/

section Reading

variable {first : Bool} {offset place : Nat} {fault : PathFault} {done back s t : List Char}

theorem named_eq_error (h : named offset s = .error (place, fault)) :
    (fault = .emptySegment ∧ place = offset ∧ StopsAt staysIn s) ∨
    ∃ good c rest, fault = .invalidCharacter ∧ s = good ++ c :: rest ∧
      place = offset + byteLength good ∧ (∀ g ∈ good, IsIdentChar g) ∧ staysIn c = true ∧
      ¬IsIdentChar c := by
  have hsplit : s.takeWhile staysIn ++ s.dropWhile staysIn = s := List.takeWhile_append_dropWhile
  rw [named_eq] at h
  split at h
  next hempty =>
    cases h
    rw [List.isEmpty_iff.1 hempty, List.nil_append] at hsplit
    exact .inl ⟨rfl, rfl, hsplit ▸ stopsAt_dropWhile staysIn s⟩
  next =>
    split at h
    next hshort =>
      cases h
      have hname : (s.takeWhile staysIn).takeWhile isNameChar ++
          (s.takeWhile staysIn).dropWhile isNameChar = s.takeWhile staysIn :=
        List.takeWhile_append_dropWhile
      have hstop := stopsAt_dropWhile isNameChar (s.takeWhile staysIn)
      cases hbad : (s.takeWhile staysIn).dropWhile isNameChar with
      | nil =>
          rw [hbad, List.append_nil] at hname
          rw [hname] at hshort
          exact absurd hshort (Nat.lt_irrefl _)
      | cons c u =>
          rw [hbad] at hname hstop
          have hmem : c ∈ s.takeWhile staysIn := hname ▸ by simp
          refine .inr ⟨_, c, u ++ s.dropWhile staysIn, rfl, ?_, rfl, ?_, ?_, ?_⟩
          · conv_lhs => rw [← hsplit, ← hname]
            simp
          · exact fun g hg => isNameChar_iff.1 (List.mem_takeWhile_imp hg)
          · exact List.mem_takeWhile_imp hmem
          · rw [← isNameChar_iff, stopsAt_cons.1 hstop]
            exact Bool.false_ne_true
    next => cases h

theorem bracketed_eq_error (h : bracketed (offset + 1) s = .error (place, fault))
    (hback : ']' ∉ back.head?) :
    ∃ part rest, '[' :: s = part ++ rest ∧ place = offset + byteLength part ∧
      Misspells done back fault part rest := by
  have hbracket : '['.utf8Size = 1 := rfl
  rcases key_cases s with hnone | ⟨q, r, hq, rfl, hopen⟩ | ⟨q, key, t, hq, hkey, rfl, ht | ⟨r, rfl⟩⟩
  · cases (bracketed_of_no_quote hnone).symm.trans h
    exact ⟨['['], s, rfl, rfl, .expectedKey hnone⟩
  · cases (bracketed_of_open hq hopen).symm.trans h
    refine ⟨['[', q], r, rfl, ?_, .unterminatedKey hq hopen⟩
    simp [hbracket, hq.utf8Size_eq]
  · cases (bracketed_of_unclosed hq hkey ht).symm.trans h
    refine ⟨'[' :: q :: (key ++ [q]), t, by simp, ?_, .expectedBracket hq hkey ?_⟩
    · simp only [byteLength_cons, byteLength_append, byteLength_nil, hbracket, hq.utf8Size_eq]
      omega
    · cases t with
      | nil => exact hback
      | cons c t =>
          intro hc
          obtain rfl := Option.some.inj hc
          exact ht t rfl
  · cases (bracketed_of_closed hq hkey).symm.trans h

theorem component_eq_error (h : component done.isEmpty offset s = .error (place, fault))
    (hs : s ≠ []) (hend : done = [] ∨ StopsAt staysIn s ∨ done.getLast? = some ']')
    (hback : ']' ∉ back.head?) :
    ∃ part rest, s = part ++ rest ∧ place = offset + byteLength part ∧
      Misspells done back fault part rest := by
  unfold component at h
  split at h
  next => exact bracketed_eq_error h hback
  next r =>
    have hdot : '.'.utf8Size = 1 := rfl
    rcases named_eq_error h with ⟨rfl, rfl, hstop⟩ | ⟨good, c, rest, rfl, rfl, rfl, hgood, hstays, hc⟩
    · exact ⟨['.'], r, rfl, rfl, .emptySegment hstop⟩
    · refine ⟨['.'] ++ good, c :: rest, rfl, ?_, .invalidCharacter (.inl rfl) hgood hstays hc⟩
      simp only [byteLength_append, byteLength_cons, byteLength_nil, hdot]
      omega
  next hbracket hdot =>
    -- The next character begins no component of its own.
    obtain ⟨c, u, rfl⟩ := List.exists_cons_of_ne_nil hs
    have hstays : staysIn c = true := by
      have hmarks : c ≠ '[' ∧ c ≠ '.' :=
        ⟨fun hc => hbracket u (by rw [hc]), fun hc => hdot u (by rw [hc])⟩
      simp [staysIn, hmarks]
    split at h
    next hfirst =>
      have hdone : done = [] := List.isEmpty_iff.1 hfirst
      rcases named_eq_error h with ⟨-, -, hstop⟩ | ⟨good, d, rest, rfl, hsplit, rfl, hgood, hd, hbad⟩
      · cases (stopsAt_cons.1 hstop).symm.trans hstays
      · exact ⟨good, d :: rest, hsplit, rfl, .invalidCharacter (.inr ⟨rfl, hdone⟩) hgood hd hbad⟩
    next hfirst =>
      cases h
      rcases hend with rfl | hstop | hlast
      · exact absurd rfl hfirst
      · cases (stopsAt_cons.1 hstop).symm.trans hstays
      · exact ⟨[], c :: u, rfl, rfl, .expectedComponent hlast hstays⟩

/-! ## The passes -/

/-- What is behind the reader is components, and its offset is their length: so it is at the fault. -/
theorem components_eq_error {fuel start : Nat} {segments : List String} (hfuel : s.length ≤ fuel)
    (hdone : Components true done segments)
    (hend : done = [] ∨ StopsAt staysIn s ∨ done.getLast? = some ']') (hback : ']' ∉ back.head?)
    (h : components fuel done.isEmpty (start + byteLength done) s = .error (place, fault)) :
    ∃ done' segments' part rest, done ++ s = done' ++ (part ++ rest) ∧
      Components true done' segments' ∧ place = start + byteLength (done' ++ part) ∧
      Misspells done' back fault part rest := by
  induction fuel generalizing done s segments with
  | zero =>
      obtain rfl := List.length_eq_zero_iff.1 (Nat.le_zero.1 hfuel)
      cases h
  | succ fuel ih =>
      by_cases hs : s = []
      · subst hs
        cases h
      rw [components.eq_3 _ _ _ _ (by simpa using hs)] at h
      split at h
      next e hcomponent =>
        cases h
        obtain ⟨part, rest, hsplit, hplace, hpart⟩ := component_eq_error hcomponent hs hend hback
        exact ⟨done, segments, part, rest, by rw [hsplit], hdone,
          by rw [hplace, byteLength_append, Nat.add_assoc], hpart⟩
      next segment r hcomponent =>
        have hshort := length_lt_of_component hcomponent
        obtain ⟨t, rfl, ht, hstop⟩ := component_sound hcomponent
        split at h
        next e hrest =>
          cases h
          have hmore : (done ++ t).isEmpty = false := by simp [ht.ne_nil]
          have hoffset : start + byteLength done + (byteLength (t ++ r) - byteLength r) =
              start + byteLength (done ++ t) := by
            simp only [byteLength_append]
            omega
          have hend' : done ++ t = [] ∨ StopsAt staysIn r ∨ (done ++ t).getLast? = some ']' := by
            refine .inr (hstop.imp_right fun hlast => ?_)
            rw [List.getLast?_append, hlast]
            rfl
          have hdone' := hdone.append (.cons ht .nil)
          rw [List.append_nil] at hdone'
          rw [hoffset, ← hmore] at hrest
          obtain ⟨done', segments', part, rest, hsplit, hrest⟩ :=
            ih (by omega) hdone' hend' hrest
          exact ⟨done', segments', part, rest, by rw [← hsplit, List.append_assoc], hrest⟩
        next => cases h

end Reading

/-! ## The whole expression -/

section Whole

variable {raw inner : List Char} {offset place : Nat} {fault : PathFault}

theorem Frame.not_bracket {front body back : List Char} (h : Frame front body back) :
    ']' ∉ back.head? := by
  cases h with
  | braced hbefore hafter => simp
  | bare hbefore hafter hfirst hlast hopen =>
      intro hmem
      have hblank := hafter ']' (List.mem_of_mem_head? hmem)
      exact absurd hblank (by decide)

theorem frame_of_body (h : body raw = .ok (offset, inner)) :
    ∃ front back, raw = front ++ (inner ++ back) ∧ offset = byteLength front ∧
      Frame front inner back := by
  have hsplit : raw.takeWhile isBlank ++ trimStart raw = raw := List.takeWhile_append_dropWhile
  have hstart : byteLength raw - byteLength (trimStart raw) = byteLength (raw.takeWhile isBlank) := by
    have hbytes := congrArg byteLength hsplit
    rw [byteLength_append] at hbytes
    omega
  have hbefore : ∀ c ∈ raw.takeWhile isBlank, isBlank c = true :=
    fun c hc => List.mem_takeWhile_imp hc
  obtain ⟨after, hend, hafter, -⟩ := exists_trimEnd (trimStart raw)
  rw [← trim] at hend
  rw [body, hstart] at h
  split at h
  next r htrim =>
    split at h
    next u hclose =>
      cases h
      have hr : r = u.reverse ++ ['\x7d'] := by
        rw [← List.reverse_reverse r, hclose, List.reverse_cons]
      refine ⟨raw.takeWhile isBlank ++ ['\x7b'], '\x7d' :: after, ?_, ?_, .braced hbefore hafter⟩
      · conv_lhs => rw [← hsplit, hend, htrim, hr]
        simp
      · rw [byteLength_append]
        rfl
    next => cases h
  next hopen =>
    cases h
    obtain ⟨-, -, -, -, -, hfirst, hlast⟩ := trim_eq_iff.1 (rfl : trim raw = trim raw)
    refine ⟨raw.takeWhile isBlank, after, ?_, rfl, .bare hbefore hafter hfirst hlast hopen⟩
    rw [← hend, hsplit]

theorem body_eq_error (h : body raw = .error (place, fault)) :
    place = byteLength raw ∧ Offends raw fault raw [] := by
  unfold body at h
  split at h
  next r htrim =>
    split at h
    next => cases h
    next hclose =>
      cases h
      refine ⟨rfl, .missingBrace (trim_eq_iff.1 htrim) fun hlast => ?_⟩
      obtain ⟨u, rfl⟩ := List.getLast?_eq_some_iff.1 hlast
      exact hclose u.reverse (by simp)
  next => cases h

/-- What stands before the components of a body, which is a dollar sign at most. -/
theorem exists_dollar (front inner : List Char) : ∃ dollar r, inner = dollar ++ r ∧
    (dollar = ['$'] ∨ dollar = [] ∧ ∀ u, r ≠ '$' :: u) ∧
    afterDollar (byteLength front) inner = (byteLength (front ++ dollar), r) := by
  rcases afterDollar_cases (byteLength front) inner with ⟨r, rfl, hread⟩ | ⟨hnone, hread⟩
  · exact ⟨['$'], r, rfl, .inl rfl, by rw [hread, byteLength_append]; rfl⟩
  · exact ⟨[], inner, rfl, .inr ⟨rfl, hnone⟩, by rw [hread, List.append_nil]⟩

theorem components_offend {front dollar r back : List Char} (hframe : Frame front (dollar ++ r) back)
    (hbrace : '\x7b' ∉ r ∧ '\x7d' ∉ r) (hdollar : dollar = ['$'] ∨ dollar = [] ∧ ∀ u, r ≠ '$' :: u)
    (h : components r.length true (byteLength (front ++ dollar)) r = .error (place, fault)) :
    ∃ before after, front ++ (dollar ++ r ++ back) = before ++ after ∧ place = byteLength before ∧
      Offends raw fault before after := by
  -- Nothing is behind the reader where it begins.
  have hstart : components r.length ([] : List Char).isEmpty
      (byteLength (front ++ dollar) + byteLength []) r = .error (place, fault) := h
  obtain ⟨done, segments, part, rest, hsplit, hdone, hplace, hpart⟩ :=
    components_eq_error le_rfl .nil (.inl rfl) hframe.not_bracket hstart
  rw [List.nil_append] at hsplit
  subst hsplit
  refine ⟨front ++ (dollar ++ (done ++ part)), rest ++ back, by simp, ?_,
    .misspelt hframe hbrace hdollar hdone hpart⟩
  rw [hplace, ← byteLength_append, List.append_assoc]

theorem readSegments_eq_error (h : readSegments raw = .error (place, fault)) :
    ∃ before after, raw = before ++ after ∧ place = byteLength before ∧
      Offends raw fault before after := by
  cases hbody : body raw with
  | error e =>
      rw [readSegments, hbody] at h
      cases h
      obtain ⟨hplace, hoffends⟩ := body_eq_error hbody
      exact ⟨raw, [], by simp, hplace, hoffends⟩
  | ok read =>
      obtain ⟨offset, inner⟩ := read
      obtain ⟨front, back, rfl, rfl, hframe⟩ := frame_of_body hbody
      rw [readSegments_of_body hbody] at h
      split at h
      next hbrace =>
        cases h
        have hmem : '\x7b' ∈ inner ∨ '\x7d' ∈ inner := by
          by_contra hnone
          rw [not_or, ← any_brace_eq_false, hbrace] at hnone
          cases hnone
        exact ⟨front, inner ++ back, rfl, rfl, .unexpectedBrace hframe hmem⟩
      next hbrace =>
        rw [Bool.not_eq_true, any_brace_eq_false] at hbrace
        obtain ⟨dollar, r, rfl, hdollar, hread⟩ := exists_dollar front inner
        rw [hread] at h
        split at h
        next e hcomponents =>
          cases h
          refine components_offend hframe ⟨?_, ?_⟩ hdollar hcomponents
          · exact fun hmem => hbrace.1 (List.mem_append_right _ hmem)
          · exact fun hmem => hbrace.2 (List.mem_append_right _ hmem)
        next hcomponents =>
          cases h
          obtain rfl : r = [] := ((components_eq_ok le_rfl).1 hcomponents).eq_nil
          refine ⟨front ++ (dollar ++ []), back, by simp, by rw [List.append_nil], .emptyPath hframe ?_⟩
          rcases hdollar with rfl | ⟨rfl, -⟩
          · exact .inr rfl
          · exact .inl rfl
        next => cases h

end Whole

/-- **A fault is where it is reported.** No text breaks the reader, not at any place where it cuts.
Where it rejects an expression, the report has the expression as it was given and a place in it: no
further than its end, between two characters, with the text before and behind it that the fault is
about. -/
theorem read_error_at :
    (∀ raw, readByCuts raw = some (read raw)) ∧
    ∀ raw e, read raw = .error e →
      e.expression = raw ∧ e.offset ≤ raw.utf8ByteSize ∧ String.Pos.Raw.IsValid raw ⟨e.offset⟩ ∧
      ∃ before after, raw.toList = before ++ after ∧ e.offset = byteLength before ∧
        Offends raw.toList e.fault before after := by
  refine ⟨readByCuts_eq, fun raw e h => ?_⟩
  rw [read] at h
  split at h
  next => cases h
  next offset fault hread =>
    cases h
    obtain ⟨before, after, hsplit, rfl, hoffends⟩ := readSegments_eq_error hread
    have hraw : raw = String.ofList before ++ String.ofList after := by
      rw [← String.ofList_append, ← hsplit, String.ofList_toList]
    have hvalid : String.Pos.Raw.IsValid raw ⟨byteLength before⟩ := by
      rw [String.Pos.Raw.isValid_iff_exists_append]
      exact ⟨_, _, hraw, by rw [String.rawEndPos_ofList, byteLength_eq]⟩
    have hle : byteLength before ≤ raw.utf8ByteSize := by
      rw [← String.utf8Len_toList, hsplit, ← byteLength_eq, byteLength_append]
      exact Nat.le_add_right _ _
    exact ⟨rfl, hle, hvalid, before, after, hsplit, rfl, hoffends⟩

/-- A blank of three bytes, a brace, a dollar sign and a key of two bytes stand before the quote after
which a bracket is missing. -/
theorem read_error_at_wide_key :
    let raw := "\u3000\x7b$.Pod['ü'x\x7d"
    read raw = .error ⟨raw, 14, .expectedBracket⟩ ∧
      readByCuts raw = some (.error ⟨raw, 14, .expectedBracket⟩) ∧
      ∃ before after, raw.toList = before ++ after ∧ 14 = byteLength before ∧
        Offends raw.toList .expectedBracket before after := by
  have hread : read "\u3000\x7b$.Pod['ü'x\x7d" =
      .error ⟨"\u3000\x7b$.Pod['ü'x\x7d", 14, .expectedBracket⟩ := by decide
  exact ⟨hread, (read_error_at.1 _).trans (congrArg some hread),
    (read_error_at.2 _ _ hread).2.2.2⟩

end Chargeback.Path
