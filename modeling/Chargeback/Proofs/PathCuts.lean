import Chargeback.Proofs.PathGrammar
import Mathlib.Data.String.Basic

/-!
# Reading a path by cutting it at bytes

The text of an expression is bytes, and a reader that keeps its place as a number of bytes cuts the
text there. A cut beyond the end, or inside a character of several bytes, is no fault that could be
reported: the program breaks down. A place before the one where the text begins cannot be counted
either.

Here the expression is read in this way (`readByCuts`), with every cut and every subtraction able to
fail. None does, on any text: the reader by cuts is the reader of expressions (`readByCuts_eq`). A cut
holds since it is made after a character that has just been found, or after a mark of ASCII, which is
one byte (`cutAt?_eq_some`).
-/

namespace Chargeback.Path

open Text

/-! ## Bytes of characters -/

theorem byteLength_eq (s : List Char) : byteLength s = String.utf8Len s := by
  have hfrom : ∀ n, s.foldl (fun n c => n + c.utf8Size) n = n + String.utf8Len s := by
    induction s with
    | nil => simp
    | cons c s ih =>
        intro n
        rw [List.foldl_cons, ih, String.utf8Len_cons]
        omega
  rw [byteLength, hfrom, Nat.zero_add]

@[simp] theorem byteLength_nil : byteLength [] = 0 := rfl

@[simp] theorem byteLength_cons (c : Char) (s : List Char) :
    byteLength (c :: s) = c.utf8Size + byteLength s := by
  rw [byteLength_eq, byteLength_eq, String.utf8Len_cons, Nat.add_comm]

@[simp] theorem byteLength_append (s t : List Char) :
    byteLength (s ++ t) = byteLength s + byteLength t := by
  simp only [byteLength_eq, String.utf8Len_append]

theorem IsQuote.utf8Size_eq {q : Char} (hq : IsQuote q) : q.utf8Size = 1 := by
  rcases hq with rfl | rfl <;> rfl

/-! ## Cuts that can fail -/

/-- The text before this byte and the text from it, unless the byte is beyond the end or not the
first of a character. -/
def cutAt? : Nat → List Char → Option (List Char × List Char)
  | 0, s => some ([], s)
  | _ + 1, [] => none
  | n + 1, c :: s =>
    if c.utf8Size ≤ n + 1 then (cutAt? (n + 1 - c.utf8Size) s).map fun (a, b) => (c :: a, b)
    else none

/-- The byte at which the first character with the property begins. -/
def findByte? (p : Char → Bool) : List Char → Option Nat
  | [] => none
  | c :: s => if p c then some 0 else (findByte? p s).map (c.utf8Size + ·)

/-- A difference of places, which must not be negative. -/
def minus? (m n : Nat) : Option Nat := if n ≤ m then some (m - n) else none

theorem cutAt?_byteLength (a b : List Char) : cutAt? (byteLength a) (a ++ b) = some (a, b) := by
  induction a with
  | nil => rw [byteLength_nil, List.nil_append, cutAt?]
  | cons c a ih =>
      have hpos := c.utf8Size_pos
      obtain ⟨n, hn⟩ : ∃ n, c.utf8Size + byteLength a = n + 1 :=
        ⟨_, (Nat.succ_pred (by omega)).symm⟩
      rw [byteLength_cons, List.cons_append, hn, cutAt?, if_pos (by omega), ← hn,
        Nat.add_sub_cancel_left, ih, Option.map_some]

theorem findByte?_eq (p : Char → Bool) (s : List Char) :
    findByte? p s =
      if s.any p then some (byteLength (s.takeWhile (! p ·))) else none := by
  induction s with
  | nil => rfl
  | cons c s ih =>
      rw [findByte?, ih]
      cases hp : p c with
      | true => simp [hp]
      | false => cases hany : s.any p <;> simp [hp, hany]

/-- Where the first character with the property begins, or the end. -/
theorem getD_findByte? (p : Char → Bool) (s : List Char) :
    (findByte? p s).getD (byteLength s) = byteLength (s.takeWhile (! p ·)) := by
  rw [findByte?_eq]
  cases hany : s.any p with
  | true => rfl
  | false =>
      have hall : s.takeWhile (! p ·) = s := by
        rw [List.takeWhile_eq_self_iff]
        simpa using hany
      rw [hall]
      rfl

/-- The part that is left is no longer than the text. -/
theorem minus?_of_suffix {s r : List Char} (h : r <:+ s) :
    minus? (byteLength s) (byteLength r) = some (byteLength s - byteLength r) := by
  obtain ⟨t, rfl⟩ := h
  rw [minus?, if_pos (by simp)]

/-! ## The reader -/

/-- A place with a fault, or the part that is read, the place after it and what is left. -/
abbrev Pass := Except Fault (List Char × Nat × List Char)

/-- A quoted key. The text begins at the opening bracket, and `r` is what follows the bracket. -/
def keyByCuts (offset : Nat) (s r : List Char) : Option Pass := do
  match r.head?.filter fun c => c == '\'' || c == '"' with
  | none => return .error (offset + 1, .expectedKey)
  | some q =>
    let (_, r) ← cutAt? 1 r
    match findByte? (· == q) r with
    | none => return .error (offset + 2, .unterminatedKey)
    | some stop =>
      let (key, _) ← cutAt? stop r
      let (_, r) ← cutAt? (stop + 1) r
      match r with
      | ']' :: r =>
        let taken ← minus? (byteLength s) (byteLength r)
        return .ok (key, offset + taken, r)
      | _ => return .error (offset + stop + 3, .expectedBracket)

/-- A name. The text begins at the dot, if there is one, and `r` is what follows the dot. -/
def nameByCuts (offset : Nat) (s r : List Char) : Option Pass := do
  let start := offset + (← minus? (byteLength s) (byteLength r))
  let stop := (findByte? (fun c => c == '.' || c == '[') r).getD (byteLength r)
  let (name, _) ← cutAt? stop r
  if name.isEmpty then return .error (start, .emptySegment)
  else match findByte? (! isNameChar ·) name with
    | some place => return .error (start + place, .invalidCharacter)
    | none =>
      let (_, r) ← cutAt? stop r
      return .ok (name, start + stop, r)

/-- The component at the front of a text that begins at `offset`. -/
def componentByCuts (first : Bool) (offset : Nat) (s : List Char) : Option Pass :=
  match s with
  | '[' :: r => keyByCuts offset s r
  | '.' :: r => nameByCuts offset s r
  | r => if first then nameByCuts offset s r else some (.error (offset, .expectedComponent))

/-- The segments of all components. A loop that goes on after as many passes as there are characters
counts as a breakdown. -/
def componentsByCuts : Nat → Bool → Nat → List Char → Option (Except Fault (List String))
  | _, _, _, [] => some (.ok [])
  | 0, _, _, _ :: _ => none
  | fuel + 1, first, offset, s => do
    match ← componentByCuts first offset s with
    | .error e => return .error e
    | .ok (segment, offset, r) =>
      match ← componentsByCuts fuel false offset r with
      | .error e => return .error e
      | .ok segments => return .ok (String.ofList segment :: segments)

/-- The text between the braces, if it begins with one, and where it begins. -/
def bodyByCuts (raw : List Char) : Option (Except Fault (Nat × List Char)) := do
  let start ← minus? (byteLength raw) (byteLength (trimStart raw))
  return match trim raw with
    | '\x7b' :: r =>
      match r.reverse with
      | '\x7d' :: inner => .ok (start + 1, inner.reverse)
      | _ => .error (byteLength raw, .missingBrace)
    | r => .ok (start, r)

/-- The segments of an expression. -/
def segmentsByCuts (raw : List Char) : Option (Except Fault (List String)) := do
  match ← bodyByCuts raw with
  | .error e => return .error e
  | .ok (offset, inner) =>
    if inner.any fun c => c == '\x7b' || c == '\x7d' then return .error (offset, .unexpectedBrace)
    else
      let (offset, r) := afterDollar offset inner
      match ← componentsByCuts r.length true offset r with
      | .error e => return .error e
      | .ok [] => return .error (offset, .emptyPath)
      | .ok segments => return .ok segments

/-- Reads an expression by cuts, or breaks down at one. -/
def readByCuts (raw : String) : Option (Except PathError Path) := do
  match ← segmentsByCuts raw.toList with
  | .ok segments => return .ok ⟨raw, segments⟩
  | .error (offset, fault) => return .error ⟨raw, offset, fault⟩

/-! ## No cut fails -/

/-- What the reader makes of a component, with the place after it. -/
def placed (offset : Nat) (s : List Char) (read : Except Fault (List Char × List Char)) : Pass :=
  read.map fun (segment, r) => (segment, offset + (byteLength s - byteLength r), r)

theorem keyByCuts_eq (offset : Nat) (s : List Char) :
    keyByCuts offset ('[' :: s) s = some (placed offset ('[' :: s) (bracketed (offset + 1) s)) := by
  have hsize : ∀ {q}, IsQuote q → byteLength [q] = 1 := by simp +contextual [IsQuote.utf8Size_eq]
  have hquote : ∀ {q}, IsQuote q → (q == '\'' || q == '"') = true := by simp [IsQuote]
  rcases key_cases s with hnone | ⟨q, r, hq, rfl, hopen⟩ | ⟨q, key, t, hq, hkey, rfl, ht⟩
  · rw [bracketed_of_no_quote hnone]
    have hfilter : (s.head?.filter fun c => c == '\'' || c == '"') = none := by
      simpa [Option.filter_eq_none_iff, IsQuote] using hnone
    rw [keyByCuts, hfilter]
    rfl
  · have hcut : cutAt? 1 (q :: r) = some ([q], r) := hsize hq ▸ cutAt?_byteLength [q] r
    have hfind : findByte? (· == q) r = none := by
      rw [findByte?_eq, if_neg (by simpa using hopen)]
    simp only [keyByCuts, List.head?_cons, Option.filter_some, hquote hq, if_true, hcut, hfind,
      Option.bind_eq_bind, Option.bind_some, bracketed_of_open hq hopen]
    rfl
  · have hfirst : cutAt? 1 (q :: (key ++ q :: t)) = some ([q], key ++ q :: t) :=
      hsize hq ▸ cutAt?_byteLength [q] (key ++ q :: t)
    have hfind : findByte? (· == q) (key ++ q :: t) = some (byteLength key) := by
      rw [findByte?_eq, if_pos (by simp)]
      exact congrArg (some ∘ byteLength) (takeWhile_ne_append hkey t)
    have hlast := cutAt?_byteLength (key ++ [q]) t
    rw [List.append_assoc, List.singleton_append, byteLength_append, hsize hq] at hlast
    rcases ht with ht | ⟨r, rfl⟩
    · have hoffset : offset + byteLength key + 3 = offset + 1 + byteLength key + 2 := by omega
      simp only [keyByCuts, List.head?_cons, Option.filter_some, hquote hq, if_true, hfirst, hfind,
        cutAt?_byteLength, hlast, Option.bind_eq_bind, Option.bind_some, Option.pure_def, hoffset,
        bracketed_of_unclosed hq hkey ht, placed, Except.map]
    · have hleft : r <:+ '[' :: q :: (key ++ q :: ']' :: r) :=
        ⟨'[' :: q :: (key ++ [q, ']']), by simp⟩
      simp only [keyByCuts, List.head?_cons, Option.filter_some, hquote hq, if_true, hfirst, hfind,
        cutAt?_byteLength, hlast, Option.bind_eq_bind, Option.bind_some, Option.pure_def,
        minus?_of_suffix hleft, bracketed_of_closed hq hkey, placed, Except.map]

theorem nameByCuts_eq (offset : Nat) {s r : List Char} (h : r <:+ s) :
    nameByCuts offset s r =
      some (placed offset s (named (offset + (byteLength s - byteLength r)) r)) := by
  have hstop : (findByte? (fun c => c == '.' || c == '[') r).getD (byteLength r) =
      byteLength (r.takeWhile staysIn) := by
    rw [getD_findByte?]
    congr 2
    funext c
    simp [staysIn, bne]
  have hsplit : r.takeWhile staysIn ++ r.dropWhile staysIn = r := List.takeWhile_append_dropWhile
  have hcut : cutAt? (byteLength (r.takeWhile staysIn)) r =
      some (r.takeWhile staysIn, r.dropWhile staysIn) := by
    simpa only [hsplit] using cutAt?_byteLength (r.takeWhile staysIn) (r.dropWhile staysIn)
  have hfind := findByte?_eq (! isNameChar ·) (r.takeWhile staysIn)
  simp only [Bool.not_not] at hfind
  simp only [nameByCuts, minus?_of_suffix h, hstop, hcut, hfind, Option.bind_eq_bind,
    Option.bind_some, named_eq]
  split
  next => rfl
  next =>
    by_cases hall : ∀ c ∈ r.takeWhile staysIn, isNameChar c = true
    · have hgood : (r.takeWhile staysIn).takeWhile isNameChar = r.takeWhile staysIn :=
        List.takeWhile_eq_self_iff.2 hall
      rw [if_neg (by simpa using hall), hgood, if_neg (Nat.lt_irrefl _)]
      -- The place after the name is counted from the name here, and from what is left there.
      have hbytes : byteLength r =
          byteLength (r.takeWhile staysIn) + byteLength (r.dropWhile staysIn) := by
        rw [← byteLength_append, hsplit]
      have hle : byteLength r ≤ byteLength s := by
        obtain ⟨t, rfl⟩ := h
        simp
      have hplace : byteLength s - byteLength r + byteLength (r.takeWhile staysIn) =
          byteLength s - byteLength (r.dropWhile staysIn) := by omega
      rw [Nat.add_assoc, hplace]
      rfl
    · have hshort : ((r.takeWhile staysIn).takeWhile isNameChar).length <
          (r.takeWhile staysIn).length := by
        refine lt_of_le_of_ne (List.takeWhile_prefix _).length_le fun heq => hall ?_
        exact List.takeWhile_eq_self_iff.1 ((List.takeWhile_prefix _).eq_of_length heq)
      rw [if_pos (by simpa using hall), if_pos hshort]
      rfl

theorem componentByCuts_eq (first : Bool) (offset : Nat) (s : List Char) :
    componentByCuts first offset s = some (placed offset s (component first offset s)) := by
  unfold componentByCuts
  split
  next r => exact keyByCuts_eq offset r
  next r =>
    have hdot : byteLength ('.' :: r) - byteLength r = 1 := by
      rw [byteLength_cons, Nat.add_sub_cancel]
      rfl
    rw [nameByCuts_eq offset (List.suffix_cons '.' r), hdot]
    rfl
  next hbracket hdot =>
    rw [component.eq_3 _ _ _ hbracket hdot]
    split
    next => rw [nameByCuts_eq offset (List.suffix_refl s), Nat.sub_self, Nat.add_zero]
    next => rfl

/-- The loop comes to its end, and no cut in it fails. -/
theorem componentsByCuts_eq {fuel : Nat} {first : Bool} {offset : Nat} {s : List Char}
    (hfuel : s.length ≤ fuel) :
    componentsByCuts fuel first offset s = some (components fuel first offset s) := by
  induction fuel generalizing first offset s with
  | zero =>
      obtain rfl := List.length_eq_zero_iff.1 (Nat.le_zero.1 hfuel)
      rfl
  | succ fuel ih =>
      by_cases hs : s = []
      · subst hs
        rfl
      rw [componentsByCuts.eq_3 _ _ _ _ (by simpa using hs),
        components.eq_3 _ _ _ _ (by simpa using hs), componentByCuts_eq]
      cases hcomponent : component first offset s with
      | error e => rfl
      | ok read =>
          have hshort : read.2.length < s.length := length_lt_of_component hcomponent
          have hrest : componentsByCuts fuel false (offset + (byteLength s - byteLength read.2))
              read.2 = some (components fuel false _ read.2) := ih (by omega)
          simp only [placed, Except.map, Option.bind_eq_bind, Option.bind_some, hrest]
          cases components fuel false (offset + (byteLength s - byteLength read.2)) read.2 <;> rfl

theorem bodyByCuts_eq (raw : List Char) : bodyByCuts raw = some (body raw) := by
  have hstart : trimStart raw <:+ raw := List.dropWhile_suffix _
  rw [bodyByCuts, minus?_of_suffix hstart]
  rfl

theorem segmentsByCuts_eq (raw : List Char) : segmentsByCuts raw = some (readSegments raw) := by
  rw [segmentsByCuts, bodyByCuts_eq]
  cases hbody : body raw with
  | error e =>
      rw [readSegments, hbody]
      rfl
  | ok start =>
      rw [readSegments_of_body hbody]
      simp only [Option.bind_eq_bind, Option.bind_some, componentsByCuts_eq (Nat.le_refl _)]
      split
      next => rfl
      next =>
        cases components (afterDollar start.1 start.2).2.length true (afterDollar start.1 start.2).1
            (afterDollar start.1 start.2).2 with
        | error e => rfl
        | ok segments => cases segments <;> rfl

/-- **No text breaks the reader.** Every place at which it cuts an expression is one between
characters of the text. -/
theorem readByCuts_eq (raw : String) : readByCuts raw = some (read raw) := by
  rw [readByCuts, segmentsByCuts_eq, read]
  cases readSegments raw.toList <;> rfl

end Chargeback.Path
