import Chargeback.Json.Document
import Chargeback.Json.Printed
import Chargeback.Proofs.TextBytes
import Mathlib.Data.List.Basic

/-!
# Printed JSON is read back

What is printed for a value is read as this value again, if the value is PLAIN: its integers have
sixty-four bits, its tables have texts for keys, and it has no doubles. This is shown from the leaves
up: a string literal gives back its text, whatever the characters in it; the digits of an integer give
back the integer; a printed value splits into the tokens that stand for it (`tokensOf`); and these
tokens are read as the value.

The readers are given fuel. A statement about them says that any amount from some bound on is enough.
-/

namespace Chargeback.Json

open Text

/-! ## String literals -/

/-- A byte that stands for itself in a string literal. -/
def isLiteralByte (b : UInt8) : Bool := b != 0x22 && b != 0x5C && !decide (b < 0x20)

theorem splitString?_append {bs : List UInt8} (h : ∀ b ∈ bs, isLiteralByte b = true)
    (rest : List UInt8) :
    splitString? (bs ++ rest) = (splitString? rest).map fun (s, t) => (bs ++ s, t) := by
  induction bs with
  | nil => simp
  | cons b bs ih =>
      obtain ⟨hb, hbs⟩ := List.forall_mem_cons.1 h
      obtain ⟨⟨hquote, hescape⟩, hcontrol⟩ : (b ≠ 0x22 ∧ b ≠ 0x5C) ∧ ¬b < 0x20 := by
        simpa [isLiteralByte] using hb
      rw [List.cons_append, splitString?.eq_def]
      simp only [beq_iff_eq, hquote, hescape, hcontrol, if_false, ih hbs, Option.map_map]
      rfl

theorem unescape?_append {bs : List UInt8} (h : ∀ b ∈ bs, isLiteralByte b = true)
    (rest : List UInt8) :
    unescape? (bs ++ rest) = (unescape? rest).map (bs ++ ·) := by
  induction bs with
  | nil => simp
  | cons b bs ih =>
      obtain ⟨hb, hbs⟩ := List.forall_mem_cons.1 h
      have hescape : b ≠ 0x5C := by
        intro hb'
        simp [isLiteralByte, hb'] at hb
      rw [List.cons_append, unescape?.eq_def]
      simp only [beq_iff_eq, hescape, if_false, ih hbs, Option.map_map]
      rfl

/-- The bytes stand for a character in a string literal. -/
structure Escapes (bs : List UInt8) (c : Char) : Prop where
  split (rest : List UInt8) :
    splitString? (bs ++ rest) = (splitString? rest).map fun (s, t) => (bs ++ s, t)
  unescape (rest : List UInt8) :
    unescape? (bs ++ rest) = (unescape? rest).map (String.utf8EncodeChar c ++ ·)

theorem escapes_simple {e v : UInt8} {c : Char} (hsimple : simpleEscape? e = some v)
    (hc : String.utf8EncodeChar c = [v]) : Escapes [0x5C, e] c := by
  have hu : (e == 0x75) = false := by
    cases hu : e == 0x75 with
    | false => rfl
    | true =>
        rw [beq_iff_eq.1 hu] at hsimple
        cases hsimple
  constructor
  · intro rest
    rw [List.cons_append, splitString?.eq_def]
    simp [hu, hsimple]
  · intro rest
    rw [List.cons_append, unescape?.eq_def]
    simp [hu, hsimple, hc]

theorem hex4?_control {n : Nat} (h : n < 0x20) :
    hex4? 0x30 0x30 (UInt8.ofNat (Nat.digitChar (n / 16)).toNat)
      (UInt8.ofNat (Nat.digitChar (n % 16)).toNat) = some n := by
  have hall : ∀ m : Fin 0x20, hex4? 0x30 0x30 (UInt8.ofNat (Nat.digitChar (m.val / 16)).toNat)
      (UInt8.ofNat (Nat.digitChar (m.val % 16)).toNat) = some m.val := by decide
  exact hall ⟨n, h⟩

theorem digitChar_ascii {n : Nat} (h : n < 16) : (Nat.digitChar n).toNat < 0x80 := by
  have hall : ∀ m : Fin 16, (Nat.digitChar m.val).toNat < 0x80 := by decide
  exact hall ⟨n, h⟩

theorem codePoint_toNat (c : Char) : codePoint c.toNat = String.utf8EncodeChar c := by
  rw [codePoint, Char.ofNat_toNat, encode_eq_bytes]
  simp [bytes]

theorem escapes_control {c : Char} (h : c.toNat < 0x20) :
    Escapes (bytes ['\\', 'u', '0', '0', Nat.digitChar (c.toNat / 16),
      Nat.digitChar (c.toNat % 16)]) c := by
  have hbytes : bytes ['\\', 'u', '0', '0', Nat.digitChar (c.toNat / 16),
      Nat.digitChar (c.toNat % 16)] =
      [0x5C, 0x75, 0x30, 0x30, UInt8.ofNat (Nat.digitChar (c.toNat / 16)).toNat,
        UInt8.ofNat (Nat.digitChar (c.toNat % 16)).toNat] := by
    rw [bytes_of_ascii]
    · rfl
    · intro d hd
      simp only [List.mem_cons, List.not_mem_nil, or_false] at hd
      rcases hd with rfl | rfl | rfl | rfl | rfl | rfl
      all_goals first
        | decide
        | exact digitChar_ascii (by omega)
  have hcode := hex4?_control h
  have hlow : ¬(0xDC00 ≤ c.toNat ∧ c.toNat ≤ 0xDFFF) := by omega
  have hhigh : ¬(0xD800 ≤ c.toNat ∧ c.toNat ≤ 0xDBFF) := by omega
  rw [hbytes]
  constructor
  · intro rest
    rw [List.cons_append, splitString?.eq_def]
    simp [hcode]
  · intro rest
    rw [List.cons_append, unescape?.eq_def]
    simp [hcode, hlow, hhigh, codePoint_toNat]

theorem escapes_literal {c : Char} (hquote : c ≠ '"') (hescape : c ≠ '\\') (h : 0x20 ≤ c.toNat) :
    Escapes (bytes [c]) c := by
  have hbytes : bytes [c] = String.utf8EncodeChar c := by simp [bytes]
  have hliteral : ∀ b ∈ String.utf8EncodeChar c, isLiteralByte b = true := by
    intro b hb
    have hcode : 0x20 ≤ b.toNat ∧ b.toNat ≠ 0x22 ∧ b.toNat ≠ 0x5C := by
      by_cases hascii : c.toNat < 0x80
      · rw [utf8EncodeChar_of_ascii hascii, List.mem_singleton] at hb
        have hb' : b.toNat = c.toNat := by
          rw [hb, UInt8.toNat_ofNat']
          omega
        rw [hb']
        refine ⟨h, fun hc => hquote ?_, fun hc => hescape ?_⟩
        · rw [← Char.ofNat_toNat c, hc]
        · rw [← Char.ofNat_toNat c, hc]
      · have hbeyond := le_of_mem_utf8EncodeChar (by omega) hb
        omega
    have hne {m : UInt8} (hm : b.toNat ≠ m.toNat) : b ≠ m := fun heq => hm (heq ▸ rfl)
    simp only [isLiteralByte, Bool.and_eq_true, bne_iff_ne, Bool.not_eq_true', decide_eq_false_iff_not,
      UInt8.lt_iff_toNat_lt]
    exact ⟨⟨hne hcode.2.1, hne hcode.2.2⟩, by simpa using hcode.1⟩
  rw [hbytes]
  exact ⟨splitString?_append hliteral, unescape?_append hliteral⟩

theorem escapes_escapedChar (c : Char) : Escapes (bytes (escapedChar c)) c := by
  have hascii {n : Nat} (hn : n < 0x80) (hc : c.toNat = n) :
      String.utf8EncodeChar c = [UInt8.ofNat n] := by
    rw [utf8EncodeChar_of_ascii (hc ▸ hn), hc]
  unfold escapedChar
  split
  · next h =>
      obtain rfl := beq_iff_eq.1 h
      exact escapes_simple rfl rfl
  split
  · next h =>
      obtain rfl := beq_iff_eq.1 h
      exact escapes_simple rfl rfl
  split
  · next h =>
      obtain rfl := beq_iff_eq.1 h
      exact escapes_simple rfl rfl
  split
  · next h =>
      obtain rfl := beq_iff_eq.1 h
      exact escapes_simple rfl rfl
  split
  · next h =>
      obtain rfl := beq_iff_eq.1 h
      exact escapes_simple rfl rfl
  split
  · next h => exact escapes_simple rfl (hascii (by decide) (beq_iff_eq.1 h))
  split
  · next h => exact escapes_simple rfl (hascii (by decide) (beq_iff_eq.1 h))
  split
  · next h => exact escapes_control h
  · next hquote hescape _ _ _ _ _ hcontrol =>
      exact escapes_literal (by simpa using hquote) (by simpa using hescape) (by omega)

/-- The inside of a string literal is read up to its closing quote, and stands for the text. -/
theorem splitString?_escaped (cs : List Char) (rest : List UInt8) :
    splitString? (bytes (cs.flatMap escapedChar) ++ 0x22 :: rest) =
      some (bytes (cs.flatMap escapedChar), rest) := by
  induction cs with
  | nil => rw [List.flatMap_nil, bytes_nil, List.nil_append, splitString?.eq_def]; rfl
  | cons c cs ih =>
      rw [List.flatMap_cons, bytes_append, List.append_assoc, (escapes_escapedChar c).split, ih]
      rfl

theorem unescape?_escaped (cs : List Char) :
    unescape? (bytes (cs.flatMap escapedChar)) = some (bytes cs) := by
  induction cs with
  | nil => rw [List.flatMap_nil, bytes_nil, unescape?.eq_def]
  | cons c cs ih =>
      rw [List.flatMap_cons, bytes_append, (escapes_escapedChar c).unescape, ih]
      rfl

theorem stringValue_escaped (s : String) :
    stringValue (bytes (s.toList.flatMap escapedChar)) = some s := by
  rw [stringValue, unescape?_escaped, Option.bind_some, ← encode_eq_bytes, decode?_encode]

/-! ## Numerals -/

/-- A text in which a value has ended: nothing follows, or what comes between values and after
them. -/
def EndsValue (rest : List UInt8) : Prop := ∀ b ∈ rest.head?, b = 0x2C ∨ b = 0x5D ∨ b = 0x7D

theorem EndsValue.cons {b : UInt8} (h : b = 0x2C ∨ b = 0x5D ∨ b = 0x7D) (rest : List UInt8) :
    EndsValue (b :: rest) := by
  intro b' hb'
  rw [List.head?_cons, Option.mem_some_iff] at hb'
  exact hb' ▸ h

/-- The byte of a digit. -/
theorem isDigit_byte {c : Char} (h : Text.isDigit c = true) :
    isDigit (UInt8.ofNat c.toNat) = true ∧ (UInt8.ofNat c.toNat).toNat - 0x30 = digitValue c := by
  obtain ⟨hlow, hhigh⟩ := toNat_of_isDigit h
  have hcode : (UInt8.ofNat c.toNat).toNat = c.toNat := by
    rw [UInt8.toNat_ofNat']
    omega
  refine ⟨?_, by rw [hcode]; rfl⟩
  simp only [isDigit, Bool.and_eq_true, decide_eq_true_eq, UInt8.le_iff_toNat_le, hcode]
  exact ⟨hlow, hhigh⟩

theorem bytes_digits {ds : List Char} (h : ∀ c ∈ ds, Text.isDigit c = true) :
    bytes ds = ds.map fun c => UInt8.ofNat c.toNat :=
  bytes_of_ascii fun c hc => by
    have hrange := toNat_of_isDigit (h c hc)
    omega

theorem splitDigits_digits {ds : List Char} (h : ∀ c ∈ ds, Text.isDigit c = true)
    {rest : List UInt8} (hrest : EndsValue rest) :
    splitDigits (bytes ds ++ rest) = (ds.map digitValue, rest) := by
  rw [bytes_digits h]
  induction ds with
  | nil =>
      cases rest with
      | nil => rfl
      | cons b rest =>
          have hb : isDigit b = false := by
            rcases hrest b rfl with rfl | rfl | rfl <;> rfl
          simp [splitDigits, hb]
  | cons c ds ih =>
      obtain ⟨hc, hds⟩ := List.forall_mem_cons.1 h
      obtain ⟨hdigit, hvalue⟩ := isDigit_byte hc
      simp only [List.map_cons, List.cons_append, splitDigits, hdigit, if_true, ih hds, hvalue]

theorem isWhole_digits (n : Nat) :
    (((Nat.toDigits 10 n).map digitValue).isEmpty ||
      (((Nat.toDigits 10 n).map digitValue).head? == some 0 &&
        decide (1 < ((Nat.toDigits 10 n).map digitValue).length))) = false := by
  cases hds : Nat.toDigits 10 n with
  | nil => simp at hds
  | cons c ds =>
      have hrange := toNat_of_isDigit (isDigit_of_mem_toDigits (n := n) (hds ▸ List.mem_cons_self))
      by_cases hzero : digitValue c = 0
      · have hcode : c.toNat = '0'.toNat := by
          have hle : c.toNat - '0'.toNat = 0 := hzero
          have heq : '0'.toNat = 0x30 := rfl
          omega
        have hc : c = '0' := by rw [← Char.ofNat_toNat c, hcode, Char.ofNat_toNat]
        simp [eq_nil_of_leading_zero (hc ▸ hds)]
      · simp [hzero]

theorem splitFraction?_of_ends {rest : List UInt8} (hrest : EndsValue rest) :
    splitFraction? rest = some (none, rest) := by
  cases rest with
  | nil => rfl
  | cons b rest => rcases hrest b rfl with rfl | rfl | rfl <;> rfl

theorem splitExponent?_of_ends {rest : List UInt8} (hrest : EndsValue rest) :
    splitExponent? rest = some (none, rest) := by
  cases rest with
  | nil => rfl
  | cons b rest => rcases hrest b rfl with rfl | rfl | rfl <;> rfl

theorem splitNumeral?_minus (n : Nat) {rest : List UInt8} (hrest : EndsValue rest) :
    splitNumeral? (0x2D :: (bytes (Nat.toDigits 10 n) ++ rest)) =
      some (⟨true, (Nat.toDigits 10 n).map digitValue, none, none⟩, rest) := by
  have hdigits : ∀ c ∈ Nat.toDigits 10 n, Text.isDigit c = true :=
    fun c hc => isDigit_of_mem_toDigits hc
  have hsplit := splitDigits_digits hdigits hrest
  rw [splitNumeral?]
  simp only [hsplit, isWhole_digits n, Bool.false_eq_true, if_false, splitFraction?_of_ends hrest,
    splitExponent?_of_ends hrest, Option.bind_eq_bind, Option.bind_some, Option.pure_def]

theorem splitNumeral?_digits (n : Nat) {rest : List UInt8} (hrest : EndsValue rest) :
    splitNumeral? (bytes (Nat.toDigits 10 n) ++ rest) =
      some (⟨false, (Nat.toDigits 10 n).map digitValue, none, none⟩, rest) := by
  have hdigits : ∀ c ∈ Nat.toDigits 10 n, Text.isDigit c = true :=
    fun c hc => isDigit_of_mem_toDigits hc
  have hsplit := splitDigits_digits hdigits hrest
  have hminus (r : List UInt8) : bytes (Nat.toDigits 10 n) ++ rest ≠ 0x2D :: r := by
    intro heq
    cases hds : Nat.toDigits 10 n with
    | nil => simp at hds
    | cons c ds =>
        have hrange := toNat_of_isDigit (isDigit_of_mem_toDigits (n := n) (hds ▸ List.mem_cons_self))
        rw [hds, bytes_cons, utf8EncodeChar_of_ascii (by omega)] at heq
        have hcode := congrArg UInt8.toNat (List.cons.inj heq).1
        rw [UInt8.toNat_ofNat'] at hcode
        simp at hcode
        omega
  rw [splitNumeral?.eq_def]
  split
  next h =>
    split at h
    · next hs => exact absurd hs (hminus _)
    · obtain ⟨rfl, rfl⟩ := Prod.mk.inj h
      simp only [hsplit, isWhole_digits n, Bool.false_eq_true, if_false,
        splitFraction?_of_ends hrest, splitExponent?_of_ends hrest, Option.bind_eq_bind,
        Option.bind_some, Option.pure_def]

/-- Integers of sixty-four bits, signed or unsigned. -/
def IsInteger (i : Int) : Prop := -2 ^ 63 ≤ i ∧ i < 2 ^ 64

/-- What is written for an integer is a numeral that stands for it. -/
theorem splitNumeral?_integer {i : Int} (hi : IsInteger i) {rest : List UInt8}
    (hrest : EndsValue rest) : ∃ numeral : Numeral, numeral.value = .integer i ∧
      splitNumeral? (bytes (toString i).toList ++ rest) = some (numeral, rest) := by
  have hfold (n : Nat) : ((Nat.toDigits 10 n).map digitValue).foldl (fun a d => 10 * a + d) 0 = n := by
    rw [List.foldl_map]
    exact digitsValue_toDigits n
  obtain ⟨hlow, hhigh⟩ := hi
  cases i with
  | ofNat n =>
      have hfits : n < 2 ^ 64 := by
        rw [Int.ofNat_eq_natCast] at hhigh
        omega
      refine ⟨⟨false, (Nat.toDigits 10 n).map digitValue, none, none⟩, ?_, ?_⟩
      · simp only [Numeral.value, hfold, Bool.false_eq_true, if_false, if_pos hfits]
        rfl
      · rw [Int.ofNat_eq_natCast, toList_toString_natCast]
        exact splitNumeral?_digits n hrest
  | negSucc n =>
      have hfits : (decide (0 < n + 1) && decide (n + 1 ≤ 2 ^ 63)) = true := by
        rw [Int.negSucc_eq] at hlow
        simp only [Bool.and_eq_true, decide_eq_true_eq]
        omega
      refine ⟨⟨true, (Nat.toDigits 10 (n + 1)).map digitValue, none, none⟩, ?_, ?_⟩
      · simp only [Numeral.value, hfold, if_true, if_pos hfits]
        rfl
      · rw [toList_toString_negSucc, bytes_cons, utf8EncodeChar_of_ascii (by decide)]
        exact splitNumeral?_minus (n + 1) hrest

/-! ## Plain values and their tokens -/

mutual

/-- The value is read back from what is printed for it. -/
def Plain : Datum → Prop
  | .null | .bool _ | .text _ => True
  | .integer i => IsInteger i
  | .real _ | .unreadable => False
  | .list items => PlainItems items
  | .table entries => PlainEntries entries

def PlainItems : List Datum → Prop
  | [] => True
  | d :: ds => Plain d ∧ PlainItems ds

def PlainEntries : List (Key × Datum) → Prop
  | [] => True
  | (.text _, d) :: es => Plain d ∧ PlainEntries es
  | _ :: _ => False

end

/-- The token of a key. -/
def keyToken : Key → Token
  | .text s => .string (some s)
  | _ => .string none

mutual

/-- The tokens that a printed value splits into. -/
def tokensOf : Datum → List Token
  | .text s => [.string (some s)]
  | .list items => .openList :: tokensOfItems items
  | .table entries => .openTable :: tokensOfEntries entries
  | d => [.leaf d]

def tokensOfItems : List Datum → List Token
  | [] => [.closeList]
  | [d] => tokensOf d ++ [.closeList]
  | d :: ds => tokensOf d ++ .comma :: tokensOfItems ds

def tokensOfEntries : List (Key × Datum) → List Token
  | [] => [.closeTable]
  | [(k, d)] => keyToken k :: .colon :: (tokensOf d ++ [.closeTable])
  | (k, d) :: es => keyToken k :: .colon :: (tokensOf d ++ .comma :: tokensOfEntries es)

end

/-! ## Splitting into tokens -/

/-- The text splits into the tokens. -/
def Tokenizes (s : List UInt8) (ts : List Token) : Prop :=
  ∀ fuel, s.length ≤ fuel → tokensWithin? fuel s = some ts

theorem Tokenizes.nil : Tokenizes [] [] := fun fuel _ => by cases fuel <;> rfl

theorem Tokenizes.cons {b : UInt8} {r rest : List UInt8} {t : Token} {ts : List Token}
    (h : Tokenizes rest ts) (hspace : isSpace b = false)
    (hsplit : splitToken? (b :: r) = some (t, rest)) (hlength : rest.length ≤ r.length) :
    Tokenizes (b :: r) (t :: ts) := by
  intro fuel hfuel
  cases fuel with
  | zero => simp at hfuel
  | succ fuel =>
      rw [List.length_cons] at hfuel
      rw [tokensWithin?, hspace]
      simp [hsplit, h fuel (by omega)]

theorem Tokenizes.punctuation {b : UInt8} {rest : List UInt8} {t : Token} {ts : List Token}
    (h : Tokenizes rest ts) (hspace : isSpace b = false) (hb : punctuation? b = some t) :
    Tokenizes (b :: rest) (t :: ts) :=
  h.cons hspace (by rw [splitToken?, hb]) (Nat.le_refl _)

theorem bytes_quoted (s : String) :
    bytes (quoted s) = 0x22 :: (bytes (s.toList.flatMap escapedChar) ++ [0x22]) := by
  rw [quoted, bytes_cons, bytes_append]
  rfl

theorem Tokenizes.quoted {rest : List UInt8} {ts : List Token} (h : Tokenizes rest ts) (s : String) :
    Tokenizes (bytes (quoted s) ++ rest) (.string (some s) :: ts) := by
  rw [bytes_quoted, List.cons_append, List.append_assoc, List.singleton_append]
  refine h.cons rfl ?_ (by simp only [List.length_append, List.length_cons]; omega)
  have hnone : punctuation? 0x22 = none := rfl
  rw [splitToken?, hnone]
  simp [splitString?_escaped, stringValue_escaped]

theorem Tokenizes.printedKey {rest : List UInt8} {ts : List Token} (h : Tokenizes rest ts)
    (s : String) : Tokenizes (bytes (printedKey (.text s)) ++ rest) (keyToken (.text s) :: ts) :=
  h.quoted s

/-- A numeral begins with a byte that nothing else begins with. -/
theorem frame_of_numeral {b : UInt8} (h : (b == 0x2D || isDigit b) = true) :
    isSpace b = false ∧ punctuation? b = none ∧ (b == 0x22) = false := by
  have hall : ∀ n : Fin 256, (UInt8.ofNat n.val == 0x2D || isDigit (UInt8.ofNat n.val)) = true →
      isSpace (UInt8.ofNat n.val) = false ∧ (punctuation? (UInt8.ofNat n.val)).isNone = true ∧
        (UInt8.ofNat n.val == 0x22) = false := by decide +kernel
  have hb := hall ⟨b.toNat, b.toNat_lt⟩
  rw [UInt8.ofNat_toNat] at hb
  exact (hb h).imp_right (.imp_left Option.isNone_iff_eq_none.1)

theorem exists_cons_integer (i : Int) : ∃ b r, bytes (toString i).toList = b :: r ∧
    (b == 0x2D || isDigit b) = true := by
  cases i with
  | ofNat n =>
      rw [Int.ofNat_eq_natCast, toList_toString_natCast]
      cases hds : Nat.toDigits 10 n with
      | nil => simp at hds
      | cons c ds =>
          have hdigit := isDigit_of_mem_toDigits (n := n) (hds ▸ List.mem_cons_self)
          have hrange := toNat_of_isDigit hdigit
          refine ⟨_, _, by rw [bytes_cons, utf8EncodeChar_of_ascii (by omega)]; rfl, ?_⟩
          simp [(isDigit_byte hdigit).1]
  | negSucc n =>
      rw [toList_toString_negSucc, bytes_cons, utf8EncodeChar_of_ascii (by decide)]
      exact ⟨_, _, rfl, rfl⟩

theorem Tokenizes.integer {i : Int} (hi : IsInteger i) {rest : List UInt8} {ts : List Token}
    (h : Tokenizes rest ts) (hrest : EndsValue rest) :
    Tokenizes (bytes (toString i).toList ++ rest) (.leaf (.integer i) :: ts) := by
  obtain ⟨numeral, hvalue, hsplit⟩ := splitNumeral?_integer hi hrest
  obtain ⟨b, r, hcons, hb⟩ := exists_cons_integer i
  obtain ⟨hspace, hnone, hquote⟩ := frame_of_numeral hb
  rw [hcons, List.cons_append] at hsplit ⊢
  refine h.cons hspace ?_ (by simp)
  rw [splitToken?, hnone]
  simp [hquote, hb, hsplit, hvalue]

theorem utf8EncodeChar_marks : String.utf8EncodeChar ':' = [0x3A] ∧
    String.utf8EncodeChar ',' = [0x2C] ∧ String.utf8EncodeChar '\x7d' = [0x7D] := ⟨rfl, rfl, rfl⟩

theorem Tokenizes.word {b : UInt8} {rest : List UInt8} {d : Datum} {ts : List Token}
    (h : Tokenizes rest ts) (word : List UInt8) (hb : (isSpace b, (punctuation? b).isNone, b == 0x22,
      b == 0x2D || isDigit b) = (false, true, false, false))
    (hword : splitWord? (b :: (word ++ rest)) = some (d, rest)) :
    Tokenizes (b :: (word ++ rest)) (.leaf d :: ts) := by
  simp only [Prod.mk.injEq, Option.isNone_iff_eq_none] at hb
  obtain ⟨hspace, hnone, hquote, hnumeral⟩ := hb
  refine h.cons hspace ?_ (by simp)
  rw [splitToken?, hnone]
  simp [hquote, hnumeral, hword]

-- The bytes of a value are followed by bytes that are split already. They must not go on a numeral,
-- which is why a value needs `EndsValue`, and items and entries, which close with a bracket, do not.
mutual

theorem tokenizes_printed : ∀ {d : Datum}, Plain d → ∀ {rest : List UInt8} {ts : List Token},
    EndsValue rest → Tokenizes rest ts → Tokenizes (bytes (printed d) ++ rest) (tokensOf d ++ ts)
  | .null, _, _, _, _, h => h.word [0x75, 0x6C, 0x6C] rfl rfl
  | .bool true, _, _, _, _, h => h.word [0x72, 0x75, 0x65] rfl rfl
  | .bool false, _, _, _, _, h => h.word [0x61, 0x6C, 0x73, 0x65] rfl rfl
  | .integer _, hi, _, _, hrest, h => h.integer hi hrest
  | .text s, _, _, _, _, h => h.quoted s
  | .list _, hds, _, _, _, h => (tokenizes_printedItems hds h).punctuation rfl rfl
  | .table _, hes, _, _, _, h => (tokenizes_printedEntries hes h).punctuation rfl rfl

theorem tokenizes_printedItems : ∀ {ds : List Datum}, PlainItems ds →
    ∀ {rest : List UInt8} {ts : List Token}, Tokenizes rest ts →
      Tokenizes (bytes (printedItems ds) ++ rest) (tokensOfItems ds ++ ts)
  | [], _, _, _, h => h.punctuation rfl rfl
  | [d], ⟨hd, _⟩, rest, ts, h => by
      rw [printedItems, tokensOfItems, bytes_append, List.append_assoc, List.append_assoc]
      exact tokenizes_printed hd (.cons (by decide) rest) (h.punctuation rfl rfl)
  | d :: d' :: ds, ⟨hd, hds⟩, rest, ts, h => by
      have hmore := (tokenizes_printedItems hds h).punctuation (b := 0x2C) (t := .comma) rfl rfl
      rw [printedItems, tokensOfItems, bytes_append, List.append_assoc, List.append_assoc]
      · exact tokenizes_printed hd (.cons (by decide) _) hmore
      all_goals simp

theorem tokenizes_printedEntries : ∀ {es : List (Key × Datum)}, PlainEntries es →
    ∀ {rest : List UInt8} {ts : List Token}, Tokenizes rest ts →
      Tokenizes (bytes (printedEntries es) ++ rest) (tokensOfEntries es ++ ts)
  | [], _, _, _, h => h.punctuation rfl rfl
  | [(.text k, d)], ⟨hd, _⟩, rest, ts, h => by
      have hvalue := tokenizes_printed hd (.cons (by decide) rest)
        (h.punctuation (b := 0x7D) (t := .closeTable) rfl rfl)
      have hcolon := hvalue.punctuation (b := 0x3A) (t := .colon) rfl rfl
      have hkey := hcolon.printedKey k
      simpa [printedEntries, tokensOfEntries, bytes_append, bytes_cons, utf8EncodeChar_marks] using hkey
  | (.text k, d) :: e :: es, ⟨hd, hes⟩, rest, ts, h => by
      have hmore := (tokenizes_printedEntries hes h).punctuation (b := 0x2C) (t := .comma) rfl rfl
      have hvalue := tokenizes_printed hd (.cons (by decide) _) hmore
      have hcolon := hvalue.punctuation (b := 0x3A) (t := .colon) rfl rfl
      have hkey := hcolon.printedKey k
      simpa [printedEntries, tokensOfEntries, bytes_append, bytes_cons, utf8EncodeChar_marks] using hkey

end

/-! ## Reading tokens -/

/-- A value begins with a token that does not end a list. -/
theorem exists_cons_tokensOf (d : Datum) : ∃ t ts, tokensOf d = t :: ts ∧ t ≠ .closeList := by
  cases d <;> exact ⟨_, _, rfl, by simp⟩

theorem exists_cons_tokensOfItems (d : Datum) (ds : List Datum) :
    ∃ t ts, tokensOfItems (d :: ds) = t :: ts ∧ t ≠ .closeList := by
  obtain ⟨t, ts, hcons, hne⟩ := exists_cons_tokensOf d
  cases ds with
  | nil => exact ⟨t, _, by rw [tokensOfItems, hcons, List.cons_append], hne⟩
  | cons d' ds => exact ⟨t, _, by rw [tokensOfItems, hcons, List.cons_append]; simp, hne⟩

theorem exists_cons_tokensOfEntries (e : Key × Datum) (es : List (Key × Datum)) :
    ∃ t ts, tokensOfEntries (e :: es) = t :: ts ∧ t ≠ .closeTable := by
  obtain ⟨k, d⟩ := e
  have hkey : keyToken k ≠ .closeTable := by cases k <;> simp [keyToken]
  cases es with
  | nil => exact ⟨keyToken k, _, by rw [tokensOfEntries], hkey⟩
  | cons e es => exact ⟨keyToken k, _, by rw [tokensOfEntries]; simp, hkey⟩

theorem value?_openList {t : Token} (hne : t ≠ .closeList) (fuel : Nat) (ts : List Token) :
    value? (fuel + 1) (.openList :: t :: ts) =
      (items? fuel (t :: ts)).map fun (ds, r) => (.list ds, r) := by
  rw [value?]
  exact fun _ h => hne (List.cons.inj h).1

theorem value?_openTable {t : Token} (hne : t ≠ .closeTable) (fuel : Nat) (ts : List Token) :
    value? (fuel + 1) (.openTable :: t :: ts) =
      (entries? fuel (t :: ts)).map fun (es, r) => ((es.map Datum.table).getD .unreadable, r) := by
  rw [value?]
  exact fun _ h => hne (List.cons.inj h).1

-- Two units of fuel for each token: one for the value it begins and one for the item it is in.
mutual

theorem value?_tokensOf : ∀ {d : Datum}, Plain d → ∀ (fuel : Nat) (ts : List Token),
    2 * (tokensOf d).length ≤ fuel → value? fuel (tokensOf d ++ ts) = some (d, ts)
  | .null, _, fuel + 1, _, _ | .bool _, _, fuel + 1, _, _ | .integer _, _, fuel + 1, _, _
  | .text _, _, fuel + 1, _, _ => rfl
  | .list [], _, fuel + 1, _, _ | .table [], _, fuel + 1, _, _ => rfl
  | .list (d :: ds), hds, fuel + 1, ts, h => by
      obtain ⟨t, us, hcons, hne⟩ := exists_cons_tokensOfItems d ds
      rw [tokensOf, List.length_cons] at h
      have hitems := items?_tokensOfItems hds fuel ts (by omega)
      rw [hcons, List.cons_append] at hitems
      rw [tokensOf, hcons, List.cons_append, List.cons_append, value?_openList hne, hitems]
      rfl
  | .table (e :: es), hes, fuel + 1, ts, h => by
      obtain ⟨t, us, hcons, hne⟩ := exists_cons_tokensOfEntries e es
      rw [tokensOf, List.length_cons] at h
      have hentries := entries?_tokensOfEntries hes fuel ts (by omega)
      rw [hcons, List.cons_append] at hentries
      rw [tokensOf, hcons, List.cons_append, List.cons_append, value?_openTable hne, hentries]
      rfl
  | d, _, 0, _, h => by
      obtain ⟨t, ts, hcons, -⟩ := exists_cons_tokensOf d
      simp [hcons] at h

theorem items?_tokensOfItems : ∀ {d : Datum} {ds : List Datum}, PlainItems (d :: ds) →
    ∀ (fuel : Nat) (ts : List Token), 2 * (tokensOfItems (d :: ds)).length ≤ fuel →
      items? fuel (tokensOfItems (d :: ds) ++ ts) = some (d :: ds, ts)
  | d, [], ⟨hd, _⟩, fuel + 1, ts, h => by
      rw [tokensOfItems, List.length_append, List.length_singleton] at h
      have hvalue := value?_tokensOf hd fuel (.closeList :: ts) (by omega)
      rw [tokensOfItems, List.append_assoc, List.singleton_append, items?, hvalue]
  | d, d' :: ds, ⟨hd, hds⟩, fuel + 1, ts, h => by
      simp only [tokensOfItems, List.length_append, List.length_cons] at h
      have hrest := items?_tokensOfItems hds fuel ts (by omega)
      have hvalue := value?_tokensOf hd fuel (.comma :: (tokensOfItems (d' :: ds) ++ ts)) (by omega)
      rw [tokensOfItems, List.append_assoc, List.cons_append, items?, hvalue]
      · simp [hrest]
      · simp
  | d, ds, _, 0, _, h => by
      obtain ⟨t, ts, hcons, -⟩ := exists_cons_tokensOfItems d ds
      simp [hcons] at h

theorem entries?_tokensOfEntries : ∀ {e : Key × Datum} {es : List (Key × Datum)},
    PlainEntries (e :: es) → ∀ (fuel : Nat) (ts : List Token),
      2 * (tokensOfEntries (e :: es)).length ≤ fuel →
      entries? fuel (tokensOfEntries (e :: es) ++ ts) = some (some (e :: es), ts)
  | (.text k, d), [], ⟨hd, _⟩, fuel + 1, ts, h => by
      simp only [tokensOfEntries, List.length_append, List.length_cons] at h
      have hvalue := value?_tokensOf hd fuel (.closeTable :: ts) (by omega)
      simp only [tokensOfEntries, keyToken, List.cons_append, List.append_assoc, List.nil_append]
      rw [entries?, hvalue]
      rfl
  | (.text k, d), e :: es, ⟨hd, hes⟩, fuel + 1, ts, h => by
      simp only [tokensOfEntries, List.length_append, List.length_cons] at h
      have hrest := entries?_tokensOfEntries hes fuel ts (by omega)
      have hvalue := value?_tokensOf hd fuel (.comma :: (tokensOfEntries (e :: es) ++ ts)) (by omega)
      simp only [tokensOfEntries, keyToken, List.cons_append, List.append_assoc]
      rw [entries?, hvalue]
      simp [hrest]
  | e, es, _, 0, _, h => by
      obtain ⟨t, ts, hcons, -⟩ := exists_cons_tokensOfEntries e es
      simp [hcons] at h

end

/-! ## Whole documents -/

/-- **Printed JSON is read back.** -/
theorem read?_render {d : Datum} (h : Plain d) : read? (encode (render d)) = some d := by
  have htokens : Tokenizes (bytes (printed d) ++ []) (tokensOf d ++ []) :=
    tokenizes_printed h (by simp [EndsValue]) .nil
  rw [List.append_nil, List.append_nil] at htokens
  have hvalue := value?_tokensOf h (2 * (tokensOf d).length + 1) [] (by omega)
  rw [List.append_nil] at hvalue
  rw [read?, tokens?, render, encode_ofList, htokens _ (Nat.le_refl _), Option.bind_some, hvalue]

/-! ## One line -/

theorem linefeed_notMem_escapedChar (c : Char) : '\n' ∉ escapedChar c := by
  have hhex : ∀ n : Fin 0x20, '\n' ≠ Nat.digitChar (n.val / 16) ∧ '\n' ≠ Nat.digitChar (n.val % 16) := by
    decide
  unfold escapedChar
  split
  · decide
  split
  · decide
  split
  · decide
  split
  · decide
  split
  · decide
  split
  · decide
  split
  · decide
  split
  · next hcontrol =>
      obtain ⟨hhigh, hlow⟩ := hhex ⟨c.toNat, hcontrol⟩
      simp [hhigh, hlow]
  · next hlinefeed _ _ _ _ _ =>
      rw [List.mem_singleton]
      exact fun h => hlinefeed (by rw [← h]; rfl)

theorem linefeed_notMem_quoted (s : String) : '\n' ∉ quoted s := by
  simp [quoted, linefeed_notMem_escapedChar]

theorem linefeed_notMem_integer (i : Int) : '\n' ∉ (toString i).toList := by
  have hdigits (n : Nat) : '\n' ∉ Nat.toDigits 10 n := fun h => by
    have hdigit := isDigit_of_mem_toDigits h
    revert hdigit
    decide
  cases i with
  | ofNat n => rw [Int.ofNat_eq_natCast, toList_toString_natCast]; exact hdigits n
  | negSucc n =>
      rw [toList_toString_negSucc, List.mem_cons, not_or]
      exact ⟨by decide, hdigits (n + 1)⟩

mutual

/-- A printed value is one line. -/
theorem linefeed_notMem_printed : ∀ {d : Datum}, Plain d → '\n' ∉ printed d
  | .null, _ | .bool true, _ | .bool false, _ => by decide
  | .integer i, _ => linefeed_notMem_integer i
  | .text s, _ => linefeed_notMem_quoted s
  | .list ds, hds => by simp [printed, linefeed_notMem_printedItems hds]
  | .table es, hes => by simp [printed, linefeed_notMem_printedEntries hes]

theorem linefeed_notMem_printedItems : ∀ {ds : List Datum}, PlainItems ds → '\n' ∉ printedItems ds
  | [], _ => by decide
  | [d], ⟨hd, _⟩ => by simp [printedItems, linefeed_notMem_printed hd]
  | d :: d' :: ds, ⟨hd, hds⟩ => by
      simp [printedItems, linefeed_notMem_printed hd, linefeed_notMem_printedItems hds]

theorem linefeed_notMem_printedEntries : ∀ {es : List (Key × Datum)}, PlainEntries es →
    '\n' ∉ printedEntries es
  | [], _ => by decide
  | [(.text k, d)], ⟨hd, _⟩ => by
      simp [printedEntries, printedKey, linefeed_notMem_quoted, linefeed_notMem_printed hd]
  | (.text k, d) :: e :: es, ⟨hd, hes⟩ => by
      simp [printedEntries, printedKey, linefeed_notMem_quoted, linefeed_notMem_printed hd,
        linefeed_notMem_printedEntries hes]

end

/-- The bytes of a printed value have no line end among them. -/
theorem linefeed_notMem_render {d : Datum} (h : Plain d) : 0x0A ∉ encode (render d) := by
  rw [render, encode_ofList]
  intro hmem
  obtain ⟨c, hc, hcode⟩ := mem_of_mem_bytes hmem (by decide)
  have hlinefeed : c = '\n' := by rw [← Char.ofNat_toNat c, hcode]; rfl
  exact linefeed_notMem_printed h (hlinefeed ▸ hc)

end Chargeback.Json
