import Chargeback.Json.Numeral
import Chargeback.Text.Utf8

/-!
# Tokens of JSON

A document is a list of bytes and splits into punctuation, strings, numerals and the three
words. A string literal is well formed if its escapes are, which does not yet give it a value:
its bytes must also be a text and its surrogate escapes must come in pairs.
-/

namespace Chargeback.Json

/-- A token; a string literal without a value is `string none`. -/
inductive Token where
  | openTable
  | closeTable
  | openList
  | closeList
  | colon
  | comma
  | string (value : Option String)
  | leaf (value : Datum)
  deriving Repr

/-! ## Bytes -/

/-- The blanks between tokens: space, tab, line feed and carriage return. -/
def isSpace (b : UInt8) : Bool := b == 0x20 || b == 0x09 || b == 0x0A || b == 0x0D

/-- A decimal digit. -/
def isDigit (b : UInt8) : Bool := 0x30 ≤ b && b ≤ 0x39

/-- The value of a hexadecimal digit, of either case. -/
def hexValue? (b : UInt8) : Option Nat :=
  if 0x30 ≤ b && b ≤ 0x39 then some (b.toNat - 0x30)
  else if 0x61 ≤ b && b ≤ 0x66 then some (b.toNat - 0x61 + 10)
  else if 0x41 ≤ b && b ≤ 0x46 then some (b.toNat - 0x41 + 10)
  else none

/-- The value of four hexadecimal digits. -/
def hex4? (a b c d : UInt8) : Option Nat := do
  let a ← hexValue? a
  let b ← hexValue? b
  let c ← hexValue? c
  let d ← hexValue? d
  return 4096 * a + 256 * b + 16 * c + d

/-- The byte that a two-character escape stands for. -/
def simpleEscape? (b : UInt8) : Option UInt8 :=
  if b == 0x22 || b == 0x5C || b == 0x2F then some b
  else if b == 0x62 then some 0x08
  else if b == 0x66 then some 0x0C
  else if b == 0x6E then some 0x0A
  else if b == 0x72 then some 0x0D
  else if b == 0x74 then some 0x09
  else none

/-! ## Strings -/

/-- Splits off a string literal after its opening quote: the bytes up to the closing quote,
escapes included, and what follows the quote. -/
def splitString? : List UInt8 → Option (List UInt8 × List UInt8)
  | [] => none
  | b :: r =>
    if b == 0x22 then some ([], r)
    else if b == 0x5C then
      match r with
      | [] => none
      | e :: r =>
        if e == 0x75 then
          match r with
          | h1 :: h2 :: h3 :: h4 :: r =>
            if (hex4? h1 h2 h3 h4).isSome then
              (splitString? r).map fun (s, t) => (b :: e :: h1 :: h2 :: h3 :: h4 :: s, t)
            else none
          | _ => none
        else if (simpleEscape? e).isSome then (splitString? r).map fun (s, t) => (b :: e :: s, t)
        else none
    else if b < 0x20 then none
    else (splitString? r).map fun (s, t) => (b :: s, t)

/-- The bytes of a code point. -/
def codePoint (n : Nat) : List UInt8 := Text.encode (String.singleton (Char.ofNat n))

/-- The bytes that the inside of a string literal stands for; half of a surrogate pair stands
for nothing. -/
def unescape? : List UInt8 → Option (List UInt8)
  | [] => some []
  | b :: r =>
    if b == 0x5C then
      match r with
      | [] => none
      | e :: r =>
        if e == 0x75 then
          match r with
          | h1 :: h2 :: h3 :: h4 :: r =>
            match hex4? h1 h2 h3 h4 with
            | none => none
            | some n =>
              if 0xDC00 ≤ n && n ≤ 0xDFFF then none
              else if 0xD800 ≤ n && n ≤ 0xDBFF then
                match r with
                | b' :: e' :: l1 :: l2 :: l3 :: l4 :: r =>
                  if b' == 0x5C && e' == 0x75 then
                    match hex4? l1 l2 l3 l4 with
                    | none => none
                    | some m =>
                      if 0xDC00 ≤ m && m ≤ 0xDFFF then
                        (unescape? r).map
                          (codePoint (0x10000 + (n - 0xD800) * 0x400 + (m - 0xDC00)) ++ ·)
                      else none
                  else none
                | _ => none
              else (unescape? r).map (codePoint n ++ ·)
          | _ => none
        else match simpleEscape? e with
          | none => none
          | some v => (unescape? r).map (v :: ·)
    else (unescape? r).map (b :: ·)

/-- The value of a string literal. -/
def stringValue (inside : List UInt8) : Option String := (unescape? inside).bind Text.decode?

/-! ## Numerals -/

/-- The values of the digits at the front, and the rest. -/
def splitDigits : List UInt8 → List Nat × List UInt8
  | [] => ([], [])
  | b :: r =>
    if isDigit b then
      let (ds, t) := splitDigits r
      ((b.toNat - 0x30) :: ds, t)
    else ([], b :: r)

/-- The fraction after the whole part: none, or a point and at least one digit. -/
def splitFraction? : List UInt8 → Option (Option (List Nat) × List UInt8)
  | 0x2E :: r =>
    let (ds, t) := splitDigits r
    if ds.isEmpty then none else some (some ds, t)
  | r => some (none, r)

/-- The exponent after the digits: none, or a letter `e`, an optional sign and at least one
digit. A negative exponent carries `true`. -/
def splitExponent? : List UInt8 → Option (Option (Bool × List Nat) × List UInt8)
  | [] => some (none, [])
  | e :: r =>
    if e == 0x65 || e == 0x45 then
      let (minus, r) := match r with
        | 0x2B :: r => (false, r)
        | 0x2D :: r => (true, r)
        | r => (false, r)
      let (ds, t) := splitDigits r
      if ds.isEmpty then none else some (some (minus, ds), t)
    else some (none, e :: r)

/-- Splits off a numeral: an optional minus, digits without a superfluous zero in front, and an
optional fraction and exponent. -/
def splitNumeral? (s : List UInt8) : Option (Numeral × List UInt8) :=
  let (neg, s) := match s with
    | 0x2D :: r => (true, r)
    | r => (false, r)
  let (whole, s) := splitDigits s
  if whole.isEmpty || (whole.head? == some 0 && 1 < whole.length) then none
  else do
    let (fraction, s) ← splitFraction? s
    let (exponent, s) ← splitExponent? s
    return ({ neg, whole, fraction, exponent }, s)

/-! ## Documents -/

/-- The punctuation that a byte is. -/
def punctuation? (b : UInt8) : Option Token :=
  if b == 0x7B then some .openTable
  else if b == 0x7D then some .closeTable
  else if b == 0x5B then some .openList
  else if b == 0x5D then some .closeList
  else if b == 0x3A then some .colon
  else if b == 0x2C then some .comma
  else none

/-- Splits off one of the three words. -/
def splitWord? : List UInt8 → Option (Datum × List UInt8)
  | 0x6E :: 0x75 :: 0x6C :: 0x6C :: r => some (.null, r)
  | 0x74 :: 0x72 :: 0x75 :: 0x65 :: r => some (.bool true, r)
  | 0x66 :: 0x61 :: 0x6C :: 0x73 :: 0x65 :: r => some (.bool false, r)
  | _ => none

/-- The first token of a text that does not begin with a blank, and the rest. -/
def splitToken? : List UInt8 → Option (Token × List UInt8)
  | [] => none
  | b :: r =>
    match punctuation? b with
    | some t => some (t, r)
    | none =>
      if b == 0x22 then (splitString? r).map fun (s, t) => (.string (stringValue s), t)
      else if b == 0x2D || isDigit b then
        (splitNumeral? (b :: r)).map fun (n, t) => (.leaf n.value, t)
      else (splitWord? (b :: r)).map fun (d, t) => (.leaf d, t)

/-- The tokens of a text, with at most `fuel` steps; each step takes at least one byte. -/
def tokensWithin? : Nat → List UInt8 → Option (List Token)
  | _, [] => some []
  | 0, _ :: _ => none
  | fuel + 1, b :: r =>
    if isSpace b then tokensWithin? fuel r
    else match splitToken? (b :: r) with
      | none => none
      | some (t, rest) => (tokensWithin? fuel rest).map (t :: ·)

/-- The tokens of a document. -/
def tokens? (s : List UInt8) : Option (List Token) := tokensWithin? s.length s

end Chargeback.Json
