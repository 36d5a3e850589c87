import Chargeback.Codec.Bytes

/-!
# Snappy blocks

The length of the data in groups of seven bits, and then literals and references to earlier
data, which together must give just that length.
-/

namespace Chargeback.Codec.Snappy

/-- The greatest length that a block may state. -/
def lengthLimit : Nat := 2 ^ 32 - 1

/-- A number in groups of seven bits, lowest first, of which all but the last are marked; at
most ten of them. -/
def readVarint : Nat → List UInt8 → Option (Nat × List UInt8)
  | 0, _ => none
  | _, [] => none
  | n + 1, b :: s =>
    if b < 0x80 then some (b.toNat, s)
    else (readVarint n s).map fun (v, s) => (b.toNat - 128 + 128 * v, s)

/-- The elements up to the end, which add up to `total` bytes; at most `fuel` of them. -/
def readElements (total : Nat) : Nat → List UInt8 → Array UInt8 → Option (Array UInt8)
  | _, [], out => if out.size = total then some out else none
  | 0, _ :: _, _ => none
  | fuel + 1, b :: s, out => do
    let tag := b.toNat
    if tag % 4 = 0 then
      let short := tag / 4 + 1
      let (n, s) ← if short ≤ 60 then pure (short, s)
        else (splitNumber? (short - 60) s).map fun (n, s) => (n + 1, s)
      let (bytes, s) ← splitBytes? n s
      if total < out.size + n then none
      else readElements total fuel s (out ++ bytes.toArray)
    else
      let (n, distance, s) ← match tag % 4 with
        | 1 => (splitNumber? 1 s).map fun (d, s) => (4 + tag / 4 % 8, tag / 32 * 256 + d, s)
        | 2 => (splitNumber? 2 s).map fun (d, s) => (1 + tag / 4, d, s)
        | _ => (splitNumber? 4 s).map fun (d, s) => (1 + tag / 4, d, s)
      if distance = 0 || out.size < distance || total < out.size + n then none
      else readElements total fuel s (repeatBack distance n out)

/-- The data of a block. -/
def decode? (s : List UInt8) : Option (List UInt8) := do
  let (total, s) ← readVarint 10 s
  if lengthLimit < total then none
  else return (← readElements total s.length s #[]).toList

/-! ## Writing -/

/-- A number in groups of seven bits, with at most `fuel` of them. -/
def varint : Nat → Nat → List UInt8
  | 0, _ => []
  | fuel + 1, n =>
    if n < 128 then [UInt8.ofNat n] else UInt8.ofNat (n % 128 + 128) :: varint fuel (n / 128)

/-- The most bytes of one literal. -/
def literalLimit : Nat := 2 ^ 16

/-- What stands before a literal of some length: the length less one, in as few bytes as it takes. -/
def literalHead (n : Nat) : List UInt8 :=
  if n ≤ 60 then [UInt8.ofNat ((n - 1) * 4)]
  else if n ≤ 256 then [240, UInt8.ofNat (n - 1)]
  else 244 :: littleEndian 2 (n - 1)

/-- Data as literals, with at most `fuel` of them. -/
def literals : Nat → List UInt8 → List UInt8
  | 0, _ => []
  | _, [] => []
  | fuel + 1, b :: s =>
    let front := (b :: s).take literalLimit
    literalHead front.length ++ (front ++ literals fuel ((b :: s).drop literalLimit))

/-- A block of literals. -/
def encode (data : List UInt8) : List UInt8 :=
  varint 10 data.length ++ literals data.length data

end Chargeback.Codec.Snappy
