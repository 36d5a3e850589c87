import Chargeback.Codec.Deflate

/-!
# Gzip and zlib containers

Both hold deflated data between a header and a checksum. A gzip reader takes one member and
leaves what follows it; the header may carry an extra field, a name, a comment and a checksum
of its own.
-/

namespace Chargeback.Codec

namespace Gzip

/-- The bytes after a text that ends with a zero byte. -/
def skipText? (s : List UInt8) : Option (List UInt8) :=
  match s.dropWhile (· != 0) with
  | [] => none
  | _ :: r => some r

/-- The bytes after the header. -/
def skipHeader? (s : List UInt8) : Option (List UInt8) :=
  match s with
  | 0x1F :: 0x8B :: 8 :: flags :: _ :: _ :: _ :: _ :: _ :: _ :: r => do
    let has (bit : Nat) : Bool := flags.toNat / 2 ^ bit % 2 == 1
    if 32 ≤ flags.toNat then none
    let r ← if has 2 then do
        let (n, r) ← splitNumber? 2 r
        let (_, r) ← splitBytes? n r
        pure r
      else pure r
    let r ← if has 3 then skipText? r else pure r
    let r ← if has 4 then skipText? r else pure r
    if has 1 then do
      let (sum, rest) ← splitNumber? 2 r
      if crc32 (s.take (s.length - r.length)) % 65536 = sum then return rest else none
    else return r
  | _ => none

/-- The data of the first member. -/
def decode? (s : List UInt8) : Option (List UInt8) := do
  let s ← skipHeader? s
  let (data, s) ← Deflate.inflate s
  let (sum, s) ← splitNumber? 4 s
  let (size, _) ← splitNumber? 4 s
  if sum = crc32 data ∧ size = data.length % 2 ^ 32 then return data else none

/-- A member with a plain header. -/
def encode (data : List UInt8) : List UInt8 :=
  [0x1F, 0x8B, 8, 0, 0, 0, 0, 0, 0, 255] ++ Deflate.deflate data ++
    littleEndian 4 (crc32 data) ++ littleEndian 4 (data.length % 2 ^ 32)

end Gzip

namespace Zlib

/-- The data of a stream; what follows it is left. -/
def decode? (s : List UInt8) : Option (List UInt8) :=
  match s with
  | method :: flags :: r => do
    let m := method.toNat
    let f := flags.toNat
    if (m * 256 + f) % 31 ≠ 0 || m % 16 ≠ 8 || 7 < m / 16 || f / 32 % 2 = 1 then none
    let (data, r) ← Deflate.inflate r
    let (sum, _) ← splitNumber? 4 ((r.take 4).reverse)
    if sum = adler32 data then return data else none
  | _ => none

/-- A stream without a preset dictionary. -/
def encode (data : List UInt8) : List UInt8 :=
  [0x78, 0x01] ++ Deflate.deflate data ++ (littleEndian 4 (adler32 data)).reverse

end Zlib

end Chargeback.Codec
