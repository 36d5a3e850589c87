import Chargeback.Number.Power

/-!
# Bytes, bits and checksums

Numbers in little-endian order, the bits of bytes from the lowest up, repetitions of earlier bytes,
and the checksums of the compressed containers.
-/

namespace Chargeback.Codec

/-! ## Little-endian numbers -/

/-- The `n` lowest bytes of a number, lowest first. -/
def littleEndian : Nat → Nat → List UInt8
  | 0, _ => []
  | n + 1, v => UInt8.ofNat (v % 256) :: littleEndian n (v / 256)

/-- The number that bytes stand for, lowest first. -/
def ofLittleEndian : List UInt8 → Nat
  | [] => 0
  | b :: bs => b.toNat + 256 * ofLittleEndian bs

/-- The number in the first `n` bytes, and the rest. -/
def splitNumber? (n : Nat) (s : List UInt8) : Option (Nat × List UInt8) :=
  if s.length < n then none else some (ofLittleEndian (s.take n), s.drop n)

/-- The first `n` bytes, and the rest. -/
def splitBytes? (n : Nat) (s : List UInt8) : Option (List UInt8 × List UInt8) :=
  let front := s.take n
  if front.length < n then none else some (front, s.drop n)

/-! ## Bits -/

/-- The eight bits of a byte, lowest first. -/
def bitsOfByte (b : UInt8) : List Bool := (List.range 8).map fun i => b.toNat / 2 ^ i % 2 == 1

/-- The bits of bytes in order. -/
def bitsOf (s : List UInt8) : List Bool := s.flatMap bitsOfByte

/-- The number that bits stand for, lowest first. -/
def ofBits : List Bool → Nat
  | [] => 0
  | b :: bs => (if b then 1 else 0) + 2 * ofBits bs

/-- The bytes of whole groups of eight bits. -/
def bytesOfBits : List Bool → List UInt8
  | a :: b :: c :: d :: e :: f :: g :: h :: r =>
    UInt8.ofNat (ofBits [a, b, c, d, e, f, g, h]) :: bytesOfBits r
  | _ => []

/-- The number in the first `n` bits, and the rest. -/
def splitBits? : Nat → List Bool → Option (Nat × List Bool)
  | 0, s => some (0, s)
  | _ + 1, [] => none
  | n + 1, b :: s => (splitBits? n s).map fun (v, r) => ((if b then 1 else 0) + 2 * v, r)

/-! ## Repetitions -/

/-- Repeats `n` bytes from `distance` back, one by one, so that a reference may reach into
itself. -/
def repeatBack (distance : Nat) : Nat → Array UInt8 → Array UInt8
  | 0, out => out
  | n + 1, out => repeatBack distance n (out.push (out.getD (out.size - distance) 0))

/-! ## Checksums -/

/-- One bit of the cyclic redundancy check, in reflected order. -/
def crcBit (c : UInt32) : UInt32 :=
  if c &&& 1 == 1 then (c >>> 1) ^^^ 0xEDB88320 else c >>> 1

/-- One byte of the cyclic redundancy check. -/
def crcByte (c : UInt32) (b : UInt8) : UInt32 :=
  let c := c ^^^ b.toUInt32
  crcBit (crcBit (crcBit (crcBit (crcBit (crcBit (crcBit (crcBit c)))))))

/-- The 32-bit cyclic redundancy check of bytes. -/
def crc32 (s : List UInt8) : Nat := ((s.foldl crcByte 0xFFFFFFFF) ^^^ 0xFFFFFFFF).toNat

/-- One byte of the Adler checksum: the sum of the bytes and the sum of these sums, modulo 65521. -/
def adlerByte (sums : Nat × Nat) (b : UInt8) : Nat × Nat :=
  let low := (sums.1 + b.toNat) % 65521
  (low, (sums.2 + low) % 65521)

/-- The Adler checksum of bytes. -/
def adler32 (s : List UInt8) : Nat :=
  let sums := s.foldl adlerByte (1, 0)
  sums.2 * 65536 + sums.1

/-- The odd factors that the 64-bit hash is named after. -/
def xxhPrimes : UInt64 × UInt64 × UInt64 × UInt64 × UInt64 :=
  (0x9E3779B185EBCA87, 0xC2B2AE3D27D4EB4F, 0x165667B19E3779F9, 0x85EBCA77C2B2AE63,
    0x27D4EB2F165667C5)

/-- A word with its bits moved up, and those that leave it below. -/
def rotateLeft (x n : UInt64) : UInt64 := x <<< n ||| x >>> (64 - n)

/-- One word of eight bytes in one of the sums. -/
def xxhRound (sum word : UInt64) : UInt64 :=
  rotateLeft (sum + word * xxhPrimes.2.1) 31 * xxhPrimes.1

/-- One sum joins the hash. -/
def xxhMerge (hash sum : UInt64) : UInt64 :=
  (hash ^^^ xxhRound 0 sum) * xxhPrimes.1 + xxhPrimes.2.2.2.1

/-- The number in the first `n` bytes as a word. -/
def wordOf (n : Nat) (s : List UInt8) : UInt64 := UInt64.ofNat (ofLittleEndian (s.take n))

/-- The sums after so many groups of four words. -/
def xxhGroups : Nat → UInt64 × UInt64 × UInt64 × UInt64 → List UInt8 →
    UInt64 × UInt64 × UInt64 × UInt64
  | 0, sums, _ => sums
  | n + 1, (a, b, c, d), s =>
    xxhGroups n (xxhRound a (wordOf 8 s), xxhRound b (wordOf 8 (s.drop 8)),
      xxhRound c (wordOf 8 (s.drop 16)), xxhRound d (wordOf 8 (s.drop 24))) (s.drop 32)

/-- The hash after the last bytes, with at most `fuel` steps: words, then half a word, then bytes. -/
def xxhTail : Nat → UInt64 → List UInt8 → UInt64
  | 0, hash, _ => hash
  | fuel + 1, hash, s =>
    let (p, q, r, t, u) := xxhPrimes
    if 8 ≤ s.length then
      xxhTail fuel (rotateLeft (hash ^^^ xxhRound 0 (wordOf 8 s)) 27 * p + t) (s.drop 8)
    else if 4 ≤ s.length then
      xxhTail fuel (rotateLeft (hash ^^^ wordOf 4 s * p) 23 * q + r) (s.drop 4)
    else match s with
      | [] => hash
      | b :: s => xxhTail fuel (rotateLeft (hash ^^^ b.toUInt64 * u) 11 * p) s

/-- The 64-bit hash of bytes, of which the Zstandard format takes the lower half as a checksum. -/
def xxh64 (s : List UInt8) : Nat :=
  let (p, q, r, _, u) := xxhPrimes
  let groups := s.length / 32
  let (a, b, c, d) := xxhGroups groups (p + q, q, 0, 0 - p) s
  let begun :=
    if groups = 0 then u
    else [a, b, c, d].foldl xxhMerge
      (rotateLeft a 1 + rotateLeft b 7 + rotateLeft c 12 + rotateLeft d 18)
  let hash := xxhTail (s.length + 1) (begun + UInt64.ofNat s.length) (s.drop (32 * groups))
  let hash := (hash ^^^ hash >>> 33) * q
  let hash := (hash ^^^ hash >>> 29) * r
  (hash ^^^ hash >>> 32).toNat

end Chargeback.Codec
