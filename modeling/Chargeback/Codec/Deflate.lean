import Chargeback.Codec.Bytes

/-!
# Deflated data

Reading: a stream of blocks, each stored, or coded with fixed or with its own Huffman codes,
in which references repeat earlier output. Writing: stored blocks only, which every reader takes.
-/

namespace Chargeback.Codec.Deflate

/-! ## Canonical codes -/

/-- A canonical code: how many code words there are of each length from one to fifteen, and the
symbols in the order of their code words. -/
structure Code where
  counts : List Nat
  symbols : Array Nat
  deriving Repr

/-- The lengths of code words. -/
def wordLengths : List Nat := (List.range 15).map (· + 1)

/-- The code for a list of word lengths, one for each symbol, of which zero means no word. -/
def Code.ofLengths (lengths : List Nat) : Code where
  counts := wordLengths.map fun n => lengths.count n
  symbols :=
    let indexed := lengths.zipIdx
    (wordLengths.flatMap fun n => (indexed.filter (·.1 == n)).map Prod.snd).toArray

/-- The words of each length fit into those left by the shorter ones; how many of the longest
remain unused. -/
def unusedWords? : List Nat → Nat → Option Nat
  | [], left => some left
  | c :: cs, left => if 2 * left < c then none else unusedWords? cs (2 * left - c)

/-- The code is neither over-full nor, with more than one symbol, incomplete. -/
def Code.isSound (c : Code) : Bool :=
  match unusedWords? c.counts 1 with
  | none => false
  | some left => left == 0 || c.symbols.size ≤ 1

/-- Reads a symbol bit by bit. Among the words of the present length the first is `first`, and
its symbol stands at `index`. -/
def readSymbol (symbols : Array Nat) :
    List Nat → Nat → Nat → Nat → List Bool → Option (Nat × List Bool)
  | [], _, _, _, _ => none
  | _ :: _, _, _, _, [] => none
  | c :: cs, word, first, index, b :: s =>
    let word := 2 * word + (if b then 1 else 0)
    if word < first + c then (symbols[index + (word - first)]?).map fun v => (v, s)
    else readSymbol symbols cs word (2 * (first + c)) (index + c) s

/-- The symbol at the front of a stream of bits. -/
def Code.read (c : Code) (s : List Bool) : Option (Nat × List Bool) :=
  readSymbol c.symbols c.counts 0 0 0 s

/-! ## References -/

/-- The base and the number of further bits of the lengths from symbol 257 on. -/
def lengthTable : Array (Nat × Nat) := #[
  (3, 0), (4, 0), (5, 0), (6, 0), (7, 0), (8, 0), (9, 0), (10, 0), (11, 1), (13, 1), (15, 1),
  (17, 1), (19, 2), (23, 2), (27, 2), (31, 2), (35, 3), (43, 3), (51, 3), (59, 3), (67, 4),
  (83, 4), (99, 4), (115, 4), (131, 5), (163, 5), (195, 5), (227, 5), (258, 0)]

/-- The base and the number of further bits of the distances. -/
def distanceTable : Array (Nat × Nat) := #[
  (1, 0), (2, 0), (3, 0), (4, 0), (5, 1), (7, 1), (9, 2), (13, 2), (17, 3), (25, 3), (33, 4),
  (49, 4), (65, 5), (97, 5), (129, 6), (193, 6), (257, 7), (385, 7), (513, 8), (769, 8),
  (1025, 9), (1537, 9), (2049, 10), (3073, 10), (4097, 11), (6145, 11), (8193, 12), (12289, 12),
  (16385, 13), (24577, 13)]

/-- The value of a table entry with its further bits. -/
def extended? (table : Array (Nat × Nat)) (i : Nat) (s : List Bool) : Option (Nat × List Bool) := do
  let (base, extra) ← table[i]?
  let (v, s) ← splitBits? extra s
  return (base + v, s)

/-! ## Blocks -/

/-- The coded part of a block up to its end, with at most `fuel` symbols. -/
def readCoded (literals distances : Code) :
    Nat → List Bool → Array UInt8 → Option (List Bool × Array UInt8)
  | 0, _, _ => none
  | fuel + 1, s, out =>
    match literals.read s with
    | none => none
    | some (v, s) =>
      if v < 256 then readCoded literals distances fuel s (out.push (UInt8.ofNat v))
      else if v = 256 then some (s, out)
      else match extended? lengthTable (v - 257) s with
        | none => none
        | some (n, s) => match distances.read s with
          | none => none
          | some (d, s) => match extended? distanceTable d s with
            | none => none
            | some (distance, s) =>
              if out.size < distance then none
              else readCoded literals distances fuel s (repeatBack distance n out)

/-- The fixed code of literals and lengths. -/
def fixedLiterals : Code := .ofLengths
  (List.replicate 144 8 ++ List.replicate 112 9 ++ List.replicate 24 7 ++ List.replicate 8 8)

/-- The fixed code of distances. -/
def fixedDistances : Code := .ofLengths (List.replicate 30 5)

/-- The order in which the lengths of the code for code lengths are written. -/
def lengthOrder : List Nat := [16, 17, 18, 0, 8, 7, 9, 6, 10, 5, 11, 4, 12, 3, 13, 2, 14, 1, 15]

/-- So many three-bit numbers. -/
def readTriples : Nat → List Bool → Option (List Nat × List Bool)
  | 0, s => some ([], s)
  | n + 1, s => do
    let (v, s) ← splitBits? 3 s
    let (vs, s) ← readTriples n s
    return (v :: vs, s)

/-- Code lengths up to a number of `total`, of which the last ones are given backwards; symbols
beyond fifteen repeat the last length or zero. -/
def readLengths (code : Code) (total : Nat) :
    Nat → List Nat → List Bool → Option (List Nat × List Bool)
  | 0, _, _ => none
  | fuel + 1, done, s =>
    if total < done.length then none
    else if done.length = total then some (done.reverse, s)
    else do
      let (v, s) ← code.read s
      if v < 16 then readLengths code total fuel (v :: done) s
      else if v = 16 then
        let last ← done.head?
        let (n, s) ← splitBits? 2 s
        readLengths code total fuel (List.replicate (n + 3) last ++ done) s
      else if v = 17 then
        let (n, s) ← splitBits? 3 s
        readLengths code total fuel (List.replicate (n + 3) 0 ++ done) s
      else
        let (n, s) ← splitBits? 7 s
        readLengths code total fuel (List.replicate (n + 11) 0 ++ done) s

/-- The codes at the front of a block that has its own. -/
def readCodes (s : List Bool) : Option (Code × Code × List Bool) := do
  let (literals, s) ← splitBits? 5 s
  let (distances, s) ← splitBits? 5 s
  let (lengths, s) ← splitBits? 4 s
  if 286 < literals + 257 || 30 < distances + 1 then none
  let (triples, s) ← readTriples (lengths + 4) s
  let places := lengthOrder.zip triples
  let code := Code.ofLengths ((List.range 19).map fun i => (places.lookup i).getD 0)
  if !code.isSound then none
  let total := literals + 257 + distances + 1
  let (all, s) ← readLengths code total (total + 1) [] s
  let literalCode := Code.ofLengths (all.take (literals + 257))
  let distanceCode := Code.ofLengths (all.drop (literals + 257))
  if literalCode.isSound && distanceCode.isSound then some (literalCode, distanceCode, s)
  else none

/-- The stream from the next whole byte on. -/
def align (s : List Bool) : List Bool := s.drop (s.length % 8)

/-- The bytes of a stored block, added to the output. -/
def readStored (s : List Bool) (out : Array UInt8) : Option (List Bool × Array UInt8) := do
  let (n, s) ← splitBits? 16 (align s)
  let (m, s) ← splitBits? 16 s
  if n + m ≠ 65535 then none
  let body := bytesOfBits (s.take (8 * n))
  if body.length < n then none
  else return (s.drop (8 * n), out ++ body.toArray)

/-- All blocks up to the last, with at most `fuel` of them. -/
def readBlocks : Nat → List Bool → Array UInt8 → Option (List Bool × Array UInt8)
  | 0, _, _ => none
  | fuel + 1, s, out => do
    let (last, s) ← splitBits? 1 s
    let (kind, s) ← splitBits? 2 s
    let (s, out) ←
      if kind = 0 then readStored s out
      else if kind = 1 then readCoded fixedLiterals fixedDistances (s.length + 1) s out
      else if kind = 2 then do
        let (literals, distances, s) ← readCodes s
        readCoded literals distances (s.length + 1) s out
      else none
    if last = 1 then return (s, out) else readBlocks fuel s out

/-- The data of a stream and the bytes that follow it. -/
def inflate (s : List UInt8) : Option (List UInt8 × List UInt8) :=
  let bits := bitsOf s
  (readBlocks (bits.length + 1) bits #[]).map fun (rest, out) =>
    (out.toList, bytesOfBits (align rest))

/-! ## Writing -/

/-- The most bytes that a stored block holds. -/
def storedLimit : Nat := 65535

/-- The stored blocks of some data, with at most `fuel` of them. -/
def storedBlocks : Nat → List UInt8 → List UInt8
  | 0, _ => []
  | fuel + 1, s =>
    let front := s.take storedLimit
    let rest := s.drop storedLimit
    let head : UInt8 := if rest.isEmpty then 1 else 0
    head :: (littleEndian 2 front.length ++ littleEndian 2 (65535 - front.length) ++ front ++
      (if rest.isEmpty then [] else storedBlocks fuel rest))

/-- A stream of stored blocks. -/
def deflate (s : List UInt8) : List UInt8 := storedBlocks (s.length + 1) s

end Chargeback.Codec.Deflate
