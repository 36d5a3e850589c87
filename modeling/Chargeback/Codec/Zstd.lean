import Chargeback.Codec.Entropy

/-!
# The Zstandard container

Frames, one after the other and at least one of them, of which some may be skipped. Reading: every
kind of block; what a compressed block says about its codes, and the last three distances, may be
used by the blocks after it in the frame. There are no dictionaries. Writing: plain bytes only,
which every reader takes.
-/

namespace Chargeback.Codec.Zstd

open Entropy

/-- The most bytes that a block stands for. -/
def blockLimit : Nat := 2 ^ 17

/-- The widest window that a reader grants. -/
def windowLimit : Nat := 2 ^ 27 + 1

/-! ## Compressed blocks -/

/-- What a block leaves to those after it: its codes and the last distances. -/
structure Memory where
  words : Option WordCode := none
  literalLengths : Option StateCode := none
  distances : Option StateCode := none
  matchLengths : Option StateCode := none
  recent : Nat × Nat × Nat := (1, 4, 8)
  deriving Repr

/-- The sizes in the head of coded literals: what they stand for, what they take, and whether they are
in one stream; and what follows. -/
def readSizes (form : Nat) (s : List UInt8) : Option ((Nat × Nat × Bool) × List UInt8) := do
  let width := match form with | 0 | 1 => 10 | 2 => 14 | _ => 18
  let (head, s) ← splitNumber? ((4 + 2 * width + 7) / 8) s
  return ((head / 16 % 2 ^ width, head / 2 ^ (4 + width) % 2 ^ width, form == 0), s)

/-- The symbols of four streams, each with its size in front but the last, which is what is left. -/
def readStreams (code : WordCode) (total : Nat) (s : List UInt8) : Option (Array UInt8) := do
  let part := (total + 3) / 4
  if total < 3 * part then none
  let (a, s) ← splitNumber? 2 s
  let (b, s) ← splitNumber? 2 s
  let (c, s) ← splitNumber? 2 s
  let (first, s) ← splitBytes? a s
  let (second, s) ← splitBytes? b s
  let (third, last) ← splitBytes? c s
  let out ← code.read? part (← backward? first) #[]
  let out ← code.read? part (← backward? second) out
  let out ← code.read? part (← backward? third) out
  code.read? (total - 3 * part) (← backward? last) out

/-- The literals at the front of a block, the word code to be remembered, and what follows. -/
def readLiterals (words : Option WordCode) (s : List UInt8) :
    Option (List UInt8 × Option WordCode × List UInt8) := do
  let head ← s.head?
  let kind := head.toNat % 4
  let form := head.toNat / 4 % 4
  if kind < 2 then
    let (n, s) ← match form with
      | 1 => (splitNumber? 2 s).map fun (n, s) => (n / 16, s)
      | 3 => (splitNumber? 3 s).map fun (n, s) => (n / 16, s)
      | _ => (splitNumber? 1 s).map fun (n, s) => (n / 8, s)
    if blockLimit < n then none
    let (bytes, s) ← if kind = 0 then splitBytes? n s
      else (splitBytes? 1 s).map fun (b, s) => (List.replicate n (b.headD 0), s)
    return (bytes, words, s)
  else
    let ((total, size, single), s) ← readSizes form s
    if blockLimit < total then none
    let (body, s) ← splitBytes? size s
    let (code, body) ← if kind = 2 then readWordCode body else words.map fun code => (code, body)
    let out ← if single then code.read? total (← backward? body) #[]
      else readStreams code total body
    return (out.toList, some code, s)

/-- A kind of number that is written by codes: the limits of its state code, that code if a block has none
of its own, and the base and the number of further bits for each code. -/
structure Field where
  maxLog : Nat
  usual : StateCode
  codes : Array (Nat × Nat)

/-- The number of literals before a match. -/
def literalLengths : Field where
  maxLog := 9
  usual := .ofShares 6 ([4, 3] ++ List.replicate 11 2 ++ [1, 1, 1] ++ List.replicate 9 2 ++
    [3, 2, 1, 1, 1, 1, 1, -1, -1, -1, -1])
  codes := (List.range 16).toArray.map (·, 0) ++ #[(16, 1), (18, 1), (20, 1), (22, 1), (24, 2), (28, 2),
    (32, 3), (40, 3), (48, 4), (64, 6), (128, 7), (256, 8), (512, 9), (1024, 10), (2048, 11),
    (4096, 12), (8192, 13), (16384, 14), (32768, 15), (65536, 16)]

/-- The length of a match. -/
def matchLengths : Field where
  maxLog := 9
  usual := .ofShares 6 ([1, 4, 3] ++ List.replicate 6 2 ++ List.replicate 37 1 ++ List.replicate 7 (-1))
  codes := (List.range 32).toArray.map (· + 3, 0) ++ #[(35, 1), (37, 1), (39, 1), (41, 1), (43, 2),
    (47, 2), (51, 3), (59, 3), (67, 4), (83, 4), (99, 5), (131, 7), (259, 8), (515, 9), (1027, 10),
    (2051, 11), (4099, 12), (8195, 13), (16387, 14), (32771, 15), (65539, 16)]

/-- The distance of a match, or one of the last distances. -/
def distances : Field where
  maxLog := 8
  usual := .ofShares 5 (List.replicate 6 1 ++ [2, 2, 2] ++ List.replicate 15 1 ++ List.replicate 5 (-1))
  codes := (List.range 32).toArray.map fun n => (2 ^ n, n)

/-- The state code of a field, as a block says in one of four ways. -/
def Field.readCode (f : Field) (way : Nat) (earlier : Option StateCode) (s : List UInt8) :
    Option (StateCode × List UInt8) :=
  match way with
  | 0 => some (f.usual, s)
  | 1 => do
    let (symbol, s) ← splitNumber? 1 s
    if f.codes.size ≤ symbol then none else return (.constant symbol, s)
  | 2 => readStateCode f.maxLog f.codes.size s
  | _ => earlier.map fun code => (code, s)

/-- The number that a state stands for, with its further bits. -/
def Field.read? (f : Field) (state : State) (s : List Bool) : Option (Nat × List Bool) := do
  let (base, extra) ← f.codes[state.symbol]?
  let (v, s) ← splitWord? extra 0 s
  return (base + v, s)

/-- The distance that a number stands for after so many literals, and the last distances then. The
numbers up to three stand for one of the last distances; without literals, for a later one. -/
def distanceOf (value literals : Nat) (recent : Nat × Nat × Nat) : Nat × Nat × Nat × Nat :=
  let (a, b, c) := recent
  if 3 < value then (value - 3, value - 3, a, b)
  else match value + (if literals = 0 then 1 else 0) with
    | 1 => (a, a, b, c)
    | 2 => (b, b, a, c)
    | 3 => (c, c, a, b)
    | _ => (a - 1, a - 1, a, b)

/-- The codes of a block with sequences. -/
structure SequenceCodes where
  literals : StateCode
  distances : StateCode
  matchLengths : StateCode

/-- So many sequences of literals and a match, from a stream that ends with them: the literals that are
left, the last distances and the output. -/
def readSequences (c : SequenceCodes) :
    Nat → State × State × State → List Bool → List UInt8 → Nat × Nat × Nat → Array UInt8 →
      Option (List UInt8 × (Nat × Nat × Nat) × Array UInt8)
  | 0, _, s, literals, recent, out => if s.isEmpty then some (literals, recent, out) else none
  | n + 1, (l, d, m), s, literals, recent, out => do
    let (value, s) ← distances.read? d s
    let (size, s) ← matchLengths.read? m s
    let (count, s) ← literalLengths.read? l s
    let (front, literals) ← splitBytes? count literals
    let out := out ++ front.toArray
    let (distance, recent) := distanceOf value count recent
    if distance = 0 || out.size < distance then none
    let out := repeatBack distance size out
    -- No state follows the last sequence.
    if n = 0 then readSequences c 0 (l, d, m) s literals recent out
    else
      let (l, s) ← c.literals.next? l s
      let (m, s) ← c.matchLengths.next? m s
      let (d, s) ← c.distances.next? d s
      readSequences c n (l, d, m) s literals recent out

/-- The number of sequences in a block, and what follows. -/
def readCount (s : List UInt8) : Option (Nat × List UInt8) := do
  let (n, s) ← splitNumber? 1 s
  if n < 128 then return (n, s)
  else if n < 255 then (splitNumber? 1 s).map fun (m, s) => ((n - 128) * 256 + m, s)
  else (splitNumber? 2 s).map fun (m, s) => (m + 0x7F00, s)

/-- A compressed block: what it leaves to those after it, and the output. -/
def readCompressed (memory : Memory) (s : List UInt8) (out : Array UInt8) :
    Option (Memory × Array UInt8) := do
  let (literals, words, s) ← readLiterals memory.words s
  let memory := { memory with words }
  let (count, s) ← readCount s
  if count = 0 then
    if s.isEmpty then return (memory, out ++ literals.toArray) else none
  else
    let (ways, s) ← splitNumber? 1 s
    if ways % 4 ≠ 0 then none
    let (l, s) ← literalLengths.readCode (ways / 64) memory.literalLengths s
    let (d, s) ← distances.readCode (ways / 16 % 4) memory.distances s
    let (m, s) ← matchLengths.readCode (ways / 4 % 4) memory.matchLengths s
    let bits ← backward? s
    let (firstL, bits) ← l.first? bits
    let (firstD, bits) ← d.first? bits
    let (firstM, bits) ← m.first? bits
    let (literals, recent, out) ←
      readSequences ⟨l, d, m⟩ count (firstL, firstD, firstM) bits literals memory.recent out
    return ({ memory with literalLengths := some l, distances := some d, matchLengths := some m, recent },
      out ++ literals.toArray)

/-! ## Frames -/

/-- What the header of a frame says: the limit of its blocks, the size of its data, and whether a
checksum follows them. -/
structure Header where
  blockMax : Nat
  size : Option Nat
  hasSum : Bool
  deriving Repr

/-- The header after the magic number, and the rest. -/
def readHeader (s : List UInt8) : Option (Header × List UInt8) := do
  let (d, s) ← splitNumber? 1 s
  let single := d / 32 % 2 == 1
  if d / 8 % 2 = 1 then none
  let (window, s) ← if single then pure (none, s) else do
    let (w, s) ← splitNumber? 1 s
    let base := 2 ^ (w / 8 + 10)
    pure (some (base + base / 8 * (w % 8)), s)
  let (dictionary, s) ← splitNumber? (match d % 4 with | 0 => 0 | 1 => 1 | 2 => 2 | _ => 4) s
  if dictionary ≠ 0 then none
  let (size, s) ← match d / 64, single with
    | 0, false => pure (none, s)
    | 0, true => (splitNumber? 1 s).map fun (n, s) => (some n, s)
    | 1, _ => (splitNumber? 2 s).map fun (n, s) => (some (n + 256), s)
    | 2, _ => (splitNumber? 4 s).map fun (n, s) => (some n, s)
    | _, _ => (splitNumber? 8 s).map fun (n, s) => (some n, s)
  let reach := window.getD (size.getD 0)
  if windowLimit < reach then none
  else return ({ blockMax := min reach blockLimit, size, hasSum := d / 4 % 2 == 1 }, s)

/-- The blocks up to the last, with at most `fuel` of them: the output and the rest. -/
def readBlocks (blockMax : Nat) :
    Nat → Memory → List UInt8 → Array UInt8 → Option (Array UInt8 × List UInt8)
  | 0, _, _, _ => none
  | fuel + 1, memory, s, out => do
    let (h, s) ← splitNumber? 3 s
    let size := h / 8
    if blockMax < size then none
    let (memory, out', s) ← match h / 2 % 4 with
      | 0 => (splitBytes? size s).map fun (bytes, s) => (memory, out ++ bytes.toArray, s)
      | 1 => (splitBytes? 1 s).map fun (b, s) =>
        (memory, out ++ Array.replicate size (b.headD 0), s)
      | 2 => do
        let (body, s) ← splitBytes? size s
        let (memory, out') ← readCompressed memory body out
        if blockMax < out'.size - out.size then none else pure (memory, out', s)
      | _ => none
    if h % 2 = 1 then return (out', s) else readBlocks blockMax fuel memory s out'

/-- The data of the frame at the front, and the rest. -/
def readFrame (s : List UInt8) : Option (List UInt8 × List UInt8) := do
  let (magic, s) ← splitNumber? 4 s
  if magic / 16 = 0x184D2A5 then
    let (n, s) ← splitNumber? 4 s
    let (_, s) ← splitBytes? n s
    return ([], s)
  else if magic = 0xFD2FB528 then
    let (header, s) ← readHeader s
    let (out, s) ← readBlocks header.blockMax (s.length + 1) {} s #[]
    let data := out.toList
    let s ← if header.hasSum then do
        let (sum, s) ← splitNumber? 4 s
        if sum = xxh64 data % 2 ^ 32 then pure s else none
      else pure s
    if header.size.all (· == data.length) then return (data, s) else none
  else none

/-- The data of all frames, with at most `fuel` of them. -/
def readFrames : Nat → List UInt8 → Option (List UInt8)
  | 0, _ => none
  | fuel + 1, s => do
    let (data, s) ← readFrame s
    if s.isEmpty then return data
    else return data ++ (← readFrames fuel s)

/-- The data of all frames. -/
def decode? (s : List UInt8) : Option (List UInt8) := readFrames (s.length + 1) s

/-! ## Writing -/

/-- Data as raw blocks, with at most `fuel` of them; the last one is not full. -/
def rawBlocks : Nat → List UInt8 → List UInt8
  | 0, _ => []
  | fuel + 1, s =>
    if s.length < blockLimit then littleEndian 3 (s.length * 8 + 1) ++ s
    else littleEndian 3 (blockLimit * 8) ++ s.take blockLimit ++ rawBlocks fuel (s.drop blockLimit)

/-- One frame that holds the data in raw blocks, as a library writes what it cannot compress. The window
is of two million bytes, and the size is left out. -/
def encode (data : List UInt8) : List UInt8 :=
  littleEndian 4 0xFD2FB528 ++ [0, 0x58] ++ rawBlocks (data.length + 1) data

end Chargeback.Codec.Zstd
