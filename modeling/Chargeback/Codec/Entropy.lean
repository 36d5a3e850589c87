import Chargeback.Codec.Bytes

/-!
# Codes of the Zstandard format

A stream of code words is written forwards and read BACKWARDS: from its last byte down, after the
highest bit that is set in it. There are two codes. With a state code, a state stands for a symbol,
and some further bits of the stream lead to the next state. With a word code, every symbol has a word
of bits; it is written down by weights, which are the larger the shorter the words are.
-/

namespace Chargeback.Codec.Entropy

/-! ## Streams that are read backwards -/

/-- The bits of a stream in the order in which they are read, unless nothing marks its end. -/
def backward? (s : List UInt8) : Option (List Bool) :=
  match (bitsOf s).reverse with
  | [] => none
  | bits => match (bits.take 8).dropWhile (!·) with
    | [] => none
    | _ :: r => some (r ++ bits.drop 8)

/-- The number in the next `n` bits, highest first, appended to a number; and the rest. -/
def splitWord? : Nat → Nat → List Bool → Option (Nat × List Bool)
  | 0, v, s => some (v, s)
  | _ + 1, _, [] => none
  | n + 1, v, b :: s => splitWord? n (2 * v + b.toNat) s

/-- The same number, with zeros for the bits that are missing. -/
def peekWord : Nat → Nat → List Bool → Nat
  | 0, v, _ => v
  | n + 1, v, s => peekWord n (2 * v + (s.headD false).toNat) s.tail

/-! ## State codes -/

/-- A state: its symbol, and how many bits are added to what base to come to the next state. -/
structure State where
  symbol : Nat
  bits : Nat
  base : Nat
  deriving Inhabited, Repr

/-- A state code has `2 ^ log` states. -/
structure StateCode where
  log : Nat
  states : Array State
  deriving Repr

/-- The code in which everything stands for one symbol. -/
def StateCode.constant (symbol : Nat) : StateCode := ⟨0, #[⟨symbol, 0, 0⟩]⟩

/-- The symbols of the states, one after the other. A symbol has as many states as its share says. They
are spread over the front, in steps; a symbol whose share is less than one has one at the end. -/
def spread (log : Nat) (shares : List Int) : Array Nat :=
  let size := 2 ^ log
  let rare := (shares.zipIdx.filter (·.1 == -1)).map Prod.snd
  let common := shares.zipIdx.flatMap fun (share, symbol) => List.replicate share.toNat symbol
  let step := size / 2 + size / 8 + 3
  let places := ((List.range size).map fun k => k * step % size).filter (· + rare.length < size)
  let front := (places.zip common).foldl (fun a (place, symbol) => a.setIfInBounds place symbol)
    (Array.replicate (size - rare.length) 0)
  front ++ rare.reverse.toArray

/-- The code in which the symbols have the shares given. The states of a symbol are numbered from its
share up, and such a number says how many bits are missing for a state. -/
def StateCode.ofShares (log : Nat) (shares : List Int) : StateCode :=
  let numbers := (shares.map fun share => if share = -1 then 1 else share.toNat).toArray
  let (_, states) := (spread log shares).foldl (fun (numbers, states) symbol =>
    let number := numbers.getD symbol 1
    let bits := log - number.log2
    (numbers.setIfInBounds symbol (number + 1),
      states.push { symbol, bits, base := number * 2 ^ bits - 2 ^ log })) (numbers, #[])
  ⟨log, states⟩

/-- How many symbols without a share follow, with at most `fuel` parts of the number. -/
def readGap : Nat → List Bool → Option (Nat × List Bool)
  | 0, _ => none
  | fuel + 1, s => do
    let (n, s) ← splitBits? 2 s
    if n = 3 then (readGap fuel s).map fun (m, s) => (3 + m, s) else return (n, s)

/-- The shares of the symbols, of which the last ones are given backwards, with `left` to be shared
out. The less is left, the shorter the numbers are; and the small ones are one bit shorter. -/
def readShares : Nat → Nat → List Int → List Bool → Option (List Int × List Bool)
  | 0, _, _, _ => none
  | fuel + 1, left, done, s =>
    if left = 0 then some (done.reverse, s)
    else do
      let width := (left + 1).log2
      let spare := 2 ^ (width + 1) - 2 - left
      let (low, s) ← splitBits? width s
      let (v, s) ← if low < spare then pure (low, s)
        else (splitBits? 1 s).map fun (b, s) => (if b = 1 then low + 2 ^ width - spare else low, s)
      if v = 0 then readShares fuel (left - 1) (-1 :: done) s
      else if v = 1 then
        let (n, s) ← readGap s.length s
        readShares fuel left (List.replicate (n + 1) 0 ++ done) s
      else readShares fuel (left - (v - 1)) (Int.ofNat (v - 1) :: done) s

/-- The state code that is written down in front, with limits for the number of its states and of its
symbols, and the bytes that follow. -/
def readStateCode (maxLog symbols : Nat) (s : List UInt8) : Option (StateCode × List UInt8) := do
  let bits := bitsOf s
  let (n, r) ← splitBits? 4 bits
  if maxLog < n + 5 then none
  let (shares, r) ← readShares (bits.length + 1) (2 ^ (n + 5)) [] r
  if symbols < shares.length then none
  return (.ofShares (n + 5) shares, s.drop ((bits.length - r.length + 7) / 8))

/-- The state that a stream begins with, and the rest. -/
def StateCode.first? (c : StateCode) (s : List Bool) : Option (State × List Bool) := do
  let (i, s) ← splitWord? c.log 0 s
  return ((← c.states[i]?), s)

/-- The state after another one, and the rest. -/
def StateCode.next? (c : StateCode) (state : State) (s : List Bool) : Option (State × List Bool) := do
  let (v, s) ← splitWord? state.bits 0 s
  return ((← c.states[state.base + v]?), s)

/-- The symbols of two states that take turns until there are too few bits for one of them, with those
read in reverse and at most `fuel` more. -/
def readTurns (c : StateCode) : Nat → State → State → List Nat → List Bool → Option (List Nat)
  | 0, _, _, _, _ => none
  | fuel + 1, a, b, done, s => match c.next? a s with
    | none => some (b.symbol :: a.symbol :: done).reverse
    | some (a', s) => readTurns c fuel b a' (a.symbol :: done) s

/-! ## Word codes -/

/-- The symbol for every text of `log` bits, and how many of them are its word. -/
structure WordCode where
  log : Nat
  cells : Array (Nat × Nat)
  deriving Repr

/-- The longest word. -/
def wordLimit : Nat := 11

/-- The word code for the weights of all symbols but the last, which gets what is left to fill it up. -/
def WordCode.ofWeights? (weights : List Nat) : Option WordCode :=
  let total := (weights.filter (0 < ·)).foldl (fun n w => n + 2 ^ (w - 1)) 0
  let log := total.log2 + 1
  let left := 2 ^ log - total
  let weights := weights ++ [left.log2 + 1]
  if total = 0 || wordLimit < log || 2 ^ left.log2 != left || weights.count 1 < 2 then none
  else
    let cells := (List.range log).flatMap fun w =>
      (weights.zipIdx.filter (·.1 == w + 1)).flatMap fun (_, symbol) =>
        List.replicate (2 ^ w) (symbol, log - w)
    some ⟨log, cells.toArray⟩

/-- The word code that is written down in front, and the bytes that follow: the weights are numbers of
four bits, or words of a state code. -/
def readWordCode (s : List UInt8) : Option (WordCode × List UInt8) := do
  let (n, s) ← splitNumber? 1 s
  if 128 ≤ n then
    let (bytes, s) ← splitBytes? ((n - 126) / 2) s
    let weights := bytes.flatMap fun b => [b.toNat / 16, b.toNat % 16]
    return ((← WordCode.ofWeights? (weights.take (n - 127))), s)
  else
    let (bytes, s) ← splitBytes? n s
    let (code, bytes) ← readStateCode 6 (wordLimit + 1) bytes
    let bits ← backward? bytes
    let (a, bits) ← code.first? bits
    let (b, bits) ← code.first? bits
    return ((← WordCode.ofWeights? (← readTurns code 254 a b [] bits)), s)

/-- So many symbols from a stream that ends with them, appended to others. -/
def WordCode.read? (c : WordCode) : Nat → List Bool → Array UInt8 → Option (Array UInt8)
  | 0, s, out => if s.isEmpty then some out else none
  | n + 1, s, out => do
    let (symbol, bits) ← c.cells[peekWord c.log 0 s]?
    let (_, s) ← splitWord? bits 0 s
    c.read? n s (out.push (UInt8.ofNat symbol))

end Chargeback.Codec.Entropy
