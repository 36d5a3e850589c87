import Chargeback.Yaml.Token
import Chargeback.Yaml.Tree

/-!
# Reading documents without a library

A reader with which the program runs by itself. It knows block and flow collections, plain and
quoted scalars and comments, which is what settings and snapshots are written in. It refuses what
else there is: block scalars (after a bar or a greater-than sign), anchors, aliases, tags and
directives.
-/

namespace Chargeback.Yaml

namespace Tree

/-- The first of the tokens is one of those given. -/
def headIs (kinds : List Token) (ts : List Token) : Bool := ts.head?.any kinds.contains

mutual

/-- A part of a document; collections of blocks only where they may stand, and a sequence without
indentation only as a part of a mapping. -/
def read? : Nat → Bool → Bool → List Token → Option (Tree × List Token)
  | 0, _, _, _ => none
  | n + 1, block, unindented, ts => match ts with
    | .scalar p t :: r => some (.scalar p t, r)
    | .flowSequence :: r => flowItems? n true [] r
    | .flowMapping :: r => flowEntries? n true [] r
    | .entry :: _ => if unindented then unindentedItems? n [] ts else none
    | .blockSequence :: r => if block then blockItems? n [] r else none
    | .blockMapping :: r => if block then blockEntries? n [] r else none
    | _ => none

/-- A part of a document, or nothing before one of the tokens given. -/
def readOr? : Nat → Bool → Bool → List Token → List Token → Option (Tree × List Token)
  | 0, _, _, _, _ => none
  | n + 1, block, unindented, stops, ts =>
    if headIs stops ts then some (absent, ts) else read? n block unindented ts

/-- The items of a block sequence, with those read in reverse. -/
def blockItems? : Nat → List Tree → List Token → Option (Tree × List Token)
  | 0, _, _ => none
  | n + 1, done, ts => match ts with
    | .entry :: r => do
      let (item, r) ← readOr? n true false [.entry, .blockEnd] r
      blockItems? n (item :: done) r
    | .blockEnd :: r => some (.sequence done.reverse, r)
    | _ => none

/-- The items of a block sequence that is not indented. -/
def unindentedItems? : Nat → List Tree → List Token → Option (Tree × List Token)
  | 0, _, _ => none
  | n + 1, done, ts => match ts with
    | .entry :: r => do
      let (item, r) ← readOr? n true false [.entry, .key, .value, .blockEnd] r
      unindentedItems? n (item :: done) r
    | _ => some (.sequence done.reverse, ts)

/-- The entries of a block mapping. -/
def blockEntries? : Nat → List (Tree × Tree) → List Token → Option (Tree × List Token)
  | 0, _, _ => none
  | n + 1, done, ts => match ts with
    | .key :: r => do
      let stops : List Token := [.key, .value, .blockEnd]
      let (key, r) ← readOr? n true true stops r
      match r with
      | .value :: r =>
        let (value, r) ← readOr? n true true stops r
        blockEntries? n ((key, value) :: done) r
      | _ => blockEntries? n ((key, absent) :: done) r
    | .blockEnd :: r => some (.mapping done.reverse, r)
    | _ => none

/-- A key and its value in a flow collection that ends with the token given. -/
def flowEntry? : Nat → Token → List Token → Option ((Tree × Tree) × List Token)
  | 0, _, _ => none
  | n + 1, close, ts => do
    let (key, r) ← readOr? n false false [.value, .comma, close] ts
    match r with
    | .value :: r =>
      let (value, r) ← readOr? n false false [.comma, close] r
      return ((key, value), r)
    | _ => return ((key, absent), r)

/-- The items of a flow sequence. An item may be a key with its value. -/
def flowItems? : Nat → Bool → List Tree → List Token → Option (Tree × List Token)
  | 0, _, _, _ => none
  | n + 1, first, done, ts => match first, ts with
    | _, .flowSequenceEnd :: r => some (.sequence done.reverse, r)
    | false, .comma :: .flowSequenceEnd :: r => some (.sequence done.reverse, r)
    | true, ts | false, .comma :: ts => match ts with
      | .key :: r => do
        let (entry, r) ← flowEntry? n .flowSequenceEnd r
        flowItems? n false (.mapping [entry] :: done) r
      | _ => do
        let (item, r) ← read? n false false ts
        flowItems? n false (item :: done) r
    | false, _ => none

/-- The entries of a flow mapping. A key may stand alone. -/
def flowEntries? : Nat → Bool → List (Tree × Tree) → List Token → Option (Tree × List Token)
  | 0, _, _, _ => none
  | n + 1, first, done, ts => match first, ts with
    | _, .flowMappingEnd :: r => some (.mapping done.reverse, r)
    | false, .comma :: .flowMappingEnd :: r => some (.mapping done.reverse, r)
    | true, ts | false, .comma :: ts => match ts with
      | .key :: r => do
        let (entry, r) ← flowEntry? n .flowMappingEnd r
        flowEntries? n false (entry :: done) r
      | _ => do
        let (key, r) ← read? n false false ts
        flowEntries? n false ((key, absent) :: done) r
    | false, _ => none

end

/-- The tree of tokens that make up one document. -/
def ofTokens? (ts : List Token) : Option Tree := do
  let n := 3 * ts.length + 3
  let (tree, rest) ← match ts with
    | [] => some (absent, [])
    | .documentStart :: r =>
      if r.isEmpty || headIs [.documentStart, .documentEnd] r then some (absent, r)
      else read? n true false r
    | _ => read? n true false ts
  if rest.all (· == .documentEnd) then some tree else none

end Tree

/-- Reads a text with one document. -/
def read? (text : String) : Option Tree := do
  let ts ← tokens? text.toList
  Tree.ofTokens? ts.toList

/-- The reader of the program itself. -/
instance standard : Reader := ⟨read?⟩

end Chargeback.Yaml
