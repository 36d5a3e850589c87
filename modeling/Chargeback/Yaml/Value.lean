import Chargeback.Datum
import Chargeback.Number.Decimal
import Chargeback.Yaml.Tree

/-!
# Values of scalars

A quoted scalar is a text. What a plain scalar is depends on who asks: a reader that expects a
text takes it as it stands, one that expects a number or a truth value takes the spellings
below, and one that expects nothing in particular takes the first of null, truth value, integer,
number and text that the spelling fits.
-/

namespace Chargeback.Yaml

open Text

/-- The spellings of nothing. -/
def isNull (s : String) : Bool := s.isEmpty || ["null", "Null", "NULL", "~"].contains s

/-- The truth value that a plain scalar spells. -/
def bool? (s : String) : Option Bool :=
  if ["true", "True", "TRUE"].contains s then some true
  else if ["false", "False", "FALSE"].contains s then some false
  else none

/-- The value of a digit in some base. -/
def digit? (base : Nat) (c : Char) : Option Nat :=
  (hexValue? c).filter (· < base)

/-- The natural number that some digits denote. -/
def natural? (base : Nat) (ds : List Char) : Option Nat :=
  if ds.isEmpty then none
  else (ds.mapM (digit? base)).map fun vs => vs.foldl (fun n d => base * n + d) 0

/-- Digits with a zero in front, which are not a number. -/
def hasLeadingZero (ds : List Char) : Bool :=
  1 < ds.length && ds.head? == some '0' && ds.all isDigit

/-- The magnitude of an integer: decimal digits, or digits after a mark for another base. -/
def magnitude? (s : List Char) : Option Nat :=
  match s with
  | '0' :: 'x' :: r => natural? 16 r
  | '0' :: 'o' :: r => natural? 8 r
  | '0' :: 'b' :: r => natural? 2 r
  | _ => if hasLeadingZero s then none else natural? 10 s

/-- The integer that a plain scalar spells. -/
def integer? (s : String) : Option Int :=
  match s.toList with
  | '+' :: r => (magnitude? r).map fun n => (n : Int)
  | '-' :: r => (magnitude? r).map fun n => -(n : Int)
  | r => (magnitude? r).map fun n => (n : Int)

/-- The natural number below `2 ^ 64` that a plain scalar spells. -/
def count? (s : String) : Option Nat :=
  if s.toList.head? == some '-' then none
  else (integer? s).bind fun i => if i < 2 ^ 64 then some i.toNat else none

/-- The number that a plain scalar spells; a finite number must not be too large for a double. -/
def real? (s : String) : Option Binary64 :=
  let unsigned := match s.toList with
    | '+' :: r => r
    | r => r
  let special (words : List String) (t : List Char) : Bool := words.contains (String.ofList t)
  if special [".inf", ".Inf", ".INF"] unsigned then some (.infinite false)
  else if special ["-.inf", "-.Inf", "-.INF"] s.toList then some (.infinite true)
  else if special [".nan", ".NaN", ".NAN"] s.toList then some .nan
  else if unsigned != s.toList && unsigned.head?.any fun c => c == '+' || c == '-' then none
  else (Decimal.read? unsigned).filter (·.isFinite)

namespace Tree

/-- What a plain scalar is to a reader that expects nothing in particular. Integers that do not
fit into sixty-four bits have no value as long as they fit into twice as many, and are numbers
beyond that. -/
def plainDatum (s : String) : Datum :=
  if isNull s then .null
  else match bool? s with
    | some b => .bool b
    | none => match integer? s with
      | some i =>
        if -2 ^ 63 ≤ i && i < 2 ^ 64 then .integer i
        else if -2 ^ 127 ≤ i && i < 2 ^ 128 then .unreadable
        else match real? s with
          | some x => .real x
          | none => .text s
      | none =>
        if hasLeadingZero (Decimal.splitSign s.toList).2 then .text s
        else match real? s with
          | some x => .real x
          | none => .text s

/-- What a key is to a reader that expects nothing in particular. -/
def keyOfDatum : Datum → Key
  | .text s => .text s
  | .integer i => if 0 ≤ i then .index i.toNat else .other
  | _ => .other

mutual

/-- What a tree is to a reader that expects nothing in particular. -/
def toDatum : Tree → Datum
  | .scalar isPlain s => if isPlain then plainDatum s else .text s
  | .sequence items => .list (itemsToData items)
  | .mapping entries => .table (entriesToData entries)

/-- `toDatum` for every item. -/
def itemsToData : List Tree → List Datum
  | [] => []
  | n :: ns => toDatum n :: itemsToData ns

/-- `toDatum` for every key and value. Under a key without a value nothing has a value. -/
def entriesToData : List (Tree × Tree) → List (Key × Datum)
  | [] => []
  | (k, v) :: es =>
    let entry := match toDatum k with
      | .unreadable => (Key.other, Datum.unreadable)
      | key => (keyOfDatum key, toDatum v)
    entry :: entriesToData es

end

/-! ## Writing -/

mutual

/-- A value as it is written in a document: texts are quoted, and all else is plain. -/
def ofDatum : Datum → Tree
  | .null => .scalar true "null"
  | .bool b => .scalar true (if b then "true" else "false")
  | .integer i => .scalar true (toString i)
  | .real x => .scalar true (Decimal.plain x)
  | .text s => .scalar false s
  | .unreadable => .scalar true "null"
  | .list items => .sequence (ofItems items)
  | .table entries => .mapping (ofEntries entries)

/-- `ofDatum` for every item. -/
def ofItems : List Datum → List Tree
  | [] => []
  | d :: ds => ofDatum d :: ofItems ds

/-- `ofDatum` for every value; a key that is no text is not written. -/
def ofEntries : List (Key × Datum) → List (Tree × Tree)
  | [] => []
  | e :: es => match e.1 with
    | .text k => (.scalar false k, ofDatum e.2) :: ofEntries es
    | _ => ofEntries es

end

end Tree

end Chargeback.Yaml
