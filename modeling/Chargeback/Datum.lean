import Chargeback.Number.Binary64

/-!
# Datum — a self-describing value

The tree that the JSON and YAML readers produce and that typed values are decoded from. A
table keeps its entries in the order written, repeated keys included: which of two entries
counts is the business of the type that is decoded.

Some well-formed documents hold a leaf without a value, such as a string with half of a
surrogate pair or a number too large for a double. Such a leaf is `unreadable`: it may stand
where nobody looks, and fails every decoder that looks at it.
-/

namespace Chargeback

/-- The key of a table entry. Where a key is an unsigned integer it is an `index`, which may
name a field of a record by its position; keys of other kinds name nothing. -/
inductive Key where
  | text (s : String)
  | index (n : Nat)
  | other
  deriving DecidableEq, Repr, Inhabited

/-- A self-describing value. -/
inductive Datum where
  | null
  | bool (b : Bool)
  | integer (i : Int)
  | real (x : Binary64)
  | text (s : String)
  | list (items : List Datum)
  | table (entries : List (Key × Datum))
  | unreadable
  deriving Repr, Inhabited

namespace Datum

/-! ## Looking into tables -/

/-- The last entry under a text key. -/
def lookup (name : String) (entries : List (Key × Datum)) : Option Datum :=
  (entries.reverse.find? fun e => e.1 == .text name).map Prod.snd

/-- The value under a text key of a table. -/
def get? (name : String) : Datum → Option Datum
  | .table entries => lookup name entries
  | _ => none

/-- A table with text keys. -/
def ofFields (fields : List (String × Datum)) : Datum :=
  .table (fields.map fun (k, v) => (.text k, v))

/-! ## Whole trees -/

mutual

/-- Every leaf has a value, and at most `depth` tables and lists are nested in one another. -/
def readable : Nat → Datum → Bool
  | _, .unreadable => false
  | 0, .list _ => false
  | 0, .table _ => false
  | n + 1, .list items => readableItems n items
  | n + 1, .table entries => readableEntries n entries
  | _, _ => true

/-- `readable` for every item of a list. -/
def readableItems : Nat → List Datum → Bool
  | _, [] => true
  | n, d :: ds => readable n d && readableItems n ds

/-- `readable` for every value of a table. -/
def readableEntries : Nat → List (Key × Datum) → Bool
  | _, [] => true
  | n, e :: es => readable n e.2 && readableEntries n es

end

/-- Puts an entry into a list of entries with text keys in increasing order, in place of an
entry under the same key. -/
def putSorted (k : String) (v : Datum) : List (Key × Datum) → List (Key × Datum)
  | [] => [(.text k, v)]
  | (.text k', v') :: r =>
    if k < k' then (.text k, v) :: (.text k', v') :: r
    else if k = k' then (.text k, v) :: r
    else (.text k', v') :: putSorted k v r
  | e :: r => e :: putSorted k v r

mutual

/-- The tree with the entries of every table in the order of their keys, the last entry under
a key only; entries without a text key are dropped. -/
def canonical : Datum → Datum
  | .list items => .list (canonicalItems items)
  | .table entries => .table (canonicalEntries entries [])
  | d => d

/-- `canonical` for every item of a list. -/
def canonicalItems : List Datum → List Datum
  | [] => []
  | d :: ds => canonical d :: canonicalItems ds

/-- The entries put one by one into the sorted entries found so far. -/
def canonicalEntries : List (Key × Datum) → List (Key × Datum) → List (Key × Datum)
  | [], done => done
  | e :: es, done =>
    let v := canonical e.2
    match e.1 with
    | .text k => canonicalEntries es (putSorted k v done)
    | _ => canonicalEntries es done

end

end Datum

end Chargeback
