import Chargeback.Json.Token

/-!
# JSON documents

`Json.read?` turns the bytes of a document into a `Datum`. It fails on ill-formed documents
only. A table in which a key has no value is unreadable as a whole.
-/

namespace Chargeback.Json

mutual

/-- One value at the front of a list of tokens, and the rest. -/
def value? : Nat → List Token → Option (Datum × List Token)
  | 0, _ => none
  | _, [] => none
  | fuel + 1, t :: ts =>
    match t with
    | .leaf d => some (d, ts)
    | .string s => some ((s.map Datum.text).getD .unreadable, ts)
    | .openList =>
      match ts with
      | .closeList :: ts => some (.list [], ts)
      | ts => (items? fuel ts).map fun (ds, r) => (.list ds, r)
    | .openTable =>
      match ts with
      | .closeTable :: ts => some (.table [], ts)
      | ts =>
        (entries? fuel ts).map fun (es, r) =>
          ((es.map Datum.table).getD .unreadable, r)
    | _ => none

/-- The items of a list up to its end. -/
def items? : Nat → List Token → Option (List Datum × List Token)
  | 0, _ => none
  | fuel + 1, ts =>
    match value? fuel ts with
    | none => none
    | some (d, .closeList :: r) => some ([d], r)
    | some (d, .comma :: r) => (items? fuel r).map fun (ds, r) => (d :: ds, r)
    | some _ => none

/-- The entries of a table up to its end, if all their keys have a value. -/
def entries? : Nat → List Token → Option (Option (List (Key × Datum)) × List Token)
  | 0, _ => none
  | fuel + 1, .string k :: .colon :: ts =>
    let entry (d : Datum) := k.map fun k => (Key.text k, d)
    match value? fuel ts with
    | none => none
    | some (d, .closeTable :: r) => some ((entry d).map ([·]), r)
    | some (d, .comma :: r) =>
      (entries? fuel r).map fun (es, r) =>
        ((entry d).bind fun e => es.map (e :: ·), r)
    | some _ => none
  | _ + 1, _ => none

end

/-- Reads a document. Each step of the recursion uses up a token or enters the one value that
follows a punctuation, so twice the number of tokens bounds it. -/
def read? (s : List UInt8) : Option Datum :=
  (tokens? s).bind fun ts =>
    match value? (2 * ts.length + 1) ts with
    | some (d, []) => some d
    | _ => none

end Chargeback.Json
