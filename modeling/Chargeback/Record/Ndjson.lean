import Chargeback.Datum.Decode
import Chargeback.Json.Document
import Chargeback.Json.Printed
import Chargeback.Record.Basic
import Chargeback.Time.Rfc3339

/-!
# Records as lines of JSON

A batch of records is written as one JSON table per line, with its fields in a fixed order. A
reader skips blank lines but counts them, so that a fault is reported with the number of its
line.
-/

namespace Chargeback

open Datum

namespace CostRecord

/-- The record as a table. -/
def toDatum (r : CostRecord) : Datum :=
  .ofFields [("kind", .text r.kind.name), ("strategy", .text r.strategy),
    ("value", .integer r.value),
    ("dimensions", .ofFields (r.dimensions.entries.map fun (k, v) => (k, .text v))),
    ("endTime", .text r.endTime.toText)]

/-- An amount: an integer in the signed 64-bit range. -/
def amount? : Datum → Option Int
  | .integer i => if i ≤ 2 ^ 63 - 1 then some i else none
  | _ => none

/-- The record that a datum describes. -/
def ofDatum? (d : Datum) : Option CostRecord := do
  match ← fields? ["kind", "strategy", "value", "dimensions", "endTime"] d with
  | [kind, strategy, value, dimensions, endTime] =>
    return {
      kind := ← required? (wordOf? CostKind.ofName?) kind
      strategy := ← required? text? strategy
      value := ← required? amount? value
      dimensions := ← optional? .empty (assocOf? text?) dimensions
      endTime := ← (← required? text? endTime).toList |> Instant.read? }
  | _ => none

end CostRecord

namespace Ndjson

/-- The line of a record, with its end. -/
def line (r : CostRecord) : String := Json.render r.toDatum ++ "\n"

/-- The lines of a batch. -/
def encodeText (rs : List CostRecord) : String := String.join (rs.map line)

/-- The bytes of a batch. -/
def encode (rs : List CostRecord) : List UInt8 := Text.encode (encodeText rs)

/-- A blank of ASCII, which leaves out the vertical tab. -/
def isBlankByte (b : UInt8) : Bool :=
  b == 0x20 || b == 0x09 || b == 0x0A || b == 0x0C || b == 0x0D

/-- The parts of a text between its line ends. -/
def splitLines : List UInt8 → List (List UInt8)
  | [] => [[]]
  | b :: r =>
    if b == 0x0A then [] :: splitLines r
    else match splitLines r with
      | [] => [[b]]
      | l :: ls => (b :: l) :: ls

/-- The record on a line. -/
def decodeLine? (l : List UInt8) : Option CostRecord := (Json.read? l).bind CostRecord.ofDatum?

/-- The records on lines numbered from `n`, or the number of the first line that is neither
blank nor a record. -/
def decodeLines (n : Nat) : List (List UInt8) → Except Nat (List CostRecord)
  | [] => .ok []
  | l :: ls =>
    if l.all isBlankByte then decodeLines (n + 1) ls
    else match decodeLine? l with
      | none => .error n
      | some r => (decodeLines (n + 1) ls).map (r :: ·)

/-- The records of a batch, or the number, from one, of the first line that is not a record. -/
def decode (bytes : List UInt8) : Except Nat (List CostRecord) := decodeLines 1 (splitLines bytes)

end Ndjson

end Chargeback
