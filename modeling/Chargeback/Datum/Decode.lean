import Chargeback.Assoc
import Chargeback.Datum

/-!
# Decoding values of a fixed shape

Typed values are read from a `Datum` by one small function per type, which gives `none` where
the datum has another shape. A record may be written as a table, in which fields that it does
not have are ignored and a field may not occur twice, or as the list of its fields in order,
of which the last may be left out.
-/

namespace Chargeback.Datum

/-- A text. -/
def text? : Datum → Option String
  | .text s => some s
  | _ => none

/-- A list of values that all decode. -/
def listOf? {α : Type} (decode : Datum → Option α) : Datum → Option (List α)
  | .list items => items.mapM decode
  | _ => none

/-- A table with text keys whose values all decode; the last entry under a key counts. -/
def assocOf? {α : Type} (decode : Datum → Option α) : Datum → Option (Assoc α)
  | .table entries => do
    let es ← entries.mapM fun e => match e.1 with
      | .text k => (decode e.2).map fun v => (k, v)
      | _ => none
    return Assoc.ofList es
  | _ => none

/-- One of several words, written as a text or as a table with this one key and the value null. -/
def wordOf? {α : Type} (word? : String → Option α) : Datum → Option α
  | .text s => word? s
  | .table [(.text s, .null)] => word? s
  | _ => none

/-! ## Records -/

/-- The field of a record that a key names: `some none` if it names none of them, and `none` if
it is not a name. -/
def fieldOf? (names : List String) : Key → Option (Option Nat)
  | .text s => some (names.findIdx? (· == s))
  | .index n => some (if n < names.length then some n else none)
  | .other => none

/-- The fields of a record with the names given, in their order; a field that is missing is
`none`. -/
def fields? (names : List String) : Datum → Option (List (Option Datum))
  | .list items =>
    if names.length < items.length then none
    else some (items.map some ++ List.replicate (names.length - items.length) none)
  | .table entries =>
    let put (slots : List (Option Datum)) (e : Key × Datum) : Option (List (Option Datum)) := do
      match ← fieldOf? names e.1 with
      | none => return slots
      | some i =>
        match slots[i]? with
        | some none => return slots.set i (some e.2)
        | _ => none
    entries.foldlM put (names.map fun _ => none)
  | _ => none

/-- A field that must be there. -/
def required? {α : Type} (decode : Datum → Option α) (field : Option Datum) : Option α :=
  field.bind decode

/-- A field with a value for the case that it is missing. -/
def optional? {α : Type} (missing : α) (decode : Datum → Option α) : Option Datum → Option α
  | none => some missing
  | some d => decode d

end Chargeback.Datum
