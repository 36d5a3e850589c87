import Chargeback.Assoc
import Chargeback.Time.Span
import Chargeback.Yaml.Value

/-!
# Decoding documents of a fixed shape

Typed values are read from a tree by one small function per type, which gives `none` where the
tree has another shape. A text is any scalar as it stands. A record, a table or a list may be
left empty; a field that a record does not have is ignored, and one that it has may not occur
twice.
-/

namespace Chargeback.Yaml.Tree

/-- A text. -/
def text? : Tree → Option String
  | .scalar _ s => some s
  | _ => none

/-- A plain scalar with a spelling that has a value. -/
def plain? {α : Type} (spelled? : String → Option α) : Tree → Option α
  | .scalar true s => spelled? s
  | _ => none

/-- A truth value. -/
def bool? : Tree → Option Bool := plain? Yaml.bool?

/-- A natural number below `2 ^ 64`. -/
def count? : Tree → Option Nat := plain? Yaml.count?

/-- A number. -/
def real? : Tree → Option Binary64 := plain? Yaml.real?

/-- A span of time. -/
def span? (n : Tree) : Option Span := n.text?.bind fun s => Span.read? s.toList

/-- A text that some function understands. -/
def word? {α : Type} (read : String → Option α) (n : Tree) : Option α := n.text?.bind read

/-- A list of values that all decode. -/
def listOf? {α : Type} (decode : Tree → Option α) : Tree → Option (List α)
  | .sequence items => items.mapM decode
  | .scalar true "" => some []
  | _ => none

/-- A table of values that all decode; the last entry under a key counts. -/
def assocOf? {α : Type} (decode : Tree → Option α) : Tree → Option (Assoc α)
  | .mapping entries => do
    let es ← entries.mapM fun (k, v) => do return (← k.text?, ← decode v)
    return Assoc.ofList es
  | .scalar true "" => some .empty
  | _ => none

/-! ## Records -/

/-- The fields of a record, by name. -/
structure Fields where
  entries : List (String × Tree)

/-- The fields of a record with the names given. -/
def fields? (names : List String) : Tree → Option Fields
  | .mapping entries => do
    let es ← entries.mapM fun (k, v) => return (← k.text?, v)
    let known := es.filter fun e => names.contains e.1
    if (known.map Prod.fst).Nodup then return ⟨known⟩ else none
  | .scalar true "" => some ⟨[]⟩
  | _ => none

/-- A field that must be there. -/
def Fields.required? {α : Type} (name : String) (decode : Tree → Option α) (f : Fields) : Option α :=
  (f.entries.lookup name).bind decode

/-- A field with a value for the case that it is missing. -/
def Fields.optional? {α : Type} (name : String) (missing : α) (decode : Tree → Option α)
    (f : Fields) : Option α :=
  match f.entries.lookup name with
  | none => some missing
  | some n => decode n

end Chargeback.Yaml.Tree
