import Chargeback.Datum
import Chargeback.Number.Decimal

/-!
# Printed JSON

The compact text of a `Datum`, without blanks, the entries of a table in the order they have.
Strings escape the quote, the backslash and the control characters, five of these by a letter
and the others by their code in lower case.
-/

namespace Chargeback.Json

/-- One character of a string literal. -/
def escapedChar (c : Char) : List Char :=
  if c == '"' then ['\\', '"']
  else if c == '\\' then ['\\', '\\']
  else if c == '\n' then ['\\', 'n']
  else if c == '\r' then ['\\', 'r']
  else if c == '\t' then ['\\', 't']
  else if c.toNat == 8 then ['\\', 'b']
  else if c.toNat == 12 then ['\\', 'f']
  else if c.toNat < 0x20 then
    ['\\', 'u', '0', '0', Nat.digitChar (c.toNat / 16), Nat.digitChar (c.toNat % 16)]
  else [c]

/-- A string literal. -/
def quoted (s : String) : List Char := '"' :: (s.toList.flatMap escapedChar ++ ['"'])

/-- The text of a key; a key of another kind has none and prints as the empty string. -/
def printedKey : Key → List Char
  | .text s => quoted s
  | .index n => quoted (toString n)
  | .other => quoted ""

mutual

/-- The characters of a printed value. -/
def printed : Datum → List Char
  | .null => "null".toList
  | .bool b => (if b then "true" else "false").toList
  | .integer i => (toString i).toList
  | .real x => (Decimal.scientific x).toList
  | .text s => quoted s
  | .list items => '[' :: printedItems items
  | .table entries => '\x7b' :: printedEntries entries
  | .unreadable => "null".toList

/-- The items of a list and the closing bracket. -/
def printedItems : List Datum → List Char
  | [] => [']']
  | [d] => printed d ++ [']']
  | d :: ds => printed d ++ ',' :: printedItems ds

/-- The entries of a table and the closing brace. -/
def printedEntries : List (Key × Datum) → List Char
  | [] => ['\x7d']
  | [e] => printedKey e.1 ++ ':' :: (printed e.2 ++ ['\x7d'])
  | e :: es => printedKey e.1 ++ ':' :: (printed e.2 ++ ',' :: printedEntries es)

end

/-- The compact text of a value. -/
def render (d : Datum) : String := String.ofList (printed d)

end Chargeback.Json
