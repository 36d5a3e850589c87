/-!
# Places in a document

A cursor is what is left of a document together with the place where it begins: line and column,
and the number of characters before it. A carriage return with the line feed after it ends one
line.
-/

namespace Chargeback.Yaml

/-- The character may occur in a document. -/
def isAllowed (c : Char) : Bool :=
  let n := c.toNat
  n == 9 || n == 10 || n == 13 || (0x20 ≤ n && n ≤ 0x7E) || n == 0x85 ||
  (0xA0 ≤ n && n ≤ 0xFFFD && n != 0xFEFF) || 0x10000 ≤ n

/-- The character ends a line. -/
def isBreak (c : Char) : Bool :=
  c == '\n' || c == '\r' || c.toNat == 0x85 || c.toNat == 0x2028 || c.toNat == 0x2029

/-- A space or a tab. -/
def isSpace (c : Char) : Bool := c == ' ' || c == '\t'

/-- What is left of a document, and where. -/
structure Cursor where
  rest : List Char
  index : Nat := 0
  line : Nat := 0
  column : Nat := 0
  deriving Repr

namespace Cursor

/-- Past one character of the line. -/
def skip (c : Cursor) : Cursor :=
  { c with rest := c.rest.drop 1, index := c.index + 1, column := c.column + 1 }

/-- Past some characters of the line. -/
def skipMany (n : Nat) (c : Cursor) : Cursor :=
  { c with rest := c.rest.drop n, index := c.index + n, column := c.column + n }

/-- The end of a line as it counts in a text, and what follows it. -/
def lineEnd (c : Cursor) : Char × Cursor :=
  let next (n : Nat) : Cursor :=
    { rest := c.rest.drop n, index := c.index + n, line := c.line + 1, column := 0 }
  match c.rest with
  | '\r' :: '\n' :: _ => ('\n', next 2)
  | e :: _ => (if e.toNat == 0x2028 || e.toNat == 0x2029 then e else '\n', next 1)
  | [] => ('\n', c)

/-- Here the document ends, or the next character is blank. -/
def atBlank (rest : List Char) : Bool :=
  match rest with
  | [] => true
  | c :: _ => isSpace c || isBreak c

/-- A line begins with three dashes or three dots that stand alone: a document begins or ends. -/
def atMarker (dot : Char) (c : Cursor) : Bool :=
  c.column == 0 && c.rest.take 3 == [dot, dot, dot] && atBlank (c.rest.drop 3)

/-- A document begins or ends here. -/
def atAnyMarker (c : Cursor) : Bool := c.atMarker '-' || c.atMarker '.'

end Cursor

end Chargeback.Yaml
