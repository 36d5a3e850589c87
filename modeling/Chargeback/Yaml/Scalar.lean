import Chargeback.Text.Blank
import Chargeback.Yaml.Cursor

/-!
# Scalars of a document

A scalar is quoted or plain. In a scalar of several lines the blanks around a line end go, one
line end alone becomes a space, and of several the first goes. In double quotes a backslash
begins an escape, in single quotes a doubled quote stands for one. A plain scalar ends before a
colon or a number sign with a blank beside it, in a flow collection also before the signs of
collections, and in a block before a line that is not indented enough.
-/

namespace Chargeback.Yaml

open Text

/-- Blanks that were read and count only if text follows them. -/
inductive Gap where
  | none
  /-- Spaces and tabs within a line. -/
  | spaces (reversed : List Char)
  /-- A line end, and further line ends after it. -/
  | lines (first : Char) (reversed : List Char)
  /-- An escaped line end, and further line ends after it. -/
  | escaped (reversed : List Char)
  deriving Repr

namespace Gap

/-- What a gap becomes in the text of a scalar. -/
def text : Gap → List Char
  | .none => []
  | .spaces l => l.reverse
  | .lines '\n' [] => [' ']
  | .lines '\n' l => l.reverse
  | .lines first l => first :: l.reverse
  | .escaped l => l.reverse

/-- One more space or tab; at the beginning of a line it does not count. -/
def addSpace (c : Char) : Gap → Gap
  | .none => .spaces [c]
  | .spaces l => .spaces (c :: l)
  | g => g

/-- One more line end; spaces before it do not count. -/
def addLine (c : Char) : Gap → Gap
  | .lines first l => .lines first (c :: l)
  | .escaped l => .escaped (c :: l)
  | _ => .lines c []

/-- There is no gap. -/
def isNone : Gap → Bool
  | .none => true
  | _ => false

/-- The gap holds a line end. -/
def hasLine : Gap → Bool
  | .lines _ _ | .escaped _ => true
  | _ => false

end Gap

/-! ## Quoted scalars -/

/-- The character that a letter after a backslash stands for. -/
def escapeLetter? : Char → Option Char
  | '0' => some '\x00'
  | 'a' => some '\x07'
  | 'b' => some '\x08'
  | 't' | '\t' => some '\t'
  | 'n' => some '\n'
  | 'v' => some '\x0b'
  | 'f' => some '\x0c'
  | 'r' => some '\r'
  | 'e' => some '\x1b'
  | ' ' => some ' '
  | '"' => some '"'
  | '/' => some '/'
  | '\\' => some '\\'
  | 'N' => some '\x85'
  | '_' => some '\xa0'
  | 'L' => some '\u2028'
  | 'P' => some '\u2029'
  | _ => none

/-- The number of hexadecimal digits that a letter after a backslash announces. -/
def escapeWidth? : Char → Option Nat
  | 'x' => some 2
  | 'u' => some 4
  | 'U' => some 8
  | _ => none

/-- The character that an escape stands for, and the length of the escape after the backslash. -/
def escape? (s : List Char) : Option (Char × Nat) :=
  match s with
  | [] => none
  | c :: r => match escapeLetter? c, escapeWidth? c with
    | some e, _ => some (e, 1)
    | none, none => none
    | none, some width => do
      let ds ← (r.take width).mapM hexValue?
      let code := ds.foldl (fun n d => 16 * n + d) 0
      if ds.length = width ∧ code.isValidChar then some (Char.ofNat code, width + 1) else none

/-- The text of a quoted scalar after its opening quote, with what was read of it, in reverse. -/
def readQuoted (single : Bool) : Nat → List Char → Gap → Cursor → Option (List Char × Cursor)
  | 0, _, _, _ => none
  | n + 1, done, gap, c =>
    if c.atAnyMarker then none
    else
      let put (e : Char) (c : Cursor) := readQuoted single n (e :: (gap.text.reverse ++ done)) .none c
      match c.rest with
      | [] => none
      | e :: r =>
        if single && e == '\'' && r.head? == some '\'' then put '\'' (c.skipMany 2)
        else if e == (if single then '\'' else '"') then
          some ((gap.text.reverse ++ done).reverse, c.skip)
        else if e == '\\' && !single then
          match r with
          | [] => none
          | b :: _ =>
            if isBreak b then
              readQuoted single n (gap.text.reverse ++ done) (.escaped []) c.skip.lineEnd.2
            else match escape? r with
              | some (x, width) => put x (c.skipMany (width + 1))
              | none => none
        else if isSpace e then readQuoted single n done (gap.addSpace e) c.skip
        else if isBreak e then
          let (l, c) := c.lineEnd
          readQuoted single n done (gap.addLine l) c
        else put e c.skip

/-! ## Plain scalars -/

/-- A sign of flow collections that ends a plain scalar in one. -/
def isFlowSign (c : Char) : Bool := [',', '[', ']', '{', '}'].contains c

/-- A plain scalar that was read: its text, what follows, and whether a line end stands between. -/
structure PlainScalar where
  text : List Char
  next : Cursor
  lineAfter : Bool

/-- The text of a plain scalar, with what was read of it, in reverse. `least` is the least column
of a further line in a block. -/
def readPlain (inFlow : Bool) (least : Int) : Nat → List Char → Gap → Cursor → Option PlainScalar
  | 0, _, _, _ => none
  | n + 1, done, gap, c =>
    let stop := some { text := done.reverse, next := c, lineAfter := gap.hasLine }
    let fresh := !gap.isNone
    match c.rest with
    | [] => stop
    | e :: r =>
      if isSpace e then
        if gap.hasLine && (c.column : Int) < least && e == '\t' then none
        else readPlain inFlow least n done (gap.addSpace e) c.skip
      else if isBreak e then
        let (l, c) := c.lineEnd
        readPlain inFlow least n done (gap.addLine l) c
      else if fresh && !inFlow && (c.column : Int) < least then stop
      else if fresh && (c.atAnyMarker || e == '#') then stop
      else if inFlow && e == ':' && ",?[]{}".toList.contains (r.headD ' ') then none
      else if (e == ':' && Cursor.atBlank r) || (inFlow && isFlowSign e) then stop
      else readPlain inFlow least n (e :: (gap.text.reverse ++ done)) .none c.skip

end Chargeback.Yaml
