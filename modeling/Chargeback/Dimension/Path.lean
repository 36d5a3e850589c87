import Chargeback.Datum
import Chargeback.Json.Printed
import Chargeback.Text.Blank
import Chargeback.Text.Quoted

/-!
# Path expressions

A path names a place in a tree, as in `{.Pod.Labels['app']}`: an optional dollar sign and then
one or more components, each a dot with a name or a quoted key in brackets. The first name needs
no dot, and the whole may stand in braces with blanks around it.

A fault is reported with its place, counted in BYTES from the start of the expression.
-/

namespace Chargeback

open Text

/-- What is wrong with an expression. -/
inductive PathFault where
  | missingBrace
  | unexpectedBrace
  | expectedKey
  | unterminatedKey
  | expectedBracket
  | expectedComponent
  | emptySegment
  | invalidCharacter
  | emptyPath
  deriving DecidableEq, Repr

namespace PathFault

/-- What is said about the fault. -/
def reason : PathFault → String
  | .missingBrace => "missing closing '\x7d'"
  | .unexpectedBrace => "unexpected brace"
  | .expectedKey => "expected quoted key after '['"
  | .unterminatedKey => "unterminated quoted key"
  | .expectedBracket => "expected ']'"
  | .expectedComponent => "expected '.' or '['"
  | .emptySegment => "empty path segment"
  | .invalidCharacter => "invalid character in path segment"
  | .emptyPath => "empty path expression"

end PathFault

/-- A fault in an expression, at a place counted in bytes. -/
structure PathError where
  expression : String
  offset : Nat
  fault : PathFault
  deriving DecidableEq, Repr

/-- What is said about a fault in an expression. -/
def PathError.message (e : PathError) : String :=
  "invalid path expression " ++ quoted e.expression ++ " at offset " ++ toString e.offset ++
    ": " ++ e.fault.reason

/-- A path with the text it was written in. -/
structure Path where
  text : String
  segments : List String
  deriving DecidableEq, Repr

namespace Path

/-- A character of a name. -/
def isNameChar (c : Char) : Bool :=
  isLetter c || isDigit c || c == '_' || c == '-' || c == '/'

/-- A place in the unread part of an expression, counted in bytes from the start, and the fault
there. -/
abbrev Fault := Nat × PathFault

/-- A quoted key after its opening bracket: the key and the rest. -/
def bracketed (offset : Nat) (s : List Char) : Except Fault (List Char × List Char) :=
  match s with
  | [] => .error (offset, .expectedKey)
  | q :: r =>
    if q == '\'' || q == '"' then
      let key := r.takeWhile (· != q)
      match r.drop key.length with
      | [] => .error (offset + 1, .unterminatedKey)
      | _ :: t => match t with
        | ']' :: t => .ok (key, t)
        | _ => .error (offset + byteLength key + 2, .expectedBracket)
    else .error (offset, .expectedKey)

/-- A name that begins at `offset`: the name and the rest. -/
def named (offset : Nat) (s : List Char) : Except Fault (List Char × List Char) :=
  let name := s.takeWhile fun c => c != '.' && c != '['
  if name.isEmpty then .error (offset, .emptySegment)
  else
    let good := name.takeWhile isNameChar
    if good.length < name.length then .error (offset + byteLength good, .invalidCharacter)
    else .ok (name, s.drop name.length)

/-- The component at the front of a text that begins at `offset`: its segment and the rest. -/
def component (first : Bool) (offset : Nat) (s : List Char) :
    Except Fault (List Char × List Char) :=
  match s with
  | '[' :: r => bracketed (offset + 1) r
  | '.' :: r => named (offset + 1) r
  | r => if first then named offset r else .error (offset, .expectedComponent)

/-- The segments of all components of a text that begins at `offset`; each takes at least one
character, so the length of the text bounds their number. -/
def components : Nat → Bool → Nat → List Char → Except Fault (List String)
  | _, _, _, [] => .ok []
  | 0, _, offset, _ :: _ => .error (offset, .emptyPath)
  | fuel + 1, first, offset, s =>
    match component first offset s with
    | .error e => .error e
    | .ok (segment, r) =>
      match components fuel false (offset + (byteLength s - byteLength r)) r with
      | .error e => .error e
      | .ok segments => .ok (String.ofList segment :: segments)

/-- The text between the braces, if it begins with one, and where it begins. -/
def body (raw : List Char) : Except Fault (Nat × List Char) :=
  let start := byteLength raw - byteLength (trimStart raw)
  match trim raw with
  | '\x7b' :: r =>
    match r.reverse with
    | '\x7d' :: inner => .ok (start + 1, inner.reverse)
    | _ => .error (byteLength raw, .missingBrace)
  | r => .ok (start, r)

/-- The segments of an expression. -/
def readSegments (raw : List Char) : Except Fault (List String) :=
  match body raw with
  | .error e => .error e
  | .ok (offset, inner) =>
    if inner.any fun c => c == '\x7b' || c == '\x7d' then .error (offset, .unexpectedBrace)
    else
      let (offset, r) := match inner with
        | '$' :: r => (offset + 1, r)
        | r => (offset, r)
      match components r.length true offset r with
      | .error e => .error e
      | .ok [] => .error (offset, .emptyPath)
      | .ok segments => .ok segments

/-- Reads an expression. -/
def read (raw : String) : Except PathError Path :=
  match readSegments raw.toList with
  | .ok segments => .ok ⟨raw, segments⟩
  | .error (offset, fault) => .error ⟨raw, offset, fault⟩

/-- The place that the segments lead to. -/
def locate : List String → Datum → Option Datum
  | [], d => some d
  | s :: ss, d => (d.get? s).bind (locate ss)

/-- The text of a value: a text as it is, nothing for null, and the compact JSON of the rest. -/
def valueText : Datum → String
  | .text s => s
  | .null => ""
  | d => Json.render d

/-- The text at the place of the path, which is empty where there is none. -/
def evaluate (p : Path) (source : Datum) : String :=
  match locate p.segments source with
  | some d => valueText d
  | none => ""

end Path

end Chargeback
