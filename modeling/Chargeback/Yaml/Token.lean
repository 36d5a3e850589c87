import Chargeback.Yaml.Scalar

/-!
# Tokens of a document

A document is cut into tokens: the signs of flow collections, the signs of keys, values and
entries, scalars, and the beginnings and ends of block collections, which are not written but
follow from indentation.

A scalar or flow collection may turn out to be a key only when the colon after it is met. Until
then its place among the tokens is remembered as a CANDIDATE, one for every level of flow
collections; the colon must follow on the same line and within 1024 characters.
-/

namespace Chargeback.Yaml

/-- A token. -/
inductive Token where
  | documentStart
  | documentEnd
  | blockSequence
  | blockMapping
  | blockEnd
  | flowSequence
  | flowSequenceEnd
  | flowMapping
  | flowMappingEnd
  | entry
  | comma
  | key
  | value
  | scalar (isPlain : Bool) (text : String)
  deriving DecidableEq, Repr

/-- A token that may turn out to begin a key. -/
structure Candidate where
  /-- Its place among the tokens. -/
  place : Nat
  at_ : Cursor
  /-- It must be a key, since it stands at the indentation of a block mapping. -/
  isRequired : Bool
  deriving Repr

/-- Where the cutting of a document into tokens stands. -/
structure Scanner where
  cursor : Cursor
  tokens : Array Token
  /-- The indentation of the block collections that are open, innermost first. -/
  indents : List Nat
  /-- The candidates of all levels, innermost first. -/
  candidates : List (Option Candidate)
  /-- A key may begin here. -/
  keyAllowed : Bool
  deriving Repr

namespace Scanner

/-- At the beginning of a document. -/
def ofText (s : List Char) : Scanner where
  cursor := { rest := s }
  tokens := #[]
  indents := []
  candidates := [none]
  keyAllowed := true

/-- Within a flow collection. -/
def inFlow (s : Scanner) : Bool := 1 < s.candidates.length

/-- The indentation of the innermost block collection, which is -1 outside of all. -/
def indent (s : Scanner) : Int := match s.indents with
  | i :: _ => i
  | [] => -1

/-- One more token. -/
def emit (t : Token) (s : Scanner) : Scanner := { s with tokens := s.tokens.push t }

/-- A token of some characters. -/
def emitSign (t : Token) (width : Nat) (s : Scanner) : Scanner :=
  { s.emit t with cursor := s.cursor.skipMany width }

/-! ## Blanks and comments -/

/-- Goes to the next character that is not blank and not in a comment. A key may begin on a new
line of a block. -/
def skipBlanks : Nat → Scanner → Scanner
  | 0, s => s
  | n + 1, s => match s.cursor.rest with
    | [] => s
    | c :: r =>
      if c == ' ' || (c == '\t' && (s.inFlow || !s.keyAllowed)) then
        skipBlanks n { s with cursor := s.cursor.skip }
      else if c == '#' then
        let comment := r.takeWhile fun c => !isBreak c
        skipBlanks n { s with cursor := s.cursor.skipMany (comment.length + 1) }
      else if isBreak c then
        skipBlanks n { s with cursor := s.cursor.lineEnd.2, keyAllowed := s.keyAllowed || !s.inFlow }
      else s

/-! ## Indentation -/

/-- Begins a block collection, unless one is open at this column. -/
def indentTo (column : Nat) (place : Nat) (t : Token) (s : Scanner) : Scanner :=
  if s.inFlow || (column : Int) ≤ s.indent then s
  else { s with indents := column :: s.indents, tokens := s.tokens.insertIdxIfInBounds place t }

/-- Ends the block collections that are indented more than a column. -/
def dedentTo (column : Int) (s : Scanner) : Scanner :=
  if s.inFlow then s
  else
    let closed := s.indents.takeWhile fun (i : Nat) => decide (column < (i : Int))
    { s with indents := s.indents.drop closed.length,
             tokens := s.tokens ++ Array.replicate closed.length Token.blockEnd }

/-! ## Candidates for keys -/

/-- The colon of a candidate may still come. -/
def isLive (s : Scanner) (k : Candidate) : Bool :=
  k.at_.line == s.cursor.line && s.cursor.index ≤ k.at_.index + 1024

/-- Gives up candidates whose colon cannot come any more; one that is required is an error. -/
def expire? (s : Scanner) : Option Scanner :=
  if s.candidates.any fun k? => k?.any fun k => !s.isLive k && k.isRequired then none
  else some { s with candidates := s.candidates.map fun k? => k?.filter s.isLive }

/-- Gives up the candidate of the innermost level; one that is required is an error. -/
def dropCandidate? (s : Scanner) : Option Scanner :=
  match s.candidates with
  | some k :: ks => if k.isRequired then none else some { s with candidates := none :: ks }
  | _ => some s

/-- Remembers that the next token may begin a key. -/
def remember? (s : Scanner) : Option Scanner :=
  if !s.keyAllowed then some s
  else do
    let s ← s.dropCandidate?
    let k : Candidate := { place := s.tokens.size, at_ := s.cursor,
                           isRequired := !s.inFlow && s.indent == (s.cursor.column : Int) }
    return { s with candidates := some k :: s.candidates.drop 1 }

/-! ## Single tokens -/

/-- A document begins or ends. -/
def marker? (t : Token) (s : Scanner) : Option Scanner := do
  let s ← (s.dedentTo (-1)).dropCandidate?
  return { s.emitSign t 3 with keyAllowed := false }

/-- A flow collection begins. -/
def openFlow? (t : Token) (s : Scanner) : Option Scanner := do
  let s ← s.remember?
  return { s.emitSign t 1 with keyAllowed := true, candidates := none :: s.candidates }

/-- A flow collection ends. -/
def closeFlow? (t : Token) (s : Scanner) : Option Scanner := do
  let s ← s.dropCandidate?
  return { s.emitSign t 1 with keyAllowed := false,
                               candidates := if s.inFlow then s.candidates.drop 1 else s.candidates }

/-- A comma in a flow collection. -/
def comma? (s : Scanner) : Option Scanner := do
  let s ← s.dropCandidate?
  return { s.emitSign .comma 1 with keyAllowed := true }

/-- The dash of an entry in a block sequence. -/
def entry? (s : Scanner) : Option Scanner := do
  if !s.inFlow && !s.keyAllowed then none
  else
    let s := s.indentTo s.cursor.column s.tokens.size .blockSequence
    let s ← s.dropCandidate?
    return { s.emitSign .entry 1 with keyAllowed := true }

/-- The question mark of a key. -/
def explicitKey? (s : Scanner) : Option Scanner := do
  if !s.inFlow && !s.keyAllowed then none
  else
    let s := s.indentTo s.cursor.column s.tokens.size .blockMapping
    let s ← s.dropCandidate?
    return { s.emitSign .key 1 with keyAllowed := !s.inFlow }

/-- The colon of a value. A candidate becomes a key with it. -/
def value? (s : Scanner) : Option Scanner :=
  match s.candidates with
  | some k :: ks =>
    let s := { s with candidates := none :: ks, tokens := s.tokens.insertIdxIfInBounds k.place .key }
    let s := s.indentTo k.at_.column k.place .blockMapping
    some { s.emitSign .value 1 with keyAllowed := false }
  | _ =>
    if !s.inFlow && !s.keyAllowed then none
    else
      let s := s.indentTo s.cursor.column s.tokens.size .blockMapping
      some { s.emitSign .value 1 with keyAllowed := !s.inFlow }

/-- A quoted scalar. -/
def quoted? (single : Bool) (s : Scanner) : Option Scanner := do
  let s ← s.remember?
  let start := s.cursor.skip
  let (text, cursor) ← readQuoted single (start.rest.length + 1) [] .none start
  return { s.emit (.scalar false (String.ofList text)) with cursor, keyAllowed := false }

/-- A plain scalar. -/
def plain? (s : Scanner) : Option Scanner := do
  let s ← s.remember?
  let p ← readPlain s.inFlow (s.indent + 1) (s.cursor.rest.length + 1) [] .none s.cursor
  return { s.emit (.scalar true (String.ofList p.text)) with cursor := p.next,
                                                             keyAllowed := p.lineAfter }

/-- The character cannot begin a plain scalar, whatever follows. -/
def isIndicator (c : Char) : Bool := "-?:,[]{}#&*!|>'\"%@`".toList.contains c

/-- A plain scalar begins with a character. A tab cannot begin one: it is met only where a key
may begin, and there it would be indentation. -/
def beginsPlain (inFlow : Bool) (c : Char) (rest : List Char) : Bool :=
  (!isIndicator c && !isSpace c) || (c == '-' && !(rest.head?.any isSpace)) ||
  (!inFlow && (c == '?' || c == ':') && !Cursor.atBlank rest)

/-- The token that begins with a character. -/
def token? (c : Char) (rest : List Char) (s : Scanner) : Option Scanner :=
  let blankNext := Cursor.atBlank rest
  if s.cursor.column == 0 && c == '%' then none
  else if s.cursor.atMarker '-' then s.marker? .documentStart
  else if s.cursor.atMarker '.' then s.marker? .documentEnd
  else if c == '[' then s.openFlow? .flowSequence
  else if c == '{' then s.openFlow? .flowMapping
  else if c == ']' then s.closeFlow? .flowSequenceEnd
  else if c == '}' then s.closeFlow? .flowMappingEnd
  else if c == ',' then s.comma?
  else if c == '-' && blankNext then s.entry?
  else if c == '?' && (s.inFlow || blankNext) then s.explicitKey?
  else if c == ':' && (s.inFlow || blankNext) then s.value?
  else if c == '\'' then s.quoted? true
  else if c == '"' then s.quoted? false
  else if beginsPlain s.inFlow c rest then s.plain?
  else none

/-- All tokens from here on. -/
def scan? : Nat → Scanner → Option (Array Token)
  | 0, _ => none
  | n + 1, s => do
    let s := s.skipBlanks (s.cursor.rest.length + 1)
    let s ← s.expire?
    match s.cursor.rest with
    | [] =>
      let s ← (s.dedentTo (-1)).dropCandidate?
      return s.tokens
    | c :: rest =>
      let s ← (s.dedentTo s.cursor.column).token? c rest
      scan? n s

end Scanner

/-- The tokens of a document. -/
def tokens? (text : List Char) : Option (Array Token) :=
  let s := match text with
    | '\uFEFF' :: r => r
    | _ => text
  if s.all isAllowed then (Scanner.ofText s).scan? (s.length + 1) else none

end Chargeback.Yaml
