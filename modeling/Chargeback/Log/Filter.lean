import Chargeback.Log.Entry
import Chargeback.Text.Blank
import Chargeback.Text.Visible

/-!
# Log filters

A filter is a list of directives with commas between them. A directive sets the level up to
which a part of the program may write, such as `costmeter::agent=debug`; without a part it holds
for all of them, and without a level every entry passes. A directive in brackets is limited to
some stretch of the work of a process and lets no entry pass by itself.

Of the directives for a part the one with the longest path counts, and of several for one path
the last.
-/

namespace Chargeback

open Text

/-- The level up to which entries pass; `none` lets nothing pass. -/
abbrev LogThreshold := Option LogLevel

/-- One directive of a filter. -/
structure LogDirective where
  threshold : LogThreshold
  /-- What the path of a part has to begin with. -/
  part : Option (List Char)
  /-- The directive is limited to a stretch of work. -/
  isScoped : Bool
  deriving DecidableEq, Repr

namespace LogDirective

/-- A number for a threshold: zero lets nothing pass, five everything. -/
def numbered? (s : List Char) : Option LogThreshold :=
  let digits := if s.head? == some '+' then s.drop 1 else s
  if digits.isEmpty || !digits.all isDigit then none
  else if digitsValue digits = 0 then some none
  else (LogLevel.all[digitsValue digits - 1]?).map some

/-- The threshold that a word of any case or a number stands for. -/
def threshold? (s : List Char) : Option LogThreshold :=
  let word := String.ofList (s.map lowerAscii)
  numbered? s <|>
    if word == "off" then some none else (LogLevel.all.find? (·.name == word)).map some

/-- What stands after the equals sign; nothing stands for every level. -/
def thresholdOrAll? (s : List Char) : Option LogThreshold :=
  if s.isEmpty then some (some .trace) else threshold? s

/-- The character may begin the path of a part. -/
def beginsPart (c : Char) : Bool :=
  isLetter c || isDigit c || ['-', ':', '_'].contains c || (0x80 ≤ c.toNat && !isHidden c && !isBlank c)

/-- The fields in braces at the front of a text: each has a name, and they end with brackets. -/
def skipFields? : Bool → List Char → Option (List Char)
  | _, [] => none
  | isEmpty, c :: r =>
    if c == '}' then
      if isEmpty || r.head? != some ']' then none else some (r.drop 1)
    else if c == ',' then if isEmpty then none else skipFields? true r
    else skipFields? false r

/-- What is left after a stretch of work in brackets, of which the first is read already. -/
def skipScope? : List Char → Option (List Char)
  | [] => none
  | c :: r => if c == ']' then some r else if c == '{' then skipFields? true r else skipScope? r

/-- Reads one directive. Where its path and its level begin and end is found without regard to
blanks around it, but they are taken from the text with the blanks. -/
def read? (s : List Char) : Option LogDirective :=
  let bare := trim s
  let level? (rest : List Char) : Option LogThreshold :=
    thresholdOrAll? (s.drop (bare.length - rest.length))
  let scoped? (part : Option (List Char)) (rest : List Char) : Option LogDirective := do
    match ← skipScope? rest with
    | [] => return { threshold := some .trace, part, isScoped := true }
    | c :: r => if c == '=' then return { threshold := ← level? r, part, isScoped := true } else none
  let path := bare.takeWhile fun c => c != '=' && c != '['
  let part := s.take path.length
  match bare, bare.drop path.length with
  | [], _ => none
  | c :: _, [] =>
    if !beginsPart c then none
    else match threshold? s with
      | some threshold => some { threshold, part := none, isScoped := false }
      | none => some { threshold := some .trace, part := some s, isScoped := false }
  | c :: _, sign :: rest =>
    if sign == '[' && path.isEmpty then scoped? none rest
    else if !beginsPart c then none
    else if sign == '[' then scoped? (some part) rest
    else (level? rest).map fun threshold => { threshold, part := some part, isScoped := false }

/-- The directive is about an entry. -/
def isAbout (e : LogEntry) (d : LogDirective) : Bool :=
  !d.isScoped && (d.part.getD []).isPrefixOf e.part.toList

/-- The directive is at least as specific as another one. -/
def isAsSpecificAs (a b : LogDirective) : Bool :=
  match a.part, b.part with
  | _, none => true
  | none, some _ => false
  | some p, some q => q.length ≤ p.length

end LogDirective

/-- A list of directives. -/
structure LogFilter where
  directives : List LogDirective
  deriving DecidableEq, Repr

namespace LogFilter

/-- Reads a filter. One without directives lets errors pass. -/
def read? (text : String) : Option LogFilter := do
  let parts := (text.splitOn ",").filter (!·.isEmpty)
  let directives ← parts.mapM fun p => LogDirective.read? p.toList
  let errors : LogDirective := { threshold := some .error, part := none, isScoped := false }
  return ⟨if directives.isEmpty then [errors] else directives⟩

/-- The directive that counts for an entry. -/
def directive? (f : LogFilter) (e : LogEntry) : Option LogDirective :=
  (f.directives.filter (·.isAbout e)).foldl (fun best d =>
    if best.all fun b => d.isAsSpecificAs b then some d else best) none

/-- The filter lets an entry pass. -/
def accepts (f : LogFilter) (e : LogEntry) : Bool :=
  match (f.directive? e).bind (·.threshold) with
  | some level => e.level.rank ≤ level.rank
  | none => false

end LogFilter

end Chargeback
