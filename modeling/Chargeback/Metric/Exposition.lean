import Chargeback.Assoc
import Chargeback.Metric.Histogram
import Chargeback.Number.Decimal

/-!
# The exposition format

Metrics are published as text: for every family that has a reading, two lines that describe it
and one line for every number. In label values a backslash, a double quote and a line feed are
escaped; numbers are written in plain notation.
-/

namespace Chargeback

/-- What a family of readings measures. -/
inductive MetricKind where
  | counter
  | gauge
  | histogram
  deriving DecidableEq, Repr

/-- The word for the kind. -/
def MetricKind.name : MetricKind → String
  | .counter => "counter"
  | .gauge => "gauge"
  | .histogram => "histogram"

/-- One reading of a family. -/
inductive Reading where
  | number (x : Binary64)
  | histogram (h : Histogram)
  deriving DecidableEq, Repr

/-- The readings under one name, told apart by their labels. -/
structure Family where
  name : String
  help : String
  kind : MetricKind
  series : List (Labels × Reading)
  deriving Repr

namespace Exposition

/-- One character of a label value. -/
def escapedChar : Char → List Char
  | '\\' => ['\\', '\\']
  | '"' => ['\\', '"']
  | '\n' => ['\\', 'n']
  | c => [c]

/-- A label and its value. -/
def label (e : String × String) : String :=
  e.1 ++ "=\"" ++ String.ofList (e.2.toList.flatMap escapedChar) ++ "\""

/-- Labels in braces, or nothing. -/
def labels (entries : List (String × String)) : String :=
  if entries.isEmpty then "" else "\x7b" ++ ",".intercalate (entries.map label) ++ "\x7d"

/-- A line for one number. -/
def sample (name : String) (entries : List (String × String)) (value : String) : String :=
  name ++ labels entries ++ " " ++ value ++ "\n"

/-- The lines for one reading. -/
def reading (name : String) (entries : List (String × String)) : Reading → String
  | .number x => sample name entries (Decimal.plain x)
  | .histogram h =>
    let bucket (bound : String) (n : Nat) : String :=
      sample (name ++ "_bucket") (entries ++ [("le", bound)]) (toString n)
    String.join ((Histogram.cumulative 0 h.buckets).map fun b => bucket (Decimal.plain b.1) b.2) ++
    bucket "+Inf" h.total ++
    sample (name ++ "_sum") entries (Decimal.plain h.sum) ++
    sample (name ++ "_count") entries (toString h.total)

/-- The lines for one family. -/
def family (f : Family) : String :=
  "# HELP " ++ f.name ++ " " ++ f.help ++ "\n" ++
  "# TYPE " ++ f.name ++ " " ++ f.kind.name ++ "\n" ++
  String.join (f.series.map fun s => reading f.name s.1.entries s.2)

/-- The text of all families. -/
def render (fs : List Family) : String := String.join (fs.map family)

end Exposition

end Chargeback
