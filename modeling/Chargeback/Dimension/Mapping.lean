import Chargeback.Assoc
import Chargeback.Dimension.Path

/-!
# Mappings to dimensions

A rule takes the text at a path, or its default where that is empty, as the value of one
dimension. A mapping is an ordered list of rules; of several rules for one dimension the last
counts. The names of dimensions become metric labels and parts of column names.
-/

namespace Chargeback

open Text

/-- A rule for one dimension. -/
structure MappingRule where
  source : Path
  destination : String
  default : String := ""
  deriving DecidableEq, Repr

/-- Why a name cannot be that of a dimension. -/
inductive MappingError where
  | invalidDestination (name : String)
  | reservedDestination (name : String)
  deriving DecidableEq, Repr

/-- What is said about the fault. -/
def MappingError.message : MappingError → String
  | .invalidDestination name =>
    "invalid mapping destination " ++ quoted name ++ ": must match [a-zA-Z_][a-zA-Z0-9_]*"
  | .reservedDestination name => "mapping destination " ++ quoted name ++ " is reserved"

/-- A letter, a digit or an underscore of ASCII. -/
def isWordChar (c : Char) : Bool := isLetter c || isDigit c || c == '_'

/-- A plain identifier: word characters that do not begin with a digit. -/
def isIdentifier (s : String) : Bool :=
  match s.toList with
  | [] => false
  | c :: r => (isLetter c || c == '_') && r.all isWordChar

/-- An ordered list of rules. -/
structure Mapping where
  rules : List MappingRule := []
  deriving DecidableEq, Repr, Inhabited

namespace Mapping

/-- The names that a record has a place for already. -/
def reserved : List String := ["kind", "strategy"]

/-- Checks the name of one dimension: a plain identifier that does not begin with two
underscores and is not reserved. -/
def checkDestination (name : String) : Except MappingError Unit :=
  if !isIdentifier name || "__".toList.isPrefixOf name.toList then
    .error (.invalidDestination name)
  else if reserved.contains name then .error (.reservedDestination name)
  else .ok ()

/-- Checks the names of all dimensions in order. -/
def validate (m : Mapping) : Except MappingError Unit :=
  m.rules.forM fun r => checkDestination r.destination

/-- The distinct names of dimensions in the order of their first rules. -/
def destinations (m : Mapping) : List String :=
  m.rules.foldl (fun names r =>
    if names.contains r.destination then names else names ++ [r.destination]) []

/-- The value of a rule. -/
def ruleValue (r : MappingRule) (source : Datum) : String :=
  let value := r.source.evaluate source
  if value.isEmpty then r.default else value

/-- The dimensions that all rules give. -/
def apply (m : Mapping) (source : Datum) : Labels :=
  m.rules.foldl (fun ds r => ds.put r.destination (ruleValue r source)) .empty

end Mapping

end Chargeback
