import Chargeback.Record.Ndjson

/-!
# Statements for the warehouse

Each record becomes one row: its end time, kind, strategy and value, all dimensions as one JSON
text and, for every configured dimension, its value in a column of its own. Texts are quoted
with a backslash before quotes and backslashes.
-/

namespace Chargeback.Sql

/-- One character of a quoted text. -/
def escapedChar (c : Char) : List Char :=
  if c == '\\' then ['\\', '\\'] else if c == '\'' then ['\\', '\''] else [c]

/-- The inside of a quoted text. -/
def escape (s : String) : String := String.ofList (s.toList.flatMap escapedChar)

/-- A quoted text. -/
def literal (s : String) : String := "'" ++ escape s ++ "'"

/-- The column of a dimension. -/
def dimensionColumn (destination : String) : String := "dimensions_" ++ destination

/-- The columns of a row. -/
def columns (destinations : List String) : List String :=
  ["end_time", "kind", "strategy", "value", "dimensions"] ++ destinations.map dimensionColumn

/-- The statement that creates the table unless there is one. -/
def createTable (table : String) (destinations : List String) : String :=
  let fixed := ["end_time DateTime64(3, 'UTC')", "kind LowCardinality(String)",
    "strategy LowCardinality(String)", "value Int64", "dimensions String"]
  "CREATE TABLE IF NOT EXISTS " ++ table ++ " (" ++
    ", ".intercalate (fixed ++ destinations.map fun d => dimensionColumn d ++ " String") ++
    ") ENGINE = MergeTree ORDER BY (kind, strategy, end_time)"

/-- The dimensions of a record as one JSON text. -/
def dimensionsText (r : CostRecord) : String :=
  Json.render (.ofFields (r.dimensions.entries.map fun (k, v) => (k, .text v)))

/-- The values of a row, as they stand in a statement. -/
def rowValues (destinations : List String) (r : CostRecord) : List String :=
  ["'" ++ r.endTime.toMillisText ++ "'", "'" ++ r.kind.name ++ "'", literal r.strategy,
    toString r.value, literal (dimensionsText r)] ++
  destinations.map fun d => literal ((r.dimensions.get? d).getD "")

/-- A row in a statement. -/
def row (destinations : List String) (r : CostRecord) : String :=
  "(" ++ ", ".intercalate (rowValues destinations r) ++ ")"

/-- The part of an insert statement before its rows. -/
def insertHead (table : String) (destinations : List String) : String :=
  "INSERT INTO " ++ table ++ " (" ++ ", ".intercalate (columns destinations) ++ ")"

/-- The statement that inserts records. -/
def insert (table : String) (destinations : List String) (rs : List CostRecord) : String :=
  insertHead table destinations ++ " VALUES " ++ ", ".intercalate (rs.map (row destinations))

end Chargeback.Sql
