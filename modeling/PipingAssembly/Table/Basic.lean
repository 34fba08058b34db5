import PipingAssembly.Table.Format
import PipingAssembly.Text.Search
import PipingAssembly.Text.Width

/-!
# Tables

A table has a header and rows of texts, whose first cell is an id. It is written with a separator
between the cells, as a list of ids, or in columns.
-/

namespace PipingAssembly

/-- A header and rows of cells. -/
structure Table where
  headers : List String
  rows : List (List String)
  deriving DecidableEq, Repr, Inhabited

/-- A cell of comma separated values: one with a comma, a quote or a line feed stands between
quotes, and its quotes are written twice. -/
def escapeCsv (s : String) : String :=
  if s.toList.any fun c ↦ c == ',' || c == '"' || c == '\n' then
    "\"" ++ String.ofList (s.toList.flatMap fun c ↦ if c == '"' then ['"', '"'] else [c]) ++ "\""
  else s

/-- A text of at most `limit` characters: of a longer one the beginning and three points. -/
def truncateText (s : String) (limit : Nat) : String :=
  if s.toList.length ≤ limit then s else String.ofList (s.toList.take (limit - 3)) ++ "..."

namespace Table

/-- The header and the rows, each in a line with a separator between its cells. -/
def delimited (separator : String) (cell : String → String) (t : Table) : String :=
  String.join ((t.headers :: t.rows).map fun row ↦ separator.intercalate (row.map cell) ++ "\n")

/-- The lines of a cell. -/
private def cellLines (s : String) : List String :=
  (Text.splitWhere (· == '\n') s.toList).map String.ofList

/-- The width of a column: that of its widest line. -/
private def columnWidth (rows : List (List String)) (column : Nat) : Nat :=
  (rows.map fun row ↦
    ((cellLines (row[column]?.getD "")).map Text.lineWidth).foldl max 0).foldl max 0

/-- A line padded with blanks to a width. -/
private def padLine (width : Nat) (s : String) : String :=
  s ++ String.ofList (List.replicate (width - Text.lineWidth s) ' ')

/-- The lines of a row in columns of given widths. -/
private def rowLines (widths : List Nat) (row : List String) : List String :=
  let cells := widths.mapIdx fun i _ ↦ cellLines (row[i]?.getD "")
  let height := (cells.map List.length).foldl max 0
  (List.range height).map fun line ↦
    "|" ++ String.join ((cells.zip widths).map fun (cell, width) ↦
      " " ++ padLine width (cell[line]?.getD "") ++ " |")

/-- The line between the header and the rows. -/
private def ruleLine (widths : List Nat) : String :=
  "|" ++ String.join (widths.map fun width ↦ String.ofList (List.replicate (width + 2) '-') ++ "|")

/-- The header and the rows in columns. -/
def columns (t : Table) : String :=
  let rows := t.headers :: t.rows
  let count := (rows.map List.length).foldl max 0
  let widths := (List.range count).map (columnWidth rows)
  if count = 0 then "\n"
  else
    "\n".intercalate
      (rowLines widths t.headers ++ [ruleLine widths] ++ t.rows.flatMap (rowLines widths)) ++ "\n"

/-- The text of a table in a format. -/
def render (t : Table) : OutputFormat → String
  | .tsv => t.delimited "\t" fun s ↦ s
  | .csv => t.delimited "," escapeCsv
  | .id => String.join (t.rows.filterMap fun row ↦ row.head?.map (· ++ "\n"))
  | .auto | .yaml | .json | .md => t.columns

end Table

end PipingAssembly
