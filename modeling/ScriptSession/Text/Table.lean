import ScriptSession.Text.Blank
import ScriptSession.Text.Width

/-!
# Tables drawn with box characters

A header row and body rows inside a frame. Every column is as wide as its widest line and every
cell has one blank on both sides; a cell of several lines makes its row as many lines high. No
limit on the width is applied.
-/

namespace ScriptSession
namespace Text

/-- A header and rows of cells. Rows are read up to the length of the header. -/
structure Table where
  header : List String
  rows : List (List String)

namespace Table

/-- The lines of one cell. -/
def cellLines (cell : String) : List String := splitOn '\n' cell

/-- The widest line of a cell. -/
def cellWidth (cell : String) : Nat := ((cellLines cell).map width).foldl max 0

/-- The width of every column, blanks around the cells not counted. -/
def columnWidths (t : Table) : List Nat :=
  (List.range t.header.length).map fun i =>
    ((t.header :: t.rows).map fun row => cellWidth (row.getD i "")).foldl max 0

/-- A text with a blank before it and enough blanks after it to fill its column. -/
def padded (w : Nat) (s : String) : String :=
  " " ++ s ++ String.ofList (List.replicate (w - width s) ' ') ++ " "

/-- One line across the table: the line's cells between the outer and inner bars. -/
def textLine (widths : List Nat) (cells : List String) : String :=
  "│" ++ "┆".intercalate (List.zipWith padded widths cells) ++ "│"

/-- The lines of one row. Shorter cells are filled with empty lines. -/
def rowLines (widths : List Nat) (row : List String) : List String :=
  let cells := (List.range widths.length).map fun i => cellLines (row.getD i "")
  let height := (cells.map List.length).foldl max 0
  (List.range height).map fun k => textLine widths (cells.map (·.getD k ""))

/-- A rule across the table: a left end, a filler, a crossing and a right end. -/
def rule (left fill cross right : String) (widths : List Nat) : String :=
  left ++ cross.intercalate (widths.map fun w => String.join (List.replicate (w + 2) fill)) ++ right

/-- The body rows with a dashed rule between each two. -/
def bodyLines (widths : List Nat) : List (List String) → List String
  | [] => []
  | [row] => rowLines widths row
  | row :: rest => rowLines widths row ++ rule "├" "╌" "┼" "┤" widths :: bodyLines widths rest

/-- The drawn table, without a line feed at the end. -/
def render (t : Table) : String :=
  let widths := t.columnWidths
  "\n".intercalate
    ([rule "┌" "─" "┬" "┐" widths] ++ rowLines widths t.header ++
      [rule "╞" "═" "╪" "╡" widths] ++ bodyLines widths t.rows ++
      [rule "└" "─" "┴" "┘" widths])

end Table
end Text
end ScriptSession
