import Lineage.Override.Report
import Lineage.Text.Columns
import Lineage.Text.Split

/-!
# Parameter tables

The parameters of two methods side by side, in a frame of box characters. A column is as wide as its
widest line. A cell of several lines makes its row as high.
-/
namespace Lineage

/-- Marks a position at which one method has no parameter. -/
def absentParameter : String := "---"

/-- The two cells of a pair. -/
def ParameterPair.cells (p : ParameterPair) : String × String :=
  (p.ancestor.getD absentParameter, p.descendant.getD absentParameter)

/-- A table of two columns. -/
structure Table where
  header : String × String
  rows : List (String × String)
  deriving DecidableEq, Repr, Inhabited

namespace Table

/-- The lines of a cell. -/
def cellLines (cell : String) : List (List Char) := Text.split '\n' cell.toList

/-- The columns that a cell needs. -/
def cellWidth (cell : String) : Nat := ((cellLines cell).map Text.columns).foldl max 0

/-- The line with blanks behind it up to `width` columns. -/
def pad (width : Nat) (line : List Char) : List Char :=
  line ++ List.replicate (width - Text.columns line) ' '

def leftWidth (t : Table) : Nat := ((t.header :: t.rows).map fun r => cellWidth r.1).foldl max 0

def rightWidth (t : Table) : Nat := ((t.header :: t.rows).map fun r => cellWidth r.2).foldl max 0

/-- The lines of a row: as many as the higher of its cells has. -/
def rowLines (t : Table) (row : String × String) : List (List Char) :=
  let left := cellLines row.1
  let right := cellLines row.2
  (List.range (max left.length right.length)).map fun i =>
    ['│', ' '] ++ pad t.leftWidth (left[i]?.getD []) ++ [' ', '┆', ' '] ++
      pad t.rightWidth (right[i]?.getD []) ++ [' ', '│']

/-- A line of the frame. -/
def ruler (t : Table) (left line middle right : Char) : List Char :=
  left :: List.replicate (t.leftWidth + 2) line ++
    middle :: List.replicate (t.rightWidth + 2) line ++ [right]

/-- The rows below the header, with a dashed line between neighbours. -/
def bodyLines (t : Table) : List (String × String) → List (List Char)
  | [] => []
  | [row] => t.rowLines row
  | row :: next :: rows => t.rowLines row ++ t.ruler '├' '╌' '┼' '┤' :: bodyLines t (next :: rows)

def lines (t : Table) : List (List Char) :=
  t.ruler '┌' '─' '┬' '┐' :: t.rowLines t.header ++ t.ruler '╞' '═' '╪' '╡' :: t.bodyLines t.rows ++
    [t.ruler '└' '─' '┴' '┘']

/-- The table as text, without a line end behind its last line. -/
def text (t : Table) : String := String.ofList (Text.join ['\n'] t.lines)

end Table

/-- The parameters of the two methods of a report. -/
def Report.table (r : Report) : Table where
  header := (r.ancestorId, r.descendantId)
  rows := r.parameterPairs.map ParameterPair.cells

end Lineage
