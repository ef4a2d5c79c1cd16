/-
# The table of rows

`select` picks the rows to show: those of a least depth, deepest first, then by file, contract and
function; rows that agree on all four keep their order.

`renderTable` draws them in a frame. A column is as wide as its widest line; the line breaks of a
cell make lines of the row; depths stand at the right of their column, all else at the left.
-/
import CallDepth.DisplayWidth
import CallDepth.Report.Basic

namespace CallDepth

namespace DepthRow

/-- The order of the table: deeper rows first, then by file, contract and function. -/
def precedes (first second : DepthRow) : Bool :=
  if first.depth ≠ second.depth then second.depth < first.depth
  else if first.file ≠ second.file then first.file < second.file
  else if first.contract ≠ second.contract then first.contract < second.contract
  else first.function ≤ second.function

end DepthRow

/-- The items whose rows are to be shown, in the order of the table. -/
def selectBy {α : Type} (row : α → DepthRow) (minDepth : Nat) (items : List α) : List α :=
  (items.filter fun item => minDepth ≤ (row item).depth).mergeSort
    fun first second => (row first).precedes (row second)

def select (minDepth : Nat) (rows : List DepthRow) : List DepthRow :=
  selectBy id minDepth rows

namespace Table

/-- A cell: its lines, and whether they stand at the right of the column. -/
structure Cell where
  lines : List String
  alignRight : Bool := false
deriving DecidableEq, Repr, Inhabited

def Cell.ofText (text : String) : Cell where
  lines := text.splitOn "\n"

/-- The columns of the widest line of a cell. -/
def Cell.width (cell : Cell) : Nat :=
  (cell.lines.map displayWidth).foldl max 0

def header : List Cell :=
  ["file", "contract", "function", "visibility", "stateMutability", "expanded_max_depth"].map
    Cell.ofText

def cells (row : DepthRow) : List Cell :=
  [.ofText row.file, .ofText row.contract, .ofText row.function, .ofText row.visibility,
    .ofText row.mutability, { lines := [toString row.depth], alignRight := true }]

def repeated (c : Char) (count : Nat) : String :=
  String.ofList (List.replicate count c)

/-- A line of a cell, filled up to a width, with a blank on each side. -/
def padded (alignRight : Bool) (width : Nat) (line : String) : String :=
  let fill := repeated ' ' (width - displayWidth line)
  if alignRight then " " ++ fill ++ line ++ " " else " " ++ line ++ fill ++ " "

/-- The greatest widths, column by column. -/
def widest (first second : List Nat) : List Nat :=
  List.zipWith max first second

/-- The widths of the columns that rows of cells need. -/
def widths (rows : List (List Cell)) : List Nat :=
  (rows.map fun row => row.map Cell.width).foldl widest (header.map Cell.width)

/-- A horizontal line of the frame. -/
def rule (left fill cross right : Char) (widths : List Nat) : String :=
  repeated left 1 ++
    (repeated cross 1).intercalate (widths.map fun width => repeated fill (width + 2)) ++
    repeated right 1

def rowLines (widths : List Nat) (row : List Cell) : List String :=
  let height := (row.map fun cell => cell.lines.length).foldl max 0
  (List.range height).map fun index =>
    "│" ++
      "┆".intercalate (List.zipWith
        (fun width cell => padded cell.alignRight width ((cell.lines[index]?).getD ""))
        widths row) ++
      "│"

/-- The lines of all rows, with a rule between them. -/
def bodyLines (widths : List Nat) (rows : List (List Cell)) : List String :=
  match rows with
  | [] => []
  | [row] => rowLines widths row
  | row :: rest =>
      rowLines widths row ++ rule '├' '╌' '┼' '┤' widths :: bodyLines widths rest

def lines (rows : List (List Cell)) : List String :=
  let widths := widths rows
  rule '┌' '─' '┬' '┐' widths :: rowLines widths header ++
    rule '╞' '═' '╪' '╡' widths :: bodyLines widths rows ++
    [rule '└' '─' '┴' '┘' widths]

end Table

def renderTable (minDepth : Nat) (rows : List DepthRow) : String :=
  "\n".intercalate (Table.lines ((select minDepth rows).map Table.cells))

end CallDepth
