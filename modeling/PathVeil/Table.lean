import PathVeil.Text.Width

/-!
# PathVeil.Table

Tables in box-drawing characters: a header, a double line, and rows with dashed
lines between them. Columns are as wide as their widest line, cells are padded
by one space on both sides and may have several lines.
-/

namespace PathVeil

/-- A table of texts. Every row has as many cells as the header. -/
structure Table where
  header : List String
  rows : List (List String)
  deriving DecidableEq, Repr

namespace Table

/-- A horizontal line: what it begins with, consists of, is crossed by, and
ends with. -/
structure Border where
  first : Char
  line : Char
  crossing : Char
  last : Char

/-- The line above the header. -/
def top : Border := ⟨'┌', '─', '┬', '┐'⟩
/-- The line below the header. -/
def double : Border := ⟨'╞', '═', '╪', '╡'⟩
/-- The line between two rows. -/
def dashed : Border := ⟨'├', '╌', '┼', '┤'⟩
/-- The line below the last row. -/
def bottom : Border := ⟨'└', '─', '┴', '┘'⟩

/-- The lines of a cell. -/
def cellLines (cell : String) : List String := cell.splitOn "\n"

/-- The columns of a text. -/
def columns (text : String) : Nat := Width.ofText text.toList

/-- The width of a cell. -/
def cellWidth (cell : String) : Nat := ((cellLines cell).map columns).foldl max 0

/-- The width of each column, without the padding. -/
def widths (table : Table) : List Nat :=
  table.rows.foldl (fun widths row => List.zipWith max widths (row.map cellWidth))
    (table.header.map cellWidth)

/-- A horizontal line across columns of the given widths. -/
def Border.draw (border : Border) (widths : List Nat) : String :=
  let cells := widths.map fun width => String.ofList (List.replicate (width + 2) border.line)
  border.first.toString ++ border.crossing.toString.intercalate cells ++ border.last.toString

/-- A text filled up with spaces. -/
def fit (width : Nat) (text : String) : String :=
  text ++ String.ofList (List.replicate (width - columns text) ' ')

/-- One line of text across the columns. -/
def drawLine (widths : List Nat) (texts : List String) : String :=
  "│" ++ "┆".intercalate (List.zipWith (fun width text => s!" {fit width text} ") widths texts) ++ "│"

/-- A row: as many lines as its highest cell has. -/
def drawRow (widths : List Nat) (row : List String) : List String :=
  let cells := row.map cellLines
  let height := (cells.map List.length).foldl max 0
  (List.range height).map fun i => drawLine widths (cells.map (·.getD i ""))

/-- All lines of the table. -/
def lines (table : Table) : List String :=
  let widths := table.widths
  let rows := table.rows.map (drawRow widths)
  top.draw widths :: drawRow widths table.header
    ++ double.draw widths :: ([dashed.draw widths].intercalate rows)
    ++ [bottom.draw widths]

/-- The table as a text that ends with a line feed. -/
def render (table : Table) : String := String.join (table.lines.map (· ++ "\n"))

end Table

end PathVeil
