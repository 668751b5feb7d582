import CriteriaQuery.Text.Width

/-! Tables drawn with plain characters. A column is as wide as its widest line, and at least one
character; every cell has a blank on either side. -/
namespace CriteriaQuery.Report
open CriteriaQuery.Text
set_option autoImplicit false

/-- A table: its header and its rows. Rows may be shorter or longer than the header. -/
structure Table where
  header : List String
  rows : List (List String)

/-! ## Cells -/

/-- A cell: its lines, from the top. -/
abbrev Cell := List (List Char)

def linesOf : List Char → Cell
  | [] => [[]]
  | c :: rest =>
    if c = '\n' then [] :: linesOf rest
    else
      match linesOf rest with
      | [] => [[c]]
      | first :: others => (c :: first) :: others

/-- The width of a cell: that of its widest line. -/
def cellWidth (cell : Cell) : Nat := (cell.map width).foldl max 0

/-- A line of a cell, filled up to the width of its column, with the blanks around it. -/
def paddedLine (columnWidth : Nat) (line : List Char) : List Char :=
  ' ' :: line ++ List.replicate (columnWidth - width line) ' ' ++ [' ']

/-! ## Columns -/

/-- Takes the cells of a row into account in the widths of the columns. -/
def widen : List Nat → List Cell → List Nat
  | widths, [] => widths
  | [], cells => cells.map fun cell => max 1 (cellWidth cell)
  | w :: widths, cell :: cells => max w (max 1 (cellWidth cell)) :: widen widths cells

def columnWidths (rows : List (List Cell)) : List Nat := rows.foldl widen []

/-! ## Lines -/

/-- How a line across the table is drawn. -/
structure Rule where
  left : Char
  line : Char
  crossing : Char
  right : Char

def border : Rule := ⟨'+', '-', '+', '+'⟩

def headerRule : Rule := ⟨'+', '=', '=', '+'⟩

def rowRule : Rule := ⟨'|', '-', '+', '|'⟩

def joinParts (left crossing right : Char) (parts : List (List Char)) : List Char :=
  left :: List.intercalate [crossing] parts ++ [right]

def Rule.chars (rule : Rule) (widths : List Nat) : List Char :=
  joinParts rule.left rule.crossing rule.right
    (widths.map fun w => List.replicate (w + 2) rule.line)

/-- The `i`-th line of a row. Cells that are missing or have fewer lines are blank. -/
def rowLine (widths : List Nat) (cells : List Cell) (i : Nat) : List Char :=
  joinParts '|' '|' '|'
    (widths.mapIdx fun column w => paddedLine w ((cells.getD column []).getD i []))

/-- How many lines a row takes: as many as its highest cell, where a missing cell is one line
high. -/
def rowHeight (widths : List Nat) (cells : List Cell) : Nat :=
  (widths.mapIdx fun column _ => max 1 (cells.getD column []).length).foldl max 0

def rowLines (widths : List Nat) (cells : List Cell) : List (List Char) :=
  (List.range (rowHeight widths cells)).map (rowLine widths cells)

def Table.lines (table : Table) : List (List Char) :=
  let cells (row : List String) : List Cell := row.map fun text => linesOf text.toList
  let header := cells table.header
  let rows := table.rows.map cells
  let widths := columnWidths (header :: rows)
  border.chars widths :: rowLines widths header ++
    headerRule.chars widths ::
      List.intercalate [rowRule.chars widths] (rows.map (rowLines widths)) ++
    [border.chars widths]

def Table.text (table : Table) : String :=
  String.ofList (List.intercalate ['\n'] table.lines)

end CriteriaQuery.Report
