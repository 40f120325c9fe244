import SetterReport.Text.Width

/-!
# Tables

A table has a row of headers and rows of as many cells. It is written in one of
two formats. *Plain*: columns side by side, one space between them; a cell of
several lines goes on below itself. *Markdown*: bars around the cells and a line
of dashes under the headers; a cell of several lines stays on one, with `<br>`
between its parts.

A cell is first turned into the lines that will be shown (`cellLines`), a
column is as wide as the widest of its lines, and `rowText` writes one row at
those widths. Both formats share all of that and differ in `cellLines`,
`lineText` and the line of dashes.
-/

namespace SetterReport.Table

/-- How a table is written. -/
inductive Format
  /-- Columns separated by a space, without borders. -/
  | plain
  | markdown
deriving DecidableEq

/-- One row of cells. -/
abbrev Row := List Text

/-- The lines that show one cell. -/
abbrev Cell := List Text

/-! ## Cells -/

/-- What stands between the lines of a cell that has to stay on one line. -/
def lineBreak : Text := "<br>".toList

/-- The text with a backslash before every bar. -/
def escapeBars (t : Text) : Text :=
  Text.replace '|' ['\\', '|'] t

/-- The lines that show a cell; at least one. -/
def cellLines : Format → Text → Cell
  | .plain, t =>
    match Text.lines t with
    | [] => [[]]
    | ls => ls
  | .markdown, t =>
    let escaped := escapeBars t
    if escaped.contains '\n' || escaped.contains '\r' then
      [Text.join lineBreak (Text.lines escaped)]
    else [escaped]

/-! ## Widths -/

/-- The width of a cell: that of its widest line. -/
def cellWidth (c : Cell) : Nat :=
  (c.map Text.width).foldr max 0

/-- Columns widened so that a row fits. -/
def widen (widths : List Nat) (row : List Cell) : List Nat :=
  List.zipWith (fun w c => max w (cellWidth c)) widths row

/-- The widths of the columns of a header and the rows below it. -/
def columnWidths (header : List Cell) (rows : List (List Cell)) : List Nat :=
  rows.foldl widen (header.map cellWidth)

/-! ## Lines -/

/-- The number of lines that a row takes. -/
def rowHeight : List Cell → Nat
  | [] => 1
  | row => (row.map List.length).foldr max 0

/-- One line of a row: the `i`-th line of every cell, blank where a cell has run out. -/
def lineCells (row : List Cell) (i : Nat) : List Text :=
  row.map fun c => c.getD i []

/-- One line, its cells padded to the widths of their columns. -/
def lineText (format : Format) (widths : List Nat) (cells : List Text) : Text :=
  let padded := List.zipWith (fun t w => Text.padTo w t) cells widths
  match format with
  | .plain => Text.trimEnd (Text.join [' '] padded)
  | .markdown => "| ".toList ++ Text.join " | ".toList padded ++ " |".toList

/-- All lines of a row, each ended. -/
def rowText (format : Format) (widths : List Nat) (row : List Cell) : Text :=
  (List.range (rowHeight row)).flatMap fun i =>
    lineText format widths (lineCells row i) ++ ['\n']

/-- The line of dashes under the headers. -/
def dashes (widths : List Nat) : Text :=
  '|' :: widths.flatMap (fun w => Text.copies (w + 2) '-' ++ ['|']) ++ ['\n']

/-- The text of a table. -/
def text (format : Format) (headers : Row) (rows : List Row) : Text :=
  let header := headers.map (cellLines format)
  let body := rows.map (List.map (cellLines format))
  let widths := columnWidths header body
  rowText format widths header ++
    (match format with
      | .plain => []
      | .markdown => dashes widths) ++
    body.flatMap (rowText format widths)

/-! ## Checked tables -/

/-- A row that has not as many cells as there are headers. -/
structure WrongRow where
  index : Nat
  cells : Nat
  expected : Nat
deriving DecidableEq

namespace WrongRow

/-- What is wrong with the row. -/
def message (w : WrongRow) : Text :=
  "table row ".toList ++ Text.ofNat w.index ++ " has ".toList ++ Text.ofNat w.cells ++
    " cells, expected ".toList ++ Text.ofNat w.expected

end WrongRow

/-- The first row, counted from `index`, that has another number of cells. -/
def firstWrong (expected : Nat) : (index : Nat) → List Row → Option WrongRow
  | _, [] => none
  | i, row :: rest =>
    if row.length = expected then firstWrong expected (i + 1) rest
    else some ⟨i, row.length, expected⟩

/-- The text of a table whose rows are as long as its header. -/
def render (format : Format) (headers : Row) (rows : List Row) : Except WrongRow Text :=
  match firstWrong headers.length 0 rows with
  | some w => .error w
  | none => .ok (text format headers rows)

end SetterReport.Table
