import Phrasebook.Text.Width

/-!
Tables in a frame, with a rule below the head.
-/

namespace Phrasebook.Command

abbrev Row := List String

def cellLines (cell : String) : List (List Char) :=
  cell.toList.splitOn '\n'

def cellWidth (cell : String) : Nat :=
  ((cellLines cell).map Text.displayWidth).foldl max 0

def columnWidths (rows : List Row) : List Nat :=
  rows.foldl (fun widths row =>
    (List.range (max widths.length row.length)).map fun column =>
      max (widths.getD column 0) (((row[column]?).map cellWidth).getD 0)) []

/-- A line of a cell, filled up to the width of its column, with a space on each side. -/
def padded (width : Nat) (text : List Char) : List Char :=
  ' ' :: text ++ List.replicate (width - Text.displayWidth text) ' ' ++ [' ']

def rowLines (widths : List Nat) (row : Row) : List (List Char) :=
  let cells := row.map cellLines
  let height := (cells.map List.length).foldl max 0
  (List.range height).map fun line =>
    let written := (widths.zip cells).map fun (width, cell) => padded width (cell.getD line [])
    '│' :: [' '].intercalate written ++ ['│']

def ruled (left stroke right : Char) (widths : List Nat) : List Char :=
  let inner := widths.foldr (fun width rest => width + 2 + rest) 0 + (widths.length - 1)
  left :: List.replicate inner stroke ++ [right]

def drawTable (head : Row) (rows : List Row) : List Char :=
  let widths := columnWidths (head :: rows)
  ['\n'].intercalate (
    ruled '┌' '─' '┐' widths :: rowLines widths head ++
      ruled '╞' '═' '╡' widths :: rows.flatMap (rowLines widths) ++
      [ruled '└' '─' '┘' widths])

end Phrasebook.Command
