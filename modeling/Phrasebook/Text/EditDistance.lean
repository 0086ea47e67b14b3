/-!
The edit distance of two texts: the least number of characters to insert, delete or replace to
turn one into the other.
-/

namespace Phrasebook.Text

/-- One row of the table of distances. The row above belongs to one character less of the
first text; `corner` and `left` are the entries diagonally above and to the left. -/
def distanceRow (c : Char) (corner left : Nat) : List Char → List Nat → List Nat
  | d :: rest, above :: row =>
    let here := min (min (above + 1) (left + 1)) (if c = d then corner else corner + 1)
    here :: distanceRow c above here rest row
  | _, _ => []

/-- Continues the table from the row whose first entry is `depth`. -/
def distanceFrom (second : List Char) (depth : Nat) (row : List Nat) : List Char → Nat
  | [] => (depth :: row).getLast (by simp)
  | c :: rest => distanceFrom second (depth + 1) (distanceRow c depth (depth + 1) second row) rest

def editDistance (first second : List Char) : Nat :=
  distanceFrom second 0 ((List.range second.length).map (· + 1)) first

end Phrasebook.Text
