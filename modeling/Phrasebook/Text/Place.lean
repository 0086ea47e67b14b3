import Phrasebook.Text.Lines

/-!
Places in a text. An offset counts UTF-8 bytes from the start of the text; a place is a line
and a column, both counted from one.
-/

namespace Phrasebook.Text

def byteLength (text : List Char) : Nat :=
  text.foldr (fun c rest => c.utf8Size + rest) 0

def consumed (text rest : List Char) : List Char :=
  text.take (text.length - rest.length)

def lastLine (text : List Char) : List Char :=
  (text.reverse.takeWhile (· ≠ '\n')).reverse

def columnAfter (text : List Char) : Nat :=
  byteLength (lastLine text) + 1

/-- The offset of a line and a column counted in characters. A place past the end of the text
is its end. -/
def offsetOf (text : List Char) (line column : Nat) : Nat :=
  let before := ((pieces text).take (line - 1)).flatten
  let after := ((pieces text).drop (line - 1)).flatten
  byteLength before + byteLength (after.take (column - 1))

theorem byteLength_append (first second : List Char) :
    byteLength (first ++ second) = byteLength first + byteLength second := by
  induction first with
  | nil => exact (Nat.zero_add _).symm
  | cons c first ih =>
    show c.utf8Size + byteLength (first ++ second) = c.utf8Size + byteLength first + _
    rw [ih, Nat.add_assoc]

theorem offsetOf_le (text : List Char) (line column : Nat) :
    offsetOf text line column ≤ byteLength text := by
  have whole : ((pieces text).take (line - 1)).flatten ++
      ((pieces text).drop (line - 1)).flatten = text := by
    rw [← List.flatten_append, List.take_append_drop, flatten_pieces]
  have split := List.take_append_drop (column - 1) ((pieces text).drop (line - 1)).flatten
  have sizes := congrArg byteLength whole
  have sizes' := congrArg byteLength split
  simp only [byteLength_append] at sizes sizes'
  simp only [offsetOf]
  omega

end Phrasebook.Text
