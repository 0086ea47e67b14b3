/-!
Lines of a text. A piece is a line together with the line feed that ends it, so the pieces
concatenate to the text; a line is a piece without its end, `\n` or `\r\n`.
-/

namespace Phrasebook.Text

def addToPieces (c : Char) (pieces : List (List Char)) : List (List Char) :=
  if c = '\n' then [c] :: pieces
  else match pieces with
    | [] => [[c]]
    | piece :: rest => (c :: piece) :: rest

/-- Cuts a text after every line feed. No piece is empty. -/
def pieces (text : List Char) : List (List Char) :=
  text.foldr addToPieces []

/-- A carriage return ends a line only together with the line feed after it. -/
def withoutLineEnd (piece : List Char) : List Char :=
  match piece.reverse with
  | '\n' :: '\r' :: body => body.reverse
  | '\n' :: body => body.reverse
  | _ => piece

def lines (text : List Char) : List (List Char) :=
  (pieces text).map withoutLineEnd

theorem flatten_addToPieces (c : Char) (cut : List (List Char)) :
    (addToPieces c cut).flatten = c :: cut.flatten := by
  unfold addToPieces
  split
  · rfl
  · split <;> rfl

theorem flatten_pieces (text : List Char) : (pieces text).flatten = text := by
  induction text with
  | nil => rfl
  | cons c rest ih =>
    show (addToPieces c (pieces rest)).flatten = c :: rest
    rw [flatten_addToPieces, ih]

end Phrasebook.Text
