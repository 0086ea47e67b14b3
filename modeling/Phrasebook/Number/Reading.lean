import Phrasebook.Number.Decimal
import Phrasebook.Text.Blank

/-!
Reading numbers out of text.
-/

namespace Phrasebook.Number

/-- A sign in front of a text; none is a plus sign. -/
def splitSign : List Char → Bool × List Char
  | '-' :: rest => (true, rest)
  | '+' :: rest => (false, rest)
  | rest => (false, rest)

/-- The value of exponent digits. Past 2^16 further digits change nothing: the number is zero
or infinite by then. -/
def exponentValue (digits : List Char) : Nat :=
  digits.foldl
    (fun value c => if value < 0x10000 then 10 * value + (c.toNat - '0'.toNat) else value) 0

def exponent? : List Char → Option Int
  | [] => some 0
  | mark :: rest =>
    if mark = 'e' ∨ mark = 'E' then
      let (negative, digits) := splitSign rest
      if digits.isEmpty || !digits.all Text.isDigit then none
      else some (if negative then -(exponentValue digits : Int) else exponentValue digits)
    else none

/-- Digits with at most one point among them, at least one digit, and perhaps an exponent. -/
def decimal? (text : List Char) : Option Decimal :=
  let whole := text.takeWhile Text.isDigit
  let afterWhole := text.dropWhile Text.isDigit
  let (fraction, rest) := match afterWhole with
    | '.' :: more => (more.takeWhile Text.isDigit, more.dropWhile Text.isDigit)
    | _ => ([], afterWhole)
  if whole.isEmpty && fraction.isEmpty then none
  else (exponent? rest).map fun power =>
    ⟨Text.decimalValue 0 (whole ++ fraction), power - fraction.length⟩

def signedDecimal? (text : List Char) : Option Double :=
  let (negative, digits) := splitSign text
  (decimal? digits).map (Decimal.toDouble negative)

def radixDigits? : List Char → Option (Nat × List Char)
  | '0' :: 'x' :: digits | '0' :: 'X' :: digits => some (16, digits)
  | '0' :: 'o' :: digits | '0' :: 'O' :: digits => some (8, digits)
  | '0' :: 'b' :: digits | '0' :: 'B' :: digits => some (2, digits)
  | _ => none

/-- The number that a text denotes, blanks at its ends aside. The empty text is zero, and a
text that denotes no number gives `nan`. -/
def ofChars (text : List Char) : Double :=
  let text := Text.trim text
  if text.isEmpty then .zero false
  else if text = "Infinity".toList ∨ text = "+Infinity".toList then .infinite false
  else if text = "-Infinity".toList then .infinite true
  else match radixDigits? text with
    | some (radix, digits) =>
      ((Text.unsigned? radix (2 ^ 64) digits).map fun value => Double.ofInt value).getD .nan
    | none => (signedDecimal? text).getD .nan

def ofText (text : String) : Double :=
  ofChars text.toList

end Phrasebook.Number
