import Phrasebook.Template.Basic
import Phrasebook.Text.Digits
import Phrasebook.Text.Scan

/-!
Reading templates. A directive is `%(`, a name, `)`, perhaps a width, and a letter. Whatever is
not a directive stands for itself, a percent sign too.
-/

namespace Phrasebook.Template

/-- One character that stands for itself, or a directive as it is written. -/
inductive Item where
  | character (c : Char)
  | directive (name width : List Char) (letter : Char)
  deriving DecidableEq, Repr

def isNameChar (c : Char) : Bool :=
  Text.isLetter c || Text.isDigit c || c == '_'

def isSmallLetter (c : Char) : Bool :=
  'a' ≤ c && c ≤ 'z'

def directiveAt? : List Char → Option (Item × Nat)
  | '%' :: '(' :: first :: rest =>
    if Text.isLetter first then
      let name := first :: rest.takeWhile isNameChar
      match rest.dropWhile isNameChar with
      | ')' :: afterName =>
        let width := afterName.takeWhile Text.isDigit
        match afterName.dropWhile Text.isDigit with
        | letter :: _ =>
          if isSmallLetter letter then
            some (.directive name width letter, name.length + width.length + 4)
          else none
        | [] => none
      | _ => none
    else none
  | _ => none

def itemAt : List Char → Item × Nat
  | [] => (.character ' ', 1)
  | c :: rest => (directiveAt? (c :: rest)).getD (.character c, 1)

def items (text : List Char) : List Item :=
  Text.scan itemAt text

def directive? (name width : List Char) (letter : Char) : Except FormatError Directive :=
  match Conversion.ofLetter? letter with
  | none => .error (.unknownSpecifier letter)
  | some conversion =>
    if maxWidth < Text.decimalValue 0 width then
      .error (.widthTooLarge (String.ofList name) (String.ofList width))
    else .ok
      { name := String.ofList name
        width := if width.isEmpty then none else some (Text.decimalValue 0 width)
        zeroPadded := width.head? == some '0'
        conversion := conversion }

def withLiteral (literal : List Char) (rest : Template) : Template :=
  if literal.isEmpty then rest else .literal (String.ofList literal) :: rest

/-- Joins neighbouring characters into literals; `literal` holds those read last, the latest
first. -/
def join (literal : List Char) : List Item → Except FormatError Template
  | [] => .ok (withLiteral literal.reverse [])
  | .character c :: rest => join (c :: literal) rest
  | .directive name width letter :: rest => do
    let directive ← directive? name width letter
    return withLiteral literal.reverse (.directive directive :: (← join [] rest))

/-- Reads a template. The first faulty directive is reported. -/
def parseChars (text : List Char) : Except FormatError Template :=
  join [] (items text)

def parse (text : String) : Except FormatError Template :=
  parseChars text.toList

end Phrasebook.Template
