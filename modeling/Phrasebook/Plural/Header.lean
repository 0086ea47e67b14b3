import Phrasebook.Text.Blank
import Phrasebook.Text.Digits
import Phrasebook.Text.Lines

/-!
The plural declaration in the header of a catalog, a line such as
`Plural-Forms: nplurals=2; plural=(n > 1);`.
-/

namespace Phrasebook.Plural

structure Declaration where
  forms : Option Nat
  expression : Option String
  deriving DecidableEq, Repr, Inhabited

namespace Declaration

def lowercase (text : List Char) : List Char :=
  text.map Char.toLower

def isWordChar (c : Char) : Bool :=
  Text.isLetter c || Text.isDigit c || c == '_'

/-- What follows the first place where the name starts a word; `previous` is the character in
front of the text. -/
def afterName? (name : List Char) (previous : Option Char) : List Char → Option (List Char)
  | [] => none
  | c :: rest =>
    if name.isPrefixOf (c :: rest) && !previous.any isWordChar then
      some ((c :: rest).drop name.length)
    else afterName? name (some c) rest

/-- The value of a parameter, up to the next semicolon and without the blanks around it. An
empty value counts as none. -/
def parameter? (name : String) (line : List Char) : Option (List Char) :=
  ((afterName? name.toList none line).map fun rest =>
    Text.trim (rest.takeWhile (· ≠ ';'))).filter (!·.isEmpty)

def line? (metadata : List Char) : Option (List Char) :=
  ((Text.lines metadata).map fun line => lowercase (Text.trim line)).find?
    "plural-forms:".toList.isPrefixOf

def ofChars? (metadata : List Char) : Option Declaration :=
  (line? metadata).map fun line =>
    { forms := (parameter? "nplurals=" line).bind (Text.unsigned? 10 (2 ^ 64))
      expression := (parameter? "plural=" line).map String.ofList }

def ofMetadata? (metadata : String) : Option Declaration :=
  ofChars? metadata.toList

end Declaration

end Phrasebook.Plural
