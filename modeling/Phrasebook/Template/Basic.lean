/-!
Templates: texts with directives such as `%(count)03d`, each of which stands for a value.
-/

namespace Phrasebook

inductive Conversion where
  | text
  | integer
  | number
  deriving DecidableEq, Repr, Inhabited

namespace Conversion

def ofLetter? : Char → Option Conversion
  | 's' => some text
  | 'd' => some integer
  | 'f' => some number
  | _ => none

def letter : Conversion → Char
  | text => 's'
  | integer => 'd'
  | number => 'f'

def isNumeric : Conversion → Bool
  | text => false
  | integer | number => true

theorem ofLetter?_letter (conversion : Conversion) :
    ofLetter? conversion.letter = some conversion := by
  cases conversion <;> rfl

end Conversion

/-- Stands for the value bound to a name, written in at least `width` units. -/
structure Directive where
  name : String
  width : Option Nat
  zeroPadded : Bool
  conversion : Conversion
  deriving DecidableEq, Repr, Inhabited

inductive Segment where
  | literal (text : String)
  | directive (directive : Directive)
  deriving DecidableEq, Repr, Inhabited

abbrev Template := List Segment

def maxWidth : Nat := 1024

inductive FormatError where
  | missingVariable (name : String) (suggestions : List String)
  | unknownSpecifier (letter : Char)
  | widthTooLarge (name width : String)
  deriving DecidableEq, Repr

def FormatError.message : FormatError → String
  | missingVariable name suggestions =>
    let listed := String.intercalate ", " suggestions
    let hint := if suggestions.isEmpty then "" else s!", did you mean: {listed}?"
    s!"format variable '{name}' doesn't exist{hint}"
  | unknownSpecifier letter => s!"unknown formatting specifier '{letter}'"
  | widthTooLarge name width =>
    s!"format width {width} for '{name}' exceeds the limit of {maxWidth}"

end Phrasebook
