import Phrasebook.Dictionary
import Phrasebook.Template.Parser
import Phrasebook.Template.Suggestion
import Phrasebook.Text.Units
import Phrasebook.Value

/-!
Filling templates in.
-/

namespace Phrasebook

abbrev Bindings := Dictionary String Value

def Conversion.apply (value : Value) : Conversion → List Char
  | .text => value.display.toList
  | .integer => Text.signedDecimal value.toNumber.toInt32
  | .number => value.toNumber.chars

namespace Directive

/-- Zeros pad numbers only. -/
def padding (directive : Directive) : Char :=
  if directive.zeroPadded && directive.conversion.isNumeric then '0' else ' '

/-- The value of a directive, padded at the front. The width counts UTF-16 code units. -/
def render (directive : Directive) (value : Value) : List Char :=
  let written := directive.conversion.apply value
  List.replicate (directive.width.getD 0 - Text.unitLength written) directive.padding ++ written

end Directive

namespace Segment

def render (bindings : Bindings) : Segment → Except FormatError (List Char)
  | .literal text => .ok text.toList
  | .directive hole =>
    match bindings.find? hole.name with
    | some value => .ok (hole.render value)
    | none =>
      .error (.missingVariable hole.name (Template.suggestions hole.name bindings.keys))

end Segment

namespace Template

/-- Writes the segments one after another. The first name that is not bound is reported. -/
def render (template : Template) (bindings : Bindings) : Except FormatError String := do
  let parts ← template.mapM (Segment.render bindings)
  return String.ofList parts.flatten

def format (text : String) (bindings : Bindings) : Except FormatError String := do
  render (← parse text) bindings

end Template

end Phrasebook
