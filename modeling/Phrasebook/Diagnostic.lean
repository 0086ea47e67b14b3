import Phrasebook.Catalog.File
import Phrasebook.Plural.Parser
import Phrasebook.Po.Reader

/-!
Errors with the place in the source that they point at.
-/

namespace Phrasebook

structure Label where
  text : String
  offset : Nat
  length : Nat
  deriving DecidableEq, Repr

structure Diagnostic where
  code : String
  message : String
  help : Option String
  labels : List Label
  deriving DecidableEq, Repr

namespace Diagnostic

def ofCatalog (source : List Char) (line column : Nat) (message : String)
    (help : Option String) : Diagnostic where
  code := "jstrans::catalog"
  message := message
  help := help
  labels := [⟨"error here", Text.offsetOf source line column, 1⟩]

def ofPo (source : String) (e : Po.ReadError) : Diagnostic :=
  match e with
  | .malformed line column _ => ofCatalog source.toList line column e.message none
  | .indexOutOfOrder line _ expected =>
    ofCatalog source.toList line 1 e.message s!"the next plural form is msgstr[{expected}]"
  | .duplicateMessage line _ =>
    ofCatalog source.toList line 1 e.message "merge the entries or give one a msgctxt"

def fileShape : String :=
  "expected \x7b\"metadata\": ..., \"messages\": [\x7b\"msgid\": ..., \"msgstr\": ...\x7d]\x7d"

def ofJson (source : String) (e : Json.ReadError) : Diagnostic :=
  ofCatalog source.toList e.line e.column s!"invalid catalog: {e.message}" fileShape

def ofPlural (source : String) (e : Plural.ParseError) : Diagnostic where
  code := "jstrans::plural"
  message := e.message
  help := some (match e with
    | .tooLong _ => s!"plural expressions are limited to {Plural.maxLength} characters"
    | .invalid _ _ =>
      "only n, integers, parentheses, ?:, ||, &&, comparisons, + - * / % and ! are allowed")
  labels := match e with
    | .tooLong _ => [⟨"expression", 0, Text.byteLength source.toList⟩]
    | .invalid column fault => [⟨fault.message, Text.offsetOf source.toList 1 column, 1⟩]

end Diagnostic

end Phrasebook
