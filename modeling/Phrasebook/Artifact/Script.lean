import Phrasebook.Artifact.Functions
import Phrasebook.Artifact.Options
import Phrasebook.Catalog.NormalJson
import Phrasebook.Plural.Header
import Phrasebook.Plural.Parser
import Phrasebook.Plural.Tree
import Phrasebook.Resolver

/-!
Compiling a catalog into a script that looks its messages up.
-/

namespace Phrasebook.Artifact

/-- Words that the language of the script keeps for itself, and the names of the functions that
the script hands out. -/
def reservedNames : List String := [
  "await", "break", "case", "catch", "class", "const", "continue", "debugger", "default",
  "delete", "do", "else", "enum", "export", "extends", "false", "finally", "for", "format",
  "function", "gettext", "if", "implements", "import", "in", "instanceof", "interface", "let",
  "new", "ngettext", "null", "package", "private", "protected", "public", "return", "static",
  "super", "switch", "this", "throw", "true", "try", "typeof", "var", "void", "while", "with",
  "yield"]

def startsIdentifier (c : Char) : Bool :=
  Text.isLetter c || c == '_' || c == '$'

def continuesIdentifier (c : Char) : Bool :=
  startsIdentifier c || Text.isDigit c

def isNamespace (name : String) : Bool :=
  match name.toList with
  | [] => false
  | first :: rest =>
    startsIdentifier first && rest.all continuesIdentifier && !reservedNames.contains name

inductive CompileError where
  | plural (e : Plural.ParseError)
  | catalog (e : CatalogError)
  | invalidNamespace (name : String)
  deriving DecidableEq, Repr

def CompileError.message : CompileError → String
  | plural e => s!"plural rule: {e.message}"
  | catalog e => e.message
  | invalidNamespace name =>
    s!"invalid namespace '{name}': expected a JavaScript identifier"

def indentation : List Char := List.replicate 4 ' '

def indentLines (text : List Char) : List Char :=
  text.flatMap fun c => if c = '\n' then c :: indentation else [c]

/-- Escapes the two characters that end a line in a script though they may stand in JSON. -/
def escapeSeparators (text : List Char) : List Char :=
  text.flatMap fun c =>
    if c = '\u2028' then "\\u2028".toList
    else if c = '\u2029' then "\\u2029".toList
    else [c]

/-- Breaks up `</`, which could end the script element of a page. -/
def breakTags : List Char → List Char
  | '<' :: '/' :: rest => '<' :: '\\' :: '/' :: breakTags rest
  | c :: rest => c :: breakTags rest
  | [] => []

def embed (pretty : Bool) (value : Json) : List Char :=
  breakTags (escapeSeparators (if pretty then indentLines (value.pretty 4) else value.compact))

def ruleJson : Option Plural.Expr → Json
  | some rule => rule.toJson
  | none => .null

def entryPoints : List String := ["format", "gettext", "ngettext"]

def ending : String :=
  "\n    return \x7b\n        format: format,\n        gettext: gettext,\n" ++
    "        ngettext: ngettext\n    \x7d;\n\x7d)();\n"

def exports (name : String) : Flavor → String
  | .global => ""
  | .exported =>
    "\n" ++ String.join (entryPoints.map fun entryPoint =>
      s!"export const {entryPoint} = {name}.{entryPoint};\n") ++ s!"export default {name};\n"

def render (options : Options) (resolver : Resolver) : Except CompileError String :=
  let name := options.namespaceName
  if isNamespace name then
    let catalog := String.ofList (embed options.pretty resolver.catalog.toJson)
    let rule := String.ofList (embed options.pretty (ruleJson resolver.rule))
    .ok ("\"use strict\";\n\n" ++
      options.flavor.declaration ++ " " ++ name ++ " = (function () \x7b\n" ++
      "    var catalog = " ++ catalog ++ ";\n\n" ++
      "    var pluralRule = " ++ rule ++ ";\n\n" ++
      functions ++ ending ++ exports name options.flavor)
  else .error (.invalidNamespace name)

def ruleOf (declaration : Option Plural.Declaration) : Except CompileError (Option Plural.Expr) :=
  match declaration.bind (·.expression) with
  | none => .ok none
  | some expression => ((Plural.parse expression).map some).mapError .plural

/-- Makes a catalog ready for look-ups: compiles its plural rule, then brings its messages into
normal form. -/
def prepare (catalog : Catalog) : Except CompileError Resolver := do
  let declaration := Plural.Declaration.ofMetadata? catalog.metadata
  let rule ← ruleOf declaration
  let normal ← (NormalCatalog.ofRaw (declaration.bind (·.forms)) catalog.messages).mapError
    CompileError.catalog
  return ⟨normal, rule⟩

def contentType : String := "text/javascript"

def compile (options : Options) (catalog : Catalog) : Except CompileError String := do
  render options (← prepare catalog)

end Phrasebook.Artifact
