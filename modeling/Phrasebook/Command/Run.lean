import Phrasebook.Artifact.Script
import Phrasebook.Command.Folder
import Phrasebook.Command.Invocation
import Phrasebook.Command.Table
import Phrasebook.Diagnostic

/-!
Running the commands. What a command reads is given to it as a function, and what it prints and
writes is its outcome.
-/

namespace Phrasebook.Command

def success : Nat := 0

def badUsage : Nat := 2

def badData : Nat := 65

def failure : Nat := 70

/-- How a command ends and what it leaves: text on the standard output, reports of what could not
be done, a complaint in plain text, and a file to be written. -/
structure Outcome where
  code : Nat
  output : String := ""
  reports : List String := []
  complaint : Option String := none
  file : Option (String × String) := none
  deriving DecidableEq, Repr

abbrev Source := String → Except ReadFailure String

inductive LoadError where
  | unreadable (path : String) (reason : ReadFailure)
  | po (source : String) (e : Po.ReadError)
  | json (source : String) (e : Json.ReadError)
  | compile (path : String) (e : Artifact.CompileError)

/-- The message of an error. Errors that point into a source do not name its file. -/
def LoadError.message : LoadError → String
  | unreadable path reason => s!"Cannot read catalog {path}: {reason.message}"
  | po source e => (Diagnostic.ofPo source e).message
  | json source e => (Diagnostic.ofJson source e).message
  | compile _ (.plural e) => e.message
  | compile path e => s!"{path}: {e.message}"

/-- The end of a file name after its last point; a point at the front does not count. -/
def extension? (path : String) : Option String :=
  match (stepsOf path.toList).getLast? with
  | none => none
  | some name =>
    let afterPoint := (name.reverse.takeWhile (· ≠ '.')).reverse
    if name = ['.', '.'] ∨ name.length ≤ afterPoint.length + 1 then none
    else some (String.ofList afterPoint)

def isJson (path : String) : Bool :=
  (extension? path).any fun extension => extension.toLower == "json"

def load (source : Source) (path : String) : Except LoadError Catalog := do
  let text ← (source path).mapError (.unreadable path)
  if isJson path then return (← (CatalogFile.read text).mapError (.json text)).toCatalog
  else (Po.read text).mapError (.po text)

def loadPrepared (source : Source) (path : String) : Except LoadError (Catalog × Resolver) := do
  let catalog ← load source path
  let resolver ← (Artifact.prepare catalog).mapError (.compile path)
  return (catalog, resolver)

def runBuild (source : Source) (path : String) (output : Option String)
    (options : Artifact.Options) : Outcome :=
  let compiled := do
    let catalog ← load source path
    (Artifact.compile options catalog).mapError (LoadError.compile path)
  match compiled with
  | .error e => { code := failure, reports := [e.message] }
  | .ok body =>
    match output with
    | some path => { code := success, file := some (path, body) }
    | none => { code := success, output := body }

structure Summary where
  path : String
  messages : Nat
  plurals : Nat
  forms : Option Nat
  rule : Option Plural.Expr

def summarize (source : Source) (path : String) : Except LoadError Summary := do
  let (catalog, resolver) ← loadPrepared source path
  let declaration := Plural.Declaration.ofMetadata? catalog.metadata
  return {
    path := path
    messages := resolver.catalog.size
    plurals := resolver.catalog.pluralCount
    forms := declaration.bind (·.forms)
    rule := resolver.rule }

def reportJson (path : String) : Except LoadError Summary → Json
  | .ok summary => .object [("path", .string path), ("ok", .bool true),
      ("messages", .integer summary.messages), ("plurals", .integer summary.plurals)]
  | .error e => .object [("path", .string path), ("ok", .bool false),
      ("error", .string e.message)]

def summaryRow (summary : Summary) : Row := [
  summary.path,
  toString summary.messages,
  toString summary.plurals,
  (summary.forms.map toString).getD "-",
  (summary.rule.map toString).getD "n != 1"]

def summaryHead : Row := ["Catalog", "Messages", "Plural", "Forms", "Rule"]

def jsonText (value : Json) : String :=
  String.ofList (value.pretty 2 ++ ['\n'])

def tableText (head : Row) (rows : List Row) : String :=
  String.ofList (drawTable head rows ++ ['\n'])

def green (text : String) : String := "\x1b[32m" ++ text ++ "\x1b[39m"

def red (text : String) : String := "\x1b[31m" ++ text ++ "\x1b[39m"

def verdict (checked good : Nat) : String :=
  if good = checked then green s!"{checked} catalogs OK"
  else red s!"{checked - good} of {checked} catalogs failed"

def goodOnes (checks : List (String × Except LoadError Summary)) : List Summary :=
  checks.filterMap fun check => check.2.toOption

def failures (checks : List (String × Except LoadError Summary)) : List String :=
  checks.filterMap fun check => match check.2 with
    | .ok _ => none
    | .error e => some e.message

/-- Checks every file, whatever became of those before. -/
def runCheck (source : Source) (files : List String) (json : Bool) : Outcome :=
  let checks := files.map fun path => (path, summarize source path)
  let good := goodOnes checks
  let code := if good.length = files.length then success else badData
  if json then
    { code
      output := jsonText (.array (checks.map fun (path, summary) => reportJson path summary)) }
  else
    let table := if good.isEmpty then "" else tableText summaryHead (good.map summaryRow)
    { code
      output := table ++ verdict files.length good.length ++ "\n"
      reports := failures checks }

def countsFrom (first last : UInt64) : List UInt64 :=
  (List.range (last.toNat - first.toNat + 1)).map fun step => UInt64.ofNat (first.toNat + step)

def runPlural (expression : String) (first last : UInt64) (json : Bool) : Outcome :=
  if last < first then
    { code := failure, reports := [s!"--from ({first}) must not exceed --to ({last})"] }
  else match Plural.parse expression with
    | .error e => { code := failure, reports := [e.message] }
    | .ok rule =>
      let counts := countsFrom first last
      if json then
        let form (n : UInt64) : Json :=
          .object [("n", .integer n.toNat), ("form", .integer (rule.index n))]
        { code := success
          output := jsonText (.object [("expression", .string (toString rule)),
            ("rule", rule.toJson), ("forms", .array (counts.map form))]) }
      else
        let rows := counts.map fun n => [toString n.toNat, toString (rule.index n)]
        { code := success, output := toString rule ++ "\n" ++ tableText ["n", "Form"] rows }

/-- The value that a parameter stands for: an integer, a finite number, or else its text. -/
def parameterValue (text : String) : Value :=
  match Text.signed? text.toList with
  | some value => .integer value
  | none =>
    match (Number.signedDecimal? text.toList).filter Number.Double.isFinite with
    | some value => .number value
    | none => .text text

/-- The bindings of the parameters; the last value of a name stays. -/
def bindingsOf (parameters : List (String × String)) : Bindings :=
  .ofList (parameters.map fun (name, value) => (name, parameterValue value))

/-- Looks one message up. What went wrong is told in plain text. -/
def runEval (source : Source) (catalog text : String) (count : Option (String × UInt64))
    (parameters : List (String × String)) (json : Bool) : Outcome :=
  match loadPrepared source catalog with
  | .error e => { code := failure, reports := [e.message] }
  | .ok (_, resolver) =>
    let bindings := bindingsOf parameters
    let result := match count with
      | some (several, n) => resolver.ngettext text several n bindings
      | none => resolver.gettext text bindings
    let form := match count with
      | some (_, n) => [("form", Json.integer (resolver.pluralIndex n))]
      | none => []
    match result with
    | .ok written =>
      { code := success
        output := if json then jsonText (.object (("result", .string written) :: form))
          else written ++ "\n" }
    | .error e =>
      let told := if json then jsonText (.object [("error", .string e.message)])
        else s!"Evaluation error: {e.message}\n"
      { code := badData, complaint := some told }

def run (source : Source) : Command → Outcome
  | .build catalog output options => runBuild source catalog output options
  | .check files json => runCheck source files json
  | .plural expression first last json => runPlural expression first last json
  | .eval catalog text count parameters json =>
    runEval source catalog text count parameters json

def version : String := "jstrans 0.1.0\n"

def usage : String := "Usage: jstrans [OPTIONS] <COMMAND>"

def halted : Halt → Outcome
  | .usage => { code := badUsage, reports := [usage] }
  | .help => { code := success, output := usage ++ "\n" }
  | .version => { code := success, output := version }

def inputs : Command → List String
  | .build catalog _ _ => [catalog]
  | .check files _ => files
  | .plural _ _ _ _ => []
  | .eval catalog _ _ _ _ => [catalog]

end Phrasebook.Command

namespace Phrasebook

/-- Runs the program on its arguments. Under `--verbose` notices stand among the complaints, so
none is plain text. -/
def runArguments (source : Command.Source) (arguments : List String)
    (environment : Command.Environment) : Command.Outcome :=
  match Invocation.read arguments environment with
  | .error halt => Command.halted halt
  | .ok invocation =>
    let outcome := Command.run source invocation.command
    if invocation.verbose then { outcome with complaint := none } else outcome

/-- Runs the program in a folder: the file that it leaves is named by its place, and where none
can be written the command fails. -/
def runInFolder (folder : Command.Folder) (arguments : List String)
    (environment : Command.Environment) : Command.Outcome :=
  let outcome := runArguments folder.read arguments environment
  match outcome.file with
  | none => outcome
  | some (path, text) =>
    if path = Command.nullFile then { outcome with file := none }
    else match folder.writable? path with
      | some place => { outcome with file := some (Command.placeName place, text) }
      | none => { code := Command.failure, reports := [s!"Cannot write {path}"] }

end Phrasebook
