import Phrasebook.Artifact.Options
import Phrasebook.Command.Arguments
import Phrasebook.Value

/-!
The commands and what they are given.
-/

namespace Phrasebook

inductive Command where
  | build (catalog : String) (output : Option String) (options : Artifact.Options)
  | check (files : List String) (json : Bool)
  | plural (expression : String) (first last : UInt64) (json : Bool)
  | eval (catalog text : String) (count : Option (String × UInt64))
      (parameters : List (String × String)) (json : Bool)

structure Invocation where
  command : Command
  verbose : Bool

namespace Command

def isCount (text : String) : Bool :=
  (Text.unsigned? 10 (2 ^ 64) text.toList).isSome

def countOf (text : String) : UInt64 :=
  UInt64.ofNat ((Text.unsigned? 10 (2 ^ 64) text.toList).getD 0)

def isPath (text : String) : Bool := !text.isEmpty

def isFlavor (text : String) : Bool := (Artifact.Flavor.ofName? text).isSome

def isColor (text : String) : Bool := ["auto", "always", "never"].contains text

def isParameter (text : String) : Bool := text.toList.contains '='

def parameterOf (text : String) : String × String :=
  let (name, value) := splitEquals text.toList
  (String.ofList name, String.ofList (value.getD []))

def commonOptions : List OptionSpec := [
  { name := "color", arity := .once, accepts := isColor },
  { name := "verbose", letter := some 'v' }]

def jsonOption : OptionSpec := { name := "json" }

def mainSpec : Spec where
  options := commonOptions
  subcommands := ["build", "check", "plural", "eval", "help"]
  hasVersion := true

def buildSpec : Spec where
  options := commonOptions ++ [
    { name := "output", letter := some 'o', arity := .once, accepts := isPath },
    { name := "namespace", arity := .once },
    { name := "flavor", arity := .once, accepts := isFlavor },
    { name := "compact" },
    { name := "locale", arity := .once }]
  maxOthers := some 1
  acceptsOther := isPath

def checkSpec : Spec where
  options := commonOptions ++ [jsonOption]
  maxOthers := none
  acceptsOther := isPath

def pluralSpec : Spec where
  options := commonOptions ++ [
    { name := "from", arity := .once, accepts := isCount },
    { name := "to", arity := .once, accepts := isCount },
    jsonOption]
  maxOthers := some 1

def evalSpec : Spec where
  options := commonOptions ++ [
    { name := "text", arity := .once },
    { name := "plural", arity := .once },
    { name := "count", arity := .once, accepts := isCount },
    { name := "param", letter := some 'p', arity := .many, accepts := isParameter },
    jsonOption]
  maxOthers := some 1
  acceptsOther := isPath

abbrev Environment := List (String × String)

def valueOrVariable? (reading : Reading) (environment : Environment) (name fallback : String) :
    Option String :=
  (reading.value? name).or (environment.lookup fallback)

def readBuild (reading : Reading) (environment : Environment) : Except Halt Command :=
  let flavor := match valueOrVariable? reading environment "flavor" "JSTRANS_FLAVOR" with
    | none => some Artifact.Flavor.global
    | some name => Artifact.Flavor.ofName? name
  match reading.others, flavor with
  | [catalog], some flavor =>
    .ok (.build catalog (reading.value? "output")
      { namespaceName := (valueOrVariable? reading environment "namespace"
          "JSTRANS_NAMESPACE").getD Artifact.defaultNamespace
        flavor := flavor
        pretty := !reading.has "compact"
        locale := reading.value? "locale" })
  | _, _ => .error .usage

def readCheck (reading : Reading) : Except Halt Command :=
  if reading.others.isEmpty then .error .usage
  else .ok (.check reading.others (reading.has "json"))

def readPlural (reading : Reading) : Except Halt Command :=
  match reading.others with
  | [expression] =>
    .ok (.plural expression (((reading.value? "from").map countOf).getD 0)
      (((reading.value? "to").map countOf).getD 30) (reading.has "json"))
  | _ => .error .usage

/-- A plural text and a count need each other. -/
def readEval (reading : Reading) : Except Halt Command :=
  let parameters := (reading.valuesOf "param").map parameterOf
  match reading.others, reading.value? "text", reading.value? "plural", reading.value? "count" with
  | [catalog], some text, none, none =>
    .ok (.eval catalog text none parameters (reading.has "json"))
  | [catalog], some text, some several, some count =>
    .ok (.eval catalog text (some (several, countOf count)) parameters (reading.has "json"))
  | _, _, _, _ => .error .usage

def readCommand (environment : Environment) (name : String) (arguments : List String) :
    Except Halt (Command × Reading) := do
  let read (spec : Spec) := readArguments spec {} none arguments
  match name with
  | "build" => do
    let reading ← read buildSpec
    return (← readBuild reading environment, reading)
  | "check" => do
    let reading ← read checkSpec
    return (← readCheck reading, reading)
  | "plural" => do
    let reading ← read pluralSpec
    return (← readPlural reading, reading)
  | "eval" => do
    let reading ← read evalSpec
    return (← readEval reading, reading)
  | _ =>
    match arguments with
    | [] => .error .help
    | topic :: _ => .error (if mainSpec.subcommands.contains topic then .help else .usage)

end Command

namespace Invocation

def read (arguments : List String) (environment : Command.Environment) :
    Except Command.Halt Invocation := do
  let reading ← Command.readArguments Command.mainSpec {} none arguments
  match reading.subcommand with
  | none => .error .usage
  | some (name, rest) =>
    let (command, inner) ← Command.readCommand environment name rest
    return ⟨command, reading.has "verbose" || inner.has "verbose"⟩

end Invocation

end Phrasebook
