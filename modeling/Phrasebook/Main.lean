import Phrasebook.Command.Run

/-!
The program: reads the files that a command asks for, runs it, and writes what it leaves.
-/

namespace Phrasebook.Main

open Command

/-- The number of a system error, which may be given as its negation. -/
def errorNumber (code : UInt32) : UInt32 :=
  if code < 0x80000000 then code else 0 - code

def failureOf (e : IO.Error) : ReadFailure :=
  match e with
  | .noFileOrDirectory _ _ _ => .missing
  | .inappropriateType _ code _ =>
    if errorNumber code = 21 then .isFolder
    else if errorNumber code = 20 then .noFolder
    else .other (toString e)
  | .invalidArgument _ code _ =>
    if errorNumber code = 36 then .longName else .other (toString e)
  | _ => .other (toString e)

def readFile (path : String) : IO (Except ReadFailure String) := do
  try
    let bytes ← IO.FS.readBinFile path
    match String.fromUTF8? bytes with
    | some text => return .ok text
    | none => return .error .noText
  catch e => return .error (failureOf e)

def wanted (arguments : List String) (environment : Environment) : List String :=
  match Invocation.read arguments environment with
  | .error _ => []
  | .ok invocation => inputs invocation.command

def variableNames : List String := ["JSTRANS_NAMESPACE", "JSTRANS_FLAVOR"]

def readEnvironment : IO Environment := do
  let found ← variableNames.mapM fun name => return (← IO.getEnv name).map ((name, ·))
  return found.filterMap id

def finish (outcome : Outcome) : IO UInt32 := do
  IO.print outcome.output
  outcome.reports.forM IO.eprintln
  if let some complaint := outcome.complaint then
    IO.eprint complaint
  match outcome.file with
  | none => return outcome.code.toUInt32
  | some (path, text) =>
    try
      IO.FS.writeFile path text
      return outcome.code.toUInt32
    catch e =>
      IO.eprintln s!"Cannot write {path}: {e}"
      return failure.toUInt32

end Phrasebook.Main

def main (arguments : List String) : IO UInt32 := do
  let environment ← Phrasebook.Main.readEnvironment
  let paths := Phrasebook.Main.wanted arguments environment
  let files ← paths.mapM fun path => return (path, ← Phrasebook.Main.readFile path)
  let source (path : String) := (files.lookup path).getD (.error .missing)
  Phrasebook.Main.finish (Phrasebook.runArguments source arguments environment)
