/-!
Reading the arguments of a command line. Options may stand anywhere among the other arguments,
and after `--` nothing is an option. A value that starts with a minus sign has to be joined to
its option by an equals sign.
-/

namespace Phrasebook.Command

inductive Arity where
  | flag
  | once
  | many
  deriving DecidableEq, Repr

/-- An option with its long name, its letter if it has one, and the values that it takes. -/
structure OptionSpec where
  name : String
  letter : Option Char := none
  arity : Arity := .flag
  accepts : String → Bool := fun _ => true

/-- The arguments that a command takes besides options; of a command with subcommands, the
first names one and ends the reading. -/
structure Spec where
  options : List OptionSpec
  maxOthers : Option Nat := some 0
  acceptsOther : String → Bool := fun _ => true
  subcommands : List String := []
  hasVersion : Bool := false

inductive Halt where
  | usage
  | help
  | version
  deriving DecidableEq, Repr

structure Reading where
  flags : List String := []
  values : List (String × String) := []
  others : List String := []
  subcommand : Option (String × List String) := none
  deriving DecidableEq, Repr

namespace Reading

def has (reading : Reading) (flag : String) : Bool :=
  reading.flags.contains flag

def value? (reading : Reading) (name : String) : Option String :=
  reading.values.lookup name

def valuesOf (reading : Reading) (name : String) : List String :=
  (reading.values.filter (·.1 == name)).map Prod.snd

end Reading

def Spec.byName? (spec : Spec) (name : String) : Option OptionSpec :=
  spec.options.find? (·.name == name)

def Spec.byLetter? (spec : Spec) (letter : Char) : Option OptionSpec :=
  spec.options.find? (·.letter == some letter)

def noteFlag (reading : Reading) (option : OptionSpec) : Except Halt Reading :=
  if reading.has option.name then .error .usage
  else .ok { reading with flags := reading.flags ++ [option.name] }

def noteValue (reading : Reading) (option : OptionSpec) (value : String) : Except Halt Reading :=
  if !option.accepts value then .error .usage
  else if option.arity == .once && (reading.value? option.name).isSome then .error .usage
  else .ok { reading with values := reading.values ++ [(option.name, value)] }

def noteOther (spec : Spec) (reading : Reading) (value : String) : Except Halt Reading :=
  if spec.maxOthers.any (· ≤ reading.others.length) || !spec.acceptsOther value then .error .usage
  else .ok { reading with others := reading.others ++ [value] }

def splitEquals (text : List Char) : List Char × Option (List Char) :=
  (text.takeWhile (· ≠ '='), (text.dropWhile (· ≠ '=')).tail?)

def readLong (spec : Spec) (reading : Reading) (text : List Char) :
    Except Halt (Reading × Option OptionSpec) :=
  let (name, value) := splitEquals text
  let name := String.ofList name
  match spec.byName? name with
  | some option =>
    match option.arity, value with
    | .flag, none => (noteFlag reading option).map (·, none)
    | .flag, some _ => .error .usage
    | _, some value => (noteValue reading option (String.ofList value)).map (·, none)
    | _, none => .ok (reading, some option)
  | none =>
    if value.isSome then .error .usage
    else if name = "help" then .error .help
    else if name = "version" ∧ spec.hasVersion then .error .version
    else .error .usage

/-- Reads options by their letters; the value of the last may follow at once. -/
def readLetters (spec : Spec) (reading : Reading) :
    List Char → Except Halt (Reading × Option OptionSpec)
  | [] => .ok (reading, none)
  | letter :: rest =>
    match spec.byLetter? letter with
    | some option =>
      match option.arity, rest with
      | .flag, rest => do readLetters spec (← noteFlag reading option) rest
      | _, [] => .ok (reading, some option)
      | _, '=' :: value => (noteValue reading option (String.ofList value)).map (·, none)
      | _, value => (noteValue reading option (String.ofList value)).map (·, none)
    | none =>
      if letter = 'h' then .error .help
      else if letter = 'V' ∧ spec.hasVersion then .error .version
      else .error .usage

def readOthers (spec : Spec) (reading : Reading) (arguments : List String) :
    Except Halt Reading :=
  arguments.foldlM (noteOther spec) reading

/-- Reads the arguments one after another; `waiting` is an option whose value comes next. -/
def readArguments (spec : Spec) (reading : Reading) (waiting : Option OptionSpec) :
    List String → Except Halt Reading
  | [] => if waiting.isSome then .error .usage else .ok reading
  | argument :: rest =>
    match argument.toList, waiting with
    | '-' :: _ :: _, some _ => .error .usage
    | '-' :: '-' :: [], none => readOthers spec reading rest
    | '-' :: '-' :: text, none => do
      let (reading, waiting) ← readLong spec reading text
      readArguments spec reading waiting rest
    | '-' :: letter :: text, none => do
      let (reading, waiting) ← readLetters spec reading (letter :: text)
      readArguments spec reading waiting rest
    | _, some option => do
      readArguments spec (← noteValue reading option argument) none rest
    | _, none => do
      if spec.subcommands.isEmpty then
        readArguments spec (← noteOther spec reading argument) none rest
      else if spec.subcommands.contains argument then
        return { reading with subcommand := some (argument, rest) }
      else .error .usage

end Phrasebook.Command
