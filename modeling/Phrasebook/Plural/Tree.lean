import Phrasebook.Json.Record
import Phrasebook.Plural.Expr

/-!
Plural rules in JSON. A node is an object whose `op` names its kind and whose `args` holds its
operands: nothing for the count, a number for a literal, a node for a negation, a list for the
others.
-/

namespace Phrasebook.Plural

inductive Kind where
  | count
  | literal
  | not
  | binary
  | conditional
  deriving DecidableEq, Repr, Inhabited

def Kind.name : Kind → String
  | count => "n"
  | literal => "literal"
  | not => "not"
  | binary => "binary"
  | conditional => "conditional"

def Kind.ofName? (name : String) : Option Kind :=
  [Kind.count, .literal, .not, .binary, .conditional].find? (·.name == name)

def Operator.ofSymbol? (symbol : String) : Option Operator :=
  Operator.all.find? (·.symbol == symbol)

def node (kind : Kind) (args : Json) : Json :=
  .object [("op", .string kind.name), ("args", args)]

namespace Expr

def toJson : Expr → Json
  | .count => .object [("op", .string Kind.count.name)]
  | .literal value => node .literal (.integer value.toInt)
  | .not inner => node .not inner.toJson
  | .binary operator left right =>
    node .binary (.array [.string operator.symbol, left.toJson, right.toJson])
  | .conditional condition chosen otherwise =>
    node .conditional (.array [condition.toJson, chosen.toJson, otherwise.toJson])

def ofInteger? (value : Int) : Option Expr :=
  if -(2 ^ 63) ≤ value ∧ value < 2 ^ 63 then some (.literal (Int64.ofInt value)) else none

/-! Nodes whose operands come before their kind are read as plain values first. -/

/-- A name that stands for one of a few things: a string, or an object with nothing under it. -/
def nameOf? {α : Type} (find : String → Option α) : Json → Option α
  | .string name => find name
  | .object [(name, .null)] => find name
  | .object [(name, .object [])] => find name
  | _ => none

def only? (name : String) (fields : List (String × Json)) : Option (Option Json) :=
  match fields.filter (·.1 == name) with
  | [] => some none
  | [field] => some (some field.2)
  | _ => none

def partsOf? : Json → Option (Json × Option Json)
  | .object fields => do
    let kind ← (← only? "op" fields)
    return (kind, ← only? "args" fields)
  | .array [kind, args] => some (kind, some args)
  | _ => none

mutual

def ofJson? : Nat → Json → Option Expr
  | 0, _ => none
  | depth + 1, value => do
    let (kind, args) ← partsOf? value
    let kind ← nameOf? Kind.ofName? kind
    match args with
    | none => if kind = .count then some .count else none
    | some args => ofArgs? depth kind args

def ofArgs? : Nat → Kind → Json → Option Expr
  | _, .count, args => match args with
    | .null => some .count
    | _ => none
  | _, .literal, args => match args with
    | .integer value => ofInteger? value
    | _ => none
  | 0, _, _ => none
  | depth + 1, .not, args => (ofJson? depth args).map .not
  | depth + 1, .binary, args => match args with
    | .array [operator, left, right] => do
      let operator ← nameOf? Operator.ofSymbol? operator
      return .binary operator (← ofJson? depth left) (← ofJson? depth right)
    | _ => none
  | depth + 1, .conditional, args => match args with
    | .array [condition, chosen, otherwise] => do
      return .conditional (← ofJson? depth condition) (← ofJson? depth chosen)
        (← ofJson? depth otherwise)
    | _ => none

end

/-! Nodes whose kind comes first are read as they come. -/

def misfit {α : Type} (rest : List Char) : Except Json.Refusal α :=
  .error (.unplaced (.noVariant "Expr") rest)

def readNothing (text : List Char) : Except Json.Refusal (List Char) :=
  match Json.dropBlanks text with
  | [] => Json.refuse .endInValue []
  | c :: rest =>
    if c = 'n' then Json.readWord "ull".toList rest else misfit (c :: rest)

def readName {α : Type} (find : String → Option α) (depth : Nat) : Json.Reader α := fun text => do
  match Json.dropBlanks text with
  | [] => Json.refuse .endInValue []
  | c :: rest =>
    if c = '"' then
      let (name, rest) ← Json.readString rest
      match find name with
      | some found => return (found, rest)
      | none => misfit rest
    else if c = '\x7b' then
      if depth = 0 then Json.refuseNext .tooDeep (c :: rest)
      else
        let (name, rest) ← Json.readText rest
        match find name with
        | none => misfit rest
        | some found =>
          let rest ← readNothing (← Json.readColon rest)
          match Json.dropBlanks rest with
          | [] => Json.refuse .endInObject []
          | d :: rest => if d = '\x7d' then return (found, rest) else Json.refuse .noValue (d :: rest)
    else Json.refuseNext .noValue (c :: rest)

def readLiteral : Json.Reader Expr := fun text => do
  match Json.dropBlanks text with
  | [] => Json.refuse .endInValue []
  | c :: rest =>
    if c = '-' ∨ Text.isDigit c then
      match ← Json.readNumber (c :: rest) with
      | (.integer value, rest) =>
        match ofInteger? value with
        | some rule => return (rule, rest)
        | none => misfit rest
      | (.real _, rest) => misfit rest
    else misfit (c :: rest)

def readThree {α β : Type} (first : Json.Reader α) (other : Json.Reader β) (depth : Nat) :
    Json.Reader (α × β × β) := fun text => do
  match Json.dropBlanks text with
  | [] => Json.refuse .endInValue []
  | c :: rest =>
    if c = '[' then
      if depth = 0 then Json.refuseNext .tooDeep (c :: rest)
      else
        let (a, rest) ← Json.readPlace? 0 first rest
        let (b, rest) ← Json.readPlace? 1 other rest
        let (c, rest) ← Json.readPlace? 2 other rest
        match a, b, c with
        | some a, some b, some c => return ((a, b, c), ← Json.endList rest)
        | _, _, _ => misfit rest
    else misfit (c :: rest)

/-- Reads the operands of a node. Those in a list lie one level deeper. -/
def readArgs (depth : Nat) (inner deeper : Json.Reader Expr) : Kind → Json.Reader Expr
  | .count, text => (readNothing text).map (.count, ·)
  | .literal, text => readLiteral text
  | .not, text => (inner text).map fun (rule, rest) => (.not rule, rest)
  | .binary, text =>
    (readThree (readName Operator.ofSymbol? (depth - 1)) deeper depth text).map
      fun ((operator, left, right), rest) => (.binary operator left right, rest)
  | .conditional, text =>
    (readThree deeper deeper depth text).map
      fun ((condition, chosen, otherwise), rest) =>
        (.conditional condition chosen otherwise, rest)

/-- What has been read of a node. Operands in front of the kind are kept as a plain value. -/
structure Draft where
  kind : Option Kind := none
  early : Option Json := none
  rule : Option Expr := none

/-- A plain value down to the greatest depth takes at most so many steps to judge. -/
def maxSteps : Nat := 2 * Json.maxDepth + 2

def readField (depth : Nat) (inner deeper : Json.Reader Expr) (known : Draft) (name : String) :
    Json.Reader Draft := fun text => do
  if name = "op" then
    let (kind, rest) ← Json.readOnce name known.kind (readName Kind.ofName? depth) text
    match known.early with
    | none => return ({ known with kind := some kind }, rest)
    | some args =>
      match ofArgs? maxSteps kind args with
      | some rule => return ({ known with kind := some kind, rule := some rule }, rest)
      | none => misfit rest
  else if name = "args" then
    if known.early.isSome || known.rule.isSome then
      .error (.unplaced (.duplicateField name) text)
    else match known.kind with
      | some kind =>
        let (rule, rest) ← readArgs depth inner deeper kind (← Json.readColon text)
        return ({ known with rule := some rule }, rest)
      | none =>
        let (args, rest) ← Json.readValue depth (← Json.readColon text)
        return ({ known with early := some args }, rest)
  else return (known, ← Json.skipField text)

/-- Reads the fields of a node. A count needs no operands. -/
def readByName (inner deeper : Json.Reader Expr) (depth : Nat) : Json.Reader Expr := fun text => do
  let (known, rest) ← Json.readFields (readField depth inner deeper) {} text
  let kind ← Json.required "op" known.kind rest
  match known.rule, kind with
  | some rule, _ => return (rule, rest)
  | none, .count => return (.count, rest)
  | none, _ => .error (.unplaced (.missingField "args") rest)

def readByPlace (inner deeper : Json.Reader Expr) (depth : Nat) : Json.Reader Expr :=
  fun text => do
    match ← Json.readPlace? 0 (readName Kind.ofName? depth) text with
    | (none, rest) => misfit rest
    | (some kind, rest) =>
      match ← Json.readPlace? 1 (readArgs depth inner deeper kind) rest with
      | (none, rest) => misfit rest
      | (some rule, rest) => return (rule, rest)

/-- Reads a node; `inner` and `deeper` read nodes one and two levels below. -/
def readNode (inner deeper : Json.Reader Expr) (depth : Nat) : Json.Reader Expr :=
  Json.readRecord "Expr" (readByName inner deeper) (readByPlace inner deeper) depth

def readNone : Json.Reader Expr := fun text => Json.refuseNext .tooDeep text

def readRule : Nat → Json.Reader Expr
  | 0 => readNode readNone readNone 0
  | 1 => readNode (readRule 0) readNone 1
  | depth + 2 => readNode (readRule (depth + 1)) (readRule depth) (depth + 2)

def readChars (text : List Char) : Except Json.ReadError Expr :=
  Json.readWhole (readRule Json.maxDepth) text

def read (text : String) : Except Json.ReadError Expr :=
  readChars text.toList

end Expr

end Phrasebook.Plural
