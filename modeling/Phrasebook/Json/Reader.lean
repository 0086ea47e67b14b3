import Phrasebook.Json.Scalar

/-!
Reading JSON. The parts of a list or an object are read one by one, so that a reader for a
particular type can take its fields as they come. A reader of any value builds on them, and so
does one that passes a value by without keeping it.
-/

namespace Phrasebook.Json

def maxDepth : Nat := 127

/-- Looks for the next item of a list. At the closing bracket there is none. -/
def nextItem? (first : Bool) (text : List Char) : Except Refusal (Option (List Char)) :=
  match dropBlanks text with
  | [] => refuse .endInList []
  | c :: rest =>
    if c = ']' then .ok none
    else if first then .ok (some (c :: rest))
    else if c = ',' then
      match dropBlanks rest with
      | [] => refuse .endInValue []
      | ']' :: after => refuseNext .trailingComma (']' :: after)
      | after => .ok (some after)
    else refuseNext .missingListComma (c :: rest)

/-- Looks for the next field of an object and reads its name. At the closing brace there is
none. -/
def nextField? (first : Bool) (text : List Char) : Except Refusal (Option (String × List Char)) :=
  match dropBlanks text with
  | [] => refuse .endInObject []
  | c :: rest =>
    if c = '\x7d' then .ok none
    else if first then
      if c = '"' then (readString rest).map some else refuseNext .keyIsNoString (c :: rest)
    else if c = ',' then
      match dropBlanks rest with
      | [] => refuse .endInValue []
      | d :: after =>
        if d = '"' then (readString after).map some
        else if d = '\x7d' then refuseNext .trailingComma (d :: after)
        else refuseNext .keyIsNoString (d :: after)
    else refuseNext .missingObjectComma (c :: rest)

def readColon (text : List Char) : Except Refusal (List Char) :=
  match dropBlanks text with
  | [] => refuse .endInObject []
  | c :: rest => if c = ':' then .ok rest else refuseNext .missingColon (c :: rest)

/-- Where a list is left: behind its bracket if that comes next. -/
def leaveList (text : List Char) : List Char :=
  match dropBlanks text with
  | ']' :: rest => rest
  | ',' :: rest => dropBlanks rest
  | rest => rest

def leaveObject (text : List Char) : List Char :=
  match dropBlanks text with
  | [] => []
  | c :: rest => if c = '\x7d' then rest else c :: rest

def endList (text : List Char) : Except Refusal (List Char) :=
  match dropBlanks text with
  | [] => refuse .endInList []
  | ']' :: rest => .ok rest
  | ',' :: rest =>
    match dropBlanks rest with
    | ']' :: after => refuseNext .trailingComma (']' :: after)
    | after => refuseNext .trailingCharacters after
  | rest => refuseNext .trailingCharacters rest

def endObject (text : List Char) : Except Refusal (List Char) :=
  match dropBlanks text with
  | [] => refuse .endInObject []
  | c :: rest =>
    if c = '\x7d' then .ok rest
    else if c = ',' then refuseNext .trailingComma (c :: rest)
    else refuseNext .trailingCharacters (c :: rest)

/-- Gives a refusal of a whole value its place, where the value is left. -/
def Refusal.settle (leave : List Char → List Char) : Refusal → Refusal
  | placed fault left => placed fault left
  | unplaced fault rest => placed fault (Text.byteLength (leave rest))

def closing {α : Type} (close : List Char → Except Refusal (List Char))
    (leave : List Char → List Char) :
    Except Refusal (α × List Char) → Except Refusal (α × List Char)
  | .ok (value, rest) => (close rest).map fun after => (value, after)
  | .error refusal => .error (refusal.settle leave)

def closingList {α : Type} (content : Except Refusal (α × List Char)) :
    Except Refusal (α × List Char) :=
  closing endList leaveList content

def closingObject {α : Type} (content : Except Refusal (α × List Char)) :
    Except Refusal (α × List Char) :=
  closing endObject leaveObject content

def readItemsWithin {α : Type} (item : Reader α) : Nat → Bool → Reader (List α)
  | 0, _, text => .ok ([], text)
  | steps + 1, first, text =>
    match nextItem? first text with
    | .error refusal => .error refusal
    | .ok none => .ok ([], text)
    | .ok (some rest) =>
      match item rest with
      | .error refusal => .error refusal
      | .ok (value, rest) =>
        (readItemsWithin item steps false rest).map fun (values, after) => (value :: values, after)

/-- Reads items up to the closing bracket. Every item takes a character, so the length of the
text bounds the steps. -/
def readItems {α : Type} (item : Reader α) : Reader (List α) := fun text =>
  readItemsWithin item (text.length + 1) true text

def readFieldsWithin {σ : Type} (field : σ → String → Reader σ) : Nat → Bool → σ → Reader σ
  | 0, _, state, text => .ok (state, text)
  | steps + 1, first, state, text =>
    match nextField? first text with
    | .error refusal => .error refusal
    | .ok none => .ok (state, text)
    | .ok (some (name, rest)) =>
      match field state name rest with
      | .error refusal => .error refusal
      | .ok (state, rest) => readFieldsWithin field steps false state rest

/-- Reads fields up to the closing brace and lets each change a state; the text handed on
begins behind the name. Every field takes a character, so the length of the text bounds the
steps. -/
def readFields {σ : Type} (field : σ → String → Reader σ) (start : σ) : Reader σ := fun text =>
  readFieldsWithin field (text.length + 1) true start text

def Numeral.toJson : Numeral → Json
  | integer value => .integer value
  | real value => .real value

def readScalar : Reader Json
  | [] => refuse .endInValue []
  | c :: rest =>
    if c = 'n' then (readWord "ull".toList rest).map (.null, ·)
    else if c = 't' then (readWord "rue".toList rest).map (.bool true, ·)
    else if c = 'f' then (readWord "alse".toList rest).map (.bool false, ·)
    else if c = '"' then (readString rest).map fun (text, after) => (.string text, after)
    else if c = '-' ∨ Text.isDigit c then
      (readNumber (c :: rest)).map fun (value, after) => (value.toJson, after)
    else refuseNext .noValue (c :: rest)

/-- Reads any value, of which no more than `depth` lists and objects are open at once. -/
def readValue : Nat → Reader Json
  | depth, text =>
    match dropBlanks text with
    | [] => refuse .endInValue []
    | c :: rest =>
      if c = '[' then
        match depth with
        | 0 => refuseNext .tooDeep (c :: rest)
        | depth + 1 =>
          (closingList (readItems (readValue depth) rest)).map
            fun (items, after) => (.array items, after)
      else if c = '\x7b' then
        match depth with
        | 0 => refuseNext .tooDeep (c :: rest)
        | depth + 1 =>
          let field (fields : List (String × Json)) (name : String) : Reader _ := fun text => do
            let (value, after) ← readValue depth (← readColon text)
            return ((name, value) :: fields, after)
          (closingObject (readFields field [] rest)).map
            fun (fields, after) => (.object fields.reverse, after)
      else readScalar (c :: rest)

def readWhole {α : Type} (reader : Reader α) (text : List Char) : Except ReadError α :=
  match reader text with
  | .error refusal => .error (refusal.toError text)
  | .ok (value, rest) =>
    match dropBlanks rest with
    | [] => .ok value
    | c :: after => .error ((Refusal.placed .trailingCharacters
        (Text.byteLength (c :: after) - 1)).toError text)

/-- What stands at the front of a text in place of a value of another kind. Words, numbers and
strings are read to their ends; lists and objects are not. -/
def readFound (expected : String) (text : List Char) : Refusal :=
  let wrong (found : Found) (rest : List Char) : Refusal :=
    .placed (.wrongType found expected) (Text.byteLength rest)
  match text with
  | '[' :: _ => wrong .sequence text
  | '\x7b' :: _ => wrong .map text
  | _ =>
    match readScalar text with
    | .error refusal => refusal
    | .ok (.bool value, rest) => wrong (.bool value) rest
    | .ok (.integer value, rest) => wrong (.integer value) rest
    | .ok (.real value, rest) => wrong (.real value) rest
    | .ok (.string value, rest) => wrong (.string value) rest
    | .ok (_, rest) => wrong .null rest

def readText : Reader String := fun text =>
  match dropBlanks text with
  | [] => refuse .endInValue []
  | c :: rest =>
    if c = '"' then readString rest else .error (readFound "a string" (c :: rest))

def readOptionalText : Reader (Option String) := fun text =>
  match dropBlanks text with
  | 'n' :: rest => (readWord "ull".toList rest).map (none, ·)
  | rest => (readText rest).map fun (value, after) => (some value, after)

def readList {α : Type} (item : Nat → Reader α) (depth : Nat) : Reader (List α) := fun text =>
  match dropBlanks text with
  | [] => refuse .endInValue []
  | c :: rest =>
    if c = '[' then
      match depth with
      | 0 => refuseNext .tooDeep (c :: rest)
      | depth + 1 => closingList (readItems (item depth) rest)
    else .error (readFound "a sequence" (c :: rest))

end Phrasebook.Json
