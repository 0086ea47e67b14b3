import Phrasebook.Json.Skip

/-!
Records in JSON: an object with named fields, or a list of the fields in order.
-/

namespace Phrasebook.Json

/-- Reads a record, by the names of its fields or by their places. The reader of the fields
begins behind the opening bracket and ends in front of the closing one. -/
def readRecord {α : Type} (name : String) (byName byPlace : Nat → Reader α) (depth : Nat) :
    Reader α := fun text =>
  match dropBlanks text with
  | [] => refuse .endInValue []
  | c :: rest =>
    if c = '\x7b' then
      match depth with
      | 0 => refuseNext .tooDeep (c :: rest)
      | depth + 1 => closingObject (byName depth rest)
    else if c = '[' then
      match depth with
      | 0 => refuseNext .tooDeep (c :: rest)
      | depth + 1 => closingList (byPlace depth rest)
    else .error (readFound s!"struct {name}" (c :: rest))

def readOnce {α : Type} (name : String) (known : Option α) (value : Reader α) : Reader α :=
  fun text =>
    if known.isSome then .error (.unplaced (.duplicateField name) text)
    else do value (← readColon text)

def skipField (text : List Char) : Except Refusal (List Char) := do
  skipValue (← readColon text)

def required {α : Type} (name : String) (value : Option α) (rest : List Char) :
    Except Refusal α :=
  match value with
  | some value => .ok value
  | none => .error (.unplaced (.missingField name) rest)

def readPlace? {α : Type} (place : Nat) (value : Reader α) (text : List Char) :
    Except Refusal (Option α × List Char) :=
  match nextItem? (place == 0) text with
  | .error refusal => .error refusal
  | .ok none => .ok (none, text)
  | .ok (some rest) => (value rest).map fun (value, after) => (some value, after)

end Phrasebook.Json
