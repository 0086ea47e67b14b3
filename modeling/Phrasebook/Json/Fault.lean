import Phrasebook.Json.Basic
import Phrasebook.Text.Listing
import Phrasebook.Text.Place

/-!
Why JSON text is refused, and where. A refusal names the place by the number of bytes left
behind it. A refusal of a whole value, such as a missing field, gets its place only when the
reader has left the value.
-/

namespace Phrasebook.Json

inductive Found where
  | null
  | bool (value : Bool)
  | integer (value : Int)
  | real (value : Number.Double)
  | string (text : String)
  | sequence
  | map
  deriving DecidableEq

inductive Fault where
  | endInValue
  | endInString
  | endInList
  | endInObject
  | missingColon
  | missingListComma
  | missingObjectComma
  | badWord
  | noValue
  | badEscape
  | badNumber
  | numberOutOfRange
  | loneSurrogate
  | endOfSurrogates
  | controlCharacter
  | keyIsNoString
  | trailingComma
  | trailingCharacters
  | tooDeep
  | missingField (name : String)
  | duplicateField (name : String)
  | wrongType (found : Found) (expected : String)
  | wrongLength (length : Nat) (expected : String)
  | noVariant (type : String)
  deriving DecidableEq

/-- A fault with its place, or at the text where the reader stopped inside a value. -/
inductive Refusal where
  | placed (fault : Fault) (bytesLeft : Nat)
  | unplaced (fault : Fault) (rest : List Char)
  deriving DecidableEq

/-- A reader takes a value off the front of a text. -/
abbrev Reader (α : Type) := List Char → Except Refusal (α × List Char)

def refuse {α : Type} (fault : Fault) (rest : List Char) : Except Refusal α :=
  .error (.placed fault (Text.byteLength rest))

/-- Refuses behind the next byte, which has been looked at. -/
def refuseNext {α : Type} (fault : Fault) (rest : List Char) : Except Refusal α :=
  .error (.placed fault (Text.byteLength rest - 1))

def Found.message : Found → String
  | null => "null"
  | bool value => s!"boolean `{value}`"
  | integer value => s!"integer `{value}`"
  | real value =>
    let written := String.ofList (value.written .ofListings)
    s!"floating point `{written}`"
  | string text =>
    let listed := String.ofList (Text.listing text.toList)
    s!"string {listed}"
  | sequence => "sequence"
  | map => "map"

def Fault.message : Fault → String
  | endInValue => "EOF while parsing a value"
  | endInString => "EOF while parsing a string"
  | endInList => "EOF while parsing a list"
  | endInObject => "EOF while parsing an object"
  | missingColon => "expected `:`"
  | missingListComma => "expected `,` or `]`"
  | missingObjectComma => "expected `,` or `\x7d`"
  | badWord => "expected ident"
  | noValue => "expected value"
  | badEscape => "invalid escape"
  | badNumber => "invalid number"
  | numberOutOfRange => "number out of range"
  | loneSurrogate => "lone leading surrogate in hex escape"
  | endOfSurrogates => "unexpected end of hex escape"
  | controlCharacter => "control character (\\u0000-\\u001F) found while parsing a string"
  | keyIsNoString => "key must be a string"
  | trailingComma => "trailing comma"
  | trailingCharacters => "trailing characters"
  | tooDeep => "recursion limit exceeded"
  | missingField name => s!"missing field `{name}`"
  | duplicateField name => s!"duplicate field `{name}`"
  | wrongType found expected => s!"invalid type: {found.message}, expected {expected}"
  | wrongLength length expected => s!"invalid length {length}, expected {expected}"
  | noVariant type => s!"data did not match any variant of untagged enum {type}"

/-- Where reading failed: the line from one, and the column in bytes from zero. -/
structure ReadError where
  fault : Fault
  line : Nat
  column : Nat
  deriving DecidableEq

def ReadError.message (e : ReadError) : String :=
  s!"{e.fault.message} at line {e.line} column {e.column}"

/-- The line and column behind so many bytes of a text, counted on from those given. -/
def placeAfter (line column : Nat) : Nat → List Char → Nat × Nat
  | bytes, [] => (line, column + bytes)
  | bytes, c :: rest =>
    if bytes < c.utf8Size then (line, column + bytes)
    else if c = '\n' then placeAfter (line + 1) 0 (bytes - c.utf8Size) rest
    else placeAfter line (column + c.utf8Size) (bytes - c.utf8Size) rest

def Refusal.bytesLeft : Refusal → Nat
  | placed _ left => left
  | unplaced _ rest => Text.byteLength rest

def Refusal.fault : Refusal → Fault
  | placed fault _ => fault
  | unplaced fault _ => fault

def Refusal.toError (text : List Char) (refusal : Refusal) : ReadError :=
  let place := placeAfter 1 0 (Text.byteLength text - refusal.bytesLeft) text
  ⟨refusal.fault, place.1, place.2⟩

end Phrasebook.Json
