import Phrasebook.Number.Arithmetic
import Phrasebook.Number.Layout
import Phrasebook.Number.Reading

/-!
The values that a message can be given: texts, whole numbers and doubles.
-/

namespace Phrasebook

inductive Value where
  | text (value : String)
  | integer (value : Int64)
  | number (value : Number.Double)
  deriving DecidableEq

namespace Value

def toNumber : Value → Number.Double
  | text value => Number.ofText value
  | integer value => .ofInt value.toInt
  | number value => value

def display : Value → String
  | text value => value
  | integer value => String.ofList (Text.signedDecimal value.toInt)
  | number value => value.text

def asInteger : Value → Option Int64
  | integer value => some value
  | _ => none

def asText : Value → Option String
  | text value => some value
  | _ => none

/-- A count as a value. A count past the largest integer counts as the largest. -/
def ofCount (n : UInt64) : Value :=
  integer (if n < 2 ^ 63 then n.toInt64 else Int64.maxValue)

end Value

end Phrasebook
