import Phrasebook.Number.Rounding
import Phrasebook.Text.Digits

/-!
Decimal numbers, and the shortest of them that stands for a double.
-/

namespace Phrasebook.Number

/-- The number `coefficient * 10 ^ exponent`. -/
structure Decimal where
  coefficient : Nat
  exponent : Int
  deriving DecidableEq, Repr

namespace Decimal

def toDouble (negative : Bool) (number : Decimal) : Double :=
  match number.exponent with
  | .ofNat power => .ofRatio negative (number.coefficient * 10 ^ power) 1
  | .negSucc power => .ofRatio negative number.coefficient (10 ^ (power + 1))

end Decimal

/-- Which one of two decimal numbers at the same distance stands for a double: the larger one,
or the one with an even last digit. -/
inductive Tie where
  | up
  | toEven
  deriving DecidableEq

/-- Whether the lower one of two neighbours is taken. The value lies `rest` parts above it, and
the step to the other one has `step` parts. -/
def Tie.takesLower (tie : Tie) (lower rest step : Nat) : Bool :=
  2 * rest < step || (2 * rest == step && tie == .toEven && lower % 2 == 0)

namespace Magnitude

/-- The power of ten of the leading digit of a positive magnitude. No double is smaller than
10^-325. -/
def leadingPower (m : Magnitude) : Int :=
  (Text.decimal (m.units * 10 ^ 325 / 2 ^ unitPower)).length - 326

def quotientBy (m : Magnitude) : Int → Nat × Nat
  | .ofNat power => (m.units, 2 ^ unitPower * 10 ^ power)
  | .negSucc power => (m.units * 10 ^ (power + 1), 2 ^ unitPower)

def ReadsBack (m : Magnitude) (number : Decimal) : Prop :=
  number.toDouble false = .finite false m

instance (m : Magnitude) (number : Decimal) : Decidable (m.ReadsBack number) := by
  unfold ReadsBack; infer_instance

/-- Among the decimal numbers that are multiples of a power of ten, the two around the
magnitude, the nearer one first. -/
def neighbours (m : Magnitude) (tie : Tie) (power : Int) : List Decimal :=
  let (numerator, denominator) := m.quotientBy power
  let lower := numerator / denominator
  if tie.takesLower lower (numerator % denominator) denominator then
    [⟨lower, power⟩, ⟨lower + 1, power⟩]
  else [⟨lower + 1, power⟩, ⟨lower, power⟩]

/-- The nearest decimal number of so many digits that reads back as the magnitude. -/
def withDigits? (m : Magnitude) (tie : Tie) (count : Nat) : Option Decimal :=
  (m.neighbours tie (m.leadingPower + 1 - count)).find? fun number => m.ReadsBack number

def exactly (m : Magnitude) : Decimal :=
  ⟨m.units * 5 ^ unitPower, -unitPower⟩

/-- The decimal number with the fewest digits that reads back; with that many digits, the one
nearest to the magnitude. Seventeen digits always suffice. -/
def shortest (m : Magnitude) (tie : Tie) : Decimal :=
  ((List.range 17).findSome? fun count => m.withDigits? tie (count + 1)).getD m.exactly

end Magnitude

end Phrasebook.Number
