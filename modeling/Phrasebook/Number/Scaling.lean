import Phrasebook.Number.Arithmetic
import Phrasebook.Number.Decimal

/-!
Doubles scaled by powers of ten, by multiplying or dividing once. The result is rounded twice: a
decimal number of many digits may give a neighbour of the nearest double.
-/

namespace Phrasebook.Number

def maxPowerOfTen : Nat := 308

def powerOfTen (power : Nat) : Double :=
  .ofInt (10 ^ power)

/-- Divides by a power of ten, in steps where the power is no double. -/
def dividedByPower (x : Double) (power : Nat) : Double :=
  if power ≤ maxPowerOfTen then x.divide (powerOfTen power)
  else if x = .zero false then x
  else dividedByPower (x.divide (powerOfTen maxPowerOfTen)) (power - maxPowerOfTen)
termination_by power
decreasing_by unfold maxPowerOfTen at *; omega

def multipliedByPower (x : Double) (power : Nat) : Double :=
  if power ≤ maxPowerOfTen then x.multiply (powerOfTen power)
  else if x = .zero false then x
  else .infinite false

def Decimal.scaled (number : Decimal) : Double :=
  match number.exponent with
  | .ofNat power => multipliedByPower (.ofInt number.coefficient) power
  | .negSucc power => dividedByPower (.ofInt number.coefficient) (power + 1)

end Phrasebook.Number
