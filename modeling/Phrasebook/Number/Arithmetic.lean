import Phrasebook.Number.Rounding

/-!
Operations on doubles. Each gives the double nearest to the exact result.
-/

namespace Phrasebook.Number.Double

def negate : Double → Double
  | nan => nan
  | infinite negative => infinite (!negative)
  | finite negative magnitude => finite (!negative) magnitude

/-- The sum. An exact zero is negative only as the sum of two negative zeros. -/
def add : Double → Double → Double
  | nan, _ => nan
  | _, nan => nan
  | infinite first, infinite second => if first = second then infinite first else nan
  | infinite first, _ => infinite first
  | _, infinite second => infinite second
  | finite first m, finite second k =>
    let total := signedUnits first m + signedUnits second k
    if total = 0 then zero (first && second) else ofUnits total

def subtract (x y : Double) : Double :=
  x.add y.negate

def multiply : Double → Double → Double
  | nan, _ => nan
  | _, nan => nan
  | infinite first, infinite second => infinite (first != second)
  | infinite first, finite second k => if k.units = 0 then nan else infinite (first != second)
  | finite first m, infinite second => if m.units = 0 then nan else infinite (first != second)
  | finite first m, finite second k =>
    ofRatio (first != second) (m.units * k.units) (2 ^ (2 * unitPower))

def divide : Double → Double → Double
  | nan, _ => nan
  | _, nan => nan
  | infinite _, infinite _ => nan
  | infinite first, finite second _ => infinite (first != second)
  | finite first _, infinite second => zero (first != second)
  | finite first m, finite second k =>
    if k.units = 0 then if m.units = 0 then nan else infinite (first != second)
    else ofRatio (first != second) m.units k.units

def truncate : Double → Double
  | finite negative magnitude => ofRatio negative (magnitude.units / 2 ^ unitPower) 1
  | x => x

/-- The remainder of the division whose quotient is taken toward zero; it has the sign of the
first operand. -/
def remainder : Double → Double → Double
  | nan, _ => nan
  | _, nan => nan
  | infinite _, _ => nan
  | x, infinite _ => x
  | finite negative m, finite _ k =>
    if k.units = 0 then nan else ofRatio negative (m.units % k.units) (2 ^ unitPower)

def less : Double → Double → Bool
  | nan, _ => false
  | _, nan => false
  | infinite first, infinite second => first && !second
  | infinite first, _ => first
  | _, infinite second => !second
  | finite first m, finite second k => signedUnits first m < signedUnits second k

def absolute : Double → Double
  | nan => nan
  | infinite _ => infinite false
  | finite _ magnitude => finite false magnitude

def modulo (x y : Double) : Double :=
  let rest := x.remainder y
  if rest.less (zero false) then rest.add y.absolute else rest

/-- The whole part as a number in the given range; what lies outside goes to the nearer end,
and what is no number to zero. -/
def clampedWhole (low high : Int) : Double → Int
  | nan => 0
  | infinite negative => if negative then low else high
  | finite negative magnitude =>
    let whole : Int := (magnitude.units / 2 ^ unitPower : Nat)
    max low (min high (if negative then -whole else whole))

/-- The number as a signed 32-bit integer: the whole part, reduced modulo 2^32 to the range
around zero. Infinities and what is no number give zero. -/
def toInt32 (x : Double) : Int :=
  if x.isFinite then
    let wrapped := x.truncate.modulo (ofInt (2 ^ 32))
    let signed :=
      if wrapped.less (ofInt (2 ^ 31)) then wrapped else wrapped.subtract (ofInt (2 ^ 32))
    signed.clampedWhole (-(2 ^ 31)) (2 ^ 31 - 1)
  else 0

end Phrasebook.Number.Double
