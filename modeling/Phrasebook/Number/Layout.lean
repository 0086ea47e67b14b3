import Phrasebook.Number.Decimal

/-!
How numbers are written in text: positionally where they are neither very small nor very large,
and with an exponent outside.
-/

namespace Phrasebook.Number

structure Style where
  /-- The largest number of places in front of the point. -/
  maxWhole : Int
  /-- Fewer zeros than this may stand between the point and the first digit. -/
  zeroLimit : Int
  /-- Whether a whole number ends in a point and a zero. -/
  wholePoint : Bool
  /-- Whether an exponent that is not negative has a plus sign. -/
  plusSign : Bool
  /-- Whether a negative zero has its sign. -/
  signedZero : Bool
  /-- Which one of two shortest decimal numbers is written. -/
  tie : Tie

/-- Values are written positionally from 10^-6 up to 10^21, whole numbers without a point. -/
def Style.ofValues : Style := ⟨21, 6, false, true, false, .up⟩

/-- Listings are positional from 10^-5 up to 10^16, and a whole number shows its point. -/
def Style.ofListings : Style := ⟨16, 5, true, true, true, .toEven⟩

def withoutEndZeros (digits : List Char) : List Char :=
  (digits.reverse.dropWhile (· == '0')).reverse

def exponentSign (style : Style) (power : Int) : List Char :=
  if power < 0 then ['-'] else if style.plusSign then ['+'] else []

def exponentPart (style : Style) (power : Int) : List Char :=
  'e' :: exponentSign style power ++ Text.decimal power.natAbs

/-- Writes the number whose digits are given and begin `point` places in front of the decimal
point, that is, `0.digits * 10 ^ point`. -/
def layout (style : Style) (digits : List Char) (point : Int) : List Char :=
  if digits.length ≤ point ∧ point ≤ style.maxWhole then
    digits ++ List.replicate (point - digits.length).toNat '0' ++
      (if style.wholePoint then ['.', '0'] else [])
  else if 0 < point ∧ point ≤ style.maxWhole then
    digits.take point.toNat ++ '.' :: digits.drop point.toNat
  else if -style.zeroLimit < point ∧ point ≤ 0 then
    '0' :: '.' :: List.replicate (-point).toNat '0' ++ digits
  else
    match digits with
    | [only] => only :: exponentPart style (point - 1)
    | digits => digits.take 1 ++ '.' :: digits.drop 1 ++ exponentPart style (point - 1)

def Decimal.written (style : Style) (number : Decimal) : List Char :=
  let digits := Text.decimal number.coefficient
  layout style (withoutEndZeros digits) (digits.length + number.exponent)

def Magnitude.written (style : Style) (m : Magnitude) : List Char :=
  if m.units = 0 then layout style ['0'] 1 else (m.shortest style.tie).written style

def Double.written (style : Style) : Double → List Char
  | .nan => "NaN".toList
  | .infinite negative => if negative then "-Infinity".toList else "Infinity".toList
  | .finite negative magnitude =>
    if negative && (style.signedZero || magnitude.units != 0) then
      '-' :: magnitude.written style
    else magnitude.written style

def Double.chars (x : Double) : List Char :=
  x.written .ofValues

def Double.text (x : Double) : String :=
  String.ofList x.chars

end Phrasebook.Number
