/-!
Numerals: digits in a radix, and the whole numbers that a text of digits denotes.
-/

-- Powers are those of the core library, whatever else is imported.
attribute [instance (2000), default_instance high] instPowNat instPowUInt64Nat

namespace Phrasebook.Text

def isDigit (c : Char) : Bool :=
  '0' ≤ c && c ≤ '9'

def isLetter (c : Char) : Bool :=
  ('a' ≤ c && c ≤ 'z') || ('A' ≤ c && c ≤ 'Z')

/-- The value of a digit; letters of either case follow `9`. -/
def digitValue? (radix : Nat) (c : Char) : Option Nat :=
  let value :=
    if isDigit c then some (c.toNat - '0'.toNat)
    else if 'a' ≤ c && c ≤ 'z' then some (c.toNat - 'a'.toNat + 10)
    else if 'A' ≤ c && c ≤ 'Z' then some (c.toNat - 'A'.toNat + 10)
    else none
  value.filter (· < radix)

/-- The number that a row of decimal digits denotes, read after `start`. -/
def decimalValue (start : Nat) (digits : List Char) : Nat :=
  digits.foldl (fun value c => 10 * value + (c.toNat - '0'.toNat)) start

/-- The number that digits of the radix denote; `none` for the empty text and for any other
character. -/
def numeral? (radix : Nat) (text : List Char) : Option Nat :=
  if text.isEmpty then none
  else text.foldlM (fun value c => (digitValue? radix c).map (radix * value + ·)) 0

def unsigned? (radix bound : Nat) (text : List Char) : Option Nat :=
  let digits := match text with
    | '+' :: rest => rest
    | _ => text
  (numeral? radix digits).filter (· < bound)

/-- A decimal numeral with or without a sign, in the range of a signed 64-bit word. -/
def signed? (text : List Char) : Option Int64 :=
  match text with
  | '-' :: digits =>
    ((numeral? 10 digits).filter (· ≤ 2 ^ 63)).map fun value => Int64.ofInt (-(value : Int))
  | _ => (unsigned? 10 (2 ^ 63) text).map fun value => Int64.ofInt value

def decimal (value : Nat) : List Char :=
  Nat.toDigits 10 value

def signedDecimal (value : Int) : List Char :=
  if value < 0 then '-' :: decimal value.natAbs else decimal value.natAbs

end Phrasebook.Text
