import Phrasebook.Json.Fault
import Phrasebook.Number.Scaling

/-!
Reading the words, numbers and strings of JSON.
-/

namespace Phrasebook.Json

def isBlank (c : Char) : Bool :=
  c == ' ' || c == '\n' || c == '\t' || c == '\r'

def dropBlanks (text : List Char) : List Char :=
  text.dropWhile isBlank

def readWord : List Char → List Char → Except Refusal (List Char)
  | [], rest => .ok rest
  | _ :: _, [] => refuse .endInValue []
  | c :: expected, d :: rest =>
    if c = d then readWord expected rest else refuseNext .badWord (d :: rest)

def hexValue? (c : Char) : Option Nat :=
  Text.digitValue? 16 c

/-- Reads four hexadecimal digits. Four bytes are taken before they are judged. -/
def readFourHex : Reader Nat
  | a :: b :: c :: d :: rest =>
    match hexValue? a, hexValue? b, hexValue? c, hexValue? d with
    | some a, some b, some c, some d => .ok (((a * 16 + b) * 16 + c) * 16 + d, rest)
    | _, _, _, _ => .error (.placed .badEscape (Text.byteLength (a :: b :: c :: d :: rest) - 4))
  | text =>
    if 4 ≤ Text.byteLength text then .error (.placed .badEscape (Text.byteLength text - 4))
    else refuse .endInString []

def readSecondHalf (first : Nat) : List Char → Except Refusal Char
  | [] => refuse .endInString []
  | '\\' :: [] => refuse .endInString []
  | '\\' :: 'u' :: rest => do
    let (second, rest) ← readFourHex rest
    if second < 0xdc00 ∨ 0xdfff < second then refuse .loneSurrogate rest
    else return Char.ofNat ((first - 0xd800) * 0x400 + (second - 0xdc00) + 0x10000)
  | '\\' :: rest => refuseNext .endOfSurrogates rest
  | rest => refuseNext .endOfSurrogates rest

def letterEscape? : Char → Option Char
  | '"' => some '"'
  | '\\' => some '\\'
  | '/' => some '/'
  | 'b' => some '\x08'
  | 'f' => some '\x0c'
  | 'n' => some '\n'
  | 'r' => some '\r'
  | 't' => some '\t'
  | _ => none

/-- The character that the text after a backslash stands for, and how many characters of that
text do so. -/
def readEscape : List Char → Except Refusal (Char × Nat)
  | [] => refuse .endInString []
  | c :: rest =>
    if c = 'u' then do
      let (code, rest) ← readFourHex rest
      if 0xdc00 ≤ code ∧ code ≤ 0xdfff then refuse .loneSurrogate rest
      else if 0xd800 ≤ code ∧ code ≤ 0xdbff then return (← readSecondHalf code rest, 11)
      else return (Char.ofNat code, 5)
    else match letterEscape? c with
      | some decoded => .ok (decoded, 1)
      | none => refuseNext .badEscape (c :: rest)

/-- Reads a string whose opening quote has been read, after `skip` characters that belong to
an escape. -/
def readStringAfter : Nat → Reader (List Char)
  | _, [] => refuse .endInString []
  | skip + 1, _ :: rest => readStringAfter skip rest
  | 0, c :: rest =>
    if c = '"' then .ok ([], rest)
    else if c = '\\' then
      match readEscape rest with
      | .error refusal => .error refusal
      | .ok (decoded, length) =>
        (readStringAfter length rest).map fun (text, tail) => (decoded :: text, tail)
    else if c.toNat < 0x20 then refuse .controlCharacter rest
    else (readStringAfter 0 rest).map fun (text, tail) => (c :: text, tail)

def readString : Reader String := fun text =>
  (readStringAfter 0 text).map fun (decoded, rest) => (String.ofList decoded, rest)

/-- A number: whole in the range of 64-bit words, or else a double. -/
inductive Numeral where
  | integer (value : Int)
  | real (value : Number.Double)
  deriving DecidableEq

/-- Takes a digit of the whole part. From the first digit on that does not fit a 64-bit word,
the digits only count. -/
def takeWhole (number : Number.Decimal) (c : Char) : Number.Decimal :=
  let next := 10 * number.coefficient + (c.toNat - '0'.toNat)
  if number.exponent = 0 ∧ next < 2 ^ 64 then { number with coefficient := next }
  else { number with exponent := number.exponent + 1 }

/-- Takes the digits of a fraction, up to the first one that does not fit a 64-bit word. -/
def takeFraction (number : Number.Decimal) : List Char → Number.Decimal
  | [] => number
  | c :: rest =>
    let next := 10 * number.coefficient + (c.toNat - '0'.toNat)
    if next < 2 ^ 64 then takeFraction ⟨next, number.exponent - 1⟩ rest else number

def shifted (number : Number.Decimal) (down : Bool) (exponent : Nat) : Number.Decimal :=
  { number with
    exponent := if down then number.exponent - exponent else number.exponent + exponent }

/-- A numeral with a fraction or an exponent; it has to be finite. -/
def realNumeral (negative : Bool) (number : Number.Decimal) (rest : List Char) :
    Except Refusal (Numeral × List Char) :=
  let value := number.scaled
  if value.isFinite then .ok (.real (if negative then value.negate else value), rest)
  else refuse .numberOutOfRange rest

/-- Reads the digits of an exponent. An exponent of more than 31 bits ends the reading at
once, unless the number is zero or very small. -/
def readExponentDigits (negative down : Bool) (number : Number.Decimal) :
    Nat → Reader Numeral
  | exponent, c :: rest =>
    if Text.isDigit c then
      let next := 10 * exponent + (c.toNat - '0'.toNat)
      if next < 2 ^ 31 then readExponentDigits negative down number next rest
      else if number.coefficient = 0 ∨ down then
        .ok (.real (.zero negative), rest.dropWhile Text.isDigit)
      else refuse .numberOutOfRange rest
    else realNumeral negative (shifted number down exponent) (c :: rest)
  | exponent, [] => realNumeral negative (shifted number down exponent) []

def readExponent (negative : Bool) (number : Number.Decimal) : Reader Numeral := fun text =>
  let (down, digits) := match text with
    | '+' :: rest => (false, rest)
    | '-' :: rest => (true, rest)
    | rest => (false, rest)
  match digits with
  | [] => refuse .endInValue []
  | c :: rest =>
    if Text.isDigit c then readExponentDigits negative down number 0 (c :: rest)
    else refuseNext .badNumber (c :: rest)

def readNumberTail (negative : Bool) (whole : Number.Decimal) : Reader Numeral
  | '.' :: text =>
    let digits := text.takeWhile Text.isDigit
    let rest := text.dropWhile Text.isDigit
    if digits.isEmpty then
      refuseNext (if rest.isEmpty then .endInValue else .badNumber) rest
    else
      let number := takeFraction whole digits
      match rest with
      | 'e' :: rest => readExponent negative number rest
      | 'E' :: rest => readExponent negative number rest
      | rest => realNumeral negative number rest
  | 'e' :: rest => readExponent negative whole rest
  | 'E' :: rest => readExponent negative whole rest
  | rest =>
    if whole.exponent ≠ 0 then realNumeral negative whole rest
    else if !negative then .ok (.integer whole.coefficient, rest)
    else if whole.coefficient = 0 ∨ 2 ^ 63 < whole.coefficient then realNumeral true whole rest
    else .ok (.integer (-(whole.coefficient : Int)), rest)

/-- Reads a number whose sign has been read. A leading zero stands alone. -/
def readUnsigned (negative : Bool) : Reader Numeral
  | [] => refuse .endInValue []
  | c :: rest =>
    if c = '0' then
      if rest.head?.any Text.isDigit then refuseNext .badNumber rest
      else readNumberTail negative ⟨0, 0⟩ rest
    else if Text.isDigit c then
      readNumberTail negative (((c :: rest).takeWhile Text.isDigit).foldl takeWhole ⟨0, 0⟩)
        ((c :: rest).dropWhile Text.isDigit)
    else refuseNext .badNumber (c :: rest)

def readNumber : Reader Numeral
  | '-' :: rest => readUnsigned true rest
  | rest => readUnsigned false rest

end Phrasebook.Json
