import Phrasebook.Json.Reader

/-!
Passing a JSON value by. Only its outline is judged: strings may hold lone surrogates, numbers
may have any size, and lists and objects may nest to any depth.
-/

namespace Phrasebook.Json

/-- Passes by the end of a string, after `skip` characters that belong to an escape. -/
def skipString : Nat → List Char → Except Refusal (List Char)
  | _, [] => refuse .endInString []
  | skip + 1, _ :: rest => skipString skip rest
  | 0, c :: rest =>
    if c = '"' then .ok rest
    else if c = '\\' then
      match rest with
      | [] => refuse .endInString []
      | d :: after =>
        if (letterEscape? d).isSome then skipString 1 rest
        else if d = 'u' then
          match readFourHex after with
          | .error refusal => .error refusal
          | .ok _ => skipString 5 rest
        else refuseNext .badEscape rest
    else if c.toNat < 0x20 then refuse .controlCharacter (c :: rest)
    else skipString 0 rest

/-- Passes by the digits of an exponent, of which the text begins behind the mark. -/
def skipExponent (text : List Char) : Except Refusal (List Char) :=
  let digits := match text with
    | '+' :: rest => rest
    | '-' :: rest => rest
    | rest => rest
  if digits.head?.any Text.isDigit then .ok (digits.dropWhile Text.isDigit)
  else refuseNext .badNumber digits

def skipNumberTail : List Char → Except Refusal (List Char)
  | '.' :: text =>
    if text.head?.any Text.isDigit then
      match text.dropWhile Text.isDigit with
      | 'e' :: rest => skipExponent rest
      | 'E' :: rest => skipExponent rest
      | rest => .ok rest
    else refuseNext .badNumber text
  | 'e' :: rest => skipExponent rest
  | 'E' :: rest => skipExponent rest
  | rest => .ok rest

def skipUnsigned : List Char → Except Refusal (List Char)
  | [] => refuse .badNumber []
  | c :: rest =>
    if c = '0' then
      if rest.head?.any Text.isDigit then refuseNext .badNumber rest else skipNumberTail rest
    else if Text.isDigit c then skipNumberTail (rest.dropWhile Text.isDigit)
    else refuseNext .badNumber (c :: rest)

def skipScalar : List Char → Except Refusal (List Char)
  | [] => refuse .endInValue []
  | c :: rest =>
    if c = 'n' then readWord "ull".toList rest
    else if c = 't' then readWord "rue".toList rest
    else if c = 'f' then readWord "alse".toList rest
    else if c = '"' then skipString 0 rest
    else if c = '-' then skipUnsigned rest
    else if Text.isDigit c then skipUnsigned (c :: rest)
    else refuseNext .noValue (c :: rest)

inductive Container where
  | list
  | object
  deriving DecidableEq

namespace Container

def closer : Container → Char
  | list => ']'
  | object => '\x7d'

def endFault : Container → Fault
  | list => .endInList
  | object => .endInObject

def commaFault : Container → Fault
  | list => .missingListComma
  | object => .missingObjectComma

end Container

/-- Passes by the name and the colon in front of a value in a container. -/
def skipName (text : List Char) : Container → Except Refusal (List Char)
  | .list => .ok text
  | .object =>
    match dropBlanks text with
    | [] => refuse .endInObject []
    | c :: rest =>
      if c = '"' then do readColon (← skipString 0 rest) else refuseNext .keyIsNoString (c :: rest)

inductive Expecting where
  | value
  | member (afterValue : Bool)
  deriving DecidableEq

/-- Passes by the rest of a value with the given containers open, the innermost first. Every
step takes a character, or turns from a member to its value. -/
def skipFrom : Nat → Expecting → List Container → List Char → Except Refusal (List Char)
  | 0, _, _, text => .ok text
  | steps + 1, .value, containers, text =>
    match dropBlanks text with
    | [] => refuse .endInValue []
    | c :: rest =>
      if c = '[' then skipFrom steps (.member false) (.list :: containers) rest
      else if c = '\x7b' then skipFrom steps (.member false) (.object :: containers) rest
      else match skipScalar (c :: rest) with
        | .error refusal => .error refusal
        | .ok after => skipFrom steps (.member true) containers after
  | _ + 1, .member _, [], text => .ok text
  | steps + 1, .member afterValue, container :: outer, text =>
    let enter (rest : List Char) : Except Refusal (List Char) :=
      match skipName rest container with
      | .error refusal => .error refusal
      | .ok after => skipFrom steps .value (container :: outer) after
    match dropBlanks text with
    | [] => refuse container.endFault []
    | c :: rest =>
      if c = ',' ∧ afterValue then enter rest
      else if c = container.closer then skipFrom steps (.member true) outer rest
      else if afterValue then refuseNext container.commaFault (c :: rest)
      else enter (c :: rest)

def skipValue (text : List Char) : Except Refusal (List Char) :=
  skipFrom (2 * text.length + 2) .value [] text

end Phrasebook.Json
