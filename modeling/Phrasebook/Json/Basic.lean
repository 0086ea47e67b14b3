import Phrasebook.Number.Layout

/-!
JSON values and how they are written, in one line or indented. The fields of an object keep
their order.
-/

namespace Phrasebook

inductive Json where
  | null
  | bool (value : Bool)
  | integer (value : Int)
  | real (value : Number.Double)
  | string (text : String)
  | array (items : List Json)
  | object (fields : List (String × Json))
  deriving Inhabited

namespace Json

def hexDigit (value : Nat) : Char :=
  Nat.digitChar (value % 16)

/-- A character as it stands in a string. Quotes, backslashes and control characters are
escaped, all else stands for itself. -/
def escapeChar (c : Char) : List Char :=
  if c = '"' then ['\\', '"']
  else if c = '\\' then ['\\', '\\']
  else if c = '\x08' then ['\\', 'b']
  else if c = '\x0c' then ['\\', 'f']
  else if c = '\n' then ['\\', 'n']
  else if c = '\r' then ['\\', 'r']
  else if c = '\t' then ['\\', 't']
  else if c.toNat < 0x20 then
    ['\\', 'u', '0', '0', hexDigit (c.toNat / 16), hexDigit c.toNat]
  else [c]

def quote (text : List Char) : List Char :=
  '"' :: text.flatMap escapeChar ++ ['"']

def scalar : Json → List Char
  | null => "null".toList
  | bool value => if value then "true".toList else "false".toList
  | integer value => Text.signedDecimal value
  | real value => value.chars
  | string text => quote text.toList
  | array _ => ['[', ']']
  | object _ => ['\x7b', '\x7d']

mutual

def compact : Json → List Char
  | array items => '[' :: compactItems items ++ [']']
  | object fields => '\x7b' :: compactFields fields ++ ['\x7d']
  | value => value.scalar

def compactItems : List Json → List Char
  | [] => []
  | [item] => item.compact
  | item :: rest => item.compact ++ ',' :: compactItems rest

def compactFields : List (String × Json) → List Char
  | [] => []
  | [(name, value)] => quote name.toList ++ ':' :: value.compact
  | (name, value) :: rest =>
    quote name.toList ++ ':' :: value.compact ++ ',' :: compactFields rest

end

def newLine (indent : List Char) (level : Nat) : List Char :=
  '\n' :: (List.replicate level indent).flatten

mutual

def prettyAt (indent : List Char) (level : Nat) : Json → List Char
  | array (item :: rest) =>
    '[' :: prettyItems indent (level + 1) (item :: rest) ++ newLine indent level ++ [']']
  | object (field :: rest) =>
    '\x7b' :: prettyFields indent (level + 1) (field :: rest) ++ newLine indent level ++ ['\x7d']
  | value => value.scalar

def prettyItems (indent : List Char) (level : Nat) : List Json → List Char
  | [] => []
  | [item] => newLine indent level ++ item.prettyAt indent level
  | item :: rest =>
    newLine indent level ++ item.prettyAt indent level ++ ',' :: prettyItems indent level rest

def prettyFields (indent : List Char) (level : Nat) : List (String × Json) → List Char
  | [] => []
  | [(name, value)] =>
    newLine indent level ++ quote name.toList ++ ':' :: ' ' :: value.prettyAt indent level
  | (name, value) :: rest =>
    newLine indent level ++ quote name.toList ++ ':' :: ' ' :: value.prettyAt indent level ++
      ',' :: prettyFields indent level rest

end

def pretty (width : Nat) (value : Json) : List Char :=
  value.prettyAt (List.replicate width ' ') 0

end Json

end Phrasebook
