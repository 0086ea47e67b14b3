import Phrasebook.Text.Extending
import Phrasebook.Text.Printable

/-!
Strings in a debugging listing: in quotes, with a code for every character that cannot be seen or
would change how the character in front of it is seen.
-/

namespace Phrasebook.Text

def listedChar (c : Char) : List Char :=
  if c = '"' then ['\\', '"']
  else if c = '\\' then ['\\', '\\']
  else if c = '\n' then ['\\', 'n']
  else if c = '\r' then ['\\', 'r']
  else if c = '\t' then ['\\', 't']
  else if c.toNat = 0 then ['\\', '0']
  else if isPrintable c && !isExtending c then [c]
  else '\\' :: 'u' :: '\x7b' :: Nat.toDigits 16 c.toNat ++ ['\x7d']

def listing (text : List Char) : List Char :=
  '"' :: text.flatMap listedChar ++ ['"']

end Phrasebook.Text
