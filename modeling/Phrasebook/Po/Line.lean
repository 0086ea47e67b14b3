import Phrasebook.Text.Blank
import Phrasebook.Text.Digits

/-!
The lines of a PO file: blank lines, comments, a keyword with a quoted string, and a quoted
string alone, which continues the string above it.
-/

namespace Phrasebook.Po

inductive Field where
  | context
  | id
  | idPlural
  | wording (index : Nat)
  deriving DecidableEq, Repr, Inhabited

inductive Line where
  | blank
  | comment (fuzzy : Bool)
  | continuation (text : List Char)
  | keyword (field : Field) (text : List Char)
  deriving DecidableEq, Repr, Inhabited

namespace Line

def letterEscape? : Char → Option Char
  | 'n' => some '\n'
  | 't' => some '\t'
  | 'r' => some '\r'
  | 'a' => some '\x07'
  | 'b' => some '\x08'
  | 'f' => some '\x0c'
  | 'v' => some '\x0b'
  | '\\' => some '\\'
  | '"' => some '"'
  | '\'' => some '\''
  | '?' => some '?'
  | _ => none

def digitsValue (radix : Nat) (digits : List Char) : Nat :=
  (Text.numeral? radix digits).getD 0

def leadingDigits (radix limit : Nat) (text : List Char) : List Char :=
  (text.takeWhile fun c => (Text.digitValue? radix c).isSome).take limit

/-- The character that the text after a backslash stands for, and how many characters of that
text do so. A code of up to two hexadecimal or three octal digits goes to 255. -/
def escape? : List Char → Option (Char × Nat)
  | [] => none
  | c :: rest =>
    if c = 'x' then
      let digits := leadingDigits 16 2 rest
      if digits.isEmpty then none
      else some (Char.ofNat (digitsValue 16 digits), digits.length + 1)
    else
      let digits := leadingDigits 8 3 (c :: rest)
      if digits.isEmpty then (letterEscape? c).map (·, 1)
      else if digitsValue 8 digits ≤ 255 then
        some (Char.ofNat (digitsValue 8 digits), digits.length)
      else none

/-- Reads a string up to its closing quote, after `skip` characters that belong to an escape
read before. Gives the decoded text and what follows the quote, or else the place that cannot
be read. -/
def body : Nat → List Char → Except (List Char) (List Char × List Char)
  | _, [] => .error []
  | skip + 1, _ :: rest => body skip rest
  | 0, c :: rest =>
    if c = '"' then .ok ([], rest)
    else if c = '\\' then
      match escape? rest with
      | none => .error (c :: rest)
      | some (decoded, length) =>
        (body length rest).map fun (text, after) => (decoded :: text, after)
    else (body 0 rest).map fun (text, after) => (c :: text, after)

def dropSpaces (text : List Char) : List Char :=
  text.dropWhile Text.isSpaceOrTab

def quoted : List Char → Except (List Char) (List Char)
  | '"' :: rest =>
    match body 0 rest with
    | .error stuck => .error stuck
    | .ok (text, after) =>
      if (dropSpaces after).isEmpty then .ok text else .error (dropSpaces after)
  | text => .error text

def after? (word : String) (text : List Char) : Option (List Char) :=
  if word.toList.isPrefixOf text then some (text.drop word.length) else none

def indexed? (text : List Char) : Option (Field × List Char) :=
  match after? "msgstr[" text with
  | none => none
  | some rest =>
    let digits := rest.takeWhile Text.isDigit
    match Text.numeral? 10 digits, rest.dropWhile Text.isDigit with
    | some index, ']' :: after =>
      if index < 2 ^ 64 then some (.wording index, after) else none
    | _, _ => none

def field? (text : List Char) : Option (Field × List Char) :=
  ((after? "msgctxt" text).map (.context, ·)).or <|
  ((after? "msgid_plural" text).map (.idPlural, ·)).or <|
  ((after? "msgid" text).map (.id, ·)).or <|
  (indexed? text).or <|
  (after? "msgstr" text).map (.wording 0, ·)

def keywordLine (line : List Char) : Except (List Char) (Field × List Char) :=
  match field? (dropSpaces line) with
  | none => .error (dropSpaces line)
  | some (field, rest) =>
    if rest.head?.any Text.isSpaceOrTab then
      (quoted (dropSpaces rest)).map (field, ·)
    else .error rest

/-- Whether the comment is a list of flags with `fuzzy` among them; `comment` follows the
number sign. -/
def isFuzzyFlag : List Char → Bool
  | ',' :: flags =>
    (flags.splitOnP (· == ',')).any fun flag => Text.trim flag == "fuzzy".toList
  | _ => false

/-- Reads a line. A line that cannot be read gives the place where its reader stopped. -/
def ofChars (line : List Char) : Except (List Char) Line :=
  match Text.trim line with
  | [] => .ok .blank
  | c :: rest =>
    if c = '#' then .ok (.comment (isFuzzyFlag rest))
    else if c = '"' then (quoted (dropSpaces line)).map .continuation
    else (keywordLine line).map fun (field, text) => .keyword field text

end Line

end Phrasebook.Po
