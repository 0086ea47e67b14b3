import Phrasebook.Plural.Expr
import Phrasebook.Text.Scan

/-!
The tokens of a plural expression. Each comes with the text that begins with it, so that a
reader that stops at a token knows its place.
-/

namespace Phrasebook.Plural

inductive Token where
  | count
  | numeral (value : Nat)
  | operator (operator : Operator)
  | bang
  | question
  | colon
  | openGroup
  | closeGroup
  | stray
  deriving DecidableEq, Repr, Inhabited

/-- The blanks of C other than the vertical tab. -/
def isSeparator (c : Char) : Bool :=
  c == ' ' || c == '\t' || c == '\n' || c == '\r' || c == '\x0c'

/-- The longest token at the front of a text and its length; `none` where there is a blank. -/
def tokenAt : List Char → Option Token × Nat
  | '|' :: '|' :: _ => (some (.operator .or), 2)
  | '&' :: '&' :: _ => (some (.operator .and), 2)
  | '=' :: '=' :: _ => (some (.operator .equal), 2)
  | '!' :: '=' :: _ => (some (.operator .notEqual), 2)
  | '<' :: '=' :: _ => (some (.operator .lessOrEqual), 2)
  | '>' :: '=' :: _ => (some (.operator .greaterOrEqual), 2)
  | '<' :: _ => (some (.operator .less), 1)
  | '>' :: _ => (some (.operator .greater), 1)
  | '+' :: _ => (some (.operator .add), 1)
  | '-' :: _ => (some (.operator .subtract), 1)
  | '*' :: _ => (some (.operator .multiply), 1)
  | '/' :: _ => (some (.operator .divide), 1)
  | '%' :: _ => (some (.operator .remainder), 1)
  | '!' :: _ => (some .bang, 1)
  | '?' :: _ => (some .question, 1)
  | ':' :: _ => (some .colon, 1)
  | '(' :: _ => (some .openGroup, 1)
  | ')' :: _ => (some .closeGroup, 1)
  | 'n' :: _ => (some .count, 1)
  | [] => (none, 1)
  | c :: rest =>
    if isSeparator c then (none, 1)
    else
      let digits := (c :: rest).takeWhile Text.isDigit
      if digits.isEmpty then (some .stray, 1)
      else (some (.numeral (Text.decimalValue 0 digits)), digits.length)

/-- A token and the text from its first character on. -/
abbrev Lexeme := Token × List Char

def lexemeAt (text : List Char) : Option Lexeme × Nat :=
  let found := tokenAt text
  (found.1.map fun token => (token, text), found.2)

/-- The tokens of a text. Blanks only separate. -/
def lexemes (text : List Char) : List Lexeme :=
  (Text.scan lexemeAt text).filterMap id

end Phrasebook.Plural
