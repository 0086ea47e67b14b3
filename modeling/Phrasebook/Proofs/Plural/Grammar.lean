import Phrasebook.Plural.Parser

/-!
The language of plural expressions, as it is documented and without regard to how it is read:
the spelling of its tokens, the cut of a text into longest tokens, the stratified grammar over
tokens, and the nesting of parentheses.
-/

namespace Phrasebook.Plural

inductive Level where
  | conditional
  | disjunction
  | conjunction
  | equality
  | comparison
  | sum
  | product
  | negation
  | operand
  deriving DecidableEq, Repr

namespace Level

def tighter : Level → Level
  | conditional => disjunction
  | disjunction => conjunction
  | conjunction => equality
  | equality => comparison
  | comparison => sum
  | sum => product
  | product => negation
  | negation => operand
  | operand => operand

def operators : Level → List Operator
  | disjunction => [.or]
  | conjunction => [.and]
  | equality => [.equal, .notEqual]
  | comparison => [.less, .lessOrEqual, .greater, .greaterOrEqual]
  | sum => [.add, .subtract]
  | product => [.multiply, .divide, .remainder]
  | conditional | negation | operand => []

end Level

/-- The rules of the grammar. What stands at a level may stand at all looser ones. An operator
takes an operand of its own level on the left and of the next tighter one on the right. -/
inductive Derives : Level → List Token → Expr → Prop
  | tighter {level tokens rule} :
      Derives level.tighter tokens rule → Derives level tokens rule
  | conditional {conditionTokens chosenTokens otherwiseTokens condition chosen otherwise} :
      Derives .disjunction conditionTokens condition →
      Derives .conditional chosenTokens chosen →
      Derives .conditional otherwiseTokens otherwise →
      Derives .conditional
        (conditionTokens ++ .question :: chosenTokens ++ .colon :: otherwiseTokens)
        (.conditional condition chosen otherwise)
  | binary {level operator leftTokens rightTokens left right} :
      operator ∈ level.operators →
      Derives level leftTokens left →
      Derives level.tighter rightTokens right →
      Derives level (leftTokens ++ .operator operator :: rightTokens)
        (.binary operator left right)
  | negation {tokens inner} :
      Derives .negation tokens inner → Derives .negation (.bang :: tokens) (.not inner)
  | count : Derives .operand [.count] .count
  | literal {value : Nat} :
      value < 2 ^ 63 → Derives .operand [.numeral value] (.literal (Int64.ofNat value))
  | group {tokens inner} :
      Derives .conditional tokens inner →
      Derives .operand (.openGroup :: tokens ++ [.closeGroup]) inner

inductive Spells : Token → List Char → Prop
  | count : Spells .count ['n']
  | numeral {digits : List Char} :
      digits ≠ [] → (∀ c ∈ digits, Text.isDigit c = true) →
      Spells (.numeral (Text.decimalValue 0 digits)) digits
  | operator (operator : Operator) : Spells (.operator operator) operator.symbol.toList
  | bang : Spells .bang ['!']
  | question : Spells .question ['?']
  | colon : Spells .colon [':']
  | openGroup : Spells .openGroup ['(']
  | closeGroup : Spells .closeGroup [')']

structure BeginsWith (text : List Char) (token : Token) (spelling : List Char) : Prop where
  spelled : Spells token spelling
  leading : spelling <+: text
  longest : ∀ other longer, Spells other longer → longer <+: text →
    longer.length ≤ spelling.length

/-- The text is cut into its longest tokens from left to right, with any blanks in front of,
between and behind them. -/
inductive Tokenized : List Char → List Token → Prop
  | nil : Tokenized [] []
  | blank {c rest tokens} :
      isSeparator c = true → Tokenized rest tokens → Tokenized (c :: rest) tokens
  | token {token spelling rest tokens} :
      BeginsWith (spelling ++ rest) token spelling → Tokenized rest tokens →
      Tokenized (spelling ++ rest) (token :: tokens)

def NestsWithin (limit : Nat) (text : List Char) : Prop :=
  ∀ before, before <+: text → before.count '(' ≤ before.count ')' + limit

end Phrasebook.Plural
