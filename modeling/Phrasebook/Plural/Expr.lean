import Phrasebook.Text.Digits

/-!
Plural rules as expression trees over the count `n`, in the manner of C: every operation gives
a signed 64-bit word, and a comparison or a logical operation gives zero or one.
-/

namespace Phrasebook.Plural

inductive Operator where
  | or
  | and
  | equal
  | notEqual
  | less
  | lessOrEqual
  | greater
  | greaterOrEqual
  | add
  | subtract
  | multiply
  | divide
  | remainder
  deriving DecidableEq, Repr, Inhabited

namespace Operator

def all : List Operator :=
  [.or, .and, .equal, .notEqual, .less, .lessOrEqual, .greater, .greaterOrEqual, .add,
    .subtract, .multiply, .divide, .remainder]

def symbol : Operator → String
  | .or => "||"
  | .and => "&&"
  | .equal => "=="
  | .notEqual => "!="
  | .less => "<"
  | .lessOrEqual => "<="
  | .greater => ">"
  | .greaterOrEqual => ">="
  | .add => "+"
  | .subtract => "-"
  | .multiply => "*"
  | .divide => "/"
  | .remainder => "%"

/-- How tightly the operator binds. Operators of one strength group to the left. -/
def strength : Operator → Nat
  | .or => 1
  | .and => 2
  | .equal | .notEqual => 3
  | .less | .lessOrEqual | .greater | .greaterOrEqual => 4
  | .add | .subtract => 5
  | .multiply | .divide | .remainder => 6

end Operator

inductive Expr where
  | count
  | literal (value : Int64)
  | not (inner : Expr)
  | binary (operator : Operator) (left right : Expr)
  | conditional (condition chosen otherwise : Expr)
  deriving DecidableEq, Repr, Inhabited

def truth (holds : Bool) : Int64 :=
  if holds then 1 else 0

/-- The quotient toward zero; zero where it does not exist or does not fit a word. -/
def truncatedQuotient (a b : Int64) : Int64 :=
  if b = 0 ∨ (a = Int64.minValue ∧ b = -1) then 0 else a / b

/-- The remainder that belongs to `truncatedQuotient`; zero where there is no quotient. -/
def truncatedRemainder (a b : Int64) : Int64 :=
  if b = 0 ∨ (a = Int64.minValue ∧ b = -1) then 0 else a % b

/-- Applies an operator to two words. Sums, differences and products wrap around. -/
def Operator.apply (a b : Int64) : Operator → Int64
  | .or => truth (a != 0 || b != 0)
  | .and => truth (a != 0 && b != 0)
  | .equal => truth (a == b)
  | .notEqual => truth (a != b)
  | .less => truth (a < b)
  | .lessOrEqual => truth (a ≤ b)
  | .greater => truth (b < a)
  | .greaterOrEqual => truth (b ≤ a)
  | .add => a + b
  | .subtract => a - b
  | .multiply => a * b
  | .divide => truncatedQuotient a b
  | .remainder => truncatedRemainder a b

namespace Expr

def eval (n : Int64) : Expr → Int64
  | .count => n
  | .literal value => value
  | .not inner => truth (inner.eval n == 0)
  | .binary operator left right => operator.apply (left.eval n) (right.eval n)
  | .conditional condition chosen otherwise =>
    if condition.eval n != 0 then chosen.eval n else otherwise.eval n

/-- A count as a word. A count past the largest word counts as the largest. -/
def wordOfCount (n : UInt64) : Int64 :=
  if n < 2 ^ 63 then n.toInt64 else Int64.maxValue

def evaluate (rule : Expr) (n : UInt64) : Int64 :=
  rule.eval (wordOfCount n)

/-- The plural form that the rule picks; a negative value picks form zero. -/
def index (rule : Expr) (n : UInt64) : Nat :=
  (rule.evaluate n).toInt.toNat

/-- The rule with a pair of parentheses around every operation of two or three operands. -/
def written : Expr → List Char
  | .count => ['n']
  | .literal value => Text.signedDecimal value.toInt
  | .not inner => '!' :: inner.written
  | .binary operator left right =>
    '(' :: left.written ++ ' ' :: operator.symbol.toList ++ ' ' :: right.written ++ [')']
  | .conditional condition chosen otherwise =>
    '(' :: condition.written ++ " ? ".toList ++ chosen.written ++ " : ".toList ++
      otherwise.written ++ [')']

instance : ToString Expr := ⟨fun rule => String.ofList rule.written⟩

end Expr

/-- The form picked where no rule is declared: the first for one, the second for all else. -/
def defaultIndex (n : UInt64) : Nat :=
  if n = 1 then 0 else 1

end Phrasebook.Plural
