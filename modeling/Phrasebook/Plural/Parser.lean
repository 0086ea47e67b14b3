import Phrasebook.Plural.Token
import Phrasebook.Text.Place

/-!
Reading plural expressions. The reader goes through the tokens once and keeps the operations
that still wait for an operand, innermost first. Loosest to tightest bind `?:`, which groups to
the right, then `||`, `&&`, equality, comparison, sums, products, which group to the left, and
`!`.
-/

namespace Phrasebook.Plural

/-- An operation that waits for its last operand or for its closing token. -/
inductive Frame where
  | group
  | negation
  | operand (operator : Operator) (left : Expr)
  | chosen (condition : Expr)
  | otherwise (condition chosen : Expr)
  deriving DecidableEq, Repr

/-- Where the reader stands: in front of an operand, or behind one. -/
inductive State where
  | wanting (frames : List Frame)
  | holding (frames : List Frame) (value : Expr)
  deriving DecidableEq, Repr

inductive Fault where
  | nestedTooDeep
  | missing (token : Char)
  | literalTooLarge
  | unexpectedEnd
  | unexpected (found : Char)
  deriving DecidableEq, Repr

inductive ParseError where
  | tooLong (length : Nat)
  | invalid (column : Nat) (fault : Fault)
  deriving DecidableEq, Repr

def maxLength : Nat := 1000

def maxNesting : Nat := 64

def Fault.message : Fault → String
  | nestedTooDeep => s!"parentheses nested deeper than {maxNesting} levels"
  | missing token => s!"expected `{token}`"
  | literalTooLarge => "invalid integer literal\nnumber too large to fit in target type"
  | unexpectedEnd => "unexpected end of expression"
  | unexpected found => s!"unexpected character: '{found}'"

def ParseError.message : ParseError → String
  | tooLong length => s!"plural form expression is too long ({length} > {maxLength} characters)"
  | invalid column fault => s!"invalid plural expression at column {column}: {fault.message}"

/-- An operand is complete: the negations right in front of it take it at once. -/
def settle : List Frame → Expr → State
  | .negation :: frames, value => settle frames (.not value)
  | frames, value => .holding frames value

def applyOperators (strength : Nat) : List Frame → Expr → List Frame × Expr
  | .operand operator left :: frames, value =>
    if strength ≤ operator.strength then
      applyOperators strength frames (.binary operator left value)
    else (.operand operator left :: frames, value)
  | frames, value => (frames, value)

/-- Applies all that a closing token completes: the waiting operators, and the conditionals
whose last branch has been read. -/
def applyAll : List Frame → Expr → List Frame × Expr
  | .operand operator left :: frames, value => applyAll frames (.binary operator left value)
  | .otherwise condition chosen :: frames, value =>
    applyAll frames (.conditional condition chosen value)
  | frames, value => (frames, value)

/-- What a token that cannot follow is taken for: the innermost open operation says which
token should stand there. -/
def misplaced (rest : List Char) : List Frame → Fault
  | .group :: _ => .missing ')'
  | .chosen _ :: _ => .missing ':'
  | _ => match rest with
    | [] => .unexpectedEnd
    | c :: _ => .unexpected c

def step (state : State) (token : Token) (text : List Char) : Except Fault State :=
  match state, token with
  | .wanting frames, .count => .ok (settle frames .count)
  | .wanting frames, .numeral value =>
    if value < 2 ^ 63 then .ok (settle frames (.literal (Int64.ofNat value)))
    else .error .literalTooLarge
  | .wanting frames, .openGroup => .ok (.wanting (.group :: frames))
  | .wanting frames, .bang => .ok (.wanting (.negation :: frames))
  | .wanting _, _ => .error (misplaced text [])
  | .holding frames value, .operator operator =>
    let applied := applyOperators operator.strength frames value
    .ok (.wanting (.operand operator applied.2 :: applied.1))
  | .holding frames value, .question =>
    let applied := applyOperators 0 frames value
    .ok (.wanting (.chosen applied.2 :: applied.1))
  | .holding frames value, .colon =>
    match applyAll frames value with
    | (.chosen condition :: outer, applied) =>
      .ok (.wanting (.otherwise condition applied :: outer))
    | (waiting, _) => .error (misplaced text waiting)
  | .holding frames value, .closeGroup =>
    match applyAll frames value with
    | (.group :: outer, applied) => .ok (settle outer applied)
    | (waiting, _) => .error (misplaced text waiting)
  | .holding frames value, _ => .error (misplaced text (applyAll frames value).1)

def finish : State → Except Fault Expr
  | .wanting _ => .error (misplaced [] [])
  | .holding frames value =>
    match applyAll frames value with
    | ([], applied) => .ok applied
    | (waiting, _) => .error (misplaced [] waiting)

/-- Reads the tokens one after another. A refusal comes with the text from the token on that
could not be read. -/
def run (state : State) : List Lexeme → Except (Fault × List Char) Expr
  | [] => (finish state).mapError (·, [])
  | (token, text) :: rest =>
    match step state token text with
    | .ok next => run next rest
    | .error fault => .error (fault, text)

/-- The text from the first parenthesis on that opens one level too many. -/
def tooDeep? (depth : Nat) : List Char → Option (List Char)
  | [] => none
  | c :: rest =>
    if c = '(' then
      if depth < maxNesting then tooDeep? (depth + 1) rest else some (c :: rest)
    else if c = ')' then tooDeep? (depth - 1) rest
    else tooDeep? depth rest

/-- Reads the text of a plural expression. Its length and its nesting are judged first. -/
def parseChars (source : List Char) : Except ParseError Expr :=
  if maxLength < source.length then .error (.tooLong source.length)
  else match tooDeep? 0 source with
    | some rest =>
      .error (.invalid ((Text.consumed source rest).length + 1) .nestedTooDeep)
    | none =>
      (run (.wanting []) (lexemes source)).mapError fun (fault, rest) =>
        .invalid (Text.columnAfter (Text.consumed source rest)) fault

def parse (source : String) : Except ParseError Expr :=
  parseChars source.toList

end Phrasebook.Plural
