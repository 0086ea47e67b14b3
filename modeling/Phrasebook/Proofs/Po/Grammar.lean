import Phrasebook.Po.Line

/-!
The lines of PO files that hold a string, as they are documented and without regard to how they are
read: keywords, numerals, escapes, and what a quoted string stands for.
-/

namespace Phrasebook.Po

def IsGap (text : List Char) : Prop :=
  ∀ c ∈ text, c = ' ' ∨ c = '\t'

def IsDigitFor (radix value : Nat) (c : Char) : Prop :=
  value < radix ∧ (c = Nat.digitChar value ∨ c = (Nat.digitChar value).toUpper)

inductive Numeral (radix : Nat) : List Char → Nat → Prop
  | digit {c value} : IsDigitFor radix value c → Numeral radix [c] value
  | append {text number c value} :
      Numeral radix text number → IsDigitFor radix value c →
      Numeral radix (text ++ [c]) (radix * number + value)

structure LongestNumeral (radix limit : Nat) (digits rest : List Char) (number : Nat) : Prop where
  denotes : Numeral radix digits number
  within : digits.length ≤ limit
  longest : digits.length < limit → ∀ c ∈ rest.head?, ∀ value, ¬IsDigitFor radix value c

def letterMeanings : List (Char × Char) :=
  [('n', '\n'), ('t', '\t'), ('r', '\r'), ('a', '\x07'), ('b', '\x08'), ('f', '\x0c'),
    ('v', '\x0b'), ('\\', '\\'), ('"', '"'), ('\'', '\''), ('?', '?')]

inductive Escapes : List Char → List Char → Char → Prop
  | hexadecimal {digits rest code} :
      LongestNumeral 16 2 digits rest code → Escapes ('x' :: digits) rest (Char.ofNat code)
  | octal {digits rest code} :
      LongestNumeral 8 3 digits rest code → code ≤ 255 → Escapes digits rest (Char.ofNat code)
  | letter {c meaning} (rest : List Char) :
      (c, meaning) ∈ letterMeanings → Escapes [c] rest meaning

inductive Decodes : List Char → List Char → Prop
  | nil : Decodes [] []
  | plain {c written text} :
      c ≠ '\\' → c ≠ '"' → Decodes written text → Decodes (c :: written) (c :: text)
  | escape {sign written c text} :
      Escapes sign written c → Decodes written text →
      Decodes ('\\' :: sign ++ written) (c :: text)

/-- The keywords. An index is a decimal 64-bit number, and without one a wording is the first. -/
inductive Keyword : List Char → Field → Prop
  | context : Keyword "msgctxt".toList .context
  | id : Keyword "msgid".toList .id
  | idPlural : Keyword "msgid_plural".toList .idPlural
  | wording : Keyword "msgstr".toList (.wording 0)
  | indexed {digits index} :
      Numeral 10 digits index → index < 2 ^ 64 →
      Keyword ("msgstr[".toList ++ digits ++ [']']) (.wording index)

inductive Quotes : List Char → List Char → Prop
  | quote {written text} : Decodes written text → Quotes ('"' :: written ++ ['"']) text

inductive IsContinuation : List Char → List Char → Prop
  | line {indent quote ending text} :
      IsGap indent → Quotes quote text → IsGap ending →
      IsContinuation (indent ++ quote ++ ending) text

inductive IsKeywordLine : List Char → Field → List Char → Prop
  | line {indent keyword gap quote ending field text} :
      IsGap indent → Keyword keyword field → IsGap gap → gap ≠ [] → Quotes quote text →
      IsGap ending → IsKeywordLine (indent ++ keyword ++ gap ++ quote ++ ending) field text

end Phrasebook.Po
