/-!
Blank characters: the `White_Space` property of Unicode, and trimming by it.
-/

namespace Phrasebook.Text

/-- The twenty-five characters with the Unicode property `White_Space`. -/
def isBlank (c : Char) : Bool :=
  let code := c.toNat
  (0x09 ≤ code && code ≤ 0x0d) || code == 0x20 || code == 0x85 || code == 0xa0 ||
    code == 0x1680 || (0x2000 ≤ code && code ≤ 0x200a) || code == 0x2028 ||
    code == 0x2029 || code == 0x202f || code == 0x205f || code == 0x3000

def isSpaceOrTab (c : Char) : Bool :=
  c == ' ' || c == '\t'

def dropBlanks (text : List Char) : List Char :=
  text.dropWhile isBlank

def dropBlanksAtEnd (text : List Char) : List Char :=
  (text.reverse.dropWhile isBlank).reverse

def trim (text : List Char) : List Char :=
  dropBlanksAtEnd (dropBlanks text)

theorem isBlank_of_isSpaceOrTab (c : Char) (separates : isSpaceOrTab c = true) :
    isBlank c = true := by
  simp only [isSpaceOrTab, Bool.or_eq_true, beq_iff_eq] at separates
  rcases separates with rfl | rfl <;> decide

end Phrasebook.Text
