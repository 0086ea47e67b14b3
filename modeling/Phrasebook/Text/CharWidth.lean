import Phrasebook.Text.Extending
import Phrasebook.Text.Wide

/-!
The columns that a character takes on a terminal when it stands by itself.
-/

namespace Phrasebook.Text

/-- The characters that are not drawn where they are not supported: the property
`Default_Ignorable_Code_Point` of Unicode 17. -/
def ignorableRanges : Ranges := [
  (0xad, 0xad), (0x34f, 0x34f), (0x61c, 0x61c), (0x115f, 0x1160), (0x17b4, 0x17b5),
  (0x180b, 0x180f), (0x200b, 0x200f), (0x202a, 0x202e), (0x2060, 0x206f), (0x3164, 0x3164),
  (0xfe00, 0xfe0f), (0xfeff, 0xfeff), (0xffa0, 0xffa0), (0xfff0, 0xfff8), (0x1bca0, 0x1bca3),
  (0x1d173, 0x1d17a), (0xe0000, 0xe0fff)]

/-- Characters drawn over their neighbours: the vowels and the last consonants of Hangul syllables
written in parts, four signs above the digits that follow, one around them, and a caret. -/
def overlaidRanges : Ranges := [
  (0x605, 0x605), (0x70f, 0x70f), (0x890, 0x891), (0x8e2, 0x8e2), (0x1160, 0x11ff),
  (0xa8fa, 0xa8fa), (0xd7b0, 0xd7c6), (0xd7cb, 0xd7fb)]

/-- The columns of a character. Four characters have a width of their own: the filler of a Hangul
syllable, the Khmer letters `qaa` and `beyyal`, and the Tifinagh joiner. -/
def widthOf (c : Char) : Nat :=
  if c.toNat ≤ 0xa0 then 1
  else if c = '\u17d8' then 3
  else if c = '\u115f' ∨ c = '\u17a4' then 2
  else if c = '\u2d7f' then 1
  else if isExtending c || ignorableRanges.has c || overlaidRanges.has c then 0
  else if isWide c then 2
  else 1

end Phrasebook.Text
