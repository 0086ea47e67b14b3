import Phrasebook.Text.CharWidth

/-!
Ligatures: letters that are drawn as one where they follow each other. A ligature is found from
its end, so its parts are the letters that it may end in and what has come together in front of
them.
-/

namespace Phrasebook.Text

/-- The end of a ligature: the last letter, or what is left to be preceded. -/
inductive LigatureEnd where
  | alef
  | lamed
  | ya
  | vowelAndYa
  | consonant
  | joinerAndConsonant
  | toneLetter
  | orkhonI
  | subscriptLetter
  deriving DecidableEq

def alefRanges : Ranges := [
  (0x622, 0x623), (0x625, 0x625), (0x627, 0x627), (0x671, 0x673), (0x675, 0x675),
  (0x773, 0x774), (0x870, 0x882)]

def lamRanges : Ranges := [
  (0x644, 0x644), (0x6b5, 0x6b8), (0x76a, 0x76a), (0x8a6, 0x8a6), (0x8c7, 0x8c7)]

def tifinaghRanges : Ranges := [(0x2d31, 0x2d65), (0x2d6f, 0x2d6f)]

/-- The Khmer letters that have a form below another letter. -/
def subscriptRanges : Ranges := [
  (0x1780, 0x1782), (0x1784, 0x1787), (0x1789, 0x178c), (0x178e, 0x1793), (0x1795, 0x1798),
  (0x179b, 0x179d), (0x17a0, 0x17a0), (0x17a2, 0x17a2), (0x17a7, 0x17a7), (0x17ab, 0x17ac),
  (0x17af, 0x17af)]

/-- The characters without a width that keep Arabic letters beside them from joining. -/
def separatingRanges : Ranges := [
  (0x605, 0x605), (0x890, 0x891), (0x8e2, 0x8e2), (0x9be, 0x9be), (0x9d7, 0x9d7), (0xb3e, 0xb3e),
  (0xb57, 0xb57), (0xbbe, 0xbbe), (0xbd7, 0xbd7), (0xcc0, 0xcc0), (0xcc2, 0xcc2), (0xcc7, 0xcc8),
  (0xcca, 0xccb), (0xcd5, 0xcd6), (0xd3e, 0xd3e), (0xd57, 0xd57), (0xdcf, 0xdcf), (0xddf, 0xddf),
  (0x1160, 0x11ff), (0x1715, 0x1715), (0x1734, 0x1734), (0x180e, 0x180e), (0x1b35, 0x1b35),
  (0x1b3b, 0x1b3b), (0x1b3d, 0x1b3d), (0x1b43, 0x1b44), (0x1baa, 0x1baa), (0x1bf2, 0x1bf3),
  (0x200c, 0x200d), (0x2065, 0x2069), (0x302e, 0x302f), (0x3164, 0x3164), (0xa8fa, 0xa8fa),
  (0xa953, 0xa953), (0xa9c0, 0xa9c0), (0xd7b0, 0xd7c6), (0xd7cb, 0xd7fb), (0xff9e, 0xffa0),
  (0xfff0, 0xfff8), (0x111c0, 0x111c0), (0x11235, 0x11235), (0x1133e, 0x1133e),
  (0x1134d, 0x1134d), (0x11357, 0x11357), (0x113b8, 0x113b8), (0x113c2, 0x113c2),
  (0x113c5, 0x113c5), (0x113c7, 0x113c9), (0x113cf, 0x113cf), (0x114b0, 0x114b0),
  (0x114bd, 0x114bd), (0x115af, 0x115af), (0x116b6, 0x116b6), (0x11930, 0x11930),
  (0x1193d, 0x1193d), (0x11f41, 0x11f41), (0x16ff0, 0x16ff1), (0x1d165, 0x1d166),
  (0x1d16d, 0x1d172), (0xe0000, 0xe0000), (0xe0002, 0xe001f), (0xe0080, 0xe00ff),
  (0xe01f0, 0xe0fff)]

def isTransparent (c : Char) : Bool :=
  widthOf c == 0 && !separatingRanges.has c

/-- Marks that are not drawn and part no ligature. -/
def invisibleMarkRanges : Ranges := [
  (0x34f, 0x34f), (0x17b4, 0x17b5), (0x180b, 0x180d), (0x180f, 0x180f), (0xfe00, 0xfe0f),
  (0xe0100, 0xe01ef)]

def zeroWidthJoiner : Char := '\u200d'

namespace LigatureEnd

def ofLetter? (c : Char) : Option LigatureEnd :=
  if alefRanges.has c then some alef
  else if c = '\u05dc' then some lamed
  else if c = '\u1a10' then some ya
  else if tifinaghRanges.has c then some consonant
  else if c = '\ua4fc' ∨ c = '\ua4fd' then some toneLetter
  else if c.toNat = 0x10c03 then some orkhonI
  else if subscriptRanges.has c then some subscriptLetter
  else none

/-- Whether a character may stand in front of the end of a ligature without being a part of it. -/
def passes (last : LigatureEnd) (c : Char) : Bool :=
  if last = alef then isTransparent c
  else c == zeroWidthJoiner || invisibleMarkRanges.has c

/-- The columns that a letter adds in front of the end of a ligature, and what is left to be
preceded. Some ligatures have to be joined. -/
def precededBy? (last : LigatureEnd) (joined : Bool) (c : Char) :
    Option (Int × Option LigatureEnd) :=
  match last with
  | alef => if lamRanges.has c then some (0, none) else none
  | lamed => if joined ∧ c = '\u05d0' then some (0, none) else none
  | ya => if joined ∧ c = '\u1a17' then some (0, some vowelAndYa) else none
  | vowelAndYa => if c = '\u1a15' then some (0, none) else none
  | consonant =>
    if c = '\u2d7f' then some (1, some joinerAndConsonant)
    else if joined ∧ tifinaghRanges.has c then some (0, none)
    else none
  | joinerAndConsonant => if tifinaghRanges.has c then some (-1, none) else none
  | toneLetter => if '\ua4f8' ≤ c ∧ c ≤ '\ua4fb' then some (0, none) else none
  | orkhonI => if joined ∧ c.toNat = 0x10c32 then some (0, none) else none
  | subscriptLetter => if c = '\u17d2' then some (-1, none) else none

end LigatureEnd

end Phrasebook.Text
