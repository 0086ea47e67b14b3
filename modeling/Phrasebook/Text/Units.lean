/-!
Text measured in UTF-16 code units.
-/

namespace Phrasebook.Text

/-- Characters outside the basic plane take two units. -/
def unitsOf (c : Char) : Nat :=
  if c.toNat < 0x10000 then 1 else 2

def unitLength (text : List Char) : Nat :=
  text.foldr (fun c rest => unitsOf c + rest) 0

end Phrasebook.Text
