import Phrasebook.Text.EditDistance
import Phrasebook.Text.Place

/-!
Names that may have been meant by a name that is not bound.
-/

namespace Phrasebook.Template

def maxSuggestions : Nat := 3

/-- How far a suggested name may be from the given one. A short name has few neighbours. -/
def distanceLimit (name : String) : Nat :=
  if Text.byteLength name.toList ≤ 3 then 1 else 2

/-- Nearer names come first, names at one distance in the order of their text. -/
def comesBefore (first second : Nat × String) : Bool :=
  first.1 < second.1 || (first.1 == second.1 && !(second.2 < first.2))

def nearNames (name : String) (available : List String) : List (Nat × String) :=
  available.filterMap fun candidate =>
    let distance := Text.editDistance name.toList candidate.toList
    if 0 < distance ∧ distance ≤ distanceLimit name then some (distance, candidate) else none

def suggestions (name : String) (available : List String) : List String :=
  (((nearNames name available).mergeSort comesBefore).take maxSuggestions).map Prod.snd

end Phrasebook.Template
