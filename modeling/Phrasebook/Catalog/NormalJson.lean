import Phrasebook.Catalog.Normal
import Phrasebook.Json.Reader

/-!
Normal catalogs in JSON: an object from texts to strings, or to objects from plural indices to
forms.
-/

namespace Phrasebook

namespace Entry

def toJson : Entry → Json
  | simple text => .string text
  | plural forms => .object (forms.entries.map fun (index, form) =>
      (String.ofList (Text.decimal index), .string form))

/-- The entry that a value stands for. Indices would have to be numbers, and names of fields
are strings, so an object with any field is refused. -/
def ofJson? : Json → Option Entry
  | .string text => some (simple text)
  | .object [] => some (plural .empty)
  | _ => none

end Entry

namespace NormalCatalog

def toJson (catalog : NormalCatalog) : Json :=
  .object (catalog.entries.map fun (text, entry) => (text, entry.toJson))

/-- Reads the entry of a text; a later entry of the same text replaces an earlier one. -/
def readField (depth : Nat) (known : NormalCatalog) (name : String) :
    Json.Reader NormalCatalog := fun text => do
  let (value, rest) ← Json.readValue depth (← Json.readColon text)
  match Entry.ofJson? value with
  | some entry => return (known.insert name entry, rest)
  | none => .error (.unplaced (.noVariant "CatalogEntry") rest)

def readObject : Json.Reader NormalCatalog := fun text =>
  match Json.dropBlanks text with
  | [] => Json.refuse .endInValue []
  | c :: rest =>
    if c = '\x7b' then
      Json.closingObject
        (Json.readFields (readField (Json.maxDepth - 1)) .empty rest)
    else .error (Json.readFound "a map" (c :: rest))

def read (text : String) : Except Json.ReadError NormalCatalog :=
  Json.readWhole readObject text.toList

end NormalCatalog

end Phrasebook
