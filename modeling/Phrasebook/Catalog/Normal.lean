import Phrasebook.Catalog.Message

/-!
Normal catalogs. Messages are found by their singular text alone: its entry is a text, or the
plural forms by index.
-/

namespace Phrasebook

inductive Entry where
  | simple (text : String)
  | plural (forms : Dictionary Nat String)
  deriving DecidableEq

namespace Entry

def isPlural : Entry → Bool
  | simple _ => false
  | plural _ => true

def form? (index : Nat) : Entry → Option String
  | simple _ => none
  | plural forms => forms.find? index

end Entry

abbrev NormalCatalog := Dictionary String Entry

inductive MessageFault where
  | formsOfSingular
  | singleOfPair
  | noForms
  | wrongFormCount (expected found : Nat)
  deriving DecidableEq, Repr

structure CatalogError where
  id : String
  fault : MessageFault
  deriving DecidableEq, Repr

def MessageFault.message : MessageFault → String
  | formsOfSingular => "singular message has plural forms"
  | singleOfPair => "plural message has a single translation"
  | noForms => "plural message has no forms"
  | wrongFormCount expected found => s!"expected {expected} plural forms, found {found}"

def CatalogError.message (e : CatalogError) : String :=
  s!"malformed catalog entry '{e.id}': {e.fault.message}"

namespace NormalCatalog

def formsOf (declared : Option Nat) (key : MessageKey) :
    Wording → Except CatalogError (List String)
  | .single _ => .error ⟨key.singularText, .singleOfPair⟩
  | .forms texts =>
    if texts.isEmpty then .error ⟨key.singularText, .noForms⟩
    else match declared.filter (· ≠ texts.length) with
      | some expected => .error ⟨key.singularText, .wrongFormCount expected texts.length⟩
      | none => .ok texts

def numbered (texts : List String) : List (Nat × String) :=
  texts.zipIdx.map fun (text, index) => (index, text)

def addForms (catalog : NormalCatalog) (text : String) (forms : List String) : NormalCatalog :=
  match catalog.find? text with
  | some (.plural existing) =>
    catalog.insert text (.plural (existing.insertAll (numbered forms)))
  | some (.simple _) => catalog
  | none => catalog.insert text (.plural (.ofList (numbered forms)))

/-- Adds a message that has plural forms, and passes by all others. -/
def addPair (declared : Option Nat) (catalog : NormalCatalog)
    (message : MessageKey × Wording) : Except CatalogError NormalCatalog :=
  match message.1 with
  | .singular _ => .ok catalog
  | .pair singular _ => (formsOf declared message.1 message.2).map (catalog.addForms singular)

/-- Adds a message without plural forms, unless its text has an entry already, and passes by
all others and the header. -/
def addSingular (catalog : NormalCatalog) (message : MessageKey × Wording) :
    Except CatalogError NormalCatalog :=
  match message with
  | (.pair _ _, _) => .ok catalog
  | (.singular text, wording) =>
    if text.isEmpty then .ok catalog
    else match wording with
      | .forms _ => .error ⟨text, .formsOfSingular⟩
      | .single value =>
        if catalog.contains text then .ok catalog else .ok (catalog.insert text (.simple value))

/-- Brings a catalog into normal form: first all pairs, then all single texts, each in key
order. Where a number of forms is declared, every pair must have so many. -/
def ofRaw (declared : Option Nat) (raw : RawCatalog) : Except CatalogError NormalCatalog := do
  let pairs ← raw.entries.foldlM (addPair declared) .empty
  raw.entries.foldlM addSingular pairs

def pluralCount (catalog : NormalCatalog) : Nat :=
  catalog.values.countP Entry.isPlural

/-- The message that an entry stands for. The plural source text is not known any more, so the
singular text takes its place. -/
def messageOf (text : String) : Entry → MessageKey × Wording
  | .simple value => (.singular text, .single value)
  | .plural forms => (.pair text text, .forms forms.values)

def toRaw (catalog : NormalCatalog) : RawCatalog :=
  .ofList (catalog.entries.map fun (text, entry) => messageOf text entry)

end NormalCatalog

end Phrasebook
