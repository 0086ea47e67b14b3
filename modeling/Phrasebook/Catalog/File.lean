import Phrasebook.Catalog.Message
import Phrasebook.Json.Record

/-!
Catalogs as JSON files: `{"metadata": …, "messages": [{"msgid": …, "msgstr": …}]}`, where a
message may have a `msgid_plural` and its `msgstr` is a string or a list of strings.
-/

namespace Phrasebook

structure FileMessage where
  id : String
  idPlural : Option String
  wording : Wording
  deriving DecidableEq, Repr, Inhabited

/-- A catalog file. Its messages keep the order of the file, and one may occur twice. -/
structure CatalogFile where
  metadata : String
  messages : List FileMessage
  deriving DecidableEq, Repr, Inhabited

namespace Wording

def toJson : Wording → Json
  | single text => .string text
  | forms texts => .array (texts.map .string)

def text? : Json → Option String
  | .string text => some text
  | _ => none

def ofJson? : Json → Option Wording
  | .string text => some (single text)
  | .array items => (items.mapM text?).map forms
  | _ => none

/-- Reads a value of any kind and then judges whether it is a wording. -/
def read (depth : Nat) : Json.Reader Wording := fun text =>
  match Json.readValue depth text with
  | .error refusal => .error refusal
  | .ok (value, rest) =>
    match ofJson? value with
    | some wording => .ok (wording, rest)
    | none => .error (.unplaced (.noVariant "Translation") rest)

end Wording

namespace FileMessage

def key (message : FileMessage) : MessageKey :=
  match message.idPlural with
  | some plural => .pair message.id plural
  | none => .singular message.id

def pluralField : Option String → List (String × Json)
  | some plural => [("msgid_plural", .string plural)]
  | none => []

def toJson (message : FileMessage) : Json :=
  .object (("msgid", .string message.id) :: pluralField message.idPlural ++
    [("msgstr", message.wording.toJson)])

structure Draft where
  id : Option String := none
  idPlural : Option (Option String) := none
  wording : Option Wording := none

def readField (depth : Nat) (known : Draft) (name : String) : Json.Reader Draft := fun text =>
  if name = "msgid" then
    (Json.readOnce name known.id Json.readText text).map
      fun (value, rest) => ({ known with id := some value }, rest)
  else if name = "msgid_plural" then
    (Json.readOnce name known.idPlural Json.readOptionalText text).map
      fun (value, rest) => ({ known with idPlural := some value }, rest)
  else if name = "msgstr" then
    (Json.readOnce name known.wording (Wording.read depth) text).map
      fun (value, rest) => ({ known with wording := some value }, rest)
  else (Json.skipField text).map fun rest => (known, rest)

def readByName (depth : Nat) : Json.Reader FileMessage := fun text => do
  let (known, rest) ← Json.readFields (readField depth) {} text
  let id ← Json.required "msgid" known.id rest
  let wording ← Json.required "msgstr" known.wording rest
  return (⟨id, known.idPlural.join, wording⟩, rest)

def shape : String := "struct CatalogMessage with 3 elements"

def readByPlace (depth : Nat) : Json.Reader FileMessage := fun text => do
  match ← Json.readPlace? 0 Json.readText text with
  | (none, rest) => .error (.unplaced (.wrongLength 0 shape) rest)
  | (some id, rest) =>
    let (plural, rest) ← Json.readPlace? 1 Json.readOptionalText rest
    match ← Json.readPlace? 2 (Wording.read depth) rest with
    | (none, rest) => .error (.unplaced (.wrongLength 2 shape) rest)
    | (some wording, rest) => return (⟨id, plural.join, wording⟩, rest)

def read (depth : Nat) : Json.Reader FileMessage :=
  Json.readRecord "CatalogMessage" readByName readByPlace depth

end FileMessage

namespace CatalogFile

def toJson (file : CatalogFile) : Json :=
  .object [("metadata", .string file.metadata),
    ("messages", .array (file.messages.map FileMessage.toJson))]

structure Draft where
  metadata : Option String := none
  messages : Option (List FileMessage) := none

def readField (depth : Nat) (known : Draft) (name : String) : Json.Reader Draft := fun text =>
  if name = "metadata" then
    (Json.readOnce name known.metadata Json.readText text).map
      fun (value, rest) => ({ known with metadata := some value }, rest)
  else if name = "messages" then
    (Json.readOnce name known.messages (Json.readList FileMessage.read depth) text).map
      fun (value, rest) => ({ known with messages := some value }, rest)
  else (Json.skipField text).map fun rest => (known, rest)

def readByName (depth : Nat) : Json.Reader CatalogFile := fun text => do
  let (known, rest) ← Json.readFields (readField depth) {} text
  return (⟨known.metadata.getD "", known.messages.getD []⟩, rest)

def readByPlace (depth : Nat) : Json.Reader CatalogFile := fun text => do
  let (metadata, rest) ← Json.readPlace? 0 Json.readText text
  match metadata with
  | none => return (⟨"", []⟩, rest)
  | some metadata =>
    let (messages, rest) ← Json.readPlace? 1 (Json.readList FileMessage.read depth) rest
    return (⟨metadata, messages.getD []⟩, rest)

def readChars (text : List Char) : Except Json.ReadError CatalogFile :=
  Json.readWhole (Json.readRecord "CatalogFile" readByName readByPlace Json.maxDepth) text

def read (text : String) : Except Json.ReadError CatalogFile :=
  readChars text.toList

/-- The catalog of a file. Of two messages with one key the later stays. -/
def toCatalog (file : CatalogFile) : Catalog :=
  ⟨file.metadata, .ofList (file.messages.map fun message => (message.key, message.wording))⟩

end CatalogFile

end Phrasebook
