import Phrasebook.Catalog.Message
import Phrasebook.Po.Line
import Phrasebook.Text.Place

/-!
Reading PO files. The lines of an entry are gathered in a draft. The draft is closed, once it
has a wording, by the next blank line, comment or first keyword of an entry, and at the end
of the file. Left out of the catalog are fuzzy messages, messages with a context, and messages
that have an empty form.
-/

namespace Phrasebook.Po

inductive Fault where
  | unreadable
  | strayContinuation
  | idAfterWording
  | repeatedKeyword
  | wordingWithoutId
  | noId
  | noWording (id : String)
  | formsWithoutPlural
  deriving DecidableEq, Repr

inductive ReadError where
  | malformed (line column : Nat) (fault : Fault)
  | indexOutOfOrder (line index expected : Nat)
  | duplicateMessage (line : Nat) (id : String)
  deriving DecidableEq, Repr

def Fault.message : Fault → String
  | unreadable => "parse error: Parsing Error: ContextError \x7b context: [], cause: None \x7d"
  | strayContinuation => "string continuation without a keyword"
  | idAfterWording => "msgid after msgstr"
  | repeatedKeyword => "keyword repeated within one entry"
  | wordingWithoutId => "msgstr without msgid"
  | noId => "entry without msgid"
  | noWording id => s!"no msgstr for '{id}'"
  | formsWithoutPlural => "msgstr[N] without msgid_plural"

def ReadError.message : ReadError → String
  | malformed line column fault => s!"syntax error at {line}:{column}: {fault.message}"
  | indexOutOfOrder line index expected =>
    s!"msgstr index {index} out of order at line {line}, expected {expected}"
  | duplicateMessage line id => s!"duplicate message '{id}' at line {line}"

/-- An entry as far as it has been read. `last` is the field that a continuation extends. -/
structure Draft where
  line : Nat
  fuzzy : Bool
  context : Option String
  id : Option String
  idPlural : Option String
  wordings : List String
  last : Option Field
  deriving DecidableEq, Repr, Inhabited

namespace Draft

def empty : Draft := ⟨0, false, none, none, none, [], none⟩

def isEmpty (draft : Draft) : Bool := draft.last.isNone

def hasWording (draft : Draft) : Bool := !draft.wordings.isEmpty

def has (draft : Draft) : Field → Bool
  | .context => draft.context.isSome
  | .id => draft.id.isSome
  | .idPlural => draft.idPlural.isSome
  | .wording index => index < draft.wordings.length

def extend (draft : Draft) (text : String) : Field → Draft
  | .context => { draft with context := some (draft.context.getD "" ++ text) }
  | .id => { draft with id := some (draft.id.getD "" ++ text) }
  | .idPlural => { draft with idPlural := some (draft.idPlural.getD "" ++ text) }
  | .wording index =>
    { draft with wordings := draft.wordings.modify index (· ++ text) }

end Draft

/-- What has been read so far. A fuzzy flag is kept for the entry that comes next. -/
structure Reader where
  metadata : String
  messages : RawCatalog
  draft : Draft
  fuzzyNext : Bool
  deriving Inhabited

namespace Reader

def start : Reader := ⟨"", .empty, .empty, false⟩

def catalog (reader : Reader) : Catalog := ⟨reader.metadata, reader.messages⟩

def store (reader : Reader) (line : Nat) (key : MessageKey) (wording : Wording) :
    Except ReadError Reader :=
  if reader.messages.contains key then .error (.duplicateMessage line key.singularText)
  else .ok { reader with messages := reader.messages.insert key wording }

/-- Closes the draft. An entry with an empty id and no context is the header. -/
def flush (reader : Reader) : Except ReadError Reader :=
  let draft := reader.draft
  let reader := { reader with draft := .empty }
  if draft.isEmpty then .ok reader
  else match draft.id with
    | none => .error (.malformed draft.line 1 .noId)
    | some id =>
      if draft.wordings.isEmpty then .error (.malformed draft.line 1 (.noWording id))
      else if id.isEmpty && draft.context.isNone then
        .ok { reader with metadata := String.join draft.wordings }
      else if draft.fuzzy || draft.context.isSome || draft.wordings.any String.isEmpty then
        .ok reader
      else match draft.idPlural, draft.wordings with
        | some plural, texts => reader.store draft.line (.pair id plural) (.forms texts)
        | none, [text] => reader.store draft.line (.singular id) (.single text)
        | none, _ => .error (.malformed draft.line 1 .formsWithoutPlural)

def flushIfWorded (reader : Reader) : Except ReadError Reader :=
  if reader.draft.hasWording then reader.flush else .ok reader

/-- An empty draft begins at this line, and takes the fuzzy flag if there is one. -/
def beginAt (reader : Reader) (line : Nat) : Reader :=
  if reader.draft.isEmpty then
    { reader with
      draft := { reader.draft with line, fuzzy := reader.fuzzyNext }
      fuzzyNext := false }
  else reader

/-- Whether a field may come next in the draft. Wordings come last, in the order of their
indices; of the other fields there is one each. -/
def allow (draft : Draft) (line : Nat) (field : Field) : Except ReadError Draft :=
  match field with
  | .wording index =>
    if draft.id.isNone then .error (.malformed line 1 .wordingWithoutId)
    else if index = draft.wordings.length then
      .ok { draft with wordings := draft.wordings ++ [""] }
    else .error (.indexOutOfOrder line index draft.wordings.length)
  | _ =>
    if draft.hasWording then .error (.malformed line 1 .idAfterWording)
    else if draft.has field then .error (.malformed line 1 .repeatedKeyword)
    else .ok draft

def startsEntry : Field → Bool
  | .context | .id => true
  | .idPlural | .wording _ => false

def readKeyword (reader : Reader) (line : Nat) (field : Field) (text : String) :
    Except ReadError Reader := do
  let reader ← if startsEntry field then reader.flushIfWorded else .ok reader
  let reader := reader.beginAt line
  let draft ← allow reader.draft line field
  return { reader with draft := { draft.extend text field with last := some field } }

def readContinuation (reader : Reader) (line : Nat) (text : String) : Except ReadError Reader :=
  match reader.draft.last with
  | none => .error (.malformed line 1 .strayContinuation)
  | some field => .ok { reader with draft := reader.draft.extend text field }

def take (reader : Reader) (number : Nat) : Line → Except ReadError Reader
  | .blank => reader.flushIfWorded
  | .comment fuzzy => do
    let reader ← reader.flushIfWorded
    return { reader with fuzzyNext := reader.fuzzyNext || fuzzy }
  | .continuation text => reader.readContinuation number (String.ofList text)
  | .keyword field text => reader.readKeyword number field (String.ofList text)

def readLine (reader : Reader) (number : Nat) (line : List Char) : Except ReadError Reader :=
  match Line.ofChars line with
  | .error stuck =>
    .error (.malformed number (Text.byteLength (Text.consumed line stuck) + 1) .unreadable)
  | .ok parsed => reader.take number parsed

def readLines (reader : Reader) (number : Nat) : List (List Char) → Except ReadError Reader
  | [] => .ok reader
  | line :: rest =>
    match reader.readLine number line with
    | .error e => .error e
    | .ok next => next.readLines (number + 1) rest

def ofChars (text : List Char) : Except ReadError Reader := do
  (← start.readLines 1 (Text.lines text)).flush

end Reader

def read (text : String) : Except ReadError Catalog :=
  (Reader.ofChars text.toList).map Reader.catalog

end Phrasebook.Po
