import Phrasebook.Catalog.File
import Phrasebook.Po.Reader

/-!
How a catalog is written as a PO file. A value may be cut into any pieces, the first of which
stands behind its keyword and the others on lines of their own, and blank lines and comments may
stand around the entries.
-/

namespace Phrasebook.Po

def escaped (c : Char) : List Char :=
  if c = '\\' then ['\\', '\\']
  else if c = '"' then ['\\', '"']
  else if c = '\n' then ['\\', 'n']
  else [c]

def quotedPiece (piece : List Char) : List Char :=
  '"' :: piece.flatMap escaped ++ ['"']

def fieldLines (keyword : List Char) (first : List Char) (others : List (List Char)) :
    List (List Char) :=
  (keyword ++ ' ' :: quotedPiece first) :: others.map quotedPiece

inductive WritesField (keyword : List Char) (value : String) : List (List Char) → Prop
  | pieces (first : List Char) (others : List (List Char)) :
      first ++ others.flatten = value.toList →
      WritesField keyword value (fieldLines keyword first others)

def indexedKeyword (index : Nat) : List Char :=
  "msgstr[".toList ++ Text.decimal index ++ [']']

inductive WritesForms : Nat → List String → List (List Char) → Prop
  | nil {index} : WritesForms index [] []
  | cons {index text texts lines rest} :
      index < 2 ^ 64 → WritesField (indexedKeyword index) text lines →
      WritesForms (index + 1) texts rest → WritesForms index (text :: texts) (lines ++ rest)

inductive WritesMessage : FileMessage → List (List Char) → Prop
  | single {id text idLines textLines} :
      WritesField "msgid".toList id idLines →
      WritesField "msgstr".toList text textLines →
      WritesMessage ⟨id, none, .single text⟩ (idLines ++ textLines)
  | plural {id plural texts idLines pluralLines formLines} :
      WritesField "msgid".toList id idLines →
      WritesField "msgid_plural".toList plural pluralLines →
      WritesForms 0 texts formLines →
      WritesMessage ⟨id, some plural, .forms texts⟩ (idLines ++ pluralLines ++ formLines)

/-- A line that may stand between entries: a blank one, or a comment that is no list of flags. -/
inductive IsFiller : List Char → Prop
  | blank {line} :
      (∀ c ∈ line, Text.isBlank c = true ∧ c ≠ '\n') → IsFiller line
  | comment {indent text} :
      (∀ c ∈ indent, Text.isBlank c = true ∧ c ≠ '\n') →
      (∀ flags, text ≠ ',' :: flags) → '\n' ∉ text → IsFiller (indent ++ '#' :: text)

inductive WritesMessages : List FileMessage → List (List Char) → Prop
  | nil {fillers} : (∀ line ∈ fillers, IsFiller line) → WritesMessages [] fillers
  | cons {fillers message messages lines rest} :
      (∀ line ∈ fillers, IsFiller line) → WritesMessage message lines →
      WritesMessages messages rest → WritesMessages (message :: messages) (fillers ++ lines ++ rest)

inductive WritesFile : CatalogFile → List (List Char) → Prop
  | header {fillers metadata messages idLines textLines rest} :
      (∀ line ∈ fillers, IsFiller line) → WritesField "msgid".toList "" idLines →
      WritesField "msgstr".toList metadata textLines → WritesMessages messages rest →
      WritesFile ⟨metadata, messages⟩ (fillers ++ idLines ++ textLines ++ rest)

def Complete : Wording → Prop
  | .single text => text ≠ ""
  | .forms texts => texts ≠ [] ∧ ∀ text ∈ texts, text ≠ ""

end Phrasebook.Po
