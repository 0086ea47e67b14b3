import Phrasebook.Text.Place

/-!
A folder of files as the commands see it: names of files, with slashes where they lie deeper,
and what each holds.
-/

namespace Phrasebook.Command

inductive ReadFailure where
  | missing
  | isFolder
  | noFolder
  | longName
  | noText
  | other (reason : String)
  deriving DecidableEq, Repr

def ReadFailure.message : ReadFailure → String
  | missing => "No such file or directory (os error 2)"
  | isFolder => "Is a directory (os error 21)"
  | noFolder => "Not a directory (os error 20)"
  | longName => "File name too long (os error 36)"
  | noText => "stream did not contain valid UTF-8"
  | other reason => reason

def stepsOf (path : List Char) : List (List Char) :=
  (path.splitOn '/').filter fun step => !step.isEmpty && step != ['.']

def placeName (steps : List (List Char)) : String :=
  String.ofList (['/'].intercalate steps)

def maxNameBytes : Nat := 255

def maxPathBytes : Nat := 4095

/-- What is read from this file is empty, and what is written to it is lost. -/
def nullFile : String := "/dev/null"

structure Folder where
  files : List (List (List Char) × ByteArray)

namespace Folder

def ofFiles (files : List (String × ByteArray)) : Folder :=
  ⟨files.map fun (name, bytes) => (stepsOf name.toList, bytes)⟩

def file? (folder : Folder) (place : List (List Char)) : Option ByteArray :=
  folder.files.lookup place

/-- The folder itself and whatever files lie under are folders. -/
def isFolder (folder : Folder) (place : List (List Char)) : Bool :=
  place.isEmpty || folder.files.any fun file => place.isPrefixOf file.1 && place != file.1

/-- Walks along a path; `place` is the folder reached, the innermost step first. -/
def walk (folder : Folder) (place : List (List Char)) :
    List (List Char) → Except ReadFailure (List (List Char))
  | [] => .ok place.reverse
  | step :: rest =>
    if (folder.file? place.reverse).isSome then .error .noFolder
    else if !folder.isFolder place.reverse then .error .missing
    else if maxNameBytes < Text.byteLength step then .error .longName
    else if step = ['.', '.'] then
      match place with
      | [] => .error (if rest.isEmpty then .isFolder else .missing)
      | _ :: outer => folder.walk outer rest
    else folder.walk (step :: place) rest

def namesFolder (path : List Char) : Bool :=
  match path.reverse with
  | '/' :: _ => true
  | '.' :: '/' :: _ => true
  | _ => false

/-- The place in the folder that a path leads to. Other folders cannot be seen. -/
def resolve (folder : Folder) (path : String) : Except ReadFailure (List (List Char)) :=
  if maxPathBytes < path.utf8ByteSize then .error .longName
  else match path.toList with
  | [] => .error .missing
  | '/' :: rest => .error (if (stepsOf rest).isEmpty then .isFolder else .missing)
  | text => folder.walk [] (stepsOf text)

def readPath (folder : Folder) (path : String) : Except ReadFailure String := do
  let place ← folder.resolve path
  match folder.file? place with
  | some bytes =>
    if namesFolder path.toList then .error .noFolder
    else match String.fromUTF8? bytes with
      | some text => .ok text
      | none => .error .noText
  | none => .error (if folder.isFolder place then .isFolder else .missing)

def read (folder : Folder) (path : String) : Except ReadFailure String :=
  if path = nullFile then .ok "" else folder.readPath path

def writable? (folder : Folder) (path : String) : Option (List (List Char)) :=
  match folder.resolve path with
  | .error _ => none
  | .ok place =>
    if folder.isFolder place || namesFolder path.toList then none else some place

end Folder

end Phrasebook.Command
