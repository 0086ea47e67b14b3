import Mathlib.Data.List.Sort
import Phrasebook.Po.Reader

/-!
The entries of a file as they stand in its lines, told without a reader: where an entry ends, what
its fields hold, and which message it has for the catalog.
-/

namespace Phrasebook.Po

namespace Line

def isFiller : Line → Bool
  | .blank | .comment _ => true
  | .continuation _ | .keyword _ _ => false

def isKeyword : Line → Bool
  | .keyword _ _ => true
  | .blank | .comment _ | .continuation _ => false

def isWording : Line → Bool
  | .keyword (.wording _) _ => true
  | _ => false

def endsEntry : Line → Bool
  | .blank | .comment _ | .keyword .context _ | .keyword .id _ => true
  | .continuation _ | .keyword .idPlural _ | .keyword (.wording _) _ => false

def continuationText : Line → List Char
  | .continuation text => text
  | _ => []

end Line

/-- Cuts the first entry off lines that begin with one. It takes in all lines up to its first
wording, and of those behind it all up to one that ends it. -/
def cutEntry (lines : List Line) : List Line × List Line :=
  match lines.dropWhile (!·.isWording) with
  | [] => (lines, [])
  | wording :: rest =>
    (lines.takeWhile (!·.isWording) ++ wording :: rest.takeWhile (!·.endsEntry),
      rest.dropWhile (!·.endsEntry))

theorem cutEntry_append (lines : List Line) :
    (cutEntry lines).1 ++ (cutEntry lines).2 = lines := by
  have whole := List.takeWhile_append_dropWhile (p := (!·.isWording)) (l := lines)
  unfold cutEntry
  split
  · exact List.append_nil lines
  · rename_i wording rest found
    rw [found] at whole
    simp [whole]

theorem head_cutEntry (first : Line) (rest : List Line) :
    (cutEntry (first :: rest)).1.head? = some first := by
  unfold cutEntry
  split
  · rfl
  · rename_i wording others found
    cases worded : first.isWording with
    | true =>
      rw [List.dropWhile_cons_of_neg (by simp [worded])] at found
      cases found
      simp [worded]
    | false => simp [worded]

theorem cutEntry_fst_ne_nil (first : Line) (rest : List Line) :
    (cutEntry (first :: rest)).1 ≠ [] := by
  intro empty
  have head := head_cutEntry first rest
  rw [empty] at head
  cases head

structure Passage where
  before : List Line
  lines : List Line
  deriving DecidableEq

def passages (lines : List Line) : List Passage :=
  match _found : lines.dropWhile Line.isFiller with
  | [] => []
  | first :: rest =>
    ⟨lines.takeWhile Line.isFiller, (cutEntry (first :: rest)).1⟩ ::
      passages (cutEntry (first :: rest)).2
termination_by lines.length
decreasing_by
  have whole := congrArg List.length (cutEntry_append (first :: rest))
  have nonempty := List.length_pos_iff.2 (cutEntry_fst_ne_nil first rest)
  have shorter := (List.dropWhile_suffix Line.isFiller (l := lines)).length_le
  rw [_found] at shorter
  rw [List.length_append] at whole
  omega

namespace Passage

def continued (lines : List Line) : List Char :=
  (lines.takeWhile (!·.isKeyword)).flatMap Line.continuationText

/-- The fields of the lines. The value of a field is its own string and those that continue it. -/
def fieldsOf : List Line → List (Field × String)
  | [] => []
  | .keyword field text :: rest => (field, String.ofList (text ++ continued rest)) :: fieldsOf rest
  | _ :: rest => fieldsOf rest

def value? (passage : Passage) (field : Field) : Option String :=
  (fieldsOf passage.lines).lookup field

def indexedWording? : Field × String → Option (Nat × String)
  | (.wording index, text) => some (index, text)
  | _ => none

def wordings (passage : Passage) : List String :=
  (((fieldsOf passage.lines).filterMap indexedWording?).insertionSort (·.1 ≤ ·.1)).map Prod.snd

def id (passage : Passage) : String :=
  (passage.value? .id).getD ""

def key (passage : Passage) : MessageKey :=
  match passage.value? .idPlural with
  | none => .singular passage.id
  | some plural => .pair passage.id plural

def wording? (passage : Passage) : Option Wording :=
  match passage.value? .idPlural, passage.wordings with
  | some _, texts => some (.forms texts)
  | none, [text] => some (.single text)
  | none, _ => none

def message? (passage : Passage) : Option (MessageKey × Wording) :=
  passage.wording?.map (passage.key, ·)

structure IsLive (passage : Passage) : Prop where
  named : passage.id ≠ ""
  plain : passage.value? .context = none
  certain : .comment true ∉ passage.before
  complete : "" ∉ passage.wordings

instance : DecidablePred IsLive := fun passage =>
  decidable_of_iff (passage.id ≠ "" ∧ passage.value? .context = none ∧
      .comment true ∉ passage.before ∧ "" ∉ passage.wordings)
    ⟨fun ⟨named, plain, certain, complete⟩ => ⟨named, plain, certain, complete⟩,
      fun ⟨named, plain, certain, complete⟩ => ⟨named, plain, certain, complete⟩⟩

end Passage

/-- The lines of a text. A line that cannot be read counts for none; a text with such a line is
never accepted. -/
def linesOf (text : String) : List Line :=
  (Text.lines text.toList).filterMap fun line => (Line.ofChars line).toOption

def liveEntries (text : String) : List Passage :=
  (passages (linesOf text)).filter (·.IsLive)

/-- No flag stands inside an entry, where it would count for the entry behind. -/
def FlagsBetween (text : String) : Prop :=
  ∀ passage ∈ passages (linesOf text), .comment true ∉ passage.lines

instance : DecidablePred FlagsBetween := fun text =>
  inferInstanceAs (Decidable (∀ passage ∈ passages (linesOf text), .comment true ∉ passage.lines))

end Phrasebook.Po
