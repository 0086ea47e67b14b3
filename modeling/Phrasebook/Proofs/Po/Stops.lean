import Phrasebook.Proofs.Po.Steps
import Phrasebook.Proofs.Text.Place

/-!
Where the reading of a PO file stops: in the first line that cannot be read, in front of what is
left of it.
-/

namespace Phrasebook.Po

namespace Line

def LeavesEnd {α : Type} (text : List Char) : Except (List Char) (α × List Char) → Prop
  | .error stuck => stuck <:+ text
  | .ok (_, after) => after <:+ text

section Leaves

variable {α β : Type} {text : List Char} {result : Except (List Char) (α × List Char)}

theorem LeavesEnd.behind (leaves : LeavesEnd text result) (c : Char) :
    LeavesEnd (c :: text) result := by
  cases result with
  | error stuck => exact List.IsSuffix.trans leaves (List.suffix_cons c text)
  | ok read => exact List.IsSuffix.trans leaves (List.suffix_cons c text)

theorem LeavesEnd.map (leaves : LeavesEnd text result) (change : α → β) :
    LeavesEnd text (result.map fun (found, after) => (change found, after)) := by
  cases result with
  | error stuck => exact leaves
  | ok read => exact leaves

end Leaves

theorem leavesEnd_body (skip : Nat) (text : List Char) : LeavesEnd text (body skip text) := by
  induction text generalizing skip with
  | nil => exact List.suffix_refl []
  | cons c rest ih =>
    cases skip with
    | succ skip => exact (ih skip).behind c
    | zero =>
      rw [body]
      split
      · exact List.suffix_cons c rest
      · split
        · cases escape? rest with
          | none => exact List.suffix_refl (c :: rest)
          | some escape => exact ((ih escape.2).behind c).map (escape.1 :: ·)
        · exact ((ih 0).behind c).map (c :: ·)

theorem dropSpaces_suffix (text : List Char) : dropSpaces text <:+ text :=
  List.dropWhile_suffix _

theorem quoted_suffix {text stuck : List Char} (refused : quoted text = .error stuck) :
    stuck <:+ text := by
  unfold quoted at refused
  split at refused
  · rename_i rest
    have leaves := leavesEnd_body 0 rest
    cases read : body 0 rest with
    | error other =>
      rw [read] at refused leaves
      cases refused
      exact List.IsSuffix.trans leaves (List.suffix_cons '"' rest)
    | ok decoded =>
      rw [read] at refused leaves
      simp only at refused
      split at refused
      · cases refused
      · cases refused
        have tail := (dropSpaces_suffix decoded.2).trans leaves
        exact tail.trans (List.suffix_cons '"' rest)
  · cases refused
    exact List.suffix_refl text

theorem after_suffix {word : String} {text rest : List Char} (found : after? word text = some rest) :
    rest <:+ text := by
  unfold after? at found
  split at found
  · cases found
    exact List.drop_suffix _ _
  · cases found

theorem indexed_suffix {text rest : List Char} {field : Field}
    (found : indexed? text = some (field, rest)) : rest <:+ text := by
  unfold indexed? at found
  split at found
  · cases found
  · rename_i digits bracket
    simp only at found
    split at found
    · rename_i index after number closing
      split at found
      · cases found
        have tail : ']' :: rest <:+ digits := closing ▸ List.dropWhile_suffix _
        exact (List.suffix_cons ']' rest).trans (tail.trans (after_suffix bracket))
      · cases found
    · cases found

theorem field_suffix {text rest : List Char} {field : Field}
    (found : field? text = some (field, rest)) : rest <:+ text := by
  simp only [field?, Option.or_eq_some_iff, Option.map_eq_some_iff, Prod.mk.injEq] at found
  rcases found with ⟨_, context, _, rfl⟩ | ⟨_, ⟨_, plural, _, rfl⟩ | ⟨_, ⟨_, id, _, rfl⟩ |
    ⟨_, indexed | ⟨_, _, wording, _, rfl⟩⟩⟩⟩
  · exact after_suffix context
  · exact after_suffix plural
  · exact after_suffix id
  · exact indexed_suffix indexed
  · exact after_suffix wording

theorem keywordLine_suffix {line stuck : List Char} (refused : keywordLine line = .error stuck) :
    stuck <:+ line := by
  unfold keywordLine at refused
  split at refused
  · cases refused
    exact dropSpaces_suffix line
  · rename_i field rest named
    have tail := (field_suffix named).trans (dropSpaces_suffix line)
    split at refused
    · have stops := quoted_suffix ((map_eq_error_iff _ _ _).1 refused)
      exact stops.trans ((dropSpaces_suffix rest).trans tail)
    · cases refused
      exact tail

theorem ofChars_suffix {line stuck : List Char} (refused : ofChars line = .error stuck) :
    stuck <:+ line := by
  unfold ofChars at refused
  split at refused
  · cases refused
  · split at refused
    · cases refused
    · split at refused
      · exact (quoted_suffix ((map_eq_error_iff _ _ _).1 refused)).trans (dropSpaces_suffix line)
      · exact keywordLine_suffix ((map_eq_error_iff _ _ _).1 refused)

end Line

/-- The error tells of a line or an entry that was read but stands out of place. It names the start
of a line. An entry is in another's place only if it has an id, which the header has not. -/
def ReadError.OutOfPlace : ReadError → Prop
  | .malformed _ column fault => column = 1 ∧ fault ≠ .unreadable
  | .indexOutOfOrder _ _ _ => True
  | .duplicateMessage _ id => id ≠ ""

namespace Reader

open ReadError (OutOfPlace)

variable {reader : Reader} {number : Nat} {e : ReadError}

theorem outOfPlace_of_store {key : MessageKey} {wording : Wording} (named : key.singularText ≠ "")
    (refused : reader.store number key wording = .error e) : e.OutOfPlace := by
  unfold store at refused
  split at refused
  · cases refused
    exact named
  · cases refused

theorem outOfPlace_of_flush (refused : reader.flush = .error e) : e.OutOfPlace := by
  unfold flush at refused
  simp only at refused
  split at refused
  · cases refused
  · split at refused
    · cases refused
      exact ⟨rfl, by simp⟩
    · rename_i id known
      split at refused
      · cases refused
        exact ⟨rfl, by simp⟩
      · split at refused
        · cases refused
        · rename_i other
          split at refused
          · cases refused
          · rename_i kept
            have named : id ≠ "" := by
              intro empty
              simp [empty] at other
              simp [other] at kept
            split at refused
            · apply outOfPlace_of_store _ refused
              exact named
            · apply outOfPlace_of_store _ refused
              exact named
            · cases refused
              exact ⟨rfl, by simp⟩

theorem outOfPlace_of_flushIfWorded (refused : reader.flushIfWorded = .error e) :
    e.OutOfPlace := by
  unfold flushIfWorded at refused
  split at refused
  · exact outOfPlace_of_flush refused
  · cases refused

theorem outOfPlace_of_allow {draft : Draft} {field : Field}
    (refused : allow draft number field = .error e) : e.OutOfPlace := by
  unfold allow at refused
  split at refused
  · split at refused
    · cases refused
      exact ⟨rfl, by simp⟩
    · split at refused
      · cases refused
      · cases refused
        trivial
  · split at refused
    · cases refused
      exact ⟨rfl, by simp⟩
    · split at refused
      · cases refused
        exact ⟨rfl, by simp⟩
      · cases refused

theorem outOfPlace_of_take {line : Line} (refused : reader.take number line = .error e) :
    e.OutOfPlace := by
  cases line with
  | blank => exact outOfPlace_of_flushIfWorded refused
  | comment fuzzy =>
    rcases bind_eq_error_iff.1 refused with flushed | ⟨closed, _, same⟩
    · exact outOfPlace_of_flushIfWorded flushed
    · cases same
  | continuation text =>
    simp only [take, readContinuation] at refused
    split at refused
    · cases refused
      exact ⟨rfl, by simp⟩
    · cases refused
  | keyword field text =>
    simp only [take, readKeyword] at refused
    by_cases starts : startsEntry field = true
    · simp only [if_pos starts, bind_eq_error_iff] at refused
      rcases refused with flushed | ⟨opened, _, admitted | ⟨draft, _, same⟩⟩
      · exact outOfPlace_of_flushIfWorded flushed
      · exact outOfPlace_of_allow admitted
      · cases same
    · simp only [if_neg starts, bind_eq_error_iff] at refused
      rcases refused with same | ⟨opened, _, admitted | ⟨draft, _, same⟩⟩
      · cases same
      · exact outOfPlace_of_allow admitted
      · cases same

theorem outOfPlace_of_readLines {lines : List (List Char)}
    (refused : reader.readLines number lines = .error e) :
    (∃ line column, e = .malformed line column .unreadable) ∨ e.OutOfPlace := by
  induction lines generalizing reader number with
  | nil => cases refused
  | cons line rest ih =>
    rw [readLines] at refused
    cases read : reader.readLine number line with
    | error other =>
      rw [read] at refused
      cases refused
      rw [readLine] at read
      split at read
      · cases read
        exact .inl ⟨number, _, rfl⟩
      · exact .inr (outOfPlace_of_take read)
    | ok next =>
      rw [read] at refused
      exact ih refused

theorem stops_of_readLines {lines : List (List Char)} {line column : Nat}
    (refused : reader.readLines number lines = .error (.malformed line column .unreadable)) :
    ∃ earlier stopped later stuck, lines = earlier ++ stopped :: later ∧
      line = number + earlier.length ∧ Line.ofChars stopped = .error stuck ∧
      column = Text.byteLength (Text.consumed stopped stuck) + 1 := by
  induction lines generalizing reader number with
  | nil => cases refused
  | cons first rest ih =>
    rw [readLines] at refused
    cases read : reader.readLine number first with
    | error e =>
      rw [read] at refused
      cases refused
      rw [readLine] at read
      cases parsed : Line.ofChars first with
      | error stuck =>
        rw [parsed] at read
        cases read
        exact ⟨[], first, rest, stuck, rfl, rfl, parsed, rfl⟩
      | ok found =>
        rw [parsed] at read
        exact absurd rfl (outOfPlace_of_take read).2
    | ok next =>
      rw [read] at refused
      obtain ⟨earlier, stopped, later, stuck, rfl, rfl, parsed, place⟩ := ih refused
      refine ⟨first :: earlier, stopped, later, stuck, rfl, ?_, parsed, place⟩
      rw [List.length_cons]
      omega

end Reader

/-- A text is refused because one of its lines cannot be read, or because a line or an entry stands
out of place. -/
theorem outOfPlace_of_read {text : String} {e : ReadError} (refused : read text = .error e) :
    (∃ line column, e = .malformed line column .unreadable) ∨ e.OutOfPlace := by
  rcases bind_eq_error_iff.1 ((map_eq_error_iff _ _ _).1 refused) with stops | ⟨last, _, flushed⟩
  · exact Reader.outOfPlace_of_readLines stops
  · exact .inr (Reader.outOfPlace_of_flush flushed)

/-- The reading stops in a line: it takes `front` of it, and cannot go on with `stuck`. -/
structure StopsAt (text : List Char) (line : Nat) (before front stuck behind : List Char) :
    Prop where
  stands : Text.HasLine text line before (front ++ stuck) behind
  refused : Line.ofChars (front ++ stuck) = .error stuck

/-- A line that does not parse is found in the text, with the place in it where its reader
stopped. The column tells how many bytes of the line are in front of that place. -/
theorem stopsAt_of_read {text : String} {line column : Nat}
    (refused : read text = .error (.malformed line column .unreadable)) :
    ∃ earlier piece later front stuck behind,
      Text.pieces text.toList = earlier ++ piece :: later ∧ line = earlier.length + 1 ∧
      StopsAt text.toList line earlier.flatten front stuck behind ∧
      column = Text.byteLength front + 1 := by
  have taken := (map_eq_error_iff _ _ _).1 refused
  rcases bind_eq_error_iff.1 taken with stops | ⟨last, _, flushed⟩
  · obtain ⟨earlier, stopped, later, stuck, cut, rfl, parsed, rfl⟩ := Reader.stops_of_readLines stops
    obtain ⟨pieces, others, whole, rfl, rest⟩ := List.map_eq_append_iff.1 cut
    obtain ⟨piece, later, rfl, rfl, _⟩ := List.map_eq_cons_iff.1 rest
    obtain ⟨behind, stands⟩ := Text.hasLine_of_pieces whole
    obtain ⟨front, split⟩ := Line.ofChars_suffix parsed
    rw [List.length_map, Nat.add_comm]
    rw [← split] at stands parsed
    refine ⟨pieces, piece, later, front, stuck, behind, whole, rfl, ⟨stands, parsed⟩, ?_⟩
    rw [← split, Text.consumed_append]
  · exact absurd rfl (Reader.outOfPlace_of_flush flushed).2

end Phrasebook.Po
