import Phrasebook.Proofs.Text.Place

/-!
Offsets between two characters of a text, or at one of its ends. The offset of a line and a column is
always such a one, and each of them is the offset of the line and the column that stand there.
-/

namespace Phrasebook.Text

variable {content : String} {front rest : List Char}

def lineStart (text : List Char) (line : Nat) : Nat :=
  ((pieces text).take (line - 1)).foldr (fun piece rest => byteLength piece + rest) 0

theorem byteLength_flatten (cut : List (List Char)) :
    byteLength cut.flatten = cut.foldr (fun piece rest => byteLength piece + rest) 0 := by
  induction cut with
  | nil => rfl
  | cons piece cut ih => rw [List.flatten_cons, byteLength_append, ih, List.foldr_cons]

theorem byteLength_eq_utf8ByteSize (text : List Char) :
    byteLength text = (String.ofList text).utf8ByteSize := by
  induction text with
  | nil => rfl
  | cons c text ih =>
    have split : String.ofList (c :: text) = String.singleton c ++ String.ofList text := by
      rw [String.singleton_eq_ofList, ← String.ofList_append, List.singleton_append]
    rw [split, String.utf8ByteSize_append, String.utf8ByteSize_singleton, ← ih]
    rfl

/-! Places of a text -/

/-- Behind the first few characters there is a place of the text. -/
theorem exists_splits (whole : content.toList = front ++ rest) :
    ∃ place : content.Pos, place.Splits (.ofList front) (.ofList rest) ∧
      place.offset.byteIdx = byteLength front := by
  have same : content = String.ofList front ++ String.ofList rest := by
    rw [← String.ofList_append, ← whole, String.ofList_toList]
  have valid : (String.ofList front).rawEndPos.IsValid content :=
    String.Pos.Raw.isValid_iff_exists_append.2 ⟨_, _, same, rfl⟩
  exact ⟨⟨_, valid⟩, ⟨same, rfl⟩, (byteLength_eq_utf8ByteSize front).symm⟩

theorem byteIdx_of_splits {place : content.Pos} {front rest : String} (splits : place.Splits front rest) :
    place.offset.byteIdx = byteLength front.toList := by
  rw [splits.offset_eq_rawEndPos, byteLength_eq_utf8ByteSize, String.ofList_toList]
  rfl

/-! From a line and a column to a place -/

theorem offsetOf_eq_lineStart_add (text : List Char) (line column : Nat) :
    offsetOf text line column = lineStart text line +
      byteLength (((pieces text).drop (line - 1)).flatten.take (column - 1)) := by
  rw [lineStart, ← byteLength_flatten]
  rfl

theorem exists_places (content : String) (line column : Nat) :
    ∃ start place : content.Pos, start.offset.byteIdx = lineStart content.toList line ∧
      place.offset.byteIdx = offsetOf content.toList line column ∧
      offsetOf content.toList line column = start.offset.byteIdx +
        byteLength ((content.sliceFrom start).copy.toList.take (column - 1)) := by
  have offset := offsetOf_eq_lineStart_add content.toList line column
  have lengths := byteLength_flatten ((pieces content.toList).take (line - 1))
  have whole : content.toList = ((pieces content.toList).take (line - 1)).flatten ++
      ((pieces content.toList).drop (line - 1)).flatten := by
    rw [← List.flatten_append, List.take_append_drop, flatten_pieces]
  generalize ((pieces content.toList).take (line - 1)).flatten = before at *
  generalize ((pieces content.toList).drop (line - 1)).flatten = after at *
  have further : content.toList =
      (before ++ after.take (column - 1)) ++ after.drop (column - 1) := by
    rw [List.append_assoc, List.take_append_drop, whole]
  obtain ⟨start, splits, index⟩ := exists_splits whole
  obtain ⟨place, _, index'⟩ := exists_splits further
  rw [← lineStart] at lengths
  refine ⟨start, place, index.trans lengths, ?_, ?_⟩
  · rw [index', byteLength_append, lengths, offset]
  · rw [offset, index, lengths, splits.copy_sliceFrom_eq, String.toList_ofList]

/-! From a place to its line and column -/

theorem exists_before_lastLine {text : List Char} (broken : '\n' ∈ text) :
    ∃ before, text = before ++ '\n' :: lastLine text ∧ '\n' ∉ lastLine text := by
  obtain ⟨line, before, same, unbroken⟩ := List.eq_append_cons_of_mem (List.mem_reverse.2 broken)
  have others : ∀ c ∈ line, decide (c ≠ '\n') = true := fun c member =>
    decide_eq_true fun feed => unbroken (feed ▸ member)
  have last : lastLine text = line.reverse := by
    rw [lastLine, same, List.takeWhile_append_of_pos others]
    simp
  refine ⟨before.reverse, ?_, ?_⟩
  · rw [last]
    simpa using congrArg List.reverse same
  · rwa [last, List.mem_reverse]

theorem length_pieces_feed (before : List Char) :
    (pieces (before ++ ['\n'])).length = before.count '\n' + 1 := by
  induction before with
  | nil => rfl
  | cons c before ih =>
    show (addToPieces c (pieces (before ++ ['\n']))).length = _
    rw [List.count_cons]
    cases cut : pieces (before ++ ['\n']) with
    | nil => simp [cut] at ih
    | cons piece others =>
      rw [cut] at ih
      by_cases feed : c = '\n'
      · simpa [addToPieces, feed] using ih
      · simpa [addToPieces, feed] using ih

/-- The characters behind the last line feed are those in front of the place in its line. -/
theorem offsetOf_place (front rest : List Char) :
    offsetOf (front ++ rest) (front.count '\n' + 1) ((lastLine front).length + 1) =
      byteLength front := by
  by_cases broken : '\n' ∈ front
  · obtain ⟨before, whole, unbroken⟩ := exists_before_lastLine broken
    generalize lastLine front = line at *
    subst whole
    have cut := pieces_append_feed before (line ++ rest)
    have feeds : (before ++ '\n' :: line).count '\n' = (pieces (before ++ ['\n'])).length := by
      rw [length_pieces_feed, List.count_append, List.count_cons_self,
        List.count_eq_zero_of_not_mem unbroken]
    rw [List.append_assoc, List.cons_append, feeds, offsetOf_behind cut, flatten_pieces,
      flatten_pieces, List.take_left, ← byteLength_append, List.append_assoc, List.singleton_append]
  · rw [List.count_eq_zero_of_not_mem broken, lastLine_eq_self_iff.2 broken, offsetOf_first_line,
      List.take_left]

/-- Whatever the line and the column, the text is cut between two characters or at an end of it, and
so is the offset that comes out. And for each such offset there are a line and a column: one more
than there are line feeds before it, and than there are characters from the last of them on. -/
theorem offsetOf_boundaries (content : String) :
    (∀ line column, ∃ start place : content.Pos,
      start.offset.byteIdx = lineStart content.toList line ∧
      place.offset.byteIdx = offsetOf content.toList line column ∧
      offsetOf content.toList line column = start.offset.byteIdx +
        byteLength ((content.sliceFrom start).copy.toList.take (column - 1)) ∧
      offsetOf content.toList line column ≤ content.utf8ByteSize) ∧
    ∀ place : content.Pos,
      let front := (content.sliceTo place).copy.toList
      offsetOf content.toList (front.count '\n' + 1) ((lastLine front).length + 1) =
        place.offset.byteIdx := by
  constructor
  · intro line column
    obtain ⟨start, place, starts, stands, offset⟩ := exists_places content line column
    refine ⟨start, place, starts, stands, offset, ?_⟩
    rw [← String.ofList_toList (s := content), ← byteLength_eq_utf8ByteSize, String.toList_ofList]
    exact offsetOf_le content.toList line column
  · intro place front
    have splits := place.splits
    have whole : content.toList = front ++ (content.sliceFrom place).copy.toList := by
      rw [← String.toList_append, ← splits.eq_append]
    rw [byteIdx_of_splits splits, whole]
    exact offsetOf_place front _

end Phrasebook.Text
