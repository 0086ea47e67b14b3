import Phrasebook.Diagnostic
import Phrasebook.Proofs.Plural.Stops
import Phrasebook.Proofs.Po.Stops

/-!
Where labels stand. A column of a line that does not parse counts bytes, but the label is put where
it would be if the column counted characters. A column of a plural expression counts from the last
line feed on, but the label is put where it would be if it counted from the start.
-/

namespace Phrasebook.Diagnostic

open Text (byteLength)

/-- The label of a line that does not parse stands behind the place where the reading stopped, by as
many characters as there are more bytes than characters before that place in the line. So it
stands there exactly if these characters are single bytes or the text ends there. -/
theorem label_of_unreadable {text : String} {line column : Nat}
    (refused : Po.read text = .error (.malformed line column .unreadable)) :
    ∃ before front stuck behind label,
      Po.StopsAt text.toList line before front stuck behind ∧ column = byteLength front + 1 ∧
      (ofPo text (.malformed line column .unreadable)).labels = [label] ∧
      label.offset = byteLength (before ++ front) +
        byteLength ((stuck ++ behind).take (byteLength front - front.length)) ∧
      (label.offset = byteLength (before ++ front) ↔
        (∀ c ∈ front, c.utf8Size = 1) ∨ stuck ++ behind = []) := by
  obtain ⟨earlier, piece, later, front, stuck, behind, cut, rfl, stops, rfl⟩ :=
    Po.stopsAt_of_read refused
  have whole := stops.stands.whole
  rw [List.append_assoc] at whole
  have offset := Text.offsetOf_of_pieces cut whole
  refine ⟨earlier.flatten, front, stuck, behind, _, stops, rfl, rfl, offset, ?_⟩
  have bound := Text.length_le_byteLength front
  have single : byteLength front - front.length = 0 ↔ byteLength front = front.length := by omega
  calc
    Text.offsetOf text.toList (earlier.length + 1) (byteLength front + 1) =
        byteLength (earlier.flatten ++ front) ↔
        byteLength ((stuck ++ behind).take (byteLength front - front.length)) = 0 := by
      rw [offset]
      omega
    _ ↔ byteLength front - front.length = 0 ∨ stuck ++ behind = [] := by
      rw [Text.byteLength_eq_zero_iff, List.take_eq_nil_iff]
    _ ↔ (∀ c ∈ front, c.utf8Size = 1) ∨ stuck ++ behind = [] := by
      rw [single, Text.byteLength_eq_length_iff]

theorem label_of_unreadable_accents :
    let text := "msgid \"éééé\\q\"\nmsgstr \"x\"\n"
    Po.read text = .error (.malformed 1 16 .unreadable) ∧
    ∃ before front stuck behind label,
      Po.StopsAt text.toList 1 before front stuck behind ∧ 16 = byteLength front + 1 ∧
      (ofPo text (.malformed 1 16 .unreadable)).labels = [label] ∧
      label.offset = byteLength (before ++ front) +
        byteLength ((stuck ++ behind).take (byteLength front - front.length)) ∧
      (label.offset = byteLength (before ++ front) ↔
        (∀ c ∈ front, c.utf8Size = 1) ∨ stuck ++ behind = []) :=
  ⟨rfl, label_of_unreadable rfl⟩

/-- A label need not stand where the reading stopped, nor in the line at all: here the reading stops
behind four letters of two bytes, and the label is in the next line. -/
theorem label_behind_line :
    ∃ text line column before front stuck behind label,
      Po.read text = .error (.malformed line column .unreadable) ∧
      Po.StopsAt text.toList line before front stuck behind ∧ column = byteLength front + 1 ∧
      label ∈ (ofPo text (.malformed line column .unreadable)).labels ∧
      label.offset ≠ byteLength before + (column - 1) ∧
      byteLength (before ++ (front ++ stuck)) < label.offset := by
  refine ⟨"msgid \"éééé\\q\"\nmsgstr \"x\"\n", 1, 16, [], "msgid \"éééé".toList, "\\q\"".toList,
    "\nmsgstr \"x\"\n".toList, ⟨"error here", 19, 1⟩, rfl, ⟨?_, rfl⟩, rfl, ?_, by decide, by decide⟩
  · exact ⟨rfl, rfl, by simp, by decide, .feed _ (by decide)⟩
  · exact List.mem_singleton.2 rfl

/-- The label of an expression whose parentheses nest too deep stands at the first one that does.
Any other label is as far from the start of the expression as the place where the reading stopped is
from the last line feed before it. So it stands there exactly if there is no line feed before it. -/
theorem label_of_invalid {source : String} {column : Nat} {fault : Plural.Fault}
    (refused : Plural.parse source = .error (.invalid column fault)) :
    ∃ front stuck label, source.toList = front ++ stuck ∧
      (ofPlural source (.invalid column fault)).labels = [label] ∧
      ((fault = .nestedTooDeep ∧ Plural.OpensTooDeep 0 front stuck ∧
          label.offset = byteLength front) ∨
        (fault ≠ .nestedTooDeep ∧ Plural.StopsAt source.toList stuck ∧
          label.offset = byteLength (Text.lastLine front) ∧
          (label.offset = byteLength front ↔ '\n' ∉ front))) := by
  obtain ⟨front, stuck, whole, cases⟩ := Plural.stops_of_parse refused
  refine ⟨front, stuck, _, whole, rfl, ?_⟩
  rcases cases with ⟨nested, deep, rfl⟩ | ⟨other, stops, small, rfl⟩
  · refine .inl ⟨nested, deep, ?_⟩
    show Text.offsetOf source.toList 1 (front.length + 1) = byteLength front
    rw [Text.offsetOf_first_line, whole, List.take_left]
  · have offset : Text.offsetOf source.toList 1 (Text.columnAfter front) =
        byteLength (Text.lastLine front) := by
      rw [whole, Text.offsetOf_columnAfter small]
    refine .inr ⟨other, stops, offset, ?_⟩
    show Text.offsetOf source.toList 1 (Text.columnAfter front) = byteLength front ↔ _
    rw [offset, Text.byteLength_lastLine_eq_iff]

theorem label_of_invalid_lines :
    let source := "n == 1\n ? 0 1"
    Plural.parse source = .error (.invalid 6 (.missing ':')) ∧
    ∃ front stuck label, source.toList = front ++ stuck ∧
      (ofPlural source (.invalid 6 (.missing ':'))).labels = [label] ∧
      ((Plural.Fault.missing ':' = .nestedTooDeep ∧ Plural.OpensTooDeep 0 front stuck ∧
          label.offset = byteLength front) ∨
        (Plural.Fault.missing ':' ≠ .nestedTooDeep ∧ Plural.StopsAt source.toList stuck ∧
          label.offset = byteLength (Text.lastLine front) ∧
          (label.offset = byteLength front ↔ '\n' ∉ front))) :=
  ⟨by decide +kernel, label_of_invalid (by decide +kernel)⟩

/-- Behind a line feed the label is put into a line before: here the reading stops at the stray
character in the second line, and the label is at the count in the first. -/
theorem label_before_line :
    ∃ source column fault front stuck label,
      Plural.parse source = .error (.invalid column fault) ∧ source.toList = front ++ stuck ∧
      Plural.StopsAt source.toList stuck ∧
      label ∈ (ofPlural source (.invalid column fault)).labels ∧
      label.offset ≠ byteLength front := by
  have cut : Plural.lexemes ['n', '\n', '@'] =
      [(.count, ['n', '\n', '@'])] ++ (.stray, ['@']) :: [] := by decide +kernel
  have dead : ¬Plural.Viable [.count, .stray] := fun viable => viable.no_stray (by decide)
  have stops : Plural.StopsAt ['n', '\n', '@'] ['@'] :=
    .token cut ⟨[], .count, Plural.Derives.count.whole⟩ dead
  exact ⟨"n\n@", 1, .unexpected '@', ['n', '\n'], ['@'], ⟨"unexpected character: '@'", 0, 1⟩,
    by decide +kernel, rfl, stops, List.mem_singleton.2 (by decide +kernel), by decide⟩

end Phrasebook.Diagnostic
