import Phrasebook.Text.Lines

/-!
Lines that are joined by line feeds and cut again.
-/

namespace Phrasebook.Text

/-- A text of lines with line feeds between them. If the last line is empty, the text ends with
a line feed. -/
def joined (lines : List (List Char)) : List Char :=
  ['\n'].intercalate lines

/-- A line loses a carriage return at its end when a line feed follows. -/
def fed (line : List Char) : List Char :=
  withoutLineEnd (line ++ ['\n'])

def returned (text : List Char) : List Char :=
  text.flatMap fun c => if c = '\n' then ['\r', '\n'] else [c]

theorem joined_cons_cons (line next : List Char) (rest : List (List Char)) :
    joined (line :: next :: rest) = line ++ '\n' :: joined (next :: rest) := by
  simp [joined, List.intercalate]

theorem joined_singleton (line : List Char) : joined [line] = line := by
  simp [joined, List.intercalate]

theorem pieces_append (line rest : List Char) (unbroken : '\n' ∉ line) :
    pieces (line ++ '\n' :: rest) = (line ++ ['\n']) :: pieces rest := by
  induction line with
  | nil => rfl
  | cons c line ih =>
    rw [List.mem_cons, not_or] at unbroken
    show addToPieces c (pieces (line ++ '\n' :: rest)) = _
    rw [ih unbroken.2, addToPieces, if_neg (Ne.symm unbroken.1)]
    rfl

theorem pieces_unbroken (line : List Char) (nonempty : line ≠ []) (unbroken : '\n' ∉ line) :
    pieces line = [line] := by
  induction line with
  | nil => exact absurd rfl nonempty
  | cons c line ih =>
    rw [List.mem_cons, not_or] at unbroken
    show addToPieces c (pieces line) = _
    cases line with
    | nil => exact if_neg (Ne.symm unbroken.1)
    | cons d line =>
      rw [ih (List.cons_ne_nil d line) unbroken.2, addToPieces, if_neg (Ne.symm unbroken.1)]

theorem lines_append (line rest : List Char) (unbroken : '\n' ∉ line) :
    lines (line ++ '\n' :: rest) = fed line :: lines rest := by
  rw [lines, pieces_append line rest unbroken]
  rfl

theorem addToPieces_append (c : Char) {first : List (List Char)} (nonempty : first ≠ [])
    (rest : List (List Char)) : addToPieces c (first ++ rest) = addToPieces c first ++ rest := by
  cases first with
  | nil => exact absurd rfl nonempty
  | cons piece others =>
    unfold addToPieces
    split <;> rfl

theorem pieces_append_feed (before behind : List Char) :
    pieces (before ++ '\n' :: behind) = pieces (before ++ ['\n']) ++ pieces behind := by
  induction before with
  | nil => rfl
  | cons c before ih =>
    have nonempty : pieces (before ++ ['\n']) ≠ [] := by
      intro none
      have whole := flatten_pieces (before ++ ['\n'])
      rw [none] at whole
      simp at whole
    show addToPieces c (pieces (before ++ '\n' :: behind)) = _
    rw [ih, addToPieces_append c nonempty]
    rfl

theorem lines_append_feed (before behind : List Char) :
    lines (before ++ '\n' :: behind) = lines (before ++ ['\n']) ++ lines behind := by
  rw [lines, pieces_append_feed, List.map_append]
  rfl

theorem lines_joined_append {block : List (List Char)} (nonempty : block ≠ [])
    (unbroken : ∀ line ∈ block, '\n' ∉ line) (behind : List Char) :
    lines (joined block ++ '\n' :: behind) = block.map fed ++ lines behind := by
  induction block with
  | nil => exact absurd rfl nonempty
  | cons line rest ih =>
    rw [List.forall_mem_cons] at unbroken
    cases rest with
    | nil => rw [joined_singleton, lines_append line behind unbroken.1, List.map_singleton,
        List.singleton_append]
    | cons next rest =>
      rw [joined_cons_cons, List.append_assoc, List.cons_append,
        lines_append line _ unbroken.1, ih (List.cons_ne_nil next rest) unbroken.2]
      rfl

theorem lines_unbroken (line : List Char) (nonempty : line ≠ []) (unbroken : '\n' ∉ line) :
    lines line = [line] := by
  have kept : withoutLineEnd line = line := by
    unfold withoutLineEnd
    split
    · rename_i body same
      have member : '\n' ∈ line := List.mem_reverse.1 (same ▸ List.mem_cons_self)
      exact absurd member unbroken
    · rename_i body _ same
      have member : '\n' ∈ line := List.mem_reverse.1 (same ▸ List.mem_cons_self)
      exact absurd member unbroken
    · rfl
  rw [lines, pieces_unbroken line nonempty unbroken, List.map_singleton, kept]

theorem fed_cases (line : List Char) : fed line = line ∨ line = fed line ++ ['\r'] := by
  unfold fed withoutLineEnd
  rw [List.reverse_append, List.reverse_singleton, List.singleton_append]
  split
  · rename_i body same
    have whole : line = body.reverse ++ ['\r'] := by
      rw [← List.reverse_cons, ← List.reverse_eq_iff]
      exact (List.cons.inj same).2
    exact .inr whole
  · rename_i body _ same
    have whole : body.reverse = line := by
      rw [← (List.cons.inj same).2, List.reverse_reverse]
    exact .inl whole
  · rename_i other
    exact absurd rfl (other line.reverse)

theorem fed_append_cons (start : List Char) {c : Char} (other : c ≠ '\r') (rest : List Char) :
    ∃ kept, fed (start ++ c :: rest) = start ++ c :: kept ∧ kept <+: rest := by
  rcases fed_cases (start ++ c :: rest) with same | whole
  · exact ⟨rest, same, List.prefix_refl rest⟩
  · rcases List.eq_nil_or_concat rest with rfl | ⟨kept, last, rfl⟩
    · have ends := List.append_inj_right' whole rfl
      exact absurd (List.cons.inj ends).1 other
    · rw [List.concat_eq_append] at whole ⊢
      have cut : start ++ c :: (kept ++ [last]) = (start ++ c :: kept) ++ [last] := by
        rw [List.append_assoc, List.cons_append]
      have same := List.append_inj_left' (cut.symm.trans whole) rfl
      exact ⟨kept, same.symm, List.prefix_append kept [last]⟩

theorem fed_of_last (line : List Char) {last : Char} (other : last ≠ '\r') :
    fed (line ++ [last]) = line ++ [last] := by
  obtain ⟨kept, same, leading⟩ := fed_append_cons line other []
  rwa [List.prefix_nil.1 leading] at same

theorem fed_concat_return (line : List Char) : fed (line ++ ['\r']) = line := by
  simp [fed, withoutLineEnd]

theorem fed_of_clean {line : List Char} (clean : '\r' ∉ line) : fed line = line := by
  rcases fed_cases line with same | whole
  · exact same
  · rw [whole] at clean
    simp at clean

/-- A line feed behind a text ends its last line, or else is an empty line of its own. -/
theorem lines_concat_feed (text : List Char) :
    lines (text ++ ['\n']) = lines text ++ [[]] ∨
      ∃ before last, lines text = before ++ [last] ∧
        lines (text ++ ['\n']) = before ++ [fed last] := by
  by_cases broken : '\n' ∈ text
  · obtain ⟨line, rest, whole, unbroken⟩ := List.eq_append_cons_of_mem broken
    have cut := lines_append line rest unbroken
    have cutFed := lines_append line (rest ++ ['\n']) unbroken
    rw [whole, List.append_assoc, List.cons_append, cut, cutFed]
    rcases lines_concat_feed rest with empty | ⟨before, last, ends, fedEnds⟩
    · exact .inl (by rw [empty, List.cons_append])
    · exact .inr ⟨fed line :: before, last, by rw [ends, List.cons_append],
        by rw [fedEnds, List.cons_append]⟩
  · by_cases empty : text = []
    · subst empty
      exact .inl rfl
    · exact .inr ⟨[], text, lines_unbroken text empty broken, lines_append text [] broken⟩
termination_by text.length
decreasing_by simp [whole]; omega

theorem mem_of_mem_lines {text line : List Char} (member : line ∈ lines text) {c : Char}
    (inside : c ∈ line) : c ∈ text := by
  obtain ⟨piece, cut, rfl⟩ := List.mem_map.1 member
  have kept : c ∈ piece := by
    unfold withoutLineEnd at inside
    split at inside
    · rename_i body same
      exact List.mem_reverse.1 (same ▸ List.mem_cons_of_mem _ (List.mem_cons_of_mem _
        (List.mem_reverse.1 inside)))
    · rename_i body _ same
      exact List.mem_reverse.1 (same ▸ List.mem_cons_of_mem _ (List.mem_reverse.1 inside))
    · exact inside
  rw [← flatten_pieces text]
  exact List.mem_flatten_of_mem cut kept

theorem returned_append (first second : List Char) :
    returned (first ++ second) = returned first ++ returned second :=
  List.flatMap_append

theorem returned_unbroken {text : List Char} (unbroken : '\n' ∉ text) : returned text = text := by
  induction text with
  | nil => rfl
  | cons c text ih =>
    rw [List.mem_cons, not_or] at unbroken
    show (if c = '\n' then ['\r', '\n'] else [c]) ++ returned text = c :: text
    rw [if_neg (Ne.symm unbroken.1), ih unbroken.2]
    rfl

theorem lines_returned {text : List Char} (clean : '\r' ∉ text) :
    lines (returned text) = lines text := by
  by_cases broken : '\n' ∈ text
  · obtain ⟨line, rest, whole, unbroken⟩ := List.eq_append_cons_of_mem broken
    have written : returned text = (line ++ ['\r']) ++ '\n' :: returned rest := by
      rw [whole, returned_append, returned_unbroken unbroken, List.append_assoc]
      rfl
    rw [whole, List.mem_append, List.mem_cons, not_or, not_or] at clean
    rw [written, lines_append _ _ (by simp [unbroken]), fed_concat_return,
      lines_returned clean.2.2, whole, lines_append line rest unbroken, fed_of_clean clean.1]
  · rw [returned_unbroken broken]
termination_by text.length
decreasing_by simp [whole]; omega

end Phrasebook.Text
