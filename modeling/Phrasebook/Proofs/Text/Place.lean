import Mathlib.Data.List.TakeWhile
import Phrasebook.Proofs.Text.Lines
import Phrasebook.Text.Place

/-!
Where lines stand in a text, and how far an offset that counts characters is from one that counts
bytes.
-/

namespace Phrasebook.Text

theorem length_le_byteLength (text : List Char) : text.length ≤ byteLength text := by
  induction text with
  | nil => exact Nat.le_refl 0
  | cons c rest ih =>
    have positive := c.utf8Size_pos
    show rest.length + 1 ≤ c.utf8Size + byteLength rest
    omega

theorem byteLength_eq_length_iff {text : List Char} :
    byteLength text = text.length ↔ ∀ c ∈ text, c.utf8Size = 1 := by
  induction text with
  | nil => simp [byteLength]
  | cons c rest ih =>
    have positive := c.utf8Size_pos
    have bound := length_le_byteLength rest
    rw [List.forall_mem_cons, ← ih]
    show c.utf8Size + byteLength rest = rest.length + 1 ↔ _
    omega

theorem byteLength_eq_zero_iff {text : List Char} : byteLength text = 0 ↔ text = [] := by
  have bound := length_le_byteLength text
  constructor
  · intro none
    exact List.eq_nil_of_length_eq_zero (by omega)
  · rintro rfl
    rfl

/-- As many characters as a text has bytes reach past it, unless it has none but bytes. -/
theorem take_byteLength_append (text behind : List Char) :
    (text ++ behind).take (byteLength text) =
      text ++ behind.take (byteLength text - text.length) := by
  rw [List.take_append, List.take_of_length_le (length_le_byteLength text)]

theorem consumed_append (front stuck : List Char) : consumed (front ++ stuck) stuck = front := by
  rw [consumed, List.length_append, Nat.add_sub_cancel, List.take_left]

inductive EndsLine (line : List Char) : List Char → Prop
  | endOfText : EndsLine line []
  | feed (behind : List Char) : line.getLast? ≠ some '\r' → EndsLine line ('\n' :: behind)
  | returnFeed (behind : List Char) : EndsLine line ('\r' :: '\n' :: behind)

structure HasLine (text : List Char) (number : Nat) (before line behind : List Char) : Prop where
  whole : text = before ++ (line ++ behind)
  number : number = before.count '\n' + 1
  begins : ∀ c ∈ before.getLast?, c = '\n'
  unbroken : '\n' ∉ line
  ends : EndsLine line behind

theorem endsLine_fed (line behind : List Char) :
    ∃ rest, line ++ '\n' :: behind = fed line ++ rest ∧ EndsLine (fed line) rest := by
  rcases List.eq_nil_or_concat line with rfl | ⟨body, last, rfl⟩
  · exact ⟨'\n' :: behind, rfl, .feed behind (by decide)⟩
  · rw [List.concat_eq_append]
    by_cases returns : last = '\r'
    · subst returns
      refine ⟨'\r' :: '\n' :: behind, ?_, .returnFeed behind⟩
      rw [fed_concat_return, List.append_assoc]
      rfl
    · rw [fed_of_last body returns]
      refine ⟨'\n' :: behind, rfl, .feed behind ?_⟩
      rw [List.getLast?_concat]
      intro same
      exact returns (Option.some.inj same)

theorem pieces_eq_cons {text piece : List Char} {rest : List (List Char)}
    (cut : pieces text = piece :: rest) :
    ('\n' ∉ piece ∧ text = piece ∧ rest = []) ∨
      ∃ line behind, '\n' ∉ line ∧ piece = line ++ ['\n'] ∧ text = line ++ '\n' :: behind ∧
        pieces behind = rest := by
  by_cases broken : '\n' ∈ text
  · obtain ⟨line, behind, rfl, unbroken⟩ := List.eq_append_cons_of_mem broken
    rw [pieces_append line behind unbroken] at cut
    obtain ⟨rfl, same⟩ := List.cons.inj cut
    exact .inr ⟨line, behind, unbroken, rfl, rfl, same⟩
  · have nonempty : text ≠ [] := by
      rintro rfl
      cases cut
    rw [pieces_unbroken text nonempty broken] at cut
    obtain ⟨rfl, same⟩ := List.cons.inj cut
    exact .inl ⟨broken, rfl, same.symm⟩

theorem unbroken_fed {line : List Char} (unbroken : '\n' ∉ line) : '\n' ∉ fed line := by
  intro member
  rcases fed_cases line with same | whole
  · exact unbroken (same ▸ member)
  · exact unbroken (whole ▸ List.mem_append_left _ member)

theorem hasLine_of_pieces {text piece : List Char} {earlier later : List (List Char)}
    (cut : pieces text = earlier ++ piece :: later) :
    ∃ behind,
      HasLine text (earlier.length + 1) earlier.flatten (withoutLineEnd piece) behind := by
  induction earlier generalizing text with
  | nil =>
    rcases pieces_eq_cons cut with ⟨unbroken, rfl, rfl⟩ | ⟨line, behind, unbroken, rfl, rfl, rfl⟩
    · have kept : withoutLineEnd text = text := by
        have same := lines_unbroken text (by rintro rfl; cases cut) unbroken
        rw [lines, cut] at same
        exact (List.cons.inj same).1
      rw [kept]
      exact ⟨[], by simp, rfl, by simp, unbroken, .endOfText⟩
    · obtain ⟨rest, whole, ends⟩ := endsLine_fed line behind
      exact ⟨rest, whole, rfl, by simp, unbroken_fed unbroken, ends⟩
  | cons first earlier ih =>
    rcases pieces_eq_cons cut with ⟨_, _, none⟩ | ⟨line, behind, unbroken, rfl, rfl, same⟩
    · simp at none
    · obtain ⟨rest, whole, number, begins, broken, ends⟩ := ih same
      refine ⟨rest, ?_, ?_, ?_, broken, ends⟩
      · simp [whole]
      · simpa [List.count_eq_zero_of_not_mem unbroken, Nat.add_comm] using number
      · intro c last
        rw [List.flatten_cons, List.getLast?_append] at last
        cases known : earlier.flatten.getLast? with
        | none =>
          rw [known, Option.none_or, List.getLast?_concat] at last
          exact (Option.some.inj last).symm
        | some d =>
          rw [known] at last
          exact begins c (known.trans last)

theorem lines_of_hasLine {text before line behind : List Char} {number : Nat}
    (stands : HasLine text number before line behind) (nonempty : line ≠ []) :
    ∃ later, lines text = lines before ++ line :: later := by
  obtain ⟨rfl, _, begins, unbroken, ends⟩ := stands
  have own : ∃ later, lines (line ++ behind) = line :: later := by
    cases ends with
    | endOfText => exact ⟨[], by rw [List.append_nil, lines_unbroken line nonempty unbroken]⟩
    | feed behind last =>
      refine ⟨lines behind, ?_⟩
      obtain ⟨front, c, rfl⟩ := (List.eq_nil_or_concat line).resolve_left nonempty
      rw [List.concat_eq_append] at unbroken last ⊢
      have other : c ≠ '\r' := by
        rintro rfl
        exact last List.getLast?_concat
      rw [lines_append _ behind unbroken, fed_of_last front other]
    | returnFeed behind =>
      refine ⟨lines behind, ?_⟩
      have whole : line ++ '\r' :: '\n' :: behind = (line ++ ['\r']) ++ '\n' :: behind := by simp
      rw [whole, lines_append _ behind (by simp [unbroken]), fed_concat_return]
  obtain ⟨later, own⟩ := own
  refine ⟨later, ?_⟩
  rcases List.eq_nil_or_concat before with rfl | ⟨front, c, rfl⟩
  · exact own
  · rw [List.concat_eq_append] at begins ⊢
    obtain rfl := begins c List.getLast?_concat
    rw [List.append_assoc, List.singleton_append, lines_append_feed, own]

theorem offsetOf_behind {text : List Char} {earlier later : List (List Char)}
    (cut : pieces text = earlier ++ later) (count : Nat) :
    offsetOf text (earlier.length + 1) (count + 1) =
      byteLength earlier.flatten + byteLength (later.flatten.take count) := by
  rw [offsetOf, cut, Nat.add_sub_cancel, Nat.add_sub_cancel, List.take_left, List.drop_left]

theorem offsetOf_first_line (text : List Char) (count : Nat) :
    offsetOf text 1 (count + 1) = byteLength (text.take count) := by
  have offset := offsetOf_behind (List.nil_append (pieces text)).symm count
  rwa [flatten_pieces, List.flatten_nil, byteLength, List.foldr_nil, Nat.zero_add] at offset

theorem lastLine_suffix (text : List Char) : lastLine text <:+ text := by
  have leading := List.takeWhile_prefix (· ≠ '\n') (l := text.reverse)
  rw [← List.reverse_reverse text]
  exact List.reverse_suffix.2 (by simpa using leading)

theorem lastLine_eq_self_iff {text : List Char} : lastLine text = text ↔ '\n' ∉ text := by
  rw [lastLine, List.reverse_eq_iff, List.takeWhile_eq_self_iff]
  simp only [List.mem_reverse, decide_eq_true_eq]
  constructor
  · intro others member
    exact others '\n' member rfl
  · intro unbroken c member same
    exact unbroken (same ▸ member)

/-- A column that counts the bytes from the last line feed on is taken for one of the first line.
In front of the place there are single bytes, so that the two differ only by the lines before. -/
theorem offsetOf_columnAfter {front : List Char} (small : ∀ c ∈ front, c.utf8Size = 1)
    (stuck : List Char) :
    offsetOf (front ++ stuck) 1 (columnAfter front) = byteLength (lastLine front) := by
  have inside := lastLine_suffix front
  have single : byteLength (lastLine front) = (lastLine front).length :=
    byteLength_eq_length_iff.2 fun c member => small c (inside.subset member)
  have bound := inside.length_le
  have taken : byteLength (front.take (lastLine front).length) = (lastLine front).length := by
    rw [byteLength_eq_length_iff.2 fun c member => small c (List.mem_of_mem_take member),
      List.length_take, Nat.min_eq_left bound]
  rw [columnAfter, offsetOf_first_line, single, List.take_append_of_le_length bound, taken]

theorem byteLength_lastLine_eq_iff {text : List Char} :
    byteLength (lastLine text) = byteLength text ↔ '\n' ∉ text := by
  obtain ⟨before, whole⟩ := lastLine_suffix text
  have sizes := congrArg byteLength whole
  rw [byteLength_append] at sizes
  rw [← lastLine_eq_self_iff]
  constructor
  · intro same
    have none : before = [] := byteLength_eq_zero_iff.1 (by omega)
    rwa [none] at whole
  · exact congrArg byteLength

/-- A column that counts the bytes in front of a place is taken for one that counts characters. -/
theorem offsetOf_of_pieces {text piece : List Char} {earlier later : List (List Char)}
    (cut : pieces text = earlier ++ piece :: later) {front behind : List Char}
    (whole : text = earlier.flatten ++ (front ++ behind)) :
    offsetOf text (earlier.length + 1) (byteLength front + 1) =
      byteLength (earlier.flatten ++ front) +
        byteLength (behind.take (byteLength front - front.length)) := by
  have after : (piece :: later).flatten = front ++ behind := by
    have all := flatten_pieces text
    rw [cut, List.flatten_append] at all
    exact List.append_cancel_left (all.trans whole)
  rw [offsetOf_behind cut, after, take_byteLength_append]
  simp only [byteLength_append, Nat.add_assoc]

end Phrasebook.Text
