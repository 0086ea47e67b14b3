import Mathlib.Data.List.DropRight
import Phrasebook.Text.Blank

/-!
What trimming leaves of a text.
-/

namespace Phrasebook.Text

theorem isBlank_of_printed {c : Char} (low : 33 ≤ c.toNat) (high : c.toNat ≤ 126) :
    isBlank c = false := by
  rw [Bool.eq_false_iff, ne_eq]
  simp only [isBlank, Bool.or_eq_true, Bool.and_eq_true, decide_eq_true_eq, beq_iff_eq]
  omega

theorem trim_blank {text : List Char} (blank : ∀ c ∈ text, isBlank c = true) : trim text = [] := by
  have none : (text ++ []).dropWhile isBlank = [] := List.dropWhile_append_of_pos blank
  rw [List.append_nil, ← dropBlanks] at none
  rw [trim, none]
  rfl

theorem dropBlanksAtEnd_prefix (text : List Char) : dropBlanksAtEnd text <+: text := by
  have suffix := List.dropWhile_suffix isBlank (l := text.reverse)
  simpa [dropBlanksAtEnd] using List.reverse_prefix.2 suffix

theorem trim_concat (text : List Char) {c : Char} (blank : isBlank c = true) :
    trim (text ++ [c]) = trim text := by
  unfold trim dropBlanks dropBlanksAtEnd
  rw [List.dropWhile_append]
  split
  · rename_i empty
    rw [List.isEmpty_iff.1 empty]
    simp [blank]
  · simp [blank]

theorem dropBlanksAtEnd_append (front : List Char) {c : Char} (visible : isBlank c = false)
    (rest : List Char) :
    dropBlanksAtEnd (front ++ c :: rest) = front ++ c :: dropBlanksAtEnd rest := by
  rw [dropBlanksAtEnd, dropBlanksAtEnd, List.reverse_append, List.reverse_cons, List.append_assoc,
    List.singleton_append, List.dropWhile_append]
  split
  · rename_i empty
    rw [List.isEmpty_iff.1 empty]
    simp [visible]
  · simp

theorem trim_of_visible {c d : Char} (first : isBlank c = false) (last : isBlank d = false)
    (front rest : List Char) :
    trim (c :: front ++ d :: rest) = c :: front ++ d :: dropBlanksAtEnd rest := by
  rw [trim, dropBlanks, List.cons_append, List.dropWhile_cons_of_neg (by simp [first]),
    ← List.cons_append, dropBlanksAtEnd_append _ last]

theorem trim_append_blank (text : List Char) {ending : List Char}
    (blank : ∀ c ∈ ending, isBlank c = true) : trim (text ++ ending) = trim text := by
  induction ending generalizing text with
  | nil => rw [List.append_nil]
  | cons c ending ih =>
    rw [List.forall_mem_cons] at blank
    rw [List.append_cons, ih _ blank.2, trim_concat text blank.1]

theorem trim_blank_append {indent : List Char} (blank : ∀ c ∈ indent, isBlank c = true)
    (text : List Char) : trim (indent ++ text) = trim text := by
  rw [trim, dropBlanks, List.dropWhile_append_of_pos blank]
  rfl

theorem trim_visible {text : List Char} (visible : ∀ c ∈ text, isBlank c = false) :
    trim text = text := by
  have kept : ∀ {row : List Char}, (∀ c ∈ row, isBlank c = false) → row.dropWhile isBlank = row := by
    intro row visible
    cases row with
    | nil => rfl
    | cons c row => exact List.dropWhile_cons_of_neg (by simp [visible c List.mem_cons_self])
  rw [trim, dropBlanks, kept visible, dropBlanksAtEnd,
    kept fun c member => visible c (List.mem_reverse.1 member), List.reverse_reverse]

theorem trim_dropBlanksAtEnd (text : List Char) : trim (dropBlanksAtEnd text) = trim text := by
  have blank : ∀ c ∈ (text.reverse.takeWhile isBlank).reverse, isBlank c = true := by
    intro c member
    exact List.all_eq_true.1 List.all_takeWhile c (List.mem_reverse.1 member)
  have whole : dropBlanksAtEnd text ++ (text.reverse.takeWhile isBlank).reverse = text := by
    rw [dropBlanksAtEnd, ← List.reverse_append, List.takeWhile_append_dropWhile, List.reverse_reverse]
  calc trim (dropBlanksAtEnd text)
    _ = trim (dropBlanksAtEnd text ++ (text.reverse.takeWhile isBlank).reverse) :=
      (trim_append_blank _ blank).symm
    _ = trim text := by rw [whole]

theorem trim_trim (text : List Char) : trim (trim text) = trim text :=
  calc trim (dropBlanksAtEnd (dropBlanks text))
    _ = trim (dropBlanks text) := trim_dropBlanksAtEnd _
    _ = trim text := congrArg dropBlanksAtEnd (List.dropWhile_idempotent isBlank text)

/-- Trimming goes up to the first visible character, and then only shortens the end. -/
theorem trim_append_cons {indent : List Char} {c : Char} (text : List Char)
    (blank : ∀ c ∈ indent, isBlank c = true) (visible : isBlank c = false) :
    ∃ rest, trim (indent ++ c :: text) = c :: rest ∧ rest <+: text := by
  have start : dropBlanks (indent ++ c :: text) = c :: text := by
    rw [dropBlanks, List.dropWhile_append_of_pos blank, List.dropWhile_cons_of_neg (by simp [visible])]
  refine ⟨dropBlanksAtEnd text, ?_, dropBlanksAtEnd_prefix text⟩
  rw [trim, start]
  exact dropBlanksAtEnd_append [] visible text

end Phrasebook.Text
