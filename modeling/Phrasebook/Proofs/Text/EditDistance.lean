import Mathlib.Order.Bounds.Defs
import Phrasebook.Text.EditDistance

/-!
The edit distance of two texts is the least number of edits that turn one into the other.
-/

namespace Phrasebook.Text

inductive Edit : List Char → List Char → Prop where
  | insert (front : List Char) (c : Char) (rest : List Char) :
      Edit (front ++ rest) (front ++ c :: rest)
  | delete (front : List Char) (c : Char) (rest : List Char) :
      Edit (front ++ c :: rest) (front ++ rest)
  | replace (front : List Char) (c d : Char) (rest : List Char) :
      Edit (front ++ c :: rest) (front ++ d :: rest)

inductive Edits : Nat → List Char → List Char → Prop where
  | none (text : List Char) : Edits 0 text text
  | step {count : Nat} {first middle second : List Char} (edit : Edit first middle)
      (later : Edits count middle second) : Edits (count + 1) first second

theorem Edit.cons {first second : List Char} (edit : Edit first second) (c : Char) :
    Edit (c :: first) (c :: second) := by
  cases edit with
  | insert front d rest => exact .insert (c :: front) d rest
  | delete front d rest => exact .delete (c :: front) d rest
  | replace front d e rest => exact .replace (c :: front) d e rest

theorem Edit.reverse {first second : List Char} (edit : Edit first second) :
    Edit first.reverse second.reverse := by
  cases edit with
  | insert front c rest => simpa using Edit.insert rest.reverse c front.reverse
  | delete front c rest => simpa using Edit.delete rest.reverse c front.reverse
  | replace front c d rest => simpa using Edit.replace rest.reverse c d front.reverse

theorem Edits.cons {count : Nat} {first second : List Char} (edits : Edits count first second)
    (c : Char) : Edits count (c :: first) (c :: second) := by
  induction edits with
  | none text => exact .none (c :: text)
  | step edit _ ih => exact .step (edit.cons c) ih

theorem Edits.reverse {count : Nat} {first second : List Char}
    (edits : Edits count first second) : Edits count first.reverse second.reverse := by
  induction edits with
  | none text => exact .none text.reverse
  | step edit _ ih => exact .step edit.reverse ih

theorem edits_reverse_iff {count : Nat} {first second : List Char} :
    Edits count first.reverse second.reverse ↔ Edits count first second := by
  constructor
  · intro edits
    simpa using edits.reverse
  · exact Edits.reverse

/-- The distance by recursion on the texts: of their first characters one is taken out, one is put
in, or the one becomes the other. -/
def distance : List Char → List Char → Nat
  | [], second => second.length
  | first, [] => first.length
  | c :: first, d :: second =>
    min (min (distance first (d :: second) + 1) (distance (c :: first) second + 1))
      (if c = d then distance first second else distance first second + 1)
termination_by first second => first.length + second.length

theorem distance_nil (first : List Char) : distance first [] = first.length := by
  cases first <;> simp [distance]

theorem distance_cons_cons (c d : Char) (first second : List Char) :
    distance (c :: first) (d :: second) =
      min (min (distance first (d :: second) + 1) (distance (c :: first) second + 1))
        (if c = d then distance first second else distance first second + 1) := by
  rw [distance]

theorem edits_insert (second : List Char) : Edits second.length [] second := by
  induction second with
  | nil => exact .none []
  | cons d second ih => exact .step (.insert [] d []) (ih.cons d)

theorem edits_delete (first : List Char) : Edits first.length first [] := by
  induction first with
  | nil => exact .none []
  | cons c first ih => exact .step (.delete [] c first) ih

theorem edits_distance (first second : List Char) :
    Edits (distance first second) first second := by
  fun_induction distance first second with
  | case1 second => exact edits_insert second
  | case2 first => exact edits_delete first
  | case3 c first d second without within both =>
    have deleted := Edits.step (.delete [] c first) without
    have inserted := Edits.step (.insert [] d (c :: first)) (within.cons d)
    have replaced : Edits (if c = d then distance first second else distance first second + 1)
        (c :: first) (d :: second) := by
      split
      · rename_i same
        rw [same]
        exact both.cons d
      · exact .step (.replace [] c d first) (both.cons d)
    rcases Nat.le_total (min (distance first (d :: second) + 1) (distance (c :: first) second + 1))
      (if c = d then distance first second else distance first second + 1) with outer | outer
    · rw [Nat.min_eq_left outer]
      rcases Nat.le_total (distance first (d :: second) + 1) (distance (c :: first) second + 1)
        with inner | inner
      · rwa [Nat.min_eq_left inner]
      · rwa [Nat.min_eq_right inner]
    · rwa [Nat.min_eq_right outer]

theorem distance_cons_le (c : Char) (first second : List Char) :
    distance (c :: first) second ≤ distance first second + 1 := by
  cases second with
  | nil => simp [distance_nil]
  | cons d second =>
    rw [distance_cons_cons]
    omega

theorem distance_le_cons (first : List Char) (d : Char) (second : List Char) :
    distance first (d :: second) ≤ distance first second + 1 := by
  cases first with
  | nil => simp [distance]
  | cons c first =>
    rw [distance_cons_cons]
    omega

theorem distance_le_of_cons (c : Char) (first second : List Char) :
    distance first second ≤ distance (c :: first) second + 1 := by
  induction second with
  | nil => simp [distance_nil]; omega
  | cons d second ih =>
    have longer := distance_le_cons first d second
    rw [distance_cons_cons]
    split <;> omega

theorem distance_replace_le (c d : Char) (first second : List Char) :
    distance (c :: first) second ≤ distance (d :: first) second + 1 := by
  induction second with
  | nil => simp [distance_nil]
  | cons e second ih =>
    rw [distance_cons_cons, distance_cons_cons]
    split <;> split <;> omega

/-- What is at most one edit farther stays so behind a common first character. -/
theorem distance_cons_le_cons {first middle : List Char}
    (near : ∀ second, distance first second ≤ distance middle second + 1) (c : Char)
    (second : List Char) : distance (c :: first) second ≤ distance (c :: middle) second + 1 := by
  induction second with
  | nil =>
    have lengths := near []
    simp only [distance_nil, List.length_cons] at lengths ⊢
    omega
  | cons d second ih =>
    have whole := near (d :: second)
    have rest := near second
    rw [distance_cons_cons, distance_cons_cons]
    split <;> omega

theorem distance_le_of_edit {first middle : List Char} (edit : Edit first middle)
    (second : List Char) : distance first second ≤ distance middle second + 1 := by
  have behind : ∀ {rest other : List Char} (front : List Char),
      (∀ second, distance rest second ≤ distance other second + 1) →
        ∀ second, distance (front ++ rest) second ≤ distance (front ++ other) second + 1 := by
    intro rest other front near
    induction front with
    | nil => exact near
    | cons c front ih => exact distance_cons_le_cons ih c
  cases edit with
  | insert front c rest => exact behind front (distance_le_of_cons c rest) second
  | delete front c rest => exact behind front (distance_cons_le c rest) second
  | replace front c d rest => exact behind front (distance_replace_le c d rest) second

theorem distance_self (text : List Char) : distance text text = 0 := by
  induction text with
  | nil => simp [distance]
  | cons c text ih =>
    rw [distance_cons_cons, if_pos rfl, ih]
    exact Nat.min_zero _

theorem distance_le_of_edits {count : Nat} {first second : List Char}
    (edits : Edits count first second) : distance first second ≤ count := by
  induction edits with
  | none text => exact Nat.le_of_eq (distance_self text)
  | @step count first middle second edit _ ih =>
    exact Nat.le_trans (distance_le_of_edit edit second) (Nat.add_le_add_right ih 1)

/-! The table has the distances of the fronts of the two texts, here by their last characters
first. -/

def rowBehind (first second : List Char) : List Char → List Nat
  | [] => []
  | d :: rest => distance first (d :: second) :: rowBehind first (d :: second) rest

theorem distanceRow_eq (c : Char) (first second rest : List Char) :
    distanceRow c (distance first second) (distance (c :: first) second) rest
        (rowBehind first second rest) =
      rowBehind (c :: first) second rest := by
  induction rest generalizing second with
  | nil => rfl
  | cons d rest ih =>
    simp only [rowBehind, distanceRow, ← distance_cons_cons, ih]

theorem getLast_rowBehind (first second rest : List Char) :
    (distance first second :: rowBehind first second rest).getLast (by simp) =
      distance first (rest.reverse ++ second) := by
  induction rest generalizing second with
  | nil => rfl
  | cons d rest ih =>
    rw [List.reverse_cons, List.append_assoc, List.singleton_append, ← ih (d :: second)]
    exact List.getLast_cons _

theorem distanceFrom_eq (first second rest : List Char) :
    distanceFrom second first.length (rowBehind first [] second) rest =
      distance (rest.reverse ++ first) second.reverse := by
  induction rest generalizing first with
  | nil =>
    have last := getLast_rowBehind first [] second
    simp only [distance_nil, List.append_nil] at last
    exact last
  | cons c rest ih =>
    have row := distanceRow_eq c first [] second
    simp only [distance_nil, List.length_cons] at row
    rw [distanceFrom, row, List.reverse_cons, List.append_assoc, List.singleton_append]
    exact ih (c :: first)

theorem rowBehind_nil (second rest : List Char) :
    rowBehind [] second rest = List.range' (second.length + 1) rest.length := by
  induction rest generalizing second with
  | nil => rfl
  | cons d rest ih =>
    rw [rowBehind, ih, distance]
    rfl

theorem editDistance_eq (first second : List Char) :
    editDistance first second = distance first.reverse second.reverse := by
  have row : (List.range second.length).map (· + 1) = rowBehind [] [] second := by
    rw [rowBehind_nil, List.range'_eq_map_range]
    simp [Nat.add_comm]
  have whole := distanceFrom_eq [] second first
  rw [List.append_nil] at whole
  rw [editDistance, row]
  exact whole

/-- The edit distance is the least number of edits that turn the first text into the second. -/
theorem isLeast_editDistance (first second : List Char) :
    IsLeast {count | Edits count first second} (editDistance first second) := by
  rw [editDistance_eq]
  constructor
  · exact edits_reverse_iff.1 (edits_distance first.reverse second.reverse)
  · intro count edits
    exact distance_le_of_edits (edits_reverse_iff.2 edits)

example : editDistance "kitten".toList "sitting".toList = 3 := by decide

/-- Against the empty text every character counts once. -/
example : editDistance "".toList "abc".toList = 3 ∧ editDistance "abc".toList "".toList = 3 := by
  decide

end Phrasebook.Text
