import Phrasebook.Proofs.Number.Layout
import Phrasebook.Proofs.Text.Blank

/-!
Numbers that are written and read again. What is a decimal number has only the characters that
numbers are written with, so that reading does nothing else with it, and the text of a double gives
the double back, but for the sign of zero.
-/

namespace Phrasebook.Number

open Text (isDigit)

variable {text tail : List Char} {number : Decimal} {power : Int} {c : Char}

def IsNumeric (c : Char) : Prop :=
  isDigit c = true ∨ c ∈ ['.', 'e', 'E', '+', '-']

theorem isNumeric_of_splitSign (digits : ∀ c ∈ (splitSign text).2, IsNumeric c) :
    ∀ c ∈ text, IsNumeric c := by
  unfold splitSign at digits
  split at digits
  · exact List.forall_mem_cons.2 ⟨.inr (by decide), digits⟩
  · exact List.forall_mem_cons.2 ⟨.inr (by decide), digits⟩
  · exact digits

theorem isNumeric_of_exponent (read : exponent? tail = some power) : ∀ c ∈ tail, IsNumeric c := by
  cases tail with
  | nil => exact fun c member => by cases member
  | cons mark rest =>
    rw [exponent?] at read
    split at read
    · rename_i marks
      simp only at read
      split at read
      · cases read
      · rename_i digits
        rw [Bool.or_eq_true, not_or, Bool.not_eq_true', Bool.not_eq_false] at digits
        refine List.forall_mem_cons.2 ⟨?_, isNumeric_of_splitSign fun c member => ?_⟩
        · rcases marks with rfl | rfl
          · exact .inr (by decide)
          · exact .inr (by decide)
        · exact .inl (List.all_eq_true.1 digits.2 c member)
    · cases read

theorem isNumeric_of_decimal (read : decimal? text = some number) : ∀ c ∈ text, IsNumeric c := by
  have digits : ∀ {row : List Char}, ∀ c ∈ row.takeWhile isDigit, IsNumeric c := fun c member =>
    .inl (List.all_eq_true.1 List.all_takeWhile c member)
  have joined : ∀ {row : List Char}, (∀ c ∈ row.dropWhile isDigit, IsNumeric c) →
      ∀ c ∈ row, IsNumeric c := by
    intro row rest c member
    rw [← List.takeWhile_append_dropWhile (p := isDigit) (l := row), List.mem_append] at member
    exact member.elim (digits c) (rest c)
  apply joined
  rw [decimal?] at read
  generalize text.dropWhile isDigit = afterWhole at read ⊢
  simp only at read
  split at read
  · rw [Option.ite_none_left_eq_some, Option.map_eq_some_iff] at read
    obtain ⟨_, power, exponent, _⟩ := read
    exact List.forall_mem_cons.2 ⟨.inr (by decide), joined (isNumeric_of_exponent exponent)⟩
  · rw [Option.ite_none_left_eq_some, Option.map_eq_some_iff] at read
    obtain ⟨_, power, exponent, _⟩ := read
    exact isNumeric_of_exponent exponent

theorem isBlank_of_isNumeric (numeric : IsNumeric c) : Text.isBlank c = false := by
  rcases numeric with digit | mark
  · have bounds := (Text.isDigit_iff c).1 digit
    exact Text.isBlank_of_printed (by omega) (by omega)
  · have marks : (['.', 'e', 'E', '+', '-'].all fun c => !Text.isBlank c) = true := by decide
    simpa using List.all_eq_true.1 marks c mark

theorem radixDigits_of_isNumeric (numeric : ∀ c ∈ text, IsNumeric c) : radixDigits? text = none := by
  have second : ∀ {first c rest}, text = first :: c :: rest → IsNumeric c := by
    rintro first c rest rfl
    exact numeric c (by simp)
  unfold radixDigits?
  split
  case h_7 => rfl
  all_goals exact absurd (second rfl) (by unfold IsNumeric; decide)

/-- Such a text is trimmed already, and denotes no infinity and no number in another radix. -/
theorem ofChars_of_isNumeric (nonempty : text ≠ []) (numeric : ∀ c ∈ text, IsNumeric c) :
    ofChars text = (signedDecimal? text).getD .nan := by
  have finite : ∀ {name : List Char}, 'I' ∈ name → text ≠ name := by
    rintro _ member rfl
    exact absurd (numeric 'I' member) (by unfold IsNumeric; decide)
  have trimmed : Text.trim text = text :=
    Text.trim_visible fun c member => isBlank_of_isNumeric (numeric c member)
  simp only [ofChars, trimmed, radixDigits_of_isNumeric numeric]
  rw [if_neg (by simpa using nonempty), if_neg (not_or.2 ⟨finite (by decide), finite (by decide)⟩),
    if_neg (finite (by decide))]

theorem ne_nil_of_decimal (read : decimal? text = some number) : text ≠ [] := by
  rintro rfl
  cases read

theorem ofChars_of_decimal (read : decimal? text = some number) :
    ofChars text = number.toDouble false ∧ ofChars ('-' :: text) = number.toDouble true := by
  have numeric := isNumeric_of_decimal read
  have signed : ∀ c ∈ '-' :: text, IsNumeric c := List.forall_mem_cons.2 ⟨.inr (by decide), numeric⟩
  constructor
  · rw [ofChars_of_isNumeric (ne_nil_of_decimal read) numeric, signedDecimal?,
      splitSign_of_decimal read]
    simp [read]
  · rw [ofChars_of_isNumeric (List.cons_ne_nil _ _) signed, signedDecimal?, splitSign]
    simp [read]

/-- Whole numbers are rounded alike, as they are and as text. -/
theorem ofChars_signedDecimal (value : Int) : ofChars (Text.signedDecimal value) = .ofInt value := by
  have rounded : ∀ negative, Decimal.toDouble negative ⟨value.natAbs, 0⟩ =
      .ofRatio negative value.natAbs 1 := fun negative => by
    simp [Decimal.toDouble]
  obtain ⟨plain, signed⟩ := ofChars_of_decimal (decimal_numeral value.natAbs)
  rw [Text.signedDecimal, Double.ofInt]
  split
  · rename_i negative
    rw [signed, rounded, decide_eq_true negative]
  · rename_i nonnegative
    rw [plain, rounded, decide_eq_false nonnegative]

theorem Double.finite_eq_zero_iff {m : Magnitude} (negative : Bool) :
    finite negative m = zero negative ↔ m.units = 0 := by
  obtain ⟨units, representable⟩ := m
  constructor
  · intro same
    exact congrArg Magnitude.units (finite.inj same).2
  · rintro rfl
    rfl

/-- The double is read again from its text, but a negative zero, which has no sign there. -/
theorem ofChars_chars (x : Double) :
    ofChars x.chars = if x = .zero true then .zero false else x := by
  cases x with
  | nan => decide +kernel
  | infinite negative => cases negative <;> decide +kernel
  | finite negative m =>
    obtain ⟨number, read, reads⟩ := m.exists_decimal_written .ofValues
    obtain ⟨plain, signed⟩ := ofChars_of_decimal read
    rw [Double.chars, Double.written]
    cases negative with
    | false =>
      rw [if_neg (by simp), if_neg (fun same => by cases same), plain, reads.toDouble]
    | true =>
      simp only [Double.finite_eq_zero_iff]
      by_cases zero : m.units = 0
      · rw [if_neg (by simp [Style.ofValues, zero]), if_pos zero, plain, reads.toDouble]
        exact (Double.finite_eq_zero_iff false).2 zero
      · rw [if_pos (by simp [zero]), if_neg zero, signed, reads.toDouble]

end Phrasebook.Number
