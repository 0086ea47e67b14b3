import Phrasebook.Number.Reading
import Phrasebook.Proofs.Number.Decimal

/-!
Decimal numbers as they are read: the digits on both sides of the point, and the power of ten behind
them.
-/

namespace Phrasebook.Number

open Text (isDigit decimalValue)

variable {whole fraction tail digits : List Char} {power : Int}

def Denotes (text : List Char) (value : Rat) : Prop :=
  ∃ number, decimal? text = some number ∧ number.value = value

/-! Digits around a point -/

theorem exponent_nil : exponent? [] = some 0 :=
  rfl

/-- An exponent follows the digits at once: no digit and no point comes first. -/
theorem without_of_exponent (read : exponent? tail = some power) :
    Text.Without isDigit tail ∧ tail.head? ≠ some '.' := by
  cases tail with
  | nil => exact ⟨fun c member => (by cases member), by simp⟩
  | cons mark rest =>
    rw [exponent?] at read
    split at read
    · rename_i marks
      rcases marks with rfl | rfl
      · exact ⟨fun c member => (by cases member; decide), by simp⟩
      · exact ⟨fun c member => (by cases member; decide), by simp⟩
    · cases read

theorem decimal_whole (all : ∀ c ∈ whole, isDigit c = true) (nonempty : whole ≠ [])
    (read : exponent? tail = some power) :
    decimal? (whole ++ tail) = some ⟨decimalValue 0 whole, power⟩ := by
  obtain ⟨stops, pointless⟩ := without_of_exponent read
  rw [decimal?, Text.takeWhile_append all stops, Text.dropWhile_append all stops]
  cases tail with
  | nil => simp [nonempty, read]
  | cons mark rest =>
    have marked : mark ≠ '.' := fun same => pointless (congrArg some same)
    simp [marked, nonempty, read]

theorem decimal_point (all : ∀ c ∈ whole, isDigit c = true) (all' : ∀ c ∈ fraction, isDigit c = true)
    (nonempty : whole ++ fraction ≠ []) (read : exponent? tail = some power) :
    decimal? (whole ++ '.' :: (fraction ++ tail)) =
      some ⟨decimalValue 0 (whole ++ fraction), power - fraction.length⟩ := by
  obtain ⟨stops, _⟩ := without_of_exponent read
  have point : Text.Without isDigit ('.' :: (fraction ++ tail)) := fun c member => by
    cases member; decide
  have digits : (whole.isEmpty && fraction.isEmpty) = false := by
    simpa [Decidable.not_and_iff_or_not] using nonempty
  rw [decimal?, Text.takeWhile_append all point, Text.dropWhile_append all point]
  simp [Text.takeWhile_append all' stops, Text.dropWhile_append all' stops, digits, read]

theorem decimal_numeral (value : Nat) : decimal? (Text.decimal value) = some ⟨value, 0⟩ := by
  have read := decimal_whole (fun c => Text.isDigit_of_mem_decimal) (Text.decimal_ne_nil value)
    exponent_nil
  rwa [List.append_nil, Text.decimalValue_decimal] at read

/-- No decimal number begins with a sign. -/
theorem splitSign_of_decimal {text : List Char} {number : Decimal}
    (read : decimal? text = some number) : splitSign text = (false, text) := by
  unfold splitSign
  split
  · cases read
  · cases read
  · rfl

theorem denotes_whole (all : ∀ c ∈ whole, isDigit c = true) (nonempty : whole ≠ [])
    (read : exponent? tail = some power) :
    Denotes (whole ++ tail) (decimalValue 0 whole * 10 ^ power) :=
  ⟨_, decimal_whole all nonempty read, rfl⟩

/-! Exponents -/

theorem exponentValue_eq_decimalValue (small : decimalValue 0 digits < 0x10000) :
    exponentValue digits = decimalValue 0 digits := by
  suffices fold : ∀ start, decimalValue start digits < 0x10000 →
      digits.foldl (fun value c =>
        if value < 0x10000 then 10 * value + (c.toNat - '0'.toNat) else value) start =
          decimalValue start digits from fold 0 small
  clear small
  induction digits with
  | nil => exact fun start _ => rfl
  | cons c digits ih =>
    intro start small
    -- The rows of digits that are read before the last one denote even less.
    have capped : start < 0x10000 := Nat.lt_of_le_of_lt (Text.le_decimalValue start _) small
    rw [List.foldl_cons, if_pos capped]
    exact ih _ small

end Phrasebook.Number
