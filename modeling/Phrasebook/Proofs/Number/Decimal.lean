import Mathlib.Tactic.NormNum
import Phrasebook.Proofs.Number.Rounding
import Phrasebook.Proofs.Text.Digits

/-!
Decimal numbers and the doubles nearest to them. The double hangs on the number that is denoted,
and the shortest decimal number of a double reads back as that double.
-/

namespace Phrasebook.Number

variable {numerator denominator numerator' denominator' : Nat} {negative : Bool} {m : Magnitude}

theorem Double.ofRatio_congr (positive : 0 < denominator) (positive' : 0 < denominator')
    (cross : numerator * denominator' = numerator' * denominator) (negative : Bool) :
    ofRatio negative numerator denominator = ofRatio negative numerator' denominator' := by
  simp only [ofRatio, nearestUnits_congr positive positive' cross]

theorem Double.ofRatio_eq_finite_iff :
    ofRatio negative numerator denominator = finite negative m ↔
      nearestUnits numerator denominator = m.units := by
  obtain ⟨units, representable⟩ := m
  simp only [ofRatio]
  constructor
  · intro rounded
    split at rounded
    · exact congrArg Magnitude.units (Double.finite.inj rounded).2
    · cases rounded
  · rintro rfl
    rw [dif_pos representable.1]

namespace Decimal

variable {number first second : Decimal}

def value (number : Decimal) : Rat :=
  number.coefficient * 10 ^ number.exponent

theorem exists_fraction (number : Decimal) :
    ∃ numerator denominator : Nat, 0 < denominator ∧
      number.value = numerator / denominator ∧
        ∀ negative, number.toDouble negative = .ofRatio negative numerator denominator := by
  obtain ⟨coefficient, power | power⟩ := number
  · exact ⟨coefficient * 10 ^ power, 1, by decide, by simp [value], fun _ => rfl⟩
  · refine ⟨coefficient, 10 ^ (power + 1), Nat.pow_pos (by decide), ?_, fun _ => rfl⟩
    simp [value, zpow_negSucc, div_eq_mul_inv]

theorem toDouble_eq_ofRatio (positive : 0 < denominator)
    (denoted : number.value = numerator / denominator) (negative : Bool) :
    number.toDouble negative = .ofRatio negative numerator denominator := by
  obtain ⟨above, below, positive', fraction, rounded⟩ := number.exists_fraction
  rw [rounded]
  apply Double.ofRatio_congr positive' positive
  rw [denoted, div_eq_div_iff (by positivity) (by positivity)] at fraction
  exact_mod_cast fraction.symm

theorem toDouble_congr (same : first.value = second.value) (negative : Bool) :
    first.toDouble negative = second.toDouble negative := by
  obtain ⟨numerator, denominator, positive, fraction, rounded⟩ := second.exists_fraction
  rw [rounded, toDouble_eq_ofRatio positive (same.trans fraction)]

def point (number : Decimal) : Int :=
  (Text.decimal number.coefficient).length + number.exponent

theorem value_lt_pow_point (number : Decimal) : number.value < 10 ^ number.point := by
  have digits : (number.coefficient : Rat) < 10 ^ (Text.decimal number.coefficient).length := by
    exact_mod_cast Text.lt_pow_length_decimal number.coefficient
  rw [value, point, zpow_add₀ (by norm_num), zpow_natCast]
  exact mul_lt_mul_of_pos_right digits (by positivity)

theorem pow_point_le_value (positive : 0 < number.coefficient) :
    10 ^ (number.point - 1) ≤ number.value := by
  have digits : (10 : Rat) ^ ((Text.decimal number.coefficient).length - 1) ≤ number.coefficient := by
    exact_mod_cast Text.pow_length_decimal_le positive
  have nonempty : 0 < (Text.decimal number.coefficient).length :=
    List.length_pos_iff.2 (Text.decimal_ne_nil _)
  have places : number.point - 1 =
      ((Text.decimal number.coefficient).length - 1 : Nat) + number.exponent := by
    rw [point]
    omega
  rw [value, places, zpow_add₀ (by norm_num), zpow_natCast]
  exact mul_le_mul_of_nonneg_right digits (by positivity)

end Decimal

namespace Magnitude

variable {number : Decimal}

theorem ReadsBack.toDouble (reads : m.ReadsBack number) (negative : Bool) :
    number.toDouble negative = .finite negative m := by
  obtain ⟨numerator, denominator, _, _, rounded⟩ := number.exists_fraction
  rw [ReadsBack, rounded, Double.ofRatio_eq_finite_iff] at reads
  rw [rounded, Double.ofRatio_eq_finite_iff, reads]

/-- A finite double lies below 2^1024, and so does what reads back as it. -/
theorem ReadsBack.value_lt (reads : m.ReadsBack number) : number.value < 2 ^ 1024 := by
  obtain ⟨numerator, denominator, positive, fraction, rounded⟩ := number.exists_fraction
  rw [ReadsBack, rounded, Double.ofRatio_eq_finite_iff] at reads
  have bounded : nearestUnits numerator denominator < 2 ^ (1024 + unitPower) :=
    reads ▸ m.representable.1
  have below := lt_of_nearestUnits_lt positive bounded
  rw [fraction, div_lt_iff₀ (by positivity)]
  generalize 1024 = power at below ⊢
  exact_mod_cast below

/-- What reads back as a positive double is at least half of the smallest one. -/
theorem ReadsBack.le_value (reads : m.ReadsBack number) (nonzero : m.units ≠ 0) :
    1 ≤ number.value * 2 ^ (unitPower + 1) := by
  obtain ⟨numerator, denominator, positive, fraction, rounded⟩ := number.exists_fraction
  rw [ReadsBack, rounded, Double.ofRatio_eq_finite_iff] at reads
  have above : denominator ≤ 2 * (numerator * 2 ^ unitPower) := by
    refine Nat.le_of_not_lt fun small => ?_
    exact nonzero (reads.symm.trans (nearestUnits_eq_zero small))
  have above' : (denominator : Rat) ≤ 2 * (numerator * 2 ^ unitPower) := by exact_mod_cast above
  rw [fraction, div_mul_eq_mul_div, le_div_iff₀ (by positivity), one_mul]
  calc (denominator : Rat) ≤ 2 * (numerator * 2 ^ unitPower) := above'
    _ = numerator * 2 ^ (unitPower + 1) := by ring

theorem ReadsBack.positive (reads : m.ReadsBack number) (nonzero : m.units ≠ 0) :
    0 < number.coefficient := by
  refine Nat.pos_of_ne_zero fun none => ?_
  have small := reads.le_value nonzero
  rw [Decimal.value, none, Nat.cast_zero, zero_mul, zero_mul] at small
  exact absurd small (by norm_num)

/-- The digits of a decimal number that reads back begin near the decimal point. -/
theorem ReadsBack.point_bounds (reads : m.ReadsBack number) (nonzero : m.units ≠ 0) :
    -(unitPower + 1 : Nat) < number.point ∧ number.point ≤ (1024 : Nat) := by
  have bases : (2 : Rat) ≤ 10 := by norm_num
  constructor
  · have low : (1 : Rat) < 10 ^ (number.point + (unitPower + 1 : Nat)) :=
      calc 1 ≤ number.value * 2 ^ (unitPower + 1) := reads.le_value nonzero
        _ < 10 ^ number.point * 2 ^ (unitPower + 1) :=
          mul_lt_mul_of_pos_right number.value_lt_pow_point (by positivity)
        _ ≤ 10 ^ number.point * 10 ^ (unitPower + 1) :=
          mul_le_mul_of_nonneg_left (pow_le_pow_left₀ (by norm_num) bases _) (by positivity)
        _ = 10 ^ (number.point + (unitPower + 1 : Nat)) := by
          rw [zpow_add₀ (by norm_num), zpow_natCast]
    rw [one_lt_zpow_iff_right₀ (by norm_num)] at low
    omega
  · have high : (10 : Rat) ^ (number.point - 1) < 10 ^ ((1024 : Nat) : Int) :=
      calc 10 ^ (number.point - 1) ≤ number.value :=
          Decimal.pow_point_le_value (reads.positive nonzero)
        _ < 2 ^ 1024 := reads.value_lt
        _ ≤ 10 ^ 1024 := pow_le_pow_left₀ (by norm_num) bases _
        _ = 10 ^ ((1024 : Nat) : Int) := (zpow_natCast _ _).symm
    rw [zpow_lt_zpow_iff_right₀ (by norm_num)] at high
    omega

theorem exactly_value (m : Magnitude) : m.exactly.value = m.units / (2 ^ unitPower : Nat) := by
  have tens : (10 : Rat) ^ unitPower = 2 ^ unitPower * 5 ^ unitPower := by
    rw [← mul_pow]; norm_num
  simp only [exactly, Decimal.value, zpow_neg, zpow_natCast, tens]
  push_cast
  field_simp

theorem exactly_readsBack (m : Magnitude) : m.ReadsBack m.exactly := by
  rw [ReadsBack, Decimal.toDouble_eq_ofRatio (Nat.two_pow_pos unitPower) m.exactly_value,
    Double.ofRatio_eq_finite_iff, nearestUnits_magnitude]

theorem withDigits_readsBack {tie : Tie} {count : Nat}
    (found : m.withDigits? tie count = some number) : m.ReadsBack number := by
  simpa using List.find?_some found

theorem shortest_readsBack (m : Magnitude) (tie : Tie) : m.ReadsBack (m.shortest tie) := by
  rw [shortest]
  cases found : (List.range 17).findSome? fun count => m.withDigits? tie (count + 1) with
  | none => exact m.exactly_readsBack
  | some number =>
    obtain ⟨count, _, fits⟩ := List.exists_of_findSome?_eq_some found
    exact withDigits_readsBack fits

end Magnitude

end Phrasebook.Number
