import Mathlib.Algebra.Order.Field.Power
import Mathlib.Algebra.Order.Ring.Unbundled.Rat
import Mathlib.Tactic.FieldSimp
import Mathlib.Tactic.Ring
import Phrasebook.Number.Decimal

/-!
Rounding looks at the number alone: fractions and decimal numbers that are equal give the same
double, however they are written.
-/

namespace Phrasebook.Number

variable {numerator denominator numerator' denominator' factor : Nat}

theorem roundHalfEven_mul (positive : 0 < factor) :
    roundHalfEven (numerator * factor) (denominator * factor) =
      roundHalfEven numerator denominator := by
  have twice : 2 * (numerator % denominator * factor) = 2 * (numerator % denominator) * factor :=
    (Nat.mul_assoc ..).symm
  unfold roundHalfEven
  simp only [Nat.mul_div_mul_right _ _ positive, Nat.mul_mod_mul_right, twice,
    Nat.mul_lt_mul_right positive]

theorem roundHalfEven_multiple (whole : Nat) (positive : 0 < denominator) :
    roundHalfEven (whole * denominator) denominator = whole := by
  simp [roundHalfEven, positive]

theorem nearestUnits_mul (positive : 0 < factor) :
    nearestUnits (numerator * factor) (denominator * factor) =
      nearestUnits numerator denominator := by
  simp only [nearestUnits, Nat.mul_right_comm _ factor, Nat.mul_div_mul_right _ _ positive,
    roundHalfEven_mul positive]

theorem nearestUnits_congr (positive : 0 < denominator) (positive' : 0 < denominator')
    (cross : numerator * denominator' = numerator' * denominator) :
    nearestUnits numerator denominator = nearestUnits numerator' denominator' :=
  calc nearestUnits numerator denominator
      = nearestUnits (numerator * denominator') (denominator * denominator') :=
        (nearestUnits_mul positive').symm
    _ = nearestUnits (numerator' * denominator) (denominator' * denominator) := by
        rw [cross, Nat.mul_comm denominator]
    _ = nearestUnits numerator' denominator' := nearestUnits_mul positive

/-- A number of units that some double has is not rounded. -/
theorem nearestUnits_magnitude (m : Magnitude) : nearestUnits m.units (2 ^ unitPower) = m.units := by
  obtain ⟨whole, units⟩ := m.representable.2
  generalize power : unitPower = exponent
  have multiple : m.units * 2 ^ exponent = whole * (2 ^ exponent * 2 ^ spacing m.units) := by
    conv_lhs => rw [units]
    ring
  have positive : (0 : Nat) < 2 ^ exponent * 2 ^ spacing m.units :=
    Nat.mul_pos (Nat.two_pow_pos _) (Nat.two_pow_pos _)
  simp only [nearestUnits, power]
  rw [Nat.mul_div_cancel _ (Nat.two_pow_pos exponent), multiple,
    roundHalfEven_multiple whole positive, Nat.mul_comm, ← units]

theorem le_roundHalfEven (numerator denominator : Nat) :
    numerator / denominator ≤ roundHalfEven numerator denominator := by
  simp only [roundHalfEven]
  grind

/-- A power of two is never rounded past. -/
theorem two_pow_le_nearestUnits {power : Nat}
    (large : 2 ^ power ≤ numerator * 2 ^ unitPower / denominator) :
    2 ^ power ≤ nearestUnits numerator denominator := by
  simp only [nearestUnits]
  generalize numerator * 2 ^ unitPower = scaled at large ⊢
  have nonzero : scaled / denominator ≠ 0 :=
    Nat.ne_of_gt (Nat.lt_of_lt_of_le (Nat.two_pow_pos power) large)
  have low : power ≤ (scaled / denominator).log2 := (Nat.le_log2 nonzero).2 large
  have fine : spacing (scaled / denominator) ≤ (scaled / denominator).log2 := Nat.sub_le ..
  have leading : 2 ^ (scaled / denominator).log2 ≤ scaled / denominator := Nat.log2_self_le nonzero
  calc 2 ^ power ≤ 2 ^ (scaled / denominator).log2 := Nat.pow_le_pow_right (by decide) low
    _ = 2 ^ ((scaled / denominator).log2 - spacing (scaled / denominator)) *
          2 ^ spacing (scaled / denominator) := by rw [← Nat.pow_add, Nat.sub_add_cancel fine]
    _ ≤ scaled / (denominator * 2 ^ spacing (scaled / denominator)) *
          2 ^ spacing (scaled / denominator) := by
        apply Nat.mul_le_mul_right
        rw [← Nat.div_div_eq_div_mul, Nat.le_div_iff_mul_le (Nat.two_pow_pos _), ← Nat.pow_add,
          Nat.sub_add_cancel fine]
        exact leading
    _ ≤ _ := Nat.mul_le_mul_right _ (le_roundHalfEven _ _)

theorem lt_of_nearestUnits_lt {power : Nat} (positive : 0 < denominator)
    (bounded : nearestUnits numerator denominator < 2 ^ (power + unitPower)) :
    numerator < 2 ^ power * denominator := by
  have below : numerator * 2 ^ unitPower / denominator < 2 ^ (power + unitPower) := by
    refine Nat.lt_of_not_le fun large => ?_
    exact Nat.not_lt_of_le (two_pow_le_nearestUnits large) bounded
  rwa [Nat.div_lt_iff_lt_mul positive, Nat.pow_add, Nat.mul_right_comm,
    Nat.mul_lt_mul_right (Nat.two_pow_pos unitPower)] at below

theorem nearestUnits_eq_zero (small : 2 * (numerator * 2 ^ unitPower) < denominator) :
    nearestUnits numerator denominator = 0 := by
  have below : numerator * 2 ^ unitPower < denominator := by omega
  simp only [nearestUnits, Nat.div_eq_of_lt below]
  have shift : spacing 0 = 0 := rfl
  simp only [shift, Nat.pow_zero, Nat.mul_one, roundHalfEven, Nat.div_eq_of_lt below,
    Nat.mod_eq_of_lt below, small, if_true]

end Phrasebook.Number
