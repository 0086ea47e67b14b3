import Phrasebook.Number.Double

/-!
Rounding of exact quotients to the nearest double, a tie to the even neighbour.
-/

namespace Phrasebook.Number

/-- The whole number nearest to a quotient; of two at the same distance, the even one. -/
def roundHalfEven (numerator denominator : Nat) : Nat :=
  let quotient := numerator / denominator
  let twice := 2 * (numerator % denominator)
  if twice < denominator then quotient
  else if denominator < twice then quotient + 1
  else if quotient % 2 = 0 then quotient else quotient + 1

/-- The number of units nearest to a quotient, among the numbers with at most 53 significant
bits. -/
def nearestUnits (numerator denominator : Nat) : Nat :=
  let scaled := numerator * 2 ^ unitPower
  let shift := spacing (scaled / denominator)
  roundHalfEven scaled (denominator * 2 ^ shift) * 2 ^ shift

theorem roundHalfEven_le (numerator denominator : Nat) :
    roundHalfEven numerator denominator ≤ numerator / denominator + 1 := by
  unfold roundHalfEven
  simp only
  split
  · omega
  · split
    · omega
    · split <;> omega

theorem significand_le (numerator denominator : Nat) :
    roundHalfEven numerator (denominator * 2 ^ spacing (numerator / denominator)) ≤ 2 ^ 53 := by
  have step := roundHalfEven_le numerator
    (denominator * 2 ^ spacing (numerator / denominator))
  rw [← Nat.div_div_eq_div_mul] at step
  have bound : numerator / denominator / 2 ^ spacing (numerator / denominator) < 2 ^ 53 := by
    rw [Nat.div_lt_iff_lt_mul (Nat.two_pow_pos _), ← Nat.pow_add]
    rcases Nat.eq_zero_or_pos (numerator / denominator) with zero | nonzero
    · rw [zero]; exact Nat.two_pow_pos _
    · refine (Nat.log2_lt (Nat.ne_of_gt nonzero)).1 ?_
      unfold spacing
      omega
  omega

theorem nearestUnits_dvd (numerator denominator : Nat) :
    2 ^ spacing (nearestUnits numerator denominator) ∣ nearestUnits numerator denominator :=
  spacing_dvd _ (significand_le _ _)

namespace Double

/-- The double nearest to a quotient; infinite if that is not below 2^1024. -/
def ofRatio (negative : Bool) (numerator denominator : Nat) : Double :=
  if small : nearestUnits numerator denominator < 2 ^ (1024 + unitPower) then
    finite negative ⟨nearestUnits numerator denominator, small, nearestUnits_dvd _ _⟩
  else infinite negative

def ofInt (value : Int) : Double :=
  ofRatio (value < 0) value.natAbs 1

def ofUnits (units : Int) : Double :=
  ofRatio (units < 0) units.natAbs (2 ^ unitPower)

end Double

end Phrasebook.Number
