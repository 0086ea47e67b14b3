/-!
Binary64 numbers, exactly. Every finite double is a whole number of units of 2^-1074, the
smallest positive double, so a finite double is a sign and a number of units.
-/

-- Powers are those of the core library, whatever else is imported.
attribute [instance (2000), default_instance high] instPowNat instPowUInt64Nat

namespace Phrasebook.Number

/-- The unit in which finite doubles are counted is 2 to the minus this power. -/
def unitPower : Nat := 1074

/-- Around this many units, doubles are 2 to this power units apart. -/
def spacing (units : Nat) : Nat :=
  units.log2 - 52

/-- Numbers of units that some finite double has: at most 53 significant bits, and below
2^1024. -/
def IsMagnitude (units : Nat) : Prop :=
  units < 2 ^ (1024 + unitPower) ∧ 2 ^ spacing units ∣ units

instance (units : Nat) : Decidable (IsMagnitude units) := by
  unfold IsMagnitude; infer_instance

structure Magnitude where
  units : Nat
  representable : IsMagnitude units
  deriving DecidableEq

inductive Double where
  | nan
  | infinite (negative : Bool)
  | finite (negative : Bool) (magnitude : Magnitude)
  deriving DecidableEq

/-- Fifty-three bits, shifted, are as fine as the spacing there asks. -/
theorem spacing_dvd {significand : Nat} (shift : Nat) (bits : significand ≤ 2 ^ 53) :
    2 ^ spacing (significand * 2 ^ shift) ∣ significand * 2 ^ shift := by
  rcases Nat.eq_zero_or_pos significand with rfl | positive
  · simp
  rcases Nat.lt_or_eq_of_le bits with small | rfl
  · have nonzero : significand * 2 ^ shift ≠ 0 :=
      Nat.ne_of_gt (Nat.mul_pos positive (Nat.two_pow_pos shift))
    have bound : significand * 2 ^ shift < 2 ^ (53 + shift) := by
      rw [Nat.pow_add]
      exact Nat.mul_lt_mul_of_pos_right small (Nat.two_pow_pos shift)
    have size := (Nat.log2_lt nonzero).2 bound
    have fine : spacing (significand * 2 ^ shift) ≤ shift := by
      unfold spacing; omega
    exact Nat.dvd_trans (Nat.pow_dvd_pow 2 fine) (Nat.dvd_mul_left _ _)
  · rw [← Nat.pow_add]
    apply Nat.pow_dvd_pow
    unfold spacing
    rw [Nat.log2_two_pow]
    omega

theorem isMagnitude_shifted {significand shift : Nat} (bits : significand < 2 ^ 53)
    (room : shift ≤ 1024 + unitPower - 53) : IsMagnitude (significand * 2 ^ shift) := by
  refine ⟨?_, spacing_dvd shift (Nat.le_of_lt bits)⟩
  calc significand * 2 ^ shift < 2 ^ 53 * 2 ^ shift :=
        Nat.mul_lt_mul_of_pos_right bits (Nat.two_pow_pos shift)
    _ = 2 ^ (53 + shift) := (Nat.pow_add 2 53 shift).symm
    _ ≤ 2 ^ (1024 + unitPower) :=
        Nat.pow_le_pow_right (by decide) (by unfold unitPower at *; omega)

/-- A significand of at most 53 bits times a power of two. -/
def Magnitude.shifted (significand shift : Nat) (bits : significand < 2 ^ 53)
    (room : shift ≤ 1024 + unitPower - 53) : Magnitude :=
  ⟨significand * 2 ^ shift, isMagnitude_shifted bits room⟩

namespace Double

def zero (negative : Bool) : Double :=
  finite negative (.shifted 0 0 (by decide) (by decide))

def signedUnits (negative : Bool) (magnitude : Magnitude) : Int :=
  if negative then -(magnitude.units : Int) else magnitude.units

def isFinite : Double → Bool
  | finite _ _ => true
  | _ => false

structure Fields where
  negative : Bool
  exponent : Nat
  fraction : Nat

def fieldsOf (exponentBits fractionBits word : Nat) : Fields where
  negative := word / 2 ^ (exponentBits + fractionBits) % 2 = 1
  exponent := word / 2 ^ fractionBits % 2 ^ exponentBits
  fraction := word % 2 ^ fractionBits

/-- The double that a binary interchange format of at most 64 bits denotes. Subnormal numbers
have exponent field zero and no leading bit. -/
def ofFields (exponentBits fractionBits shift : Nat) (fields : Fields) : Double :=
  if fields.exponent = 2 ^ exponentBits - 1 then
    if fields.fraction = 0 then infinite fields.negative else nan
  else
    let significand :=
      if fields.exponent = 0 then fields.fraction else 2 ^ fractionBits + fields.fraction
    if fits : significand < 2 ^ 53 ∧ fields.exponent - 1 + shift ≤ 1024 + unitPower - 53 then
      finite fields.negative (.shifted significand (fields.exponent - 1 + shift) fits.1 fits.2)
    else nan

/-- Reads the 64 bits of a double. -/
def ofBits (word : UInt64) : Double :=
  ofFields 11 52 0 (fieldsOf 11 52 word.toNat)

/-- Reads the 32 bits of a single-precision number, all of which are doubles. -/
def ofBits32 (word : UInt32) : Double :=
  ofFields 8 23 925 (fieldsOf 8 23 word.toNat)

/-- The 64 bits of a double, with one pattern for what is not a number. -/
def toBits : Double → UInt64
  | nan => 0x7ff8000000000000
  | infinite negative => .ofNat ((if negative then 2 ^ 63 else 0) + 0x7ff * 2 ^ 52)
  | finite negative magnitude =>
    let shift := spacing magnitude.units
    .ofNat ((if negative then 2 ^ 63 else 0) + shift * 2 ^ 52 + magnitude.units / 2 ^ shift)

end Double

end Phrasebook.Number
