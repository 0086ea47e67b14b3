import Mathlib.Algebra.Order.Floor.Ring
import Mathlib.Data.Int.ModEq
import Mathlib.Data.Rat.Floor
import Phrasebook.Number.Arithmetic
import Phrasebook.Proofs.Number.Decimal
import Phrasebook.Proofs.Template.Filling

/-!
Doubles as signed 32-bit integers. Every step of the reduction is exact, of however large a number:
its whole part and the remainders of that are doubles themselves, so that nothing is rounded and
nothing is cut off at the ends of the range.
-/

namespace Phrasebook.Number

def towardZero (value : Rat) : Int :=
  if value < 0 then ⌈value⌉ else ⌊value⌋

theorem towardZero_of_nonpos {value : Rat} (nonpos : value ≤ 0) : towardZero value = ⌈value⌉ := by
  rcases nonpos.lt_or_eq with negative | rfl
  · exact if_pos negative
  · rfl

namespace Double

def value? : Double → Option Rat
  | finite negative m => some (signedUnits negative m / (2 ^ unitPower : Nat))
  | _ => none

/-- The double is a whole number: it has so many times the units of one. -/
def IsWhole (x : Double) (a : Int) : Prop :=
  ∃ negative m, x = finite negative m ∧ signedUnits negative m = a * (2 ^ unitPower : Nat)

variable {x y : Double} {a b : Int} {negative : Bool} {m : Magnitude}

theorem value_eq_some_iff_isWhole : x.value? = some (a : Rat) ↔ x.IsWhole a := by
  have unit : ((2 ^ unitPower : Nat) : Rat) ≠ 0 :=
    Nat.cast_ne_zero.2 (Nat.ne_of_gt (Nat.two_pow_pos unitPower))
  cases x with
  | nan | infinite =>
    constructor
    · rintro ⟨⟩
    · rintro ⟨_, _, ⟨⟩, _⟩
  | finite negative m =>
    rw [value?, Option.some_inj, div_eq_iff unit]
    constructor
    · intro same
      exact ⟨negative, m, rfl, by exact_mod_cast same⟩
    · rintro ⟨_, _, ⟨⟩, same⟩
      exact_mod_cast same

theorem natAbs_signedUnits (negative : Bool) (m : Magnitude) :
    (signedUnits negative m).natAbs = m.units := by
  cases negative <;> simp [signedUnits]

theorem ofRatio_eq_finite {numerator denominator : Nat} (positive : 0 < denominator)
    (exact : numerator * 2 ^ unitPower = m.units * denominator) (negative : Bool) :
    ofRatio negative numerator denominator = finite negative m := by
  rw [ofRatio_eq_finite_iff, nearestUnits_congr positive (Nat.two_pow_pos unitPower) exact,
    nearestUnits_magnitude]

def wholeMagnitude (value : Nat) (small : value ≤ 2 ^ 53) : Magnitude where
  units := value * 2 ^ unitPower
  representable := by
    refine ⟨?_, spacing_dvd unitPower small⟩
    calc value * 2 ^ unitPower ≤ 2 ^ 53 * 2 ^ unitPower := Nat.mul_le_mul_right _ small
      _ < 2 ^ 1024 * 2 ^ unitPower :=
        Nat.mul_lt_mul_of_pos_right (Nat.pow_lt_pow_right (by decide) (by decide))
          (Nat.two_pow_pos unitPower)
      _ = 2 ^ (1024 + unitPower) := (Nat.pow_add 2 1024 unitPower).symm

theorem units_wholeMagnitude {value : Nat} (small : value ≤ 2 ^ 53) :
    (wholeMagnitude value small).units = value * 2 ^ unitPower :=
  rfl

theorem isWhole_of_natAbs {units : Nat} (same : m.units = a.natAbs * units)
    (unit : units = 2 ^ unitPower) : (finite (decide (a < 0)) m).IsWhole a := by
  refine ⟨_, _, rfl, ?_⟩
  rw [signedUnits, same, ← unit]
  clear unit same
  by_cases negative : a < 0
  · have size : (a.natAbs : Int) = -a := by omega
    simp [negative, size]
  · have size : (a.natAbs : Int) = a := by omega
    simp [negative, size]

theorem isWhole_ofInt (small : a.natAbs ≤ 2 ^ 53) : (ofInt a).IsWhole a := by
  have exact : a.natAbs * 2 ^ unitPower = (wholeMagnitude a.natAbs small).units * 1 := by
    rw [units_wholeMagnitude, Nat.mul_one]
  rw [ofInt, ofRatio_eq_finite Nat.one_pos exact]
  exact isWhole_of_natAbs (units_wholeMagnitude small) rfl

theorem isWhole_ofUnits (small : a.natAbs ≤ 2 ^ 53) :
    (ofUnits (a * (2 ^ unitPower : Nat))).IsWhole a := by
  have positive := Nat.two_pow_pos unitPower
  have sign : decide (a * (2 ^ unitPower : Nat) < 0) = decide (a < 0) := by
    generalize (2 ^ unitPower : Nat) = units at *
    rw [decide_eq_decide]
    have positive : (0 : Int) < units := by exact_mod_cast positive
    exact ⟨fun below => by nlinarith, fun below => by nlinarith⟩
  have exact : (a * (2 ^ unitPower : Nat)).natAbs * 2 ^ unitPower =
      (wholeMagnitude a.natAbs small).units * 2 ^ unitPower := by
    rw [units_wholeMagnitude, Int.natAbs_mul, Int.natAbs_natCast]
  rw [ofUnits, sign, ofRatio_eq_finite positive exact]
  exact isWhole_of_natAbs (units_wholeMagnitude small) rfl

/-- The whole part of a magnitude is a double: below 2^53 all whole numbers are, and above all
doubles are whole. -/
theorem exists_truncated (m : Magnitude) :
    ∃ whole : Magnitude, whole.units = m.units / 2 ^ unitPower * 2 ^ unitPower := by
  by_cases small : m.units / 2 ^ unitPower ≤ 2 ^ 53
  · exact ⟨wholeMagnitude _ small, units_wholeMagnitude small⟩
  · refine ⟨m, ?_⟩
    have large : 2 ^ (53 + unitPower) ≤ m.units := by
      rw [Nat.pow_add]
      exact (Nat.le_div_iff_mul_le (Nat.two_pow_pos unitPower)).1 (Nat.le_of_not_le small)
    have bits : 53 + unitPower ≤ m.units.log2 := by
      refine (Nat.le_log2 ?_).2 large
      exact Nat.ne_of_gt (Nat.lt_of_lt_of_le (Nat.two_pow_pos _) large)
    have fine : unitPower ≤ spacing m.units := by
      rw [spacing]
      omega
    exact (Nat.div_mul_cancel (Nat.dvd_trans (Nat.pow_dvd_pow 2 fine) m.representable.2)).symm

theorem towardZero_signedUnits (negative : Bool) (m : Magnitude) :
    towardZero (signedUnits negative m / (2 ^ unitPower : Nat)) =
      if negative then -((m.units / 2 ^ unitPower : Nat) : Int)
      else (m.units / 2 ^ unitPower : Nat) := by
  generalize (2 ^ unitPower : Nat) = units
  cases negative with
  | false =>
    have front : (0 : Rat) ≤ (m.units : Int) / units := by positivity
    rw [towardZero, signedUnits, if_neg Bool.false_ne_true, if_neg Bool.false_ne_true,
      if_neg (not_lt_of_ge front)]
    exact Rat.floor_intCast_div_natCast _ _
  | true =>
    have back : ((-m.units : Int) : Rat) / units ≤ 0 := by
      rw [Int.cast_neg, neg_div, neg_nonpos]
      positivity
    rw [signedUnits, if_pos rfl, if_pos rfl, towardZero_of_nonpos back,
      Rat.ceil_intCast_div_natCast, Int.neg_neg]
    rfl

theorem isWhole_truncate {value : Rat} (known : x.value? = some value) :
    x.truncate.IsWhole (towardZero value) := by
  obtain _ | _ | ⟨negative, m⟩ := x
  · cases known
  · cases known
  rw [value?, Option.some_inj] at known
  subst known
  obtain ⟨whole, units⟩ := exists_truncated m
  have exact : m.units / 2 ^ unitPower * 2 ^ unitPower = whole.units * 1 := by
    rw [units, Nat.mul_one]
  rw [truncate, ofRatio_eq_finite Nat.one_pos exact, towardZero_signedUnits]
  refine ⟨negative, whole, rfl, ?_⟩
  rw [signedUnits, units]
  generalize (2 ^ unitPower : Nat) = unit
  cases negative <;> simp

theorem IsWhole.exists_finite (whole : x.IsWhole a) : ∃ negative m, x = finite negative m :=
  whole.imp fun _ => Exists.imp fun _ => And.left

theorem IsWhole.units (whole : (finite negative m).IsWhole a) :
    m.units = a.natAbs * 2 ^ unitPower := by
  obtain ⟨_, _, ⟨⟩, same⟩ := whole
  rw [← natAbs_signedUnits negative m, same, Int.natAbs_mul, Int.natAbs_natCast]

theorem IsWhole.sign (whole : (finite negative m).IsWhole a) : if negative then a ≤ 0 else 0 ≤ a := by
  obtain ⟨_, _, ⟨⟩, same⟩ := whole
  have positive := Nat.two_pow_pos unitPower
  generalize (2 ^ unitPower : Nat) = units at *
  have positive : (0 : Int) < units := by exact_mod_cast positive
  cases negative with
  | false =>
    have front : 0 ≤ a * units := same ▸ Int.natCast_nonneg m.units
    exact nonneg_of_mul_nonneg_left front positive
  | true =>
    have back : a * units ≤ 0 := same ▸ Int.neg_nonpos_of_nonneg (Int.natCast_nonneg m.units)
    exact nonpos_of_mul_nonpos_left back positive

theorem isWhole_of_units (units : m.units = a.natAbs * 2 ^ unitPower)
    (sign : if negative then a ≤ 0 else 0 ≤ a) : (finite negative m).IsWhole a := by
  refine ⟨negative, m, rfl, ?_⟩
  rw [signedUnits, units]
  generalize (2 ^ unitPower : Nat) = unit
  cases negative with
  | false =>
    have size : (a.natAbs : Int) = a := Int.natAbs_of_nonneg sign
    simp [size]
  | true =>
    have size : (a.natAbs : Int) = -a := Int.ofNat_natAbs_of_nonpos sign
    simp [size]

/-- The sign of a remainder is that of the first operand. -/
theorem isWhole_remainder (first : x.IsWhole a) (second : y.IsWhole b) (nonzero : b ≠ 0)
    (small : b.natAbs ≤ 2 ^ 53) : (x.remainder y).IsWhole (a.tmod b) := by
  obtain ⟨negative, m, rfl⟩ := first.exists_finite
  obtain ⟨other, k, rfl⟩ := second.exists_finite
  have units := first.units
  have divisor := second.units
  have positive := Nat.two_pow_pos unitPower
  have rest : (a.tmod b).natAbs = a.natAbs % b.natAbs := Int.natAbs_tmod a b
  have below : (a.tmod b).natAbs ≤ 2 ^ 53 := by
    rw [rest]
    exact Nat.le_trans (Nat.le_of_lt (Nat.mod_lt _ (Int.natAbs_pos.2 nonzero))) small
  have exact : m.units % k.units * 2 ^ unitPower =
      (wholeMagnitude _ below).units * 2 ^ unitPower := by
    rw [units, divisor, units_wholeMagnitude, rest, Nat.mul_mod_mul_right]
  have divides : k.units ≠ 0 := by
    rw [divisor]
    exact Nat.mul_ne_zero (Int.natAbs_ne_zero.2 nonzero) (Nat.ne_of_gt positive)
  rw [remainder, if_neg divides, ofRatio_eq_finite positive exact]
  refine isWhole_of_units (units_wholeMagnitude below) ?_
  have sign := first.sign
  cases negative with
  | false => exact Int.tmod_nonneg b sign
  | true =>
    have front := Int.tmod_nonneg b (Int.neg_nonneg_of_nonpos sign)
    rw [Int.neg_tmod] at front
    exact Int.nonpos_of_neg_nonneg front

theorem isWhole_zero (negative : Bool) : (zero negative).IsWhole 0 :=
  isWhole_of_units (by rw [Int.natAbs_zero, Nat.zero_mul]; rfl)
    (by cases negative <;> exact Int.le_refl 0)

theorem isWhole_add (first : x.IsWhole a) (second : y.IsWhole b) (small : (a + b).natAbs ≤ 2 ^ 53) :
    (x.add y).IsWhole (a + b) := by
  obtain ⟨negative, m, rfl, same⟩ := first
  obtain ⟨other, k, rfl, same'⟩ := second
  simp only [add, same, same', ← Int.add_mul]
  split
  · rename_i none
    have positive : ((2 ^ unitPower : Nat) : Int) ≠ 0 :=
      Int.natCast_ne_zero.2 (Nat.ne_of_gt (Nat.two_pow_pos unitPower))
    rw [(Int.mul_eq_zero.1 none).resolve_right positive]
    exact isWhole_zero _
  · exact isWhole_ofUnits small

theorem isWhole_negate (whole : x.IsWhole a) : x.negate.IsWhole (-a) := by
  obtain ⟨negative, m, rfl, same⟩ := whole
  refine ⟨!negative, m, rfl, ?_⟩
  rw [Int.neg_mul, ← same]
  cases negative <;> simp [signedUnits]

theorem isWhole_subtract (first : x.IsWhole a) (second : y.IsWhole b)
    (small : (a - b).natAbs ≤ 2 ^ 53) : (x.subtract y).IsWhole (a - b) := by
  rw [Int.sub_eq_add_neg] at small ⊢
  exact isWhole_add first (isWhole_negate second) small

theorem isWhole_absolute (whole : x.IsWhole a) : x.absolute.IsWhole a.natAbs := by
  obtain ⟨negative, m, rfl⟩ := whole.exists_finite
  refine isWhole_of_units ?_ (Int.natCast_nonneg _)
  rw [Int.natAbs_natCast, whole.units]

theorem less_of_isWhole (first : x.IsWhole a) (second : y.IsWhole b) : x.less y = decide (a < b) := by
  obtain ⟨negative, m, rfl, same⟩ := first
  obtain ⟨other, k, rfl, same'⟩ := second
  have positive : (0 : Int) < (2 ^ unitPower : Nat) :=
    Int.natCast_pos.2 (Nat.two_pow_pos unitPower)
  rw [less, same, same', decide_eq_decide]
  exact Int.mul_lt_mul_right positive

/-- A remainder below zero is brought above it by the modulus. -/
theorem isWhole_modulo (first : x.IsWhole a) (second : y.IsWhole b) (nonzero : b ≠ 0)
    (small : b.natAbs ≤ 2 ^ 53) : (x.modulo y).IsWhole (a % b) := by
  have rest := isWhole_remainder first second nonzero small
  have above := Int.emod_nonneg a nonzero
  have below := Int.emod_lt a nonzero
  have both : a % b = a.tmod b + ((if 0 ≤ a ∨ b ∣ a then 0 else b.natAbs : Nat) : Int) :=
    Int.emod_eq_tmod
  rw [modulo]
  simp only [less_of_isWhole rest (isWhole_zero false), decide_eq_true_eq]
  split
  · have whole : a % b = a.tmod b + b.natAbs := by
      split at both <;> omega
    rw [whole] at above below ⊢
    exact isWhole_add rest (isWhole_absolute second) (by omega)
  · have whole : a % b = a.tmod b := by
      split at both <;> omega
    rwa [whole]

theorem clampedWhole_of_isWhole {low high : Int} (whole : x.IsWhole a) (above : low ≤ a)
    (below : a ≤ high) : x.clampedWhole low high = a := by
  obtain ⟨negative, m, rfl⟩ := whole.exists_finite
  have units : m.units / 2 ^ unitPower = a.natAbs := by
    rw [whole.units, Nat.mul_div_cancel _ (Nat.two_pow_pos unitPower)]
  have sign := whole.sign
  rw [clampedWhole, units]
  cases negative with
  | false =>
    simp only [Bool.false_eq_true, if_false] at sign ⊢
    omega
  | true =>
    simp only [if_true] at sign ⊢
    omega

def reduced (x : Double) : Double :=
  let wrapped := x.truncate.modulo (ofInt (2 ^ 32))
  if wrapped.less (ofInt (2 ^ 31)) then wrapped else wrapped.subtract (ofInt (2 ^ 32))

theorem toInt32_of_finite (finite : x.isFinite = true) :
    x.toInt32 = x.reduced.clampedWhole (-(2 ^ 31)) (2 ^ 31 - 1) := by
  rw [toInt32, if_pos finite, reduced]

/-- The integer is the number, reduced modulo 2^32 to the range around zero. -/
structure Wraps (value result : Int) : Prop where
  low : -(2 ^ 31) ≤ result
  high : result < 2 ^ 31
  congruent : result ≡ value [ZMOD 2 ^ 32]

theorem Wraps.unique {value first second : Int} (one : Wraps value first)
    (other : Wraps value second) : first = second := by
  obtain ⟨low, high, congruent⟩ := one
  obtain ⟨low', high', congruent'⟩ := other
  have same := congruent.trans congruent'.symm
  rw [Int.ModEq] at same
  omega

/-- What the steps come to for a double with the given whole part: each has its exact result, and
the last one finds it in the range that it would cut off at. -/
structure ReducesExactly (x : Double) (whole : Int) : Prop where
  moduli : (ofInt (2 ^ 32)).value? = some ((2 ^ 32 : Int) : Rat) ∧
    (ofInt (2 ^ 31)).value? = some ((2 ^ 31 : Int) : Rat)
  truncated : x.truncate.value? = some (whole : Rat)
  remainder : (x.truncate.remainder (ofInt (2 ^ 32))).value? = some ((whole.tmod (2 ^ 32) : Int) : Rat)
  wrapped : (x.truncate.modulo (ofInt (2 ^ 32))).value? = some ((whole % 2 ^ 32 : Int) : Rat)
  reduced : x.reduced.value? = some (x.toInt32 : Rat)

theorem isWhole_reduced (whole : x.truncate.IsWhole a) :
    ∃ result, Wraps a result ∧ x.reduced.IsWhole result := by
  have modulus : (ofInt (2 ^ 32)).IsWhole (2 ^ 32) := isWhole_ofInt (by decide)
  have half : (ofInt (2 ^ 31)).IsWhole (2 ^ 31) := isWhole_ofInt (by decide)
  have wrapped := isWhole_modulo whole modulus (by decide) (by decide)
  rw [reduced]
  simp only [less_of_isWhole wrapped half, decide_eq_true_eq]
  split
  · exact ⟨a % 2 ^ 32, ⟨by omega, by assumption, Int.mod_modEq a _⟩, wrapped⟩
  · refine ⟨a % 2 ^ 32 - 2 ^ 32, ⟨by omega, by omega, ?_⟩, isWhole_subtract wrapped modulus (by omega)⟩
    rw [Int.ModEq, Int.sub_emod_right, Int.emod_emod]

theorem isFinite_of_value {value : Rat} (known : x.value? = some value) : x.isFinite = true := by
  cases x with
  | nan | infinite => cases known
  | finite => rfl

theorem reducesExactly {value : Rat} (known : x.value? = some value) :
    ReducesExactly x (towardZero value) ∧ Wraps (towardZero value) x.toInt32 := by
  have modulus : (ofInt (2 ^ 32)).IsWhole (2 ^ 32) := isWhole_ofInt (by decide)
  have half : (ofInt (2 ^ 31)).IsWhole (2 ^ 31) := isWhole_ofInt (by decide)
  have whole := isWhole_truncate known
  have rest := isWhole_remainder whole modulus (by decide) (by decide)
  have wrapped := isWhole_modulo whole modulus (by decide) (by decide)
  obtain ⟨result, wraps, reduced⟩ := isWhole_reduced whole
  have unclamped : x.toInt32 = result := by
    rw [toInt32_of_finite (isFinite_of_value known)]
    exact clampedWhole_of_isWhole reduced wraps.low (Int.le_sub_one_of_lt wraps.high)
  rw [← unclamped] at wraps reduced
  simp only [← value_eq_some_iff_isWhole] at modulus half whole rest wrapped reduced
  exact ⟨⟨⟨modulus, half⟩, whole, rest, wrapped, reduced⟩, wraps⟩

end Double

theorem wraps_integer {i : Int64} (small : i.toInt.natAbs ≤ 2 ^ 53) :
    Double.Wraps i.toInt (Value.integer i).toNumber.toInt32 := by
  have known := Double.value_eq_some_iff_isWhole.2 (Double.isWhole_ofInt small)
  have wraps := (Double.reducesExactly known).2
  have whole : towardZero (i.toInt : Rat) = i.toInt := by
    rw [towardZero, Int.ceil_intCast, Int.floor_intCast, ite_self]
  rwa [whole] at wraps

/-- Every finite double is converted, with no rounding on the way, to the one signed 32-bit integer
that is congruent to its whole part, and all else to zero. So a directive for integers writes a
whole number of at most 53 bits reduced to 32 bits, and padded. -/
theorem toInt32_exactly :
    (∀ (x : Double) (value : Rat), x.value? = some value →
      Double.ReducesExactly x (towardZero value) ∧
        ∀ n, Double.Wraps (towardZero value) n ↔ n = x.toInt32) ∧
      (Double.nan.toInt32 = 0 ∧ ∀ negative, (Double.infinite negative).toInt32 = 0) ∧
      ∀ i : Int64, i.toInt.natAbs ≤ 2 ^ 53 → ∀ n, Double.Wraps i.toInt n →
        ∀ hole : Directive, hole.conversion = .integer →
          hole.render (.integer i) =
            List.replicate (hole.width.getD 0 - Text.unitLength (Text.signedDecimal n))
              hole.padding ++ Text.signedDecimal n := by
  refine ⟨fun x value known => ?_, ⟨rfl, fun negative => rfl⟩, ?_⟩
  · obtain ⟨exact, wraps⟩ := Double.reducesExactly known
    refine ⟨exact, fun n => ⟨fun other => other.unique wraps, ?_⟩⟩
    rintro rfl
    exact wraps
  · intro i small n wraps hole integer
    have written : hole.conversion.apply (.integer i) = Text.signedDecimal n := by
      rw [integer, Conversion.apply, wraps.unique (wraps_integer small)]
    rw [Directive.render, written]

/-- The lower end of the range, reached from below it, and an integer one below the range. -/
theorem toInt32_exactly_at_ends :
    (Double.ofInt (-(2 ^ 32) - 2 ^ 31)).toInt32 = -(2 ^ 31) ∧
      Directive.render ⟨"n", some 12, true, .integer⟩ (.integer (-2147483649)) =
        "002147483647".toList := by
  have known := Double.value_eq_some_iff_isWhole.2
    (Double.isWhole_ofInt (a := -(2 ^ 32) - 2 ^ 31) (by decide))
  have wraps : Double.Wraps (towardZero ((-(2 ^ 32) - 2 ^ 31 : Int) : Rat)) (-(2 ^ 31)) := by
    rw [towardZero, Int.ceil_intCast, Int.floor_intCast, ite_self]
    exact ⟨by decide, by decide, by decide⟩
  refine ⟨(((toInt32_exactly.1 _ _ known).2 _).1 wraps).symm, ?_⟩
  exact toInt32_exactly.2.2 (-2147483649) (by decide) 2147483647
    ⟨by decide, by decide, by decide⟩ _ rfl

end Phrasebook.Number
