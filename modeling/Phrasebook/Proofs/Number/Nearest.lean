import Mathlib.Algebra.Order.Field.Basic
import Mathlib.Tactic.Linarith
import Phrasebook.Proofs.Number.Decimal

/-!
Rounding as it is defined, with no regard to how it is done: a number goes to the nearest one of the
finite doubles and 2^1024, which stands for infinity, and from the middle between two of them to the
one with an even significand. A quotient is rounded in just this way.
-/

namespace Phrasebook.Number

def infiniteUnits : Nat := 2 ^ (1024 + unitPower)

/-- The numbers of units to choose from: those of the finite doubles, and that of 2^1024. -/
def IsCandidate (units : Nat) : Prop :=
  IsMagnitude units ∨ units = infiniteUnits

def distance (value : Rat) (units : Nat) : Rat :=
  |value - units / (2 ^ unitPower : Nat)|

/-- The candidate is nearest to the number, and if another one is just as near, it is the one with
an even significand. -/
structure IsNearest (value : Rat) (units : Nat) : Prop where
  candidate : IsCandidate units
  nearest : ∀ other, IsCandidate other → distance value units ≤ distance value other
  even : ∀ other, IsCandidate other → other ≠ units →
    distance value other = distance value units → 2 ^ (spacing units + 1) ∣ units

/-- The double to which a number is rounded. The sign is given apart, for the sake of zero. -/
inductive Rounds (negative : Bool) (value : Rat) : Double → Prop
  | finite {m} : IsNearest value m.units → Rounds negative value (.finite negative m)
  | infinite : IsNearest value infiniteUnits → Rounds negative value (.infinite negative)

variable {numerator denominator units other shift significand : Nat} {value : Rat}

/-! Spacing -/

theorem spacing_le (small : units < 2 ^ (53 + shift)) : spacing units ≤ shift := by
  rcases Nat.eq_zero_or_pos units with rfl | positive
  · exact Nat.zero_le _
  · have bits := (Nat.log2_lt (Nat.ne_of_gt positive)).2 small
    rw [spacing]
    omega

theorem lt_of_spacing_lt (finer : spacing units < shift) : units < 2 ^ (52 + shift) := by
  rcases Nat.eq_zero_or_pos units with rfl | positive
  · exact Nat.two_pow_pos _
  · refine (Nat.log2_lt (Nat.ne_of_gt positive)).1 ?_
    rw [spacing] at finer
    omega

theorem lt_two_pow_spacing (units : Nat) : units < 2 ^ (53 + spacing units) := by
  have below := lt_of_spacing_lt (Nat.lt_succ_self (spacing units))
  rwa [Nat.succ_eq_add_one, Nat.add_comm (spacing units), ← Nat.add_assoc] at below

theorem spacing_mono (ordered : units ≤ other) : spacing units ≤ spacing other :=
  spacing_le (Nat.lt_of_le_of_lt ordered (lt_two_pow_spacing other))

theorem two_pow_spacing_infiniteUnits : 2 ^ spacing infiniteUnits ∣ infiniteUnits := by
  rw [infiniteUnits]
  generalize 1024 + unitPower = power
  have fine := spacing_dvd power (Nat.one_le_two_pow (n := 53))
  rwa [Nat.one_mul] at fine

theorem isCandidate_iff :
    IsCandidate units ↔ units ≤ infiniteUnits ∧ 2 ^ spacing units ∣ units := by
  constructor
  · rintro (⟨small, fine⟩ | same)
    · exact ⟨Nat.le_of_lt small, fine⟩
    · exact ⟨Nat.le_of_eq same, same ▸ two_pow_spacing_infiniteUnits⟩
  · rintro ⟨bounded, fine⟩
    exact (Nat.lt_or_eq_of_le bounded).imp_left fun small => ⟨small, fine⟩

/-- An even significand stays even where it takes up a bit more than there are. -/
theorem even_shifted (shift : Nat) (bits : significand ≤ 2 ^ 53) (even : 2 ∣ significand) :
    2 ^ (spacing (significand * 2 ^ shift) + 1) ∣ significand * 2 ^ shift := by
  rcases Nat.lt_or_eq_of_le bits with small | rfl
  · have fine : spacing (significand * 2 ^ shift) ≤ shift := by
      apply spacing_le
      rw [Nat.pow_add]
      exact Nat.mul_lt_mul_of_pos_right small (Nat.two_pow_pos shift)
    calc 2 ^ (spacing (significand * 2 ^ shift) + 1) ∣ 2 ^ (shift + 1) :=
          Nat.pow_dvd_pow 2 (Nat.succ_le_succ fine)
      _ = 2 * 2 ^ shift := Nat.pow_succ'
      _ ∣ significand * 2 ^ shift := Nat.mul_dvd_mul_right even _
  · rw [← Nat.pow_add]
    apply Nat.pow_dvd_pow
    rw [spacing, Nat.log2_two_pow]
    omega

/-! The nearest whole number -/

theorem two_mul_abs_sub_roundHalfEven (positive : 0 < denominator) :
    2 * |(numerator : Int) - roundHalfEven numerator denominator * denominator| ≤ denominator ∧
      (2 * |(numerator : Int) - roundHalfEven numerator denominator * denominator| = denominator →
        2 ∣ roundHalfEven numerator denominator) := by
  have whole : ((denominator * (numerator / denominator) + numerator % denominator : Nat) : Int) =
      numerator := congrArg _ (Nat.div_add_mod numerator denominator)
  have below := Nat.mod_lt numerator positive
  simp only [roundHalfEven]
  generalize numerator / denominator = quotient at *
  generalize numerator % denominator = rest at *
  have low : (numerator : Int) - quotient * denominator = rest := by
    push_cast at whole
    linarith
  have high :
      (numerator : Int) - (quotient + 1 : Nat) * denominator = -(denominator - rest : Int) := by
    push_cast at whole ⊢
    linarith
  have lower : |(rest : Int)| = rest := abs_of_nonneg (Int.natCast_nonneg rest)
  have upper : |-(denominator - rest : Int)| = denominator - rest := by
    rw [abs_neg]
    exact abs_of_nonneg (by omega)
  split
  · rw [low, lower]
    omega
  split
  · rw [high, upper]
    omega
  split
  · rw [low, lower]
    omega
  · rw [high, upper]
    omega

/-- No whole number is nearer, and only an even one leaves another as near. -/
theorem roundHalfEven_nearest (positive : 0 < denominator) (whole : Nat) :
    |(numerator : Int) - roundHalfEven numerator denominator * denominator| ≤
        |(numerator : Int) - whole * denominator| ∧
      (whole ≠ roundHalfEven numerator denominator →
        |(numerator : Int) - whole * denominator| =
          |(numerator : Int) - roundHalfEven numerator denominator * denominator| →
        2 ∣ roundHalfEven numerator denominator) := by
  have within := @two_mul_abs_sub_roundHalfEven numerator denominator positive
  generalize roundHalfEven numerator denominator = nearest at *
  obtain ⟨half, tie⟩ := within
  by_cases same : whole = nearest
  · subst same
    exact ⟨le_refl _, fun different => absurd rfl different⟩
  · have apart : (denominator : Int) ≤ |(numerator : Int) - whole * denominator| +
        |(numerator : Int) - nearest * denominator| :=
      calc (denominator : Int) = 1 * denominator := (one_mul _).symm
        _ ≤ |(whole : Int) - nearest| * denominator :=
          mul_le_mul_of_nonneg_right
            (Int.one_le_abs (sub_ne_zero.2 (Int.natCast_inj.not.2 same))) (Int.natCast_nonneg _)
        _ = |(whole - nearest : Int) * denominator| := by rw [abs_mul, Nat.abs_cast]
        _ = |((numerator : Int) - nearest * denominator) - (numerator - whole * denominator)| := by
          congr 1
          ring
        _ ≤ _ := by
          rw [add_comm]
          exact abs_sub _ _
    exact ⟨by linarith, fun _ level => tie (by linarith)⟩

/-! The nearest candidate -/

def gap (scaled denominator units : Nat) : Int :=
  |(scaled : Int) - units * denominator|

variable {scaled : Nat}

theorem gap_shifted (scaled denominator whole shift : Nat) :
    gap scaled denominator (whole * 2 ^ shift) = gap scaled (denominator * 2 ^ shift) whole := by
  rw [gap, gap]
  push_cast
  rw [mul_right_comm, mul_assoc]

theorem gap_lt_of_lt (positive : 0 < denominator) (closer : other < units)
    (below : units * denominator ≤ scaled) :
    gap scaled denominator units < gap scaled denominator other := by
  have less : other * denominator < units * denominator :=
    Nat.mul_lt_mul_of_pos_right closer positive
  rw [gap, gap, abs_of_nonneg (by omega), abs_of_nonneg (by omega)]
  omega

/-- What is spaced more finely than the quotient lies below a power of two, which is nearer. -/
theorem gap_lt_of_spacing_lt (positive : 0 < denominator)
    (finer : spacing other < spacing (scaled / denominator)) :
    gap scaled (denominator * 2 ^ spacing (scaled / denominator))
      (roundHalfEven scaled (denominator * 2 ^ spacing (scaled / denominator))) <
        gap scaled denominator other := by
  have below := lt_of_spacing_lt finer
  have leading : 2 ^ (52 + spacing (scaled / denominator)) ≤ scaled / denominator := by
    refine (Nat.le_log2 fun none => ?_).1 ?_
    · simp [none, spacing] at finer
    · simp only [spacing] at finer ⊢
      omega
  have reached : 2 ^ (52 + spacing (scaled / denominator)) * denominator ≤ scaled :=
    (Nat.le_div_iff_mul_le positive).1 leading
  generalize spacing (scaled / denominator) = shift at *
  have step : 0 < denominator * 2 ^ shift := Nat.mul_pos positive (Nat.two_pow_pos shift)
  calc gap scaled (denominator * 2 ^ shift) (roundHalfEven scaled (denominator * 2 ^ shift))
      ≤ gap scaled (denominator * 2 ^ shift) (2 ^ 52) := (roundHalfEven_nearest step _).1
    _ = gap scaled denominator (2 ^ (52 + shift)) := by rw [← gap_shifted, Nat.pow_add]
    _ < gap scaled denominator other := gap_lt_of_lt positive below reached

theorem nearestUnits_nearest (positive : 0 < denominator) (fine : 2 ^ spacing other ∣ other) :
    gap (numerator * 2 ^ unitPower) denominator (nearestUnits numerator denominator) ≤
        gap (numerator * 2 ^ unitPower) denominator other ∧
      (other ≠ nearestUnits numerator denominator →
        gap (numerator * 2 ^ unitPower) denominator other =
          gap (numerator * 2 ^ unitPower) denominator (nearestUnits numerator denominator) →
        2 ^ (spacing (nearestUnits numerator denominator) + 1) ∣
          nearestUnits numerator denominator) := by
  simp only [nearestUnits]
  generalize numerator * 2 ^ unitPower = scaled
  have bits := significand_le scaled denominator
  rw [gap_shifted]
  rcases Nat.lt_or_ge (spacing other) (spacing (scaled / denominator)) with finer | coarser
  · have nearer := gap_lt_of_spacing_lt positive finer
    exact ⟨le_of_lt nearer, fun _ level => absurd level (ne_of_gt nearer)⟩
  · obtain ⟨whole, rfl⟩ := Nat.dvd_trans (Nat.pow_dvd_pow 2 coarser) fine
    generalize spacing (scaled / denominator) = shift at *
    have step : 0 < denominator * 2 ^ shift := Nat.mul_pos positive (Nat.two_pow_pos shift)
    obtain ⟨nearest, even⟩ := @roundHalfEven_nearest scaled _ step whole
    rw [Nat.mul_comm (2 ^ shift) whole, gap_shifted]
    refine ⟨nearest, fun different level => even_shifted shift bits (even ?_ level)⟩
    rintro rfl
    exact different rfl

theorem distance_div (positive : 0 < denominator) (units : Nat) :
    distance (numerator / denominator) units =
      gap (numerator * 2 ^ unitPower) denominator units / (denominator * 2 ^ unitPower : Nat) := by
  have nonzero := Nat.two_pow_pos unitPower
  rw [distance, gap]
  generalize (2 ^ unitPower : Nat) = unit at *
  have size : (0 : Rat) < (denominator * unit : Nat) := by
    exact_mod_cast Nat.mul_pos positive nonzero
  have inside : (numerator : Rat) / denominator - units / unit =
      ((numerator * unit : Nat) - units * denominator : Int) / (denominator * unit : Nat) := by
    push_cast
    field_simp
  rw [inside, abs_div, abs_of_pos size, Int.cast_abs]

theorem isNearest_div (positive : 0 < denominator) (candidate : IsCandidate units)
    (nearest : ∀ other, IsCandidate other →
      gap (numerator * 2 ^ unitPower) denominator units ≤
          gap (numerator * 2 ^ unitPower) denominator other ∧
        (other ≠ units → gap (numerator * 2 ^ unitPower) denominator other =
          gap (numerator * 2 ^ unitPower) denominator units → 2 ^ (spacing units + 1) ∣ units)) :
    IsNearest (numerator / denominator) units := by
  have size : (0 : Rat) < (denominator * 2 ^ unitPower : Nat) :=
    Nat.cast_pos.2 (Nat.mul_pos positive (Nat.two_pow_pos unitPower))
  refine ⟨candidate, fun other candidate => ?_, fun other candidate different level => ?_⟩
  · rw [distance_div positive, distance_div positive, div_le_div_iff_of_pos_right size, Int.cast_le]
    exact (nearest other candidate).1
  · rw [distance_div positive, distance_div positive, div_left_inj' (ne_of_gt size),
      Int.cast_inj] at level
    exact (nearest other candidate).2 different level

theorem isNearest_nearestUnits (positive : 0 < denominator)
    (bounded : nearestUnits numerator denominator ≤ infiniteUnits) :
    IsNearest (numerator / denominator) (nearestUnits numerator denominator) :=
  isNearest_div positive (isCandidate_iff.2 ⟨bounded, nearestUnits_dvd numerator denominator⟩)
    fun _ candidate => nearestUnits_nearest positive (isCandidate_iff.1 candidate).2

/-- If what is nearest lies behind the last candidate, that is the nearest one of all candidates. -/
theorem isNearest_infiniteUnits (positive : 0 < denominator)
    (large : infiniteUnits ≤ nearestUnits numerator denominator) :
    IsNearest (numerator / denominator) infiniteUnits := by
  rcases Nat.lt_or_eq_of_le large with beyond | same
  · have nearest := @nearestUnits_nearest numerator denominator infiniteUnits positive
      two_pow_spacing_infiniteUnits
    refine isNearest_div positive (.inr rfl) fun other candidate => ?_
    generalize nearestUnits numerator denominator = found at *
    generalize numerator * 2 ^ unitPower = scaled at *
    have reached : infiniteUnits * denominator ≤ scaled := by
      refine Nat.le_of_not_lt fun short => ?_
      have above : infiniteUnits * denominator < found * denominator :=
        Nat.mul_lt_mul_of_pos_right beyond positive
      have nearer := nearest.1
      rw [gap, gap, abs_of_nonpos (by omega), abs_of_nonpos (by omega)] at nearer
      omega
    rcases Nat.lt_or_eq_of_le (isCandidate_iff.1 candidate).1 with closer | same
    · have nearer := gap_lt_of_lt positive closer reached
      exact ⟨le_of_lt nearer, fun _ level => absurd level (ne_of_gt nearer)⟩
    · exact ⟨le_of_eq (congrArg _ same.symm), fun different => absurd same different⟩
  · rw [same]
    exact isNearest_nearestUnits positive (Nat.le_of_eq same.symm)

theorem distance_lt_of_between {first second between : Nat}
    (level : distance value first = distance value second) (above : first < between)
    (below : between < second) : distance value between < distance value first := by
  have positive := Nat.two_pow_pos unitPower
  simp only [distance] at level ⊢
  generalize (2 ^ unitPower : Nat) = unit at *
  have size : (0 : Rat) < unit := Nat.cast_pos.2 positive
  have above : (first : Rat) / unit < between / unit :=
    div_lt_div_of_pos_right (Nat.cast_lt.2 above) size
  have below : (between : Rat) / unit < second / unit :=
    div_lt_div_of_pos_right (Nat.cast_lt.2 below) size
  have middle : value - first / unit = second / unit - value := by
    rcases abs_eq_abs.1 level with same | opposite
    · linarith
    · linarith
  rw [abs_of_pos (show 0 < value - first / unit by linarith), abs_lt]
  constructor
  · linarith
  · linarith

theorem IsCandidate.next (candidate : IsCandidate units)
    (room : units + 2 ^ spacing units ≤ infiniteUnits) : IsCandidate (units + 2 ^ spacing units) := by
  refine isCandidate_iff.2 ⟨room, ?_⟩
  obtain ⟨significand, shifted⟩ := (isCandidate_iff.1 candidate).2
  have bits : significand + 1 ≤ 2 ^ 53 := by
    have short := lt_two_pow_spacing units
    rw [Nat.pow_add, Nat.mul_comm (2 ^ 53)] at short
    refine Nat.lt_of_mul_lt_mul_left (a := 2 ^ spacing units) ?_
    rwa [← shifted]
  have next : units + 2 ^ spacing units = (significand + 1) * 2 ^ spacing units := by
    rw [Nat.succ_mul, Nat.mul_comm significand, ← shifted]
  rw [next]
  exact spacing_dvd _ bits

/-- Two even significands are not neighbours, so that nothing is nearest to both. -/
theorem IsNearest.le_of_isNearest {first second : Nat} (one : IsNearest value first)
    (another : IsNearest value second) : second ≤ first := by
  refine Nat.le_of_not_lt fun apart => ?_
  have level : distance value first = distance value second :=
    le_antisymm (one.nearest _ another.candidate) (another.nearest _ one.candidate)
  have even := one.even _ another.candidate (Nat.ne_of_gt apart) level.symm
  have even' := another.even _ one.candidate (Nat.ne_of_lt apart) level
  have coarser : spacing first + 1 ≤ spacing second + 1 :=
    Nat.succ_le_succ (spacing_mono (Nat.le_of_lt apart))
  have step : 2 ^ (spacing first + 1) ≤ second - first :=
    Nat.le_of_dvd (Nat.sub_pos_of_lt apart)
      (Nat.dvd_sub (Nat.dvd_trans (Nat.pow_dvd_pow 2 coarser) even') even)
  have above : first < first + 2 ^ spacing first := Nat.lt_add_of_pos_right (Nat.two_pow_pos _)
  have below : first + 2 ^ spacing first < second := by
    rw [Nat.pow_succ] at step
    omega
  have candidate : IsCandidate (first + 2 ^ spacing first) :=
    one.candidate.next (Nat.le_trans (Nat.le_of_lt below) (isCandidate_iff.1 another.candidate).1)
  exact absurd (one.nearest _ candidate) (not_le_of_gt (distance_lt_of_between level above below))

theorem IsNearest.unique {first second : Nat} (one : IsNearest value first)
    (another : IsNearest value second) : first = second :=
  Nat.le_antisymm (another.le_of_isNearest one) (one.le_of_isNearest another)

theorem Rounds.unique {negative : Bool} {x y : Double} (one : Rounds negative value x)
    (another : Rounds negative value y) : x = y := by
  have finite : ∀ {m : Magnitude}, IsNearest value m.units → ¬IsNearest value infiniteUnits :=
    fun {m} nearest infinite => Nat.ne_of_lt m.representable.1 (nearest.unique infinite)
  cases one with
  | @finite m nearest =>
    cases another with
    | @finite k nearest' =>
      obtain ⟨_, _⟩ := m
      obtain ⟨_, _⟩ := k
      cases nearest.unique nearest'
      rfl
    | infinite infinite => exact absurd infinite (finite nearest)
  | infinite infinite =>
    cases another with
    | finite nearest => exact absurd infinite (finite nearest)
    | infinite => rfl

/-- A quotient is rounded to the double that the definition asks for, and to no other. -/
theorem rounds_iff {negative : Bool} {x : Double} (positive : 0 < denominator) :
    Rounds negative (numerator / denominator) x ↔ x = .ofRatio negative numerator denominator := by
  have rounded :
      Rounds negative (numerator / denominator) (.ofRatio negative numerator denominator) := by
    rw [Double.ofRatio]
    split
    · rename_i small
      exact .finite (isNearest_nearestUnits positive (Nat.le_of_lt small))
    · rename_i large
      exact .infinite (isNearest_infiniteUnits positive (Nat.le_of_not_lt large))
  constructor
  · exact fun other => other.unique rounded
  · intro same
    rwa [same]

theorem Decimal.rounds_iff {negative : Bool} {x : Double} {number : Decimal} :
    Rounds negative number.value x ↔ x = number.toDouble negative := by
  obtain ⟨above, below, positive, fraction, rounded⟩ := number.exists_fraction
  rw [fraction, rounded]
  exact Number.rounds_iff positive

theorem exists_rounds (negative : Bool) (nonneg : 0 ≤ value) : ∃ x, Rounds negative value x := by
  obtain ⟨numerator, denominator, positive, rfl⟩ :
      ∃ numerator denominator : Nat, 0 < denominator ∧ value = numerator / denominator := by
    refine ⟨value.num.natAbs, value.den, value.den_pos, ?_⟩
    have front : ((value.num.natAbs : Int) : Rat) = value.num :=
      congrArg _ (Int.natAbs_of_nonneg (Rat.num_nonneg.2 nonneg))
    rw [← Int.cast_natCast, front, value.num_div_den]
  exact ⟨_, (rounds_iff positive).2 rfl⟩

/-! The ends -/

theorem infiniteUnits_div : (infiniteUnits : Rat) / (2 ^ unitPower : Nat) = 2 ^ 1024 := by
  have nonzero := Nat.two_pow_pos unitPower
  rw [infiniteUnits, Nat.pow_add]
  generalize (2 ^ unitPower : Nat) = unit at *
  generalize 1024 = power
  push_cast
  field_simp

theorem rounds_infinite (negative : Bool) (large : 2 ^ 1024 ≤ value) :
    Rounds negative value (.infinite negative) := by
  have size : (0 : Rat) < (2 ^ unitPower : Nat) := Nat.cast_pos.2 (Nat.two_pow_pos unitPower)
  rw [← infiniteUnits_div] at large
  have farther : ∀ other < infiniteUnits, distance value infiniteUnits < distance value other := by
    intro other closer
    have below : (other : Rat) / (2 ^ unitPower : Nat) < infiniteUnits / (2 ^ unitPower : Nat) :=
      div_lt_div_of_pos_right (Nat.cast_lt.2 closer) size
    rw [distance, distance, abs_of_nonneg (by linarith), abs_of_nonneg (by linarith)]
    linarith
  refine .infinite ⟨.inr rfl, fun other candidate => ?_, fun other candidate different level => ?_⟩
  · rcases Nat.lt_or_eq_of_le (isCandidate_iff.1 candidate).1 with closer | same
    · exact le_of_lt (farther other closer)
    · exact le_of_eq (congrArg _ same.symm)
  · have closer := Nat.lt_of_le_of_ne (isCandidate_iff.1 candidate).1 different
    exact absurd level (ne_of_gt (farther other closer))

theorem rounds_zero (negative : Bool) (nonneg : 0 ≤ value)
    (small : 2 * value * (2 ^ unitPower : Nat) ≤ 1) : Rounds negative value (.zero negative) := by
  have size : (0 : Rat) < (2 ^ unitPower : Nat) := Nat.cast_pos.2 (Nat.two_pow_pos unitPower)
  have nearest : IsNearest value 0 := by
    refine ⟨.inl (Magnitude.shifted 0 0 (by decide) (by decide)).representable, fun other _ => ?_,
      fun _ _ _ _ => Nat.dvd_zero _⟩
    rcases Nat.eq_zero_or_pos other with rfl | above
    · exact le_refl _
    · have one : 1 / (2 ^ unitPower : Nat) ≤ (other : Rat) / (2 ^ unitPower : Nat) :=
        div_le_div_of_nonneg_right (Nat.one_le_cast.2 above) (le_of_lt size)
      have half : 2 * value ≤ 1 / (2 ^ unitPower : Nat) := (le_div_iff₀ size).2 small
      rw [distance, distance, Nat.cast_zero, zero_div, sub_zero, abs_of_nonneg nonneg, abs_sub_comm]
      exact le_trans (by linarith) (le_abs_self _)
  exact .finite nearest

end Phrasebook.Number
