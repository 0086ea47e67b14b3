import Phrasebook.Proofs.Number.Layout

/-!
Values written with an exponent and without. The layout of a value hangs on the place of its point
alone, and the text denotes just the number that was to be written.
-/

namespace Phrasebook.Number

open Po (Numeral)
open Text (isDigit decimalValue)

variable {digits text tail : List Char} {power power' point : Int} {value value' : Rat}

/-- How the digits of a value are laid out when they begin `point` places in front of the decimal
point. -/
inductive LaidOut (digits : List Char) (point : Int) : List Char → Prop
  | whole (zeros : Nat) :
      digits.length + zeros = point → point ≤ 21 →
      LaidOut digits point (digits ++ List.replicate zeros '0')
  | split (front behind : List Char) :
      digits = front ++ behind → behind ≠ [] → front.length = point → 0 < point → point ≤ 21 →
      LaidOut digits point (front ++ '.' :: behind)
  | small (zeros : Nat) :
      -zeros = point → -6 < point →
      LaidOut digits point ('0' :: '.' :: List.replicate zeros '0' ++ digits)
  | scaled (first : Char) (rest : List Char) :
      digits = first :: rest → point ≤ -6 ∨ 21 < point →
      LaidOut digits point (first :: (if rest = [] then [] else '.' :: rest) ++
        'e' :: (if 0 ≤ point - 1 then '+' else '-') :: Text.decimal (point - 1).natAbs)

theorem laidOut_layout (nonempty : digits ≠ []) (point : Int) :
    LaidOut digits point (layout .ofValues digits point) := by
  have exponent : exponentPart .ofValues (point - 1) =
      'e' :: (if 0 ≤ point - 1 then '+' else '-') :: Text.decimal (point - 1).natAbs := by
    rw [exponentPart, exponentSign]
    by_cases negative : point - 1 < 0
    · rw [if_pos negative, if_neg (by omega)]
      rfl
    · rw [if_neg negative, if_pos (show 0 ≤ point - 1 by omega)]
      rfl
  have size : 0 < digits.length := List.length_pos_iff.2 nonempty
  have limits : Style.ofValues.maxWhole = 21 ∧ Style.ofValues.zeroLimit = 6 := ⟨rfl, rfl⟩
  unfold layout
  rw [limits.1, limits.2]
  split
  · rename_i places
    have zeros : digits.length + ((point - digits.length).toNat : Int) = point := by omega
    have written := LaidOut.whole _ zeros places.2
    rwa [← List.append_nil (digits ++ _)] at written
  split
  · rename_i places
    refine .split _ _ (List.take_append_drop _ _).symm ?_ ?_ places.1 places.2
    · rw [ne_eq, List.drop_eq_nil_iff]
      omega
    · rw [List.length_take]
      omega
  split
  · rename_i places
    exact .small _ (by omega) places.1
  have far : point ≤ -6 ∨ 21 < point := by omega
  rw [exponent]
  obtain ⟨first, rest, rfl⟩ := List.exists_cons_of_ne_nil nonempty
  cases rest with
  | nil => exact .scaled first [] rfl far
  | cons second rest => exact .scaled first (second :: rest) rfl far

/-- The text of a positive double is a layout of digits that begin with no zero, and denotes a number
that reads back as the double. -/
theorem Magnitude.laidOut_written {m : Magnitude} (nonzero : m.units ≠ 0) :
    ∃ number digits, Significant digits ∧ LaidOut digits number.point (m.written .ofValues) ∧
      Writes (Numeral 10) (m.written .ofValues) number.value ∧ m.ReadsBack number := by
  have reads := m.shortest_readsBack Style.ofValues.tie
  obtain ⟨significant, worth⟩ := Decimal.significant_digits (reads.positive nonzero)
  rw [written, if_neg nonzero]
  refine ⟨_, _, significant, laidOut_layout significant.nonempty _, ?_, reads⟩
  rw [worth]
  exact writes_layout .ofValues significant.all significant.nonempty (numeral_decimal _)

/-- Only behind an exponent is there an `e`. -/
theorem LaidOut.plain_iff (laid : LaidOut digits point text) (all : ∀ c ∈ digits, isDigit c = true) :
    'e' ∉ text ↔ -6 < point ∧ point ≤ 21 := by
  have plain : 'e' ∉ digits := fun member => absurd (all 'e' member) (by decide)
  cases laid with
  | whole zeros places bound => exact iff_of_true (by simp [plain]) ⟨by omega, bound⟩
  | split front behind same _ _ positive bound =>
    rw [same, List.mem_append] at plain
    exact iff_of_true (by simpa using plain) ⟨by omega, bound⟩
  | small zeros places bound => exact iff_of_true (by simp [plain]) ⟨bound, by omega⟩
  | scaled first rest same far => exact iff_of_false (by simp) (by omega)

/-! What a text denotes -/

theorem Mantissa.plain (denotes : Mantissa text value) :
    ∀ c ∈ text, (c != 'e' && c != 'E') = true := by
  have digit : ∀ c, isDigit c = true → (c != 'e' && c != 'E') = true := by
    intro c digit
    by_contra mark
    simp only [Bool.and_eq_true, bne_iff_ne, not_and_or, not_not] at mark
    rcases mark with rfl | rfl
    · exact absurd digit (by decide)
    · exact absurd digit (by decide)
  cases denotes with
  | whole numeral => exact fun c member => digit c (Po.Line.isDigit_of_numeral numeral c member)
  | point numeral =>
    have all := List.forall_mem_append.1 (Po.Line.isDigit_of_numeral numeral)
    refine List.forall_mem_append.2 ⟨fun c member => digit c (all.1 c member), ?_⟩
    exact List.forall_mem_cons.2 ⟨by decide, fun c member => digit c (all.2 c member)⟩

theorem Mantissa.unique (first : Mantissa text value) (second : Mantissa text value') :
    value = value' := by
  obtain ⟨number, read, same⟩ := denotes_mantissa first .none
  obtain ⟨number', read', same'⟩ := denotes_mantissa second .none
  obtain rfl := Option.some.inj (read.symm.trans read')
  simpa using same.symm.trans same'

theorem Exponent.unique (first : Exponent (Numeral 10) tail power)
    (second : Exponent (Numeral 10) tail power') : power = power' := by
  have parts : ∀ {sign digits negative number}, Sign sign negative → Numeral 10 digits number →
      splitSign (sign ++ digits) = (negative, digits) ∧ decimalValue 0 digits = number := by
    intro sign digits negative number signed denotes
    obtain ⟨_, all, same⟩ := numeral_ten_iff.1 denotes
    exact ⟨splitSign_append signed (splitSign_of_digits all), same⟩
  cases first with
  | none =>
    cases second with
    | none => rfl
  | @power mark sign digits negative number _ signed denotes =>
    generalize whole : mark :: (sign ++ digits) = tail at second
    cases second with
    | none => cases whole
    | @power mark' sign' digits' negative' number' _ signed' denotes' =>
      obtain ⟨split, rfl⟩ := parts signed denotes
      obtain ⟨split', rfl⟩ := parts signed' denotes'
      rw [(List.cons.inj whole).2, split'] at split
      obtain ⟨rfl, rfl⟩ := Prod.mk.inj split
      rfl

theorem Writes.unique (first : Writes (Numeral 10) text value)
    (second : Writes (Numeral 10) text value') : value = value' := by
  have stops : ∀ {tail power}, Exponent (Numeral 10) tail power →
      Text.Without (fun c => c != 'e' && c != 'E') tail := by
    intro tail power exponent c member
    cases exponent with
    | none => cases member
    | power marks =>
      cases member
      rcases marks with rfl | rfl <;> rfl
  cases first with
  | @decimal mantissa value tail power denotes exponent =>
    generalize whole : mantissa ++ tail = text at second
    cases second with
    | @decimal mantissa' value' tail' power' denotes' exponent' =>
      have front := Text.takeWhile_append denotes.plain (stops exponent)
      have behind := Text.dropWhile_append denotes.plain (stops exponent)
      rw [whole, Text.takeWhile_append denotes'.plain (stops exponent')] at front
      rw [whole, Text.dropWhile_append denotes'.plain (stops exponent')] at behind
      subst front behind
      rw [denotes.unique denotes', exponent.unique exponent']

/-! Which values are written without an exponent -/

/-- The point tells the power of ten of the first digit, since that is no zero. -/
theorem Significant.value_bounds (significant : Significant digits) (point : Int) :
    (10 : Rat) ^ (point - 1) ≤ decimalValue 0 digits * 10 ^ (point - digits.length) ∧
      decimalValue 0 digits * 10 ^ (point - digits.length) < (10 : Rat) ^ point := by
  obtain ⟨all, nonempty, leads⟩ := significant
  have above := numeral_lt_pow (numeral_ten_iff.2 ⟨nonempty, all, rfl⟩)
  obtain ⟨first, rest, rfl⟩ := List.exists_cons_of_ne_nil nonempty
  have positive : 1 ≤ first.toNat - '0'.toNat := by
    have digit := (Text.isDigit_iff first).1 (all first List.mem_cons_self)
    have other : first.toNat ≠ '0'.toNat := fun same =>
      leads (congrArg some (Char.toNat_inj.1 same))
    have zero : '0'.toNat = 48 := rfl
    omega
  have below : 10 ^ rest.length ≤ decimalValue 0 (first :: rest) :=
    calc 10 ^ rest.length ≤ 10 ^ rest.length * (10 * 0 + (first.toNat - '0'.toNat)) := by
          rw [Nat.mul_zero, Nat.zero_add]
          exact Nat.le_mul_of_pos_right _ positive
      _ ≤ decimalValue 0 (first :: rest) := Text.pow_length_mul_le_decimalValue _ rest
  generalize decimalValue 0 (first :: rest) = worth at *
  have scale : (0 : Rat) < 10 ^ (point - (first :: rest).length) := by positivity
  constructor
  · calc (10 : Rat) ^ (point - 1) = 10 ^ rest.length * 10 ^ (point - (first :: rest).length) := by
          rw [← zpow_natCast, ← zpow_add₀ (by norm_num), List.length_cons]
          congr 1
          push_cast
          ring
      _ ≤ worth * 10 ^ (point - (first :: rest).length) :=
          mul_le_mul_of_nonneg_right (by exact_mod_cast below) scale.le
  · calc worth * 10 ^ (point - (first :: rest).length)
        < (10 : Rat) ^ (first :: rest).length * 10 ^ (point - (first :: rest).length) :=
          mul_lt_mul_of_pos_right (by exact_mod_cast above) scale
      _ = 10 ^ point := by
          rw [← zpow_natCast, ← zpow_add₀ (by norm_num), add_sub_cancel]

theorem Significant.range_iff (significant : Significant digits) (point low high : Int) :
    low < point ∧ point ≤ high ↔
      (10 : Rat) ^ low ≤ decimalValue 0 digits * 10 ^ (point - digits.length) ∧
        decimalValue 0 digits * 10 ^ (point - digits.length) < (10 : Rat) ^ high := by
  obtain ⟨below, above⟩ := significant.value_bounds point
  have bases : (1 : Rat) < 10 := by norm_num
  constructor
  · rintro ⟨low', high'⟩
    exact ⟨(zpow_le_zpow_right₀ bases.le (by omega)).trans below,
      above.trans_le (zpow_le_zpow_right₀ bases.le high')⟩
  · rintro ⟨low', high'⟩
    have reaches := (zpow_lt_zpow_iff_right₀ bases).1 (low'.trans_lt above)
    have stays := (zpow_lt_zpow_iff_right₀ bases).1 (below.trans_lt high')
    omega

/-- Any digits are laid out by the place of their point, and the text denotes `0.digits * 10 ^ point`
and nothing else. There is no exponent in it exactly for the values from 10^-6 on and below 10^21. -/
theorem layout_exactly (significant : Significant digits) (point : Int) :
    let text := layout .ofValues digits point
    LaidOut digits point text ∧
      ∃ fraction, Mantissa ('0' :: '.' :: digits) fraction ∧
        (∀ value, Writes (Numeral 10) text value ↔ value = fraction * 10 ^ point) ∧
        ('e' ∉ text ↔ -6 < point ∧ point ≤ 21) ∧
        ('e' ∉ text ↔ 10 ^ (-6 : Int) ≤ fraction * 10 ^ point ∧
          fraction * 10 ^ point < 10 ^ (21 : Int)) := by
  intro text
  have laid := laidOut_layout significant.nonempty point
  have written := writes_layout .ofValues significant.all significant.nonempty
    (numeral_decimal (point - 1).natAbs)
  have plain := laid.plain_iff significant.all
  have value : decimalValue 0 digits * 10 ^ (0 - digits.length : Int) * 10 ^ point =
      (decimalValue 0 digits * 10 ^ (point - digits.length) : Rat) := by
    rw [mul_assoc, ← zpow_add₀ (by norm_num)]
    congr 2
    ring
  refine ⟨laid, _, mantissa_zeros_front significant.all (Int.le_refl 0), ?_, plain, ?_⟩
  · intro value'
    rw [value]
    exact ⟨fun other => other.unique written, fun same => same ▸ written⟩
  · rw [value]
    exact plain.trans (significant.range_iff point (-6) 21)

theorem layout_exactly_scaled :
    (ofText "15e21").chars = layout .ofValues ['1', '5'] 23 ∧
    let text := layout .ofValues ['1', '5'] 23
    text = "1.5e+22".toList ∧ LaidOut ['1', '5'] 23 text ∧
      ∃ fraction, Mantissa ['0', '.', '1', '5'] fraction ∧
        (∀ value, Writes (Numeral 10) text value ↔ value = fraction * 10 ^ (23 : Int)) ∧
        ('e' ∉ text ↔ -6 < (23 : Int) ∧ (23 : Int) ≤ 21) ∧
        ('e' ∉ text ↔ 10 ^ (-6 : Int) ≤ fraction * 10 ^ (23 : Int) ∧
          fraction * 10 ^ (23 : Int) < 10 ^ (21 : Int)) :=
  ⟨by decide +kernel, by decide +kernel,
    layout_exactly ⟨List.all_eq_true.1 (by decide), List.cons_ne_nil _ _, by decide⟩ 23⟩

end Phrasebook.Number
