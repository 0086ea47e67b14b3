import Phrasebook.Number.Layout
import Phrasebook.Proofs.Number.Literals

/-!
Layouts of numbers. Each way to write digits around a decimal point denotes the number that the
digits and the point stand for, so a magnitude that is written is read again.
-/

namespace Phrasebook.Number

open Po (Numeral)
open Text (isDigit decimalValue)

variable {digits text : List Char} {power point : Int} {value : Rat}
  {worth : List Char → Nat → Prop}

/-- The number that a text without a sign denotes, before it is rounded. -/
inductive Writes (worth : List Char → Nat → Prop) : List Char → Rat → Prop
  | decimal {mantissa value tail power} :
      Mantissa mantissa value → Exponent worth tail power →
      Writes worth (mantissa ++ tail) (value * 10 ^ power)

theorem Mantissa.writes (denotes : Mantissa text value) : Writes worth text value := by
  have written := Writes.decimal denotes (.none : Exponent worth [] 0)
  rwa [List.append_nil, zpow_zero, mul_one] at written

theorem Writes.denotes (writes : Writes StopsAt text value) : Denotes text value := by
  cases writes with
  | decimal denotes exponent => exact denotes_mantissa denotes exponent

theorem numeral_decimal (value : Nat) : Numeral 10 (Text.decimal value) value :=
  (Po.Line.numeral_eq_some_iff (by decide)).1 (Text.numeral_decimal value)

theorem sign_exponentSign (style : Style) (power : Int) :
    Sign (exponentSign style power) (decide (power < 0)) := by
  unfold exponentSign
  split
  · rename_i negative
    rw [decide_eq_true negative]
    exact .minus
  · rename_i nonnegative
    rw [decide_eq_false nonnegative]
    split
    · exact .plus
    · exact .none

theorem exponent_exponentPart (style : Style)
    (numeral : worth (Text.decimal power.natAbs) power.natAbs) :
    Exponent worth (exponentPart style power) power := by
  have written := Exponent.power (.inl (rfl : 'e' = 'e')) (sign_exponentSign style power) numeral
  have same : (if decide (power < 0) = true then -(power.natAbs : Int) else power.natAbs) = power := by
    simp only [decide_eq_true_eq]
    split <;> omega
  rwa [same] at written

/-! The layouts -/

/-- All of the digits stand in front of the point, and zeros fill the places up to it. -/
theorem mantissa_zeros_behind (all : ∀ c ∈ digits, isDigit c = true) (nonempty : digits ≠ [])
    (places : digits.length ≤ point) (wholePoint : Bool) :
    Mantissa
      (digits ++ List.replicate (point - digits.length).toNat '0' ++
        (if wholePoint then ['.', '0'] else []))
      (decimalValue 0 digits * 10 ^ (point - digits.length)) := by
  have power : point - digits.length = ((point - digits.length).toNat : Int) := by omega
  generalize (point - digits.length).toNat = count at *
  have padded : ∀ more, Numeral 10 (digits ++ List.replicate (count + more) '0')
      (10 ^ (count + more) * decimalValue 0 digits) := fun more =>
    numeral_ten_iff.2 ⟨List.append_ne_nil_of_left_ne_nil nonempty _,
      List.forall_mem_append.2 ⟨all, Text.isDigit_of_mem_zeros _⟩,
      by rw [Text.decimalValue_append, Text.decimalValue_zeros]⟩
  rw [power, zpow_natCast]
  split
  · have tenth := padded 1
    rw [List.replicate_succ', ← List.append_assoc] at tenth
    convert Mantissa.point tenth using 1
    push_cast [List.length_singleton]
    ring
  · convert Mantissa.whole (padded 0) using 1
    · rw [Nat.add_zero, List.append_nil]
    · push_cast
      ring

/-- The point stands among the digits. -/
theorem mantissa_split (places : Nat) (all : ∀ c ∈ digits, isDigit c = true) (nonempty : digits ≠ [])
    (inside : places ≤ digits.length) :
    Mantissa (digits.take places ++ '.' :: digits.drop places)
      (decimalValue 0 digits * 10 ^ (places - digits.length : Int)) := by
  have numeral : Numeral 10 (digits.take places ++ digits.drop places) (decimalValue 0 digits) := by
    rw [List.take_append_drop]
    exact numeral_ten_iff.2 ⟨nonempty, all, rfl⟩
  have behind : (places - digits.length : Int) = -(digits.drop places).length := by
    rw [List.length_drop]
    omega
  rw [behind, zpow_neg, zpow_natCast, ← div_eq_mul_inv]
  exact .point numeral

theorem mantissa_zeros_front (all : ∀ c ∈ digits, isDigit c = true) (places : point ≤ 0) :
    Mantissa ('0' :: '.' :: List.replicate (-point).toNat '0' ++ digits)
      (decimalValue 0 digits * 10 ^ (point - digits.length)) := by
  have power : point - digits.length = -(List.replicate (-point).toNat '0' ++ digits).length := by
    rw [List.length_append, List.length_replicate]
    omega
  rw [power, zpow_neg, zpow_natCast, ← div_eq_mul_inv]
  generalize (-point).toNat = count
  have numeral : Numeral 10 (['0'] ++ (List.replicate count '0' ++ digits)) (decimalValue 0 digits) :=
    numeral_ten_iff.2 ⟨List.cons_ne_nil _ _,
      List.forall_mem_append.2 ⟨Text.isDigit_of_mem_zeros 1,
        List.forall_mem_append.2 ⟨Text.isDigit_of_mem_zeros count, all⟩⟩,
      by rw [← List.append_assoc]; exact Text.decimalValue_zeros_append (count + 1) digits⟩
  exact .point numeral

/-- However the digits and the point are laid out, the text denotes `0.digits * 10 ^ point`. -/
theorem writes_layout (style : Style) (all : ∀ c ∈ digits, isDigit c = true) (nonempty : digits ≠ [])
    (numeral : worth (Text.decimal (point - 1).natAbs) (point - 1).natAbs) :
    Writes worth (layout style digits point)
      (decimalValue 0 digits * 10 ^ (point - digits.length)) := by
  have size : 0 < digits.length := List.length_pos_iff.2 nonempty
  have exponent := exponent_exponentPart style numeral
  have power : (10 : Rat) ^ (point - digits.length) = 10 ^ (1 - digits.length : Int) * 10 ^ (point - 1) := by
    rw [← zpow_add₀ (by norm_num)]
    congr 1
    omega
  unfold layout
  split
  · rename_i places
    exact (mantissa_zeros_behind all nonempty places.1 style.wholePoint).writes
  split
  · rename_i places
    have mantissa := mantissa_split point.toNat all nonempty (by omega)
    rw [Int.toNat_of_nonneg (by omega)] at mantissa
    exact mantissa.writes
  split
  · rename_i places
    exact (mantissa_zeros_front all places.2).writes
  rw [power, ← mul_assoc]
  split
  · have written := Writes.decimal (.whole (numeral_ten_iff.2 ⟨nonempty, all, rfl⟩)) exponent
    simpa using written
  · have written := Writes.decimal (mantissa_split 1 all nonempty size) exponent
    simpa using written

/-- An exponent of a double is not too large to be read. -/
theorem denotes_layout (style : Style) (all : ∀ c ∈ digits, isDigit c = true)
    (nonempty : digits ≠ []) (small : (point - 1).natAbs < 0x10000) :
    Denotes (layout style digits point)
      (decimalValue 0 digits * 10 ^ (point - digits.length)) :=
  (writes_layout style all nonempty (.whole (numeral_decimal _) small)).denotes

/-! The digits of a number -/

theorem exists_endZeros (digits : List Char) :
    ∃ count, withoutEndZeros digits ++ List.replicate count '0' = digits := by
  have zeros : ∀ c ∈ digits.reverse.takeWhile (· == '0'), c = '0' := fun c member =>
    eq_of_beq (List.all_eq_true.1 List.all_takeWhile c member)
  refine ⟨(digits.reverse.takeWhile (· == '0')).length, ?_⟩
  rw [withoutEndZeros, ← List.reverse_replicate, ← List.eq_replicate_of_mem zeros,
    ← List.reverse_append, List.takeWhile_append_dropWhile, List.reverse_reverse]

structure Significant (digits : List Char) : Prop where
  all : ∀ c ∈ digits, isDigit c = true
  nonempty : digits ≠ []
  leads : digits.head? ≠ some '0'

/-- Zeros at the end of the digits are left out; the point tells what they were worth. -/
theorem Decimal.significant_digits {number : Decimal} (positive : 0 < number.coefficient) :
    let digits := withoutEndZeros (Text.decimal number.coefficient)
    Significant digits ∧
      number.value = decimalValue 0 digits * 10 ^ (number.point - digits.length) := by
  intro digits
  obtain ⟨count, zeros⟩ : ∃ count, digits ++ List.replicate count '0' = _ :=
    exists_endZeros (Text.decimal number.coefficient)
  have denoted := Text.decimalValue_decimal number.coefficient
  rw [← zeros, Text.decimalValue_append, Text.decimalValue_zeros] at denoted
  have power : number.point - digits.length = count + number.exponent := by
    rw [point, ← zeros, List.length_append, List.length_replicate]
    omega
  refine ⟨⟨fun c member => ?_, ?_, fun leads => ?_⟩, ?_⟩
  · exact Text.isDigit_of_mem_decimal (zeros ▸ List.mem_append_left _ member)
  · intro none
    rw [none] at denoted
    have worthless : 10 ^ count * decimalValue 0 [] = 0 := Nat.mul_zero _
    omega
  · obtain ⟨rest, begins⟩ := List.head?_eq_some_iff.1 leads
    rw [begins, List.cons_append] at zeros
    exact Text.decimal_ne_zero_cons positive _ zeros.symm
  · rw [value, power, ← denoted, zpow_add₀ (by norm_num), zpow_natCast]
    push_cast
    ring

theorem Decimal.denotes_written (style : Style) {number : Decimal} (positive : 0 < number.coefficient)
    (small : (number.point - 1).natAbs < 0x10000) :
    Denotes (number.written style) number.value := by
  obtain ⟨significant, worth⟩ := significant_digits positive
  rw [worth]
  exact denotes_layout style significant.all significant.nonempty small

theorem Magnitude.exists_decimal_written (style : Style) (m : Magnitude) :
    ∃ number, decimal? (m.written style) = some number ∧ m.ReadsBack number := by
  suffices denoted : ∃ known : Decimal, m.ReadsBack known ∧ Denotes (m.written style) known.value by
    obtain ⟨known, reads, number, read, same⟩ := denoted
    exact ⟨number, read, (Decimal.toDouble_congr same false).trans reads⟩
  rw [written]
  split
  · rename_i zero
    have zeroDigit : ∀ c ∈ ['0'], isDigit c = true := Text.isDigit_of_mem_zeros 1
    have denoted : Denotes (layout style ['0'] 1) ((0 : Nat) * 10 ^ (1 - (1 : Nat) : Int)) :=
      denotes_layout style zeroDigit (List.cons_ne_nil _ _) (by omega)
    refine ⟨m.exactly, m.exactly_readsBack, ?_⟩
    rwa [m.exactly_value, zero, Nat.cast_zero, zero_div, ← zero_mul, ← Nat.cast_zero]
  · rename_i nonzero
    have reads := m.shortest_readsBack style.tie
    have bounds := reads.point_bounds nonzero
    refine ⟨_, reads, Decimal.denotes_written style (reads.positive nonzero) ?_⟩
    simp only [unitPower] at bounds
    omega

end Phrasebook.Number
