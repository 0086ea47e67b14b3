import Phrasebook.Proofs.Number.Nearest
import Phrasebook.Proofs.Number.Reading
import Phrasebook.Proofs.Po.Escapes

/-!
Decimal literals, as they are written in scripts and without regard to how they are read: a sign,
digits around a point, and an exponent. Reading takes them for just the numbers that they denote, but
that the digits of an exponent are looked at only until they come to 2^16.
-/

namespace Phrasebook.Number

open Po (Numeral)

inductive Sign : List Char → Bool → Prop
  | none : Sign [] false
  | plus : Sign ['+'] false
  | minus : Sign ['-'] true

inductive Mantissa : List Char → Rat → Prop
  | whole {digits number} : Numeral 10 digits number → Mantissa digits number
  | point {whole fraction number} :
      Numeral 10 (whole ++ fraction) number →
      Mantissa (whole ++ '.' :: fraction) (number / 10 ^ fraction.length)

inductive Exponent (worth : List Char → Nat → Prop) : List Char → Int → Prop
  | none : Exponent worth [] 0
  | power {mark sign digits negative number} :
      mark = 'e' ∨ mark = 'E' → Sign sign negative → worth digits number →
      Exponent worth (mark :: (sign ++ digits)) (if negative then -(number : Int) else number)

inductive Literal (worth : List Char → Nat → Prop) : List Char → Double → Prop
  | decimal {sign negative mantissa value tail power x} :
      Sign sign negative → Mantissa mantissa value → Exponent worth tail power →
      Rounds negative (value * 10 ^ power) x → Literal worth (sign ++ (mantissa ++ tail)) x

/-- The digits denote the number, or else their first few do, which come to 2^16 and did not do so
before the last of them. -/
inductive StopsAt : List Char → Nat → Prop
  | whole {digits number} : Numeral 10 digits number → number < 2 ^ 16 → StopsAt digits number
  | cut {front rest number total} :
      Numeral 10 (front ++ rest) total → Numeral 10 front number → number / 10 < 2 ^ 16 →
      2 ^ 16 ≤ number → StopsAt (front ++ rest) number

/-- Literals in which the exponent comes to 2^16, behind so many digits that it may matter by how
much, and what comes of looking only at the first digits of the exponent. -/
inductive Overrun : List Char → Double → Prop
  | literal {sign negative mantissa value tail power stop x} :
      Sign sign negative → Mantissa mantissa value → 65000 < mantissa.length →
      Exponent (Numeral 10) tail power → 2 ^ 16 ≤ power.natAbs → Exponent StopsAt tail stop →
      Rounds negative (value * 10 ^ stop) x → Overrun (sign ++ (mantissa ++ tail)) x

variable {text digits tail mantissa : List Char} {number : Nat} {power : Int} {value : Rat}

/-! Digits -/

theorem numeral_ten_iff :
    Numeral 10 digits number ↔ digits ≠ [] ∧ (∀ c ∈ digits, Text.isDigit c = true) ∧
      Text.decimalValue 0 digits = number := by
  rw [← Po.Line.numeral_eq_some_iff (by decide)]
  constructor
  · intro read
    have denotes := (Po.Line.numeral_eq_some_iff (by decide)).1 read
    have all := Po.Line.isDigit_of_numeral denotes
    have nonempty := Po.Line.numeral_ne_nil denotes
    rw [Text.numeral_of_digits nonempty all, Option.some_inj] at read
    exact ⟨nonempty, all, read⟩
  · rintro ⟨nonempty, all, rfl⟩
    exact Text.numeral_of_digits nonempty all

theorem numeral_lt_pow (denotes : Numeral 10 digits number) : number < 10 ^ digits.length := by
  induction denotes with
  | digit digit => simpa using digit.1
  | append _ digit ih =>
    have last := digit.1
    rw [List.length_append, List.length_singleton, Nat.pow_succ]
    omega

theorem toNat_sub_of_isDigitFor {c : Char} (digit : Po.IsDigitFor 10 number c) :
    c.toNat - '0'.toNat = number := by
  have zero : '0'.toNat = 48 := rfl
  rw [Po.Line.isDigitFor_iff (by decide)] at digit
  omega

theorem exponentValue_concat (digits : List Char) (c : Char) :
    exponentValue (digits ++ [c]) =
      if exponentValue digits < 0x10000 then 10 * exponentValue digits + (c.toNat - '0'.toNat)
      else exponentValue digits := by
  rw [exponentValue, List.foldl_append]
  rfl

theorem stopsAt_exponentValue (denotes : Numeral 10 digits number) :
    StopsAt digits (exponentValue digits) := by
  induction denotes with
  | @digit c value digit =>
    have same : exponentValue [c] = value := by
      rw [← toNat_sub_of_isDigitFor digit]
      exact Nat.zero_add _
    rw [same]
    exact .whole (.digit digit) (by have := digit.1; omega)
  | @append text total c value before digit ih =>
    have longer := Numeral.append before digit
    have last := digit.1
    rw [exponentValue_concat, toNat_sub_of_isDigitFor digit]
    generalize exponentValue text = stop at *
    cases ih with
    | whole denotes small =>
      rw [if_pos (by omega)]
      have same : 10 * stop + value < 2 ^ 16 ∨ 2 ^ 16 ≤ 10 * stop + value := Nat.lt_or_ge _ _
      have denotes := Numeral.append denotes digit
      rcases same with small | large
      · exact .whole denotes small
      · have cut := @StopsAt.cut _ [] _ _ (by rwa [List.append_nil]) denotes (by omega) large
        rwa [List.append_nil] at cut
    | @cut front rest _ _ _ denotes reached large =>
      rw [if_neg (by omega), List.append_assoc]
      rw [List.append_assoc] at longer
      exact .cut longer denotes reached large

theorem exponentValue_append (large : 0x10000 ≤ exponentValue digits) (rest : List Char) :
    exponentValue (digits ++ rest) = exponentValue digits := by
  induction rest using List.reverseRecOn with
  | nil => rw [List.append_nil]
  | append_singleton rest c ih => rw [← List.append_assoc, exponentValue_concat, ih, if_neg (by omega)]

theorem exponentValue_of_numeral (denotes : Numeral 10 digits number) (small : number < 0x10000) :
    exponentValue digits = number := by
  have same := (numeral_ten_iff.1 denotes).2.2
  rw [exponentValue_eq_decimalValue (by omega), same]

theorem StopsAt.exponentValue_eq (stops : StopsAt digits number) : exponentValue digits = number := by
  cases stops with
  | whole denotes small => exact exponentValue_of_numeral denotes small
  | @cut front rest _ total all denotes first reached =>
    have stop : exponentValue front = number := by
      cases denotes with
      | digit digit => exact absurd digit.1 (by omega)
      | append before digit =>
        have last := digit.1
        have short := exponentValue_of_numeral before (by omega)
        rw [exponentValue_concat, toNat_sub_of_isDigitFor digit, short, if_pos (by omega)]
    rw [exponentValue_append (by omega), stop]

theorem stopsAt_iff :
    StopsAt digits number ↔ (∃ total, Numeral 10 digits total) ∧ exponentValue digits = number := by
  constructor
  · intro stops
    refine ⟨?_, stops.exponentValue_eq⟩
    cases stops with
    | whole denotes => exact ⟨_, denotes⟩
    | cut denotes => exact ⟨_, denotes⟩
  · rintro ⟨⟨total, denotes⟩, rfl⟩
    exact stopsAt_exponentValue denotes

/-! Signs and exponents -/

theorem sign_splitSign (text : List Char) :
    ∃ sign, Sign sign (splitSign text).1 ∧ text = sign ++ (splitSign text).2 := by
  unfold splitSign
  split
  · exact ⟨_, .minus, rfl⟩
  · exact ⟨_, .plus, rfl⟩
  · exact ⟨_, .none, rfl⟩

theorem splitSign_append {sign : List Char} {negative : Bool} (signed : Sign sign negative)
    (plain : splitSign text = (false, text)) : splitSign (sign ++ text) = (negative, text) := by
  cases signed with
  | none => exact plain
  | plus => rfl
  | minus => rfl

theorem splitSign_of_digits (all : ∀ c ∈ digits, Text.isDigit c = true) :
    splitSign digits = (false, digits) := by
  unfold splitSign
  split
  · exact absurd (all '-' List.mem_cons_self) (by decide)
  · exact absurd (all '+' List.mem_cons_self) (by decide)
  · rfl

theorem exponent_eq_some_iff : exponent? tail = some power ↔ Exponent StopsAt tail power := by
  constructor
  · intro read
    cases tail with
    | nil =>
      cases read
      exact .none
    | cons mark rest =>
      rw [exponent?] at read
      split at read
      · rename_i marks
        obtain ⟨sign, signed, front⟩ := sign_splitSign rest
        generalize splitSign rest = parts at *
        obtain ⟨negative, digits⟩ := parts
        simp only [Option.ite_none_left_eq_some, Option.some_inj, Bool.or_eq_true, not_or,
          Bool.not_eq_true', List.isEmpty_iff, Bool.not_eq_false, List.all_eq_true] at read
        obtain ⟨⟨nonempty, all⟩, rfl⟩ := read
        subst front
        exact .power marks signed (stopsAt_exponentValue (numeral_ten_iff.2 ⟨nonempty, all, rfl⟩))
      · cases read
  · rintro (_ | @⟨mark, sign, digits, negative, number, marks, signed, stops⟩)
    · rfl
    · obtain ⟨⟨total, denotes⟩, rfl⟩ := stopsAt_iff.1 stops
      obtain ⟨nonempty, all, _⟩ := numeral_ten_iff.1 denotes
      rw [exponent?, if_pos marks, splitSign_append signed (splitSign_of_digits all)]
      simpa [nonempty] using all

/-! Literals -/

theorem value_point (coefficient places : Nat) (power : Int) :
    Decimal.value ⟨coefficient, power - places⟩ = coefficient / 10 ^ places * 10 ^ power := by
  rw [Decimal.value, zpow_sub₀ (by norm_num), zpow_natCast]
  ring

theorem denotes_mantissa (denotes : Mantissa mantissa value)
    (exponent : Exponent StopsAt tail power) : Denotes (mantissa ++ tail) (value * 10 ^ power) := by
  have read := exponent_eq_some_iff.2 exponent
  cases denotes with
  | whole digits =>
    obtain ⟨nonempty, all, rfl⟩ := numeral_ten_iff.1 digits
    exact denotes_whole all nonempty read
  | point digits =>
    obtain ⟨nonempty, all, rfl⟩ := numeral_ten_iff.1 digits
    obtain ⟨front, behind⟩ := List.forall_mem_append.1 all
    refine ⟨_, ?_, value_point _ _ _⟩
    rw [List.append_assoc]
    exact decimal_point front behind nonempty read

theorem exists_mantissa_of_decimal {number : Decimal} (read : decimal? text = some number) :
    ∃ mantissa worth tail power, Mantissa mantissa worth ∧ Exponent StopsAt tail power ∧
      text = mantissa ++ tail ∧ number.value = worth * 10 ^ power := by
  have run : ∀ row : List Char, (∀ c ∈ row.takeWhile Text.isDigit, Text.isDigit c = true) ∧
      row = row.takeWhile Text.isDigit ++ row.dropWhile Text.isDigit :=
    fun row => ⟨fun c member => List.all_eq_true.1 List.all_takeWhile c member,
      List.takeWhile_append_dropWhile.symm⟩
  obtain ⟨front, split⟩ := run text
  rw [decimal?] at read
  generalize text.takeWhile Text.isDigit = whole at *
  generalize text.dropWhile Text.isDigit = afterWhole at *
  simp only at read
  split at read
  · rename_i more
    obtain ⟨behind, split'⟩ := run more
    generalize more.takeWhile Text.isDigit = fraction at *
    generalize more.dropWhile Text.isDigit = tail at *
    rw [Option.ite_none_left_eq_some, Option.map_eq_some_iff] at read
    obtain ⟨nonempty, power, exponent, rfl⟩ := read
    have digits : Numeral 10 (whole ++ fraction) (Text.decimalValue 0 (whole ++ fraction)) := by
      refine numeral_ten_iff.2 ⟨?_, List.forall_mem_append.2 ⟨front, behind⟩, rfl⟩
      simpa [Decidable.not_and_iff_or_not] using nonempty
    refine ⟨_, _, tail, power, .point digits, exponent_eq_some_iff.1 exponent, ?_, value_point _ _ _⟩
    rw [split, split', List.append_assoc]
    rfl
  · rw [Option.ite_none_left_eq_some, Option.map_eq_some_iff] at read
    obtain ⟨nonempty, power, exponent, rfl⟩ := read
    have digits : Numeral 10 whole (Text.decimalValue 0 whole) :=
      numeral_ten_iff.2 ⟨by simpa using nonempty, front, rfl⟩
    refine ⟨_, _, afterWhole, power, .whole digits, exponent_eq_some_iff.1 exponent, split, ?_⟩
    simp [Decimal.value]

theorem signedDecimal_eq_some_iff {x : Double} :
    signedDecimal? text = some x ↔ Literal StopsAt text x := by
  constructor
  · intro read
    obtain ⟨sign, signed, front⟩ := sign_splitSign text
    rw [signedDecimal?] at read
    generalize splitSign text = parts at *
    obtain ⟨negative, digits⟩ := parts
    obtain ⟨number, known, rfl⟩ := Option.map_eq_some_iff.1 read
    obtain ⟨mantissa, worth, tail, power, denotes, exponent, rfl, same⟩ :=
      exists_mantissa_of_decimal known
    subst front
    exact .decimal signed denotes exponent (same ▸ Decimal.rounds_iff.2 rfl)
  · rintro (@⟨sign, negative, mantissa, worth, tail, power, _, signed, denotes, exponent, rounds⟩)
    obtain ⟨number, read, same⟩ := denotes_mantissa denotes exponent
    rw [← same, Decimal.rounds_iff] at rounds
    rw [signedDecimal?, splitSign_append signed (splitSign_of_decimal read)]
    simp [read, rounds]

/-! Exponents that make a number zero or infinite -/

theorem Mantissa.exists_fraction (denotes : Mantissa mantissa value) :
    ∃ coefficient places : Nat, coefficient < 10 ^ mantissa.length ∧ places ≤ mantissa.length ∧
      value = coefficient / 10 ^ places := by
  cases denotes with
  | whole digits => exact ⟨_, 0, numeral_lt_pow digits, Nat.zero_le _, by simp⟩
  | @point whole fraction number digits =>
    refine ⟨number, fraction.length, Nat.lt_of_lt_of_le (numeral_lt_pow digits) ?_, ?_, rfl⟩
    · apply Nat.pow_le_pow_right (by decide)
      simp only [List.length_append, List.length_cons]
      omega
    · simp only [List.length_append, List.length_cons]
      omega

theorem Mantissa.nonneg (denotes : Mantissa mantissa value) (power : Int) :
    0 ≤ value * 10 ^ power := by
  obtain ⟨coefficient, places, _, _, rfl⟩ := denotes.exists_fraction
  positivity

theorem Mantissa.le_value (denotes : Mantissa mantissa value) (nonzero : value ≠ 0) :
    10 ^ (-(mantissa.length : Int)) ≤ value := by
  obtain ⟨coefficient, places, _, within, rfl⟩ := denotes.exists_fraction
  have one : (1 : Rat) ≤ coefficient := by
    refine Nat.one_le_cast.2 (Nat.pos_of_ne_zero ?_)
    rintro rfl
    exact nonzero (by rw [Nat.cast_zero, zero_div])
  rw [zpow_neg, zpow_natCast, inv_eq_one_div]
  exact div_le_div₀ (by positivity) one (by positivity) (pow_le_pow_right₀ (by norm_num) within)

theorem Mantissa.value_le (denotes : Mantissa mantissa value) :
    value ≤ 10 ^ (mantissa.length : Int) := by
  obtain ⟨coefficient, places, below, _, rfl⟩ := denotes.exists_fraction
  rw [zpow_natCast]
  calc (coefficient : Rat) / 10 ^ places ≤ coefficient :=
        div_le_self (by positivity) (one_le_pow₀ (by norm_num))
    _ ≤ 10 ^ mantissa.length := by exact_mod_cast Nat.le_of_lt below

theorem two_pow_le_ten_pow {power : Nat} (small : power ≤ 3 * 536) : (2 : Rat) ^ power ≤ 10 ^ 536 :=
  calc (2 : Rat) ^ power ≤ 2 ^ (3 * 536) := pow_le_pow_right₀ (by norm_num) small
    _ = (2 ^ 3) ^ 536 := pow_mul 2 3 536
    _ ≤ 10 ^ 536 := pow_le_pow_left₀ (by norm_num) (by norm_num) _

theorem Mantissa.rounds_infinite (denotes : Mantissa mantissa value) (nonzero : value ≠ 0)
    (short : mantissa.length ≤ 65000) (large : 2 ^ 16 ≤ power) (negative : Bool) :
    Rounds negative (value * 10 ^ power) (.infinite negative) := by
  apply Number.rounds_infinite
  calc (2 : Rat) ^ 1024 ≤ 10 ^ 536 := two_pow_le_ten_pow (by decide)
    _ = 10 ^ ((536 : Nat) : Int) := (zpow_natCast _ _).symm
    _ ≤ 10 ^ (-(mantissa.length : Int) + power) :=
      zpow_le_zpow_right₀ (by norm_num) (by omega)
    _ = 10 ^ (-(mantissa.length : Int)) * 10 ^ power := zpow_add₀ (by norm_num) _ _
    _ ≤ value * 10 ^ power :=
      mul_le_mul_of_nonneg_right (denotes.le_value nonzero) (by positivity)

theorem Mantissa.rounds_zero (denotes : Mantissa mantissa value)
    (short : mantissa.length ≤ 65000) (small : power ≤ -2 ^ 16) (negative : Bool) :
    Rounds negative (value * 10 ^ power) (.zero negative) := by
  have tiny : value * 10 ^ power ≤ (10 ^ 536)⁻¹ :=
    calc value * 10 ^ power ≤ 10 ^ (mantissa.length : Int) * 10 ^ power :=
          mul_le_mul_of_nonneg_right denotes.value_le (by positivity)
      _ = 10 ^ ((mantissa.length : Int) + power) := (zpow_add₀ (by norm_num) _ _).symm
      _ ≤ 10 ^ (-(536 : Nat) : Int) := zpow_le_zpow_right₀ (by norm_num) (by omega)
      _ = (10 ^ 536)⁻¹ := by rw [zpow_neg, zpow_natCast]
  refine Number.rounds_zero negative (denotes.nonneg power) ?_
  have units : (2 : Rat) * (2 ^ unitPower : Nat) ≤ 10 ^ 536 :=
    calc (2 : Rat) * (2 ^ unitPower : Nat) = 2 ^ (unitPower + 1) := by
          rw [Nat.cast_pow, pow_succ']
          rfl
      _ ≤ 10 ^ 536 := two_pow_le_ten_pow (by decide)
  have positive : (0 : Rat) < 10 ^ 536 := by positivity
  generalize (2 ^ unitPower : Nat) = unit at *
  generalize (10 : Rat) ^ 536 = bound at *
  calc 2 * (value * 10 ^ power) * unit = value * 10 ^ power * (2 * unit) := by ring
    _ ≤ bound⁻¹ * bound := mul_le_mul tiny units (by positivity) (by positivity)
    _ = 1 := inv_mul_cancel₀ (ne_of_gt positive)

/-- Behind few digits the exponent may be cut, and the double stays the same. -/
theorem Mantissa.rounds_stopped (denotes : Mantissa mantissa value) (short : mantissa.length ≤ 65000)
    {stop : Int} (far : 2 ^ 16 ≤ power ∧ 2 ^ 16 ≤ stop ∨ power ≤ -2 ^ 16 ∧ stop ≤ -2 ^ 16)
    {negative : Bool} {x : Double} (rounds : Rounds negative (value * 10 ^ power) x) :
    Rounds negative (value * 10 ^ stop) x := by
  by_cases zero : value = 0
  · rwa [zero, zero_mul] at rounds ⊢
  rcases far with ⟨large, large'⟩ | ⟨small, small'⟩
  · rw [rounds.unique (denotes.rounds_infinite zero short large negative)]
    exact denotes.rounds_infinite zero short large' negative
  · rw [rounds.unique (denotes.rounds_zero short small negative)]
    exact denotes.rounds_zero short small' negative

/-- An exponent is read as itself, or both it and what it is read as are far off. -/
theorem Exponent.exists_stop (exponent : Exponent (Numeral 10) tail power) :
    ∃ stop, Exponent StopsAt tail stop ∧
      (stop = power ∨ 2 ^ 16 ≤ power ∧ 2 ^ 16 ≤ stop ∨ power ≤ -2 ^ 16 ∧ stop ≤ -2 ^ 16) := by
  cases exponent with
  | none => exact ⟨0, .none, .inl rfl⟩
  | @power mark sign digits negative number marks signed denotes =>
    rcases Nat.lt_or_ge number (2 ^ 16) with small | large
    · exact ⟨_, .power marks signed (.whole denotes small), .inl rfl⟩
    · have stops := stopsAt_exponentValue denotes
      have reached : 2 ^ 16 ≤ exponentValue digits := by
        generalize exponentValue digits = stop at stops
        cases stops with
        | whole denotes' small =>
          have same := (numeral_ten_iff.1 denotes).2.2.symm.trans (numeral_ten_iff.1 denotes').2.2
          omega
        | cut _ _ _ reached => exact reached
      refine ⟨_, .power marks signed stops, .inr ?_⟩
      cases negative with
      | false => exact .inl ⟨by simp; omega, by simp; omega⟩
      | true => exact .inr ⟨by simp; omega, by simp; omega⟩

theorem Literal.stops_or_overruns {x : Double} (literal : Literal (Numeral 10) text x) :
    Literal StopsAt text x ∨ ∃ y, Overrun text y := by
  obtain @⟨sign, negative, mantissa, value, tail, power, _, signed, denotes, exponent, rounds⟩ :=
    literal
  obtain ⟨stop, stopped, rfl | far⟩ := exponent.exists_stop
  · exact .inl (.decimal signed denotes stopped rounds)
  rcases Nat.lt_or_ge 65000 mantissa.length with long | short
  · obtain ⟨y, cut⟩ := exists_rounds negative (denotes.nonneg stop)
    exact .inr ⟨y, .literal signed denotes long exponent (by omega) stopped cut⟩
  · exact .inl (.decimal signed denotes stopped (denotes.rounds_stopped short far rounds))

theorem Literal.exists_of_stops {x : Double} (literal : Literal StopsAt text x) :
    ∃ y, Literal (Numeral 10) text y := by
  obtain @⟨sign, negative, mantissa, value, tail, stop, _, signed, denotes, exponent, _⟩ := literal
  obtain ⟨power, full⟩ : ∃ power, Exponent (Numeral 10) tail power := by
    cases exponent with
    | none => exact ⟨0, .none⟩
    | power marks signed stops =>
      obtain ⟨⟨total, denotes⟩, _⟩ := stopsAt_iff.1 stops
      exact ⟨_, .power marks signed denotes⟩
  obtain ⟨y, rounds⟩ := exists_rounds negative (denotes.nonneg power)
  exact ⟨y, .decimal signed denotes full rounds⟩

theorem Overrun.stops {x : Double} (overrun : Overrun text x) : Literal StopsAt text x := by
  cases overrun with
  | literal signed denotes _ _ _ stopped rounds => exact .decimal signed denotes stopped rounds

end Phrasebook.Number
