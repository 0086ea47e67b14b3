import Phrasebook.Text.Digits

/-!
Numerals that are written and read again.
-/

namespace Phrasebook.Text

theorem isDigit_iff (c : Char) : isDigit c = true ↔ 48 ≤ c.toNat ∧ c.toNat ≤ 57 := by
  simp only [isDigit, Bool.and_eq_true, decide_eq_true_eq]
  exact Iff.rfl

theorem isDigit_of_mem_decimal {c : Char} {value : Nat} (member : c ∈ decimal value) :
    isDigit c = true := by
  have digit := Nat.isDigit_of_mem_toDigits (by decide) (Nat.le_refl 10) member
  simp only [Char.isDigit, Bool.and_eq_true, decide_eq_true_eq] at digit
  exact (isDigit_iff c).2 digit

theorem exists_decimal_eq_cons (value : Nat) :
    ∃ c rest, decimal value = c :: rest ∧ isDigit c = true := by
  cases written : decimal value with
  | nil => exact absurd written Nat.toDigits_ne_nil
  | cons c rest => exact ⟨c, rest, rfl, isDigit_of_mem_decimal (written ▸ List.mem_cons_self)⟩

theorem decimal_ne_nil (value : Nat) : decimal value ≠ [] :=
  Nat.toDigits_ne_nil

theorem exists_signedDecimal_eq_cons (value : Int) :
    ∃ c rest, signedDecimal value = c :: rest ∧ (c = '-' ∨ isDigit c = true) := by
  unfold signedDecimal
  split
  · exact ⟨'-', _, rfl, .inl rfl⟩
  · obtain ⟨c, rest, written, digit⟩ := exists_decimal_eq_cons value.natAbs
    exact ⟨c, rest, written, .inr digit⟩

theorem decimalValue_decimal (value : Nat) : decimalValue 0 (decimal value) = value :=
  Nat.ofDigitChars_ten_toDigits

theorem decimal_injective {first second : Nat} (same : decimal first = decimal second) :
    first = second := by
  rw [← decimalValue_decimal first, same, decimalValue_decimal]

theorem decimal_ne_zero_cons {value : Nat} (positive : 0 < value) (rest : List Char) :
    decimal value ≠ '0' :: rest := by
  induction value using Nat.strongRecOn generalizing rest with
  | _ value ih =>
    by_cases small : value < 10
    · have digits : ∀ digit, digit < 10 → 0 < digit → Nat.digitChar digit ≠ '0' := by decide
      rw [decimal, Nat.toDigits_of_lt_base small]
      intro same
      exact digits value small positive (List.cons.inj same).1
    · rw [decimal, Nat.toDigits_of_base_le (by decide) (Nat.le_of_not_lt small)]
      intro same
      have smaller := ih (value / 10) (by omega) (by omega)
      cases upper : Nat.toDigits 10 (value / 10) with
      | nil => exact Nat.toDigits_ne_nil upper
      | cons c tail =>
        rw [upper, List.cons_append] at same
        exact smaller tail (upper.trans (congrArg (· :: tail) (List.cons.inj same).1))

theorem le_decimalValue (start : Nat) (digits : List Char) : start ≤ decimalValue start digits := by
  induction digits generalizing start with
  | nil => exact Nat.le_refl start
  | cons c digits ih =>
    have later := ih (10 * start + (c.toNat - '0'.toNat))
    exact Nat.le_trans (by omega) later

/-- What was read first is worth its place in front of the digits. -/
theorem pow_length_mul_le_decimalValue (start : Nat) (digits : List Char) :
    10 ^ digits.length * start ≤ decimalValue start digits := by
  induction digits generalizing start with
  | nil => rw [List.length_nil, Nat.pow_zero, Nat.one_mul]; exact Nat.le_refl start
  | cons c digits ih =>
    calc 10 ^ (digits.length + 1) * start = 10 ^ digits.length * (10 * start) := by
          rw [Nat.pow_succ, Nat.mul_assoc]
      _ ≤ 10 ^ digits.length * (10 * start + (c.toNat - '0'.toNat)) :=
          Nat.mul_le_mul_left _ (Nat.le_add_right _ _)
      _ ≤ decimalValue start (c :: digits) := ih _

theorem decimalValue_append (start : Nat) (first second : List Char) :
    decimalValue start (first ++ second) = decimalValue (decimalValue start first) second :=
  List.foldl_append

theorem decimalValue_zeros (start count : Nat) :
    decimalValue start (List.replicate count '0') = 10 ^ count * start :=
  Nat.ofDigitChars_replicate_zero

theorem decimalValue_zeros_append (count : Nat) (digits : List Char) :
    decimalValue 0 (List.replicate count '0' ++ digits) = decimalValue 0 digits := by
  rw [decimalValue_append, decimalValue_zeros, Nat.mul_zero]

theorem isDigit_of_mem_zeros (count : Nat) : ∀ c ∈ List.replicate count '0', isDigit c = true := by
  intro c member
  rw [List.eq_of_mem_replicate member]
  decide

theorem lt_pow_length_decimal (value : Nat) : value < 10 ^ (decimal value).length :=
  (Nat.length_toDigits_le_iff (by decide) Nat.length_toDigits_pos).1 (Nat.le_refl _)

theorem pow_length_decimal_le {value : Nat} (positive : 0 < value) :
    10 ^ ((decimal value).length - 1) ≤ value := by
  rcases Nat.eq_zero_or_pos ((decimal value).length - 1) with short | long
  · rw [short]
    exact positive
  · refine Nat.le_of_not_lt fun below => ?_
    have fewer := (Nat.length_toDigits_le_iff (by decide) long).2 below
    have digits : (decimal value).length ≤ (decimal value).length - 1 := fewer
    omega

theorem digitValue_of_isDigit {c : Char} (digit : isDigit c = true) :
    digitValue? 10 c = some (c.toNat - '0'.toNat) := by
  have bounds := (isDigit_iff c).1 digit
  have below : c.toNat - '0'.toNat < 10 := by
    show c.toNat - 48 < 10
    omega
  simp only [digitValue?, digit, if_true, Option.filter_some, decide_eq_true_eq, below]

theorem numeral_of_digits {digits : List Char} (nonempty : digits ≠ [])
    (all : ∀ c ∈ digits, isDigit c = true) :
    numeral? 10 digits = some (decimalValue 0 digits) := by
  have fold : ∀ start, digits.foldlM (fun value c => (digitValue? 10 c).map (10 * value + ·)) start =
      some (decimalValue start digits) := by
    clear nonempty
    induction digits with
    | nil => exact fun start => rfl
    | cons c digits ih =>
      intro start
      rw [List.foldlM_cons, digitValue_of_isDigit (all c List.mem_cons_self)]
      exact ih (fun d member => all d (List.mem_cons_of_mem _ member)) _
  rw [numeral?, if_neg (by simpa using nonempty)]
  exact fold 0

theorem numeral_decimal (value : Nat) : numeral? 10 (decimal value) = some value := by
  rw [numeral_of_digits (decimal_ne_nil value) fun c => isDigit_of_mem_decimal,
    decimalValue_decimal]

def Without (kind : Char → Bool) (text : List Char) : Prop :=
  ∀ c ∈ text.head?, kind c = false

theorem takeWhile_append {kind : Char → Bool} {run rest : List Char}
    (all : ∀ c ∈ run, kind c = true) (stops : Without kind rest) :
    (run ++ rest).takeWhile kind = run := by
  rw [List.takeWhile_append_of_pos all]
  cases rest with
  | nil => simp
  | cons c rest => simp [stops c rfl]

theorem dropWhile_append {kind : Char → Bool} {run rest : List Char}
    (all : ∀ c ∈ run, kind c = true) (stops : Without kind rest) :
    (run ++ rest).dropWhile kind = rest := by
  rw [List.dropWhile_append_of_pos all]
  cases rest with
  | nil => rfl
  | cons c rest => simp [stops c rfl]

end Phrasebook.Text
