import Phrasebook.Json.Scalar
import Phrasebook.Proofs.Json.Layout

/-!
Numbers and strings that are written and read again.
-/

namespace Phrasebook.Json

/-- A text that does not go on with a number that ends in front of it. -/
def EndsNumber (rest : List Char) : Prop :=
  ∀ c ∈ rest.head?, Text.isDigit c = false ∧ c ≠ '.' ∧ c ≠ 'e' ∧ c ≠ 'E'

theorem foldl_takeWhole (start : Nat) (digits : List Char)
    (small : Text.decimalValue start digits < 2 ^ 64) :
    digits.foldl takeWhole ⟨start, 0⟩ = ⟨Text.decimalValue start digits, 0⟩ := by
  induction digits generalizing start with
  | nil => rfl
  | cons c digits ih =>
    have bound := Text.le_decimalValue (10 * start + (c.toNat - '0'.toNat)) digits
    have fits : 10 * start + (c.toNat - '0'.toNat) < 2 ^ 64 := Nat.lt_of_le_of_lt bound small
    have step : takeWhole ⟨start, 0⟩ c = ⟨10 * start + (c.toNat - '0'.toNat), 0⟩ := by
      simp only [takeWhole, true_and, if_pos fits]
    rw [List.foldl_cons, step]
    exact ih _ small

theorem readNumberTail_whole {negative : Bool} {value : Nat} {rest : List Char}
    (ends : EndsNumber rest) (signed : negative = true → 0 < value ∧ value ≤ 2 ^ 63) :
    readNumberTail negative ⟨value, 0⟩ rest =
      .ok (.integer (if negative then -(value : Int) else value), rest) := by
  unfold readNumberTail
  split
  · exact absurd rfl (ends '.' rfl).2.1
  · exact absurd rfl (ends 'e' rfl).2.2.1
  · exact absurd rfl (ends 'E' rfl).2.2.2
  · cases negative with
    | false => rfl
    | true =>
      obtain ⟨positive, small⟩ := signed rfl
      have inside : ¬(value = 0 ∨ 2 ^ 63 < value) := by omega
      exact if_neg inside

theorem readUnsigned_decimal (negative : Bool) (value : Nat) {rest : List Char}
    (ends : EndsNumber rest) (small : value < 2 ^ 64)
    (signed : negative = true → 0 < value ∧ value ≤ 2 ^ 63) :
    readUnsigned negative (Text.decimal value ++ rest) =
      .ok (.integer (if negative then -(value : Int) else value), rest) := by
  have stops : Text.Without Text.isDigit rest := fun c head => (ends c head).1
  have digits : ∀ c ∈ Text.decimal value, Text.isDigit c = true := fun _ =>
    Text.isDigit_of_mem_decimal
  by_cases positive : 0 < value
  · have taken := Text.takeWhile_append digits stops
    have left := Text.dropWhile_append digits stops
    have fold : (Text.decimal value).foldl takeWhole ⟨0, 0⟩ = ⟨value, 0⟩ := by
      rw [foldl_takeWhole 0 _ (by rwa [Text.decimalValue_decimal]), Text.decimalValue_decimal]
    obtain ⟨c, tail, written, digit⟩ := Text.exists_decimal_eq_cons value
    have leading : c ≠ '0' := by
      rintro rfl
      exact Text.decimal_ne_zero_cons positive tail written
    rw [written] at fold
    rw [written, List.cons_append] at taken left ⊢
    rw [readUnsigned, if_neg leading, if_pos digit, taken, left, fold]
    exact readNumberTail_whole ends signed
  · have zero : value = 0 := by omega
    subst zero
    have none : rest.head?.any Text.isDigit = false := by
      cases rest with
      | nil => rfl
      | cons c rest => exact stops c rfl
    show readUnsigned negative ('0' :: rest) = _
    rw [readUnsigned, if_pos rfl, none]
    exact readNumberTail_whole ends signed

/-- Whole numbers are read back if they fit a 64-bit word. -/
theorem readNumber_signedDecimal {value : Int} {rest : List Char} (ends : EndsNumber rest)
    (low : -(2 ^ 63) ≤ value) (high : value < 2 ^ 64) :
    readNumber (Text.signedDecimal value ++ rest) = .ok (.integer value, rest) := by
  by_cases negative : value < 0
  · have read := readUnsigned_decimal true value.natAbs ends (by omega) (fun _ => by omega)
    have same : -(value.natAbs : Int) = value := by omega
    rw [if_pos rfl, same] at read
    rw [Text.signedDecimal, if_pos negative]
    exact read
  · have read := readUnsigned_decimal false value.natAbs ends (by omega) (fun yes => by cases yes)
    have same : (value.natAbs : Int) = value := by omega
    rw [if_neg Bool.false_ne_true, same] at read
    rw [Text.signedDecimal, if_neg negative]
    unfold readNumber
    split
    · rename_i tail text
      obtain ⟨c, rest, written, digit⟩ := Text.exists_decimal_eq_cons value.natAbs
      rw [written, List.cons_append] at text
      rw [(List.cons.inj text).1] at digit
      exact absurd digit (by decide)
    · exact read

/-- After a backslash stands a text that is read as the character. None of the changes made to
a script touches it. -/
structure Escapes (c : Char) (text : List Char) : Prop where
  read : ∀ rest, readEscape (text ++ rest) = .ok (c, text.length)
  skeletal : ∀ d ∈ text, IsSkeletal d

inductive Spells : List Char → List Char → Prop
  | nil : Spells [] []
  | plain {c decoded text} :
      c ≠ '"' → c ≠ '\\' → 0x20 ≤ c.toNat → Spells decoded text → Spells (c :: decoded) (c :: text)
  | escape {c escaped decoded text} :
      Escapes c escaped → Spells decoded text →
      Spells (c :: decoded) ('\\' :: (escaped ++ text))

theorem readStringAfter_append (skipped rest : List Char) :
    readStringAfter skipped.length (skipped ++ rest) = readStringAfter 0 rest := by
  induction skipped with
  | nil => rfl
  | cons c skipped ih => exact ih

theorem readStringAfter_of_spells {decoded text : List Char} (spells : Spells decoded text)
    (rest : List Char) : readStringAfter 0 (text ++ '"' :: rest) = .ok (decoded, rest) := by
  induction spells with
  | nil => rfl
  | @plain c decoded text quote backslash visible _ ih =>
    have shown : ¬c.toNat < 0x20 := Nat.not_lt.2 visible
    rw [List.cons_append, readStringAfter, if_neg quote, if_neg backslash, if_neg shown, ih]
    rfl
  | @escape c escaped decoded text escapes _ ih =>
    rw [List.cons_append, List.append_assoc, readStringAfter, if_neg (by decide), if_pos rfl,
      escapes.read]
    simp only [readStringAfter_append, ih]
    rfl

theorem escapes_letter {letter c : Char} (known : letterEscape? letter = some c)
    (other : letter ≠ 'u') (skeletal : IsSkeletal letter) : Escapes c [letter] := by
  refine ⟨fun rest => ?_, fun d member => ?_⟩
  · rw [List.singleton_append, readEscape, if_neg other, known]
    rfl
  · rw [List.mem_singleton.1 member]
    exact skeletal

/-- Four hexadecimal digits stand for the character of their code, if it is no surrogate. -/
theorem escapes_code {a b c d : Char} {code : Nat} (first second third fourth : Nat)
    (digits : hexValue? a = some first ∧ hexValue? b = some second ∧ hexValue? c = some third ∧
      hexValue? d = some fourth)
    (value : ((first * 16 + second) * 16 + third) * 16 + fourth = code)
    (low : code < 0xd800 ∨ 0xdfff < code)
    (skeletal : IsSkeletal a ∧ IsSkeletal b ∧ IsSkeletal c ∧ IsSkeletal d) :
    Escapes (Char.ofNat code) ['u', a, b, c, d] := by
  refine ⟨fun rest => ?_, fun e member => ?_⟩
  · have second : ¬(0xdc00 ≤ code ∧ code ≤ 0xdfff) := by omega
    have first : ¬(0xd800 ≤ code ∧ code ≤ 0xdbff) := by omega
    simp only [List.cons_append, List.nil_append, readEscape, readFourHex, digits, if_true, value,
      bind, Except.bind, if_neg first, if_neg second]
    rfl
  · obtain ⟨keptA, keptB, keptC, keptD⟩ := skeletal
    simp only [List.mem_cons, List.not_mem_nil, or_false] at member
    rcases member with rfl | rfl | rfl | rfl | rfl
    · decide
    · exact keptA
    · exact keptB
    · exact keptC
    · exact keptD

theorem escapes_control {c : Char} (control : c.toNat < 0x20) :
    Escapes c ['u', '0', '0', hexDigit (c.toNat / 16), hexDigit c.toNat] := by
  have digits : ∀ code, code < 0x20 →
      (hexValue? (hexDigit (code / 16)) = some (code / 16) ∧
        hexValue? (hexDigit code) = some (code % 16)) ∧
      IsSkeletal (hexDigit (code / 16)) ∧ IsSkeletal (hexDigit code) := by decide
  obtain ⟨⟨upper, lower⟩, upperKept, lowerKept⟩ := digits c.toNat control
  have value : ((0 * 16 + 0) * 16 + c.toNat / 16) * 16 + c.toNat % 16 = c.toNat := by omega
  have zero : hexValue? '0' = some 0 := by decide
  have zeroKept : IsSkeletal '0' := by decide
  have escapes := escapes_code 0 0 (c.toNat / 16) (c.toNat % 16) ⟨zero, zero, upper, lower⟩ value
    (by omega) ⟨zeroKept, zeroKept, upperKept, lowerKept⟩
  rwa [Char.ofNat_toNat] at escapes

theorem spells_escapeChar (c : Char) {decoded text : List Char} (spells : Spells decoded text) :
    Spells (c :: decoded) (escapeChar c ++ text) := by
  unfold escapeChar
  split
  case isTrue quote =>
    subst quote
    exact .escape (escapes_letter rfl (by decide) (by decide)) spells
  split
  case isTrue backslash =>
    subst backslash
    exact .escape (escapes_letter rfl (by decide) (by decide)) spells
  split
  case isTrue backspace =>
    subst backspace
    exact .escape (escapes_letter rfl (by decide) (by decide)) spells
  split
  case isTrue formFeed =>
    subst formFeed
    exact .escape (escapes_letter rfl (by decide) (by decide)) spells
  split
  case isTrue lineFeed =>
    subst lineFeed
    exact .escape (escapes_letter rfl (by decide) (by decide)) spells
  split
  case isTrue carriageReturn =>
    subst carriageReturn
    exact .escape (escapes_letter rfl (by decide) (by decide)) spells
  split
  case isTrue tab =>
    subst tab
    exact .escape (escapes_letter rfl (by decide) (by decide)) spells
  split
  case isTrue control => exact .escape (escapes_control control) spells
  case isFalse quote backslash _ _ _ _ _ visible =>
    exact .plain quote backslash (Nat.le_of_not_lt visible) spells

theorem spells_flatMap_escapeChar (text : List Char) : Spells text (text.flatMap escapeChar) := by
  induction text with
  | nil => exact .nil
  | cons c text ih => exact spells_escapeChar c ih

end Phrasebook.Json
