import Mathlib.Data.List.Induction
import Mathlib.Data.List.TakeWhile
import Phrasebook.Proofs.Po.Grammar
import Phrasebook.Proofs.Text.Digits

/-!
An escape takes the longest row of digits that its limit allows, and stands for what the grammar says.
-/

namespace Phrasebook.Po.Line

theorem toNat_digitChar : ∀ value < 16,
    (Nat.digitChar value).toNat = (if value < 10 then 48 + value else 87 + value) ∧
    (Nat.digitChar value).toUpper.toNat = (if value < 10 then 48 + value else 55 + value) := by
  decide

theorem isDigitFor_iff {radix value : Nat} (small : radix ≤ 16) {c : Char} :
    IsDigitFor radix value c ↔ value < radix ∧
      (value < 10 ∧ c.toNat = 48 + value ∨ 10 ≤ value ∧
        (c.toNat = 87 + value ∨ c.toNat = 55 + value)) := by
  refine and_congr_right fun below => ?_
  obtain ⟨lower, upper⟩ := toNat_digitChar value (by omega)
  rw [← Char.toNat_inj, ← Char.toNat_inj, lower, upper]
  split <;> omega

theorem digitValue_eq_some_iff {radix value : Nat} (small : radix ≤ 16) {c : Char} :
    Text.digitValue? radix c = some value ↔ IsDigitFor radix value c := by
  have lower : ('a' ≤ c ∧ c ≤ 'z') ↔ 97 ≤ c.toNat ∧ c.toNat ≤ 122 := Iff.rfl
  have upper : ('A' ≤ c ∧ c ≤ 'Z') ↔ 65 ≤ c.toNat ∧ c.toNat ≤ 90 := Iff.rfl
  have codes : '0'.toNat = 48 ∧ 'a'.toNat = 97 ∧ 'A'.toNat = 65 := by decide
  simp only [Text.digitValue?, Text.isDigit_iff, Bool.and_eq_true, decide_eq_true_eq, lower, upper,
    isDigitFor_iff small, Option.filter_eq_some_iff, codes]
  repeat' split
  all_goals simp only [Option.some.injEq, reduceCtorEq, false_and, false_iff]; omega

theorem numeral_concat (radix : Nat) (text : List Char) (c : Char) :
    Text.numeral? radix (text ++ [c]) =
      (Text.digitValue? radix c).bind fun value =>
        if text = [] then some value
        else (Text.numeral? radix text).map (radix * · + value) := by
  simp only [Text.numeral?, List.isEmpty_iff, List.append_eq_nil_iff, List.cons_ne_self, and_false,
    if_false, List.foldlM_append, List.foldlM_cons, List.foldlM_nil]
  by_cases empty : text = []
  · subst empty
    cases Text.digitValue? radix c <;> simp
  · rw [if_neg empty]
    generalize (text.foldlM (fun value c => (Text.digitValue? radix c).map (radix * value + ·)) 0 :
      Option Nat) = front
    cases front <;> cases Text.digitValue? radix c <;> simp [empty]

theorem numeral_ne_nil {radix number : Nat} {text : List Char} (denotes : Numeral radix text number) :
    text ≠ [] := by
  cases denotes with
  | digit => exact List.cons_ne_nil _ _
  | append => exact List.append_ne_nil_of_right_ne_nil _ (List.cons_ne_nil _ _)

theorem numeral_eq_some_iff {radix number : Nat} (small : radix ≤ 16) {text : List Char} :
    Text.numeral? radix text = some number ↔ Numeral radix text number := by
  constructor
  · intro read
    induction text using List.reverseRecOn generalizing number with
    | nil => cases read
    | append_singleton text c ih =>
      rw [numeral_concat, Option.bind_eq_some_iff] at read
      obtain ⟨value, digit, read⟩ := read
      have digit := (digitValue_eq_some_iff small).1 digit
      split at read
      · rename_i empty
        subst empty
        cases read
        exact .digit digit
      · obtain ⟨start, before, rfl⟩ := Option.map_eq_some_iff.1 read
        exact .append (ih before) digit
  · intro denotes
    induction denotes with
    | digit digit =>
      have value := (digitValue_eq_some_iff small).2 digit
      simp [Text.numeral?, value]
    | @append text number c value before digit ih =>
      rw [numeral_concat, (digitValue_eq_some_iff small).2 digit, Option.bind_some,
        if_neg (numeral_ne_nil before), ih, Option.map_some]

theorem digit_of_mem_numeral {radix number : Nat} {text : List Char}
    (denotes : Numeral radix text number) : ∀ c ∈ text, ∃ value, IsDigitFor radix value c := by
  induction denotes with
  | digit digit => exact List.forall_mem_singleton.2 ⟨_, digit⟩
  | append _ digit ih => exact List.forall_mem_append.2 ⟨ih, List.forall_mem_singleton.2 ⟨_, digit⟩⟩

theorem isDigit_of_numeral {number : Nat} {text : List Char} (denotes : Numeral 10 text number) :
    ∀ c ∈ text, Text.isDigit c = true := by
  intro c member
  obtain ⟨value, digit⟩ := digit_of_mem_numeral denotes c member
  rw [isDigitFor_iff (by decide)] at digit
  rw [Text.isDigit_iff]
  omega

theorem exists_numeral {radix : Nat} {text : List Char} (nonempty : text ≠ [])
    (digits : ∀ c ∈ text, ∃ value, IsDigitFor radix value c) :
    ∃ number, Numeral radix text number := by
  induction text using List.reverseRecOn with
  | nil => exact absurd rfl nonempty
  | append_singleton text c ih =>
    obtain ⟨front, last⟩ := List.forall_mem_append.1 digits
    obtain ⟨value, digit⟩ := last c (List.mem_singleton_self c)
    by_cases empty : text = []
    · subst empty
      exact ⟨value, .digit digit⟩
    · obtain ⟨number, denotes⟩ := ih empty front
      exact ⟨_, .append denotes digit⟩

theorem isSome_digitValue_iff {radix : Nat} (small : radix ≤ 16) {c : Char} :
    (Text.digitValue? radix c).isSome = true ↔ ∃ value, IsDigitFor radix value c := by
  simp only [Option.isSome_iff_exists, digitValue_eq_some_iff small]

theorem longest_of_leadingDigits {radix limit : Nat} (small : radix ≤ 16) {text : List Char}
    (nonempty : leadingDigits radix limit text ≠ []) :
    ∃ rest, text = leadingDigits radix limit text ++ rest ∧
      LongestNumeral radix limit (leadingDigits radix limit text) rest
        (digitsValue radix (leadingDigits radix limit text)) := by
  obtain ⟨digit, isDigit⟩ : ∃ digit : Char → Bool,
      digit = fun c => (Text.digitValue? radix c).isSome := ⟨_, rfl⟩
  have leading : leadingDigits radix limit text = (text.takeWhile digit).take limit := by
    rw [isDigit, leadingDigits]
  have within : leadingDigits radix limit text <+: text.takeWhile digit :=
    leading ▸ List.take_prefix _ _
  have all : ∀ c ∈ leadingDigits radix limit text, ∃ value, IsDigitFor radix value c := by
    intro c member
    have kept := List.mem_takeWhile_imp (within.subset member)
    rw [isDigit] at kept
    exact (isSome_digitValue_iff small).1 kept
  obtain ⟨number, denotes⟩ := exists_numeral nonempty all
  have value : digitsValue radix (leadingDigits radix limit text) = number := by
    simp [digitsValue, (numeral_eq_some_iff small).2 denotes]
  refine ⟨(text.takeWhile digit).drop limit ++ text.dropWhile digit, ?_, ?_, ?_, ?_⟩
  · rw [← List.append_assoc, leading, List.take_append_drop, List.takeWhile_append_dropWhile]
  · rwa [value]
  · exact leading ▸ List.length_take_le _ _
  · intro short c head value own
    have whole : (text.takeWhile digit).length ≤ limit := by
      rw [leading, List.length_take] at short
      omega
    rw [List.drop_of_length_le whole, List.nil_append] at head
    have stops := List.head?_dropWhile_not digit text
    rw [Option.mem_def.1 head] at stops
    have counts : digit c = true := by
      rw [isDigit]
      exact (isSome_digitValue_iff small).2 ⟨value, own⟩
    exact Bool.false_ne_true (stops.symm.trans counts)

theorem leadingDigits_of_longest {radix limit number : Nat} (small : radix ≤ 16)
    {digits rest : List Char} (longest : LongestNumeral radix limit digits rest number) :
    leadingDigits radix limit (digits ++ rest) = digits ∧ digits ≠ [] ∧
      digitsValue radix digits = number := by
  obtain ⟨denotes, within, longest⟩ := longest
  have all : ∀ c ∈ digits, (Text.digitValue? radix c).isSome = true := fun c member =>
    (isSome_digitValue_iff small).2 (digit_of_mem_numeral denotes c member)
  have read := (numeral_eq_some_iff small).2 denotes
  refine ⟨?_, ?_, by simp [digitsValue, read]⟩
  · rw [leadingDigits, List.takeWhile_append_of_pos all]
    by_cases full : digits.length < limit
    · have stops : rest.takeWhile (fun c => (Text.digitValue? radix c).isSome) = [] := by
        cases rest with
        | nil => rfl
        | cons c rest =>
          apply List.takeWhile_cons_of_neg
          rw [isSome_digitValue_iff small]
          intro digit
          obtain ⟨value, digit⟩ := digit
          exact longest full c rfl value digit
      rw [stops, List.append_nil, List.take_of_length_le within]
    · rw [List.take_append_of_le_length (by omega), List.take_of_length_le within]
  · intro empty
    subst empty
    cases read

theorem letterEscape_eq_some_iff {c meaning : Char} :
    letterEscape? c = some meaning ↔ (c, meaning) ∈ letterMeanings := by
  constructor
  · intro read
    unfold letterEscape? at read
    split at read <;> cases read <;> simp [letterMeanings]
  · intro listed
    have table : ∀ pair ∈ letterMeanings, letterEscape? pair.1 = some pair.2 := by decide
    exact table _ listed

theorem escapes_of_escape {text : List Char} {c : Char} {length : Nat}
    (read : escape? text = some (c, length)) :
    ∃ sign rest, text = sign ++ rest ∧ sign.length = length ∧ Escapes sign rest c := by
  cases text with
  | nil => cases read
  | cons first behind =>
    simp only [escape?, List.isEmpty_iff] at read
    split at read
    · rename_i hexadecimal
      subst hexadecimal
      split at read
      · cases read
      · rename_i nonempty
        obtain ⟨rest, whole, longest⟩ := longest_of_leadingDigits (by decide) nonempty
        cases read
        exact ⟨'x' :: _, rest, congrArg (_ :: ·) whole, rfl, .hexadecimal longest⟩
    · split at read
      · obtain ⟨meaning, letter, same⟩ := Option.map_eq_some_iff.1 read
        cases same
        exact ⟨[first], behind, rfl, rfl, .letter behind (letterEscape_eq_some_iff.1 letter)⟩
      · rename_i nonempty
        split at read
        · rename_i bounded
          obtain ⟨rest, whole, longest⟩ := longest_of_leadingDigits (by decide) nonempty
          cases read
          exact ⟨_, rest, whole, rfl, .octal longest bounded⟩
        · cases read

theorem escape_of_escapes {sign rest : List Char} {c : Char} (escapes : Escapes sign rest c) :
    escape? (sign ++ rest) = some (c, sign.length) := by
  cases escapes with
  | @hexadecimal digits rest code longest =>
    obtain ⟨leading, nonempty, value⟩ := leadingDigits_of_longest (by decide) longest
    simp [escape?, leading, nonempty, value]
  | @octal digits rest code longest bounded =>
    obtain ⟨leading, nonempty, value⟩ := leadingDigits_of_longest (by decide) longest
    obtain ⟨first, more, rfl⟩ := List.exists_cons_of_ne_nil nonempty
    have other : first ≠ 'x' := by
      rintro rfl
      obtain ⟨value, digit⟩ := digit_of_mem_numeral longest.denotes 'x' List.mem_cons_self
      rw [isDigitFor_iff (by decide)] at digit
      have code : 'x'.toNat = 120 := rfl
      omega
    rw [List.cons_append] at leading ⊢
    simp [escape?, other, leading, value, bounded]
  | @letter c meaning rest listed =>
    have apart : ∀ pair ∈ letterMeanings, pair.1 ≠ 'x' ∧ Text.digitValue? 8 pair.1 = none := by
      decide
    obtain ⟨other, undigit⟩ := apart _ listed
    have none : leadingDigits 8 3 (c :: rest) = [] := by
      simp [leadingDigits, show Text.digitValue? 8 c = none from undigit]
    simp [escape?, show c ≠ 'x' from other, none, letterEscape_eq_some_iff.2 listed]

end Phrasebook.Po.Line
