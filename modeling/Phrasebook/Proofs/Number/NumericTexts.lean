import Phrasebook.Proofs.Number.Literals
import Phrasebook.Proofs.Number.RoundTrip

/-!
Texts as numbers, as scripts convert them and without regard to how that is done here. Conversion
agrees but for three kinds of text: digits of another radix that need more than 64 bits, such digits
behind a plus sign, and decimal literals whose exponent is compensated by a very long row of digits.
-/

namespace Phrasebook.Number

open Po (Numeral)

inductive RadixMark : List Char → Nat → Prop
  | hexadecimal {mark} : mark = 'x' ∨ mark = 'X' → RadixMark ['0', mark] 16
  | octal {mark} : mark = 'o' ∨ mark = 'O' → RadixMark ['0', mark] 8
  | binary {mark} : mark = 'b' ∨ mark = 'B' → RadixMark ['0', mark] 2

inductive Reads : List Char → Double → Prop
  | empty : Reads [] (.zero false)
  | infinity {sign negative} :
      Sign sign negative → Reads (sign ++ "Infinity".toList) (.infinite negative)
  | decimal {text x} : Literal (Numeral 10) text x → Reads text x
  | radix {start radix digits number x} :
      RadixMark start radix → Numeral radix digits number → Rounds false number x →
      Reads (start ++ digits) x

inductive ToNumber (text : List Char) : Double → Prop
  | reads {x} : Reads text x → ToNumber text x
  | other : (∀ x, ¬Reads text x) → ToNumber text .nan

inductive Deviates : List Char → Double → Prop
  | overlong {start radix digits number} :
      RadixMark start radix → Numeral radix digits number → 2 ^ 64 ≤ number →
      Deviates (start ++ digits) .nan
  | plus {start radix digits number x} :
      RadixMark start radix → Numeral radix digits number → number < 2 ^ 64 →
      Rounds false number x → Deviates (start ++ '+' :: digits) x
  | overrun {text x} : Overrun text x → Deviates text x

def IsScriptSpace (c : Char) : Prop :=
  c.toNat ∈ [0x09, 0x0a, 0x0b, 0x0c, 0x0d, 0x20, 0xa0, 0x1680, 0x2028, 0x2029, 0x202f, 0x205f,
    0x3000, 0xfeff] ∨ 0x2000 ≤ c.toNat ∧ c.toNat ≤ 0x200a

def infinities : List (List Char) :=
  ["Infinity".toList, "+Infinity".toList, "-Infinity".toList]

variable {text start digits : List Char} {radix bound number : Nat} {x : Double}

/-! Digits of another radix -/

theorem radixDigits_eq_some_iff :
    radixDigits? text = some (radix, digits) ↔
      ∃ start, RadixMark start radix ∧ text = start ++ digits := by
  constructor
  · intro read
    unfold radixDigits? at read
    split at read
    · cases read
      exact ⟨_, .hexadecimal (.inl rfl), rfl⟩
    · cases read
      exact ⟨_, .hexadecimal (.inr rfl), rfl⟩
    · cases read
      exact ⟨_, .octal (.inl rfl), rfl⟩
    · cases read
      exact ⟨_, .octal (.inr rfl), rfl⟩
    · cases read
      exact ⟨_, .binary (.inl rfl), rfl⟩
    · cases read
      exact ⟨_, .binary (.inr rfl), rfl⟩
    · cases read
  · rintro ⟨start, (marks | marks | marks), rfl⟩
    all_goals rcases marks with rfl | rfl <;> rfl

theorem RadixMark.small (marked : RadixMark start radix) : radix ≤ 16 := by
  cases marked <;> decide

theorem isBlank_of_mem_numeral (small : radix ≤ 16) (denotes : Numeral radix digits number) :
    ∀ c ∈ digits, Text.isBlank c = false := by
  intro c member
  obtain ⟨value, digit⟩ := Po.Line.digit_of_mem_numeral denotes c member
  rw [Po.Line.isDigitFor_iff small] at digit
  exact Text.isBlank_of_printed (by omega) (by omega)

theorem RadixMark.trim_append (marked : RadixMark start radix)
    (visible : ∀ c ∈ digits, Text.isBlank c = false) :
    Text.trim (start ++ digits) = start ++ digits := by
  refine Text.trim_visible (List.forall_mem_append.2 ⟨?_, visible⟩)
  rcases marked with marks | marks | marks
  all_goals
    rcases marks with rfl | rfl
    all_goals exact List.forall_mem_cons.2 ⟨by decide, List.forall_mem_singleton.2 (by decide)⟩

theorem not_numeral_plus (small : radix ≤ 16) : ¬Numeral radix ('+' :: digits) number := by
  intro denotes
  obtain ⟨value, digit⟩ := Po.Line.digit_of_mem_numeral denotes '+' List.mem_cons_self
  have code : '+'.toNat = 43 := rfl
  rw [Po.Line.isDigitFor_iff small] at digit
  omega

theorem unsigned_eq_some_iff (small : radix ≤ 16) :
    Text.unsigned? radix bound digits = some number ↔ number < bound ∧
      (Numeral radix digits number ∨ ∃ rest, digits = '+' :: rest ∧ Numeral radix rest number) := by
  simp only [Text.unsigned?, Option.filter_eq_some_iff, decide_eq_true_eq,
    Po.Line.numeral_eq_some_iff small]
  rw [and_comm]
  refine and_congr_right fun _ => ?_
  split
  · rename_i rest
    constructor
    · exact fun denotes => .inr ⟨rest, rfl, denotes⟩
    · rintro (denotes | ⟨_, ⟨⟩, denotes⟩)
      · exact absurd denotes (not_numeral_plus small)
      · exact denotes
  · rename_i unsigned
    constructor
    · exact .inl
    · rintro (denotes | ⟨rest, same, _⟩)
      · exact denotes
      · exact absurd same (unsigned rest)

theorem rounds_natCast : Rounds false (number : Rat) x ↔ x = .ofInt number := by
  have fraction : (number : Rat) = number / (1 : Nat) := by rw [Nat.cast_one, div_one]
  have whole : Double.ofInt number = .ofRatio false number 1 := by
    rw [Double.ofInt, Int.natAbs_natCast, decide_eq_false (Int.not_lt.2 (Int.natCast_nonneg number))]
  rw [fraction, rounds_iff Nat.one_pos, whole]

/-! What is read -/

theorem converted_eq_match (read : Option Nat) (convert : Int → Double) :
    (read.map fun number => convert number).getD .nan =
      match read with
      | some number => convert number
      | none => .nan := by
  cases read <;> rfl

theorem ofChars_of_finite (trimmed : Text.trim text = text) (empty : text ≠ [])
    (finite : text ∉ infinities) :
    ofChars text =
      match radixDigits? text with
      | some (radix, digits) =>
        match Text.unsigned? radix (2 ^ 64) digits with
        | some number => .ofInt number
        | none => .nan
      | none => (signedDecimal? text).getD .nan := by
  simp only [infinities, List.mem_cons, List.not_mem_nil, or_false, not_or] at finite
  simp only [ofChars, trimmed]
  rw [if_neg (by simpa using empty), if_neg (not_or.2 ⟨finite.1, finite.2.1⟩), if_neg finite.2.2]
  cases radixDigits? text with
  | none => rfl
  | some parts =>
    obtain ⟨radix, digits⟩ := parts
    simp only
    generalize Text.unsigned? radix (2 ^ 64) digits = read
    exact converted_eq_match read Double.ofInt

theorem ofChars_of_unsigned (trimmed : Text.trim (start ++ digits) = start ++ digits)
    (marked : RadixMark start radix) :
    ofChars (start ++ digits) =
      match Text.unsigned? radix (2 ^ 64) digits with
      | some number => .ofInt number
      | none => .nan := by
  have read : radixDigits? (start ++ digits) = some (radix, digits) :=
    radixDigits_eq_some_iff.2 ⟨start, marked, rfl⟩
  have nonempty : start ++ digits ≠ [] := by cases marked <;> exact List.cons_ne_nil _ _
  have finite : start ++ digits ∉ infinities := by cases marked <;> simp [infinities]
  rw [ofChars_of_finite trimmed nonempty finite, read]

theorem isNumeric_of_literal (literal : Literal StopsAt text x) : ∀ c ∈ text, IsNumeric c := by
  obtain ⟨number, known, _⟩ := Option.map_eq_some_iff.1 (signedDecimal_eq_some_iff.2 literal)
  exact isNumeric_of_splitSign (isNumeric_of_decimal known)

theorem ofChars_of_literal (literal : Literal StopsAt text x) : ofChars text = x := by
  have read := signedDecimal_eq_some_iff.2 literal
  have nonempty : text ≠ [] := by
    rintro rfl
    cases read
  rw [ofChars_of_isNumeric nonempty (isNumeric_of_literal literal), read, Option.getD_some]

theorem Reads.ofChars_eq (reads : Reads text x) : ofChars text = x ∨ ∃ y, Deviates text y := by
  cases reads with
  | empty => exact .inl rfl
  | infinity signed =>
    refine .inl ?_
    cases signed <;> rfl
  | decimal literal =>
    refine literal.stops_or_overruns.imp ofChars_of_literal ?_
    exact Exists.imp fun _ => .overrun
  | @radix start radix digits number _ marked denotes rounds =>
    rcases Nat.lt_or_ge number (2 ^ 64) with small | large
    · have read := (unsigned_eq_some_iff marked.small).2 ⟨small, .inl denotes⟩
      refine .inl ?_
      have visible := isBlank_of_mem_numeral marked.small denotes
      rw [ofChars_of_unsigned (marked.trim_append visible) marked, read, rounds_natCast.1 rounds]
    · exact .inr ⟨_, .overlong marked denotes large⟩

theorem Deviates.ofChars_eq (deviates : Deviates text x) : ofChars text = x := by
  cases deviates with
  | @overlong start radix digits number marked denotes large =>
    have none : Text.unsigned? radix (2 ^ 64) digits = none := by
      refine Option.eq_none_iff_forall_not_mem.2 fun value read => ?_
      obtain ⟨small, denotes' | ⟨rest, rfl, _⟩⟩ := (unsigned_eq_some_iff marked.small).1 read
      · have same := (Po.Line.numeral_eq_some_iff marked.small).2 denotes
        rw [(Po.Line.numeral_eq_some_iff marked.small).2 denotes', Option.some_inj] at same
        omega
      · exact not_numeral_plus marked.small denotes
    have visible := isBlank_of_mem_numeral marked.small denotes
    rw [ofChars_of_unsigned (marked.trim_append visible) marked, none]
  | @plus start radix digits number _ marked denotes small rounds =>
    have read := (@unsigned_eq_some_iff ('+' :: digits) _ _ _ marked.small).2
      ⟨small, .inr ⟨digits, rfl, denotes⟩⟩
    have visible : ∀ c ∈ '+' :: digits, Text.isBlank c = false :=
      List.forall_mem_cons.2 ⟨by decide, isBlank_of_mem_numeral marked.small denotes⟩
    rw [ofChars_of_unsigned (marked.trim_append visible) marked, read, rounds_natCast.1 rounds]
  | overrun overrun => exact ofChars_of_literal overrun.stops

theorem Reads.infinity_of_mem (member : text ∈ infinities) :
    ∃ negative, Reads text (.infinite negative) := by
  simp only [infinities, List.mem_cons, List.not_mem_nil, or_false] at member
  rcases member with rfl | rfl | rfl
  · exact ⟨_, .infinity .none⟩
  · exact ⟨_, .infinity .plus⟩
  · exact ⟨_, .infinity .minus⟩

theorem ofChars_eq_nan (trimmed : Text.trim text = text) (none : ∀ x, ¬Reads text x) :
    ofChars text = .nan ∨ ∃ y, Deviates text y := by
  cases marks : radixDigits? text with
  | none =>
    have empty : text ≠ [] := by
      rintro rfl
      exact none _ .empty
    have finite : text ∉ infinities := by
      intro member
      obtain ⟨negative, reads⟩ := Reads.infinity_of_mem member
      exact none _ reads
    rw [ofChars_of_finite trimmed empty finite, marks]
    cases read : signedDecimal? text with
    | none => exact .inl rfl
    | some x =>
      obtain ⟨y, literal⟩ := (signedDecimal_eq_some_iff.1 read).exists_of_stops
      exact absurd (.decimal literal) (none y)
  | some parts =>
    obtain ⟨radix, digits⟩ := parts
    obtain ⟨start, marked, rfl⟩ := radixDigits_eq_some_iff.1 marks
    rw [ofChars_of_unsigned trimmed marked]
    cases read : Text.unsigned? radix (2 ^ 64) digits with
    | none => exact .inl rfl
    | some number =>
      obtain ⟨small, denotes | ⟨rest, rfl, denotes⟩⟩ := (unsigned_eq_some_iff marked.small).1 read
      · exact absurd (.radix marked denotes (rounds_natCast.2 rfl)) (none _)
      · exact .inr ⟨_, .plus marked denotes small (rounds_natCast.2 rfl)⟩

theorem toNumber_iff (trimmed : Text.trim text = text) (regular : ∀ y, ¬Deviates text y) :
    ToNumber text x ↔ x = ofChars text := by
  have read : ∀ {y}, Reads text y → ofChars text = y :=
    fun reads => reads.ofChars_eq.resolve_right (not_exists.2 regular)
  have unread : (∀ y, ¬Reads text y) → ofChars text = .nan :=
    fun none => (ofChars_eq_nan trimmed none).resolve_right (not_exists.2 regular)
  constructor
  · rintro (reads | none)
    · exact (read reads).symm
    · exact (unread none).symm
  · intro same
    rw [same]
    by_cases some : ∃ y, Reads text y
    · obtain ⟨y, reads⟩ := some
      rw [read reads]
      exact .reads reads
    · rw [unread (not_exists.1 some)]
      exact .other (not_exists.1 some)

theorem Rounds.ne_nan {value : Rat} {negative : Bool} (rounds : Rounds negative value x) :
    x ≠ .nan := by
  rintro rfl
  cases rounds

theorem Reads.ne_nan (reads : Reads text x) : x ≠ .nan := by
  cases reads with
  | empty | infinity =>
    rintro ⟨⟩
  | decimal literal =>
    cases literal with
    | decimal _ _ _ rounds => exact rounds.ne_nan
  | radix _ _ rounds => exact rounds.ne_nan

/-- Behind the mark of a radix there is nothing but digits of it. -/
theorem Reads.exists_numeral (reads : Reads text x) (marked : RadixMark start radix)
    (same : text = start ++ digits) : ∃ number, Numeral radix digits number := by
  have marks := radixDigits_eq_some_iff.2 ⟨start, marked, same⟩
  cases reads with
  | empty => cases marks
  | infinity signed => cases signed <;> cases marks
  | decimal literal =>
    have numeric : ∀ c ∈ text, IsNumeric c := by
      rcases literal.stops_or_overruns with stops | ⟨y, overrun⟩
      · exact isNumeric_of_literal stops
      · exact isNumeric_of_literal overrun.stops
    rw [radixDigits_of_isNumeric numeric] at marks
    cases marks
  | radix marked' denotes =>
    rw [radixDigits_eq_some_iff.2 ⟨_, marked', rfl⟩] at marks
    cases marks
    exact ⟨_, denotes⟩

theorem Deviates.not_toNumber (deviates : Deviates text x) (toNumber : ToNumber text x) :
    ∃ y, Overrun text y := by
  cases deviates with
  | overlong marked denotes large =>
    rcases toNumber with reads | none
    · exact absurd rfl reads.ne_nan
    · exact absurd (.radix marked denotes (rounds_natCast.2 rfl)) (none _)
  | plus marked denotes small rounds =>
    rcases toNumber with reads | none
    · obtain ⟨number, signed⟩ := reads.exists_numeral marked rfl
      exact absurd signed (not_numeral_plus marked.small)
    · exact absurd rfl rounds.ne_nan
  | overrun overrun => exact ⟨_, overrun⟩

theorem ofChars_trim (text : List Char) : ofChars (Text.trim text) = ofChars text := by
  simp only [ofChars, Text.trim_trim]

theorem isBlank_iff (c : Char) :
    Text.isBlank c = true ↔ c = '\u0085' ∨ IsScriptSpace c ∧ c ≠ '\ufeff' := by
  have codes : '\u0085'.toNat = 0x85 ∧ '\ufeff'.toNat = 0xfeff := by decide
  simp only [Text.isBlank, IsScriptSpace, ← Char.toNat_inj, codes, ne_eq, Bool.or_eq_true,
    Bool.and_eq_true, decide_eq_true_eq, beq_iff_eq, List.mem_cons, List.not_mem_nil, or_false]
  omega

/-- A trimmed text is converted as it is in scripts, unless it is one of the deviating texts. These
are converted to what is given for them, which is wrong for those with the mark of a radix. Trimming
takes off the spaces of scripts, but U+0085 in place of U+FEFF. -/
theorem ofText_as_toNumber (text : String) :
    let trimmed := Text.trim text.toList
    ((∀ y, ¬Deviates trimmed y) → ∀ x, ToNumber trimmed x ↔ x = ofText text) ∧
      (∀ x, Deviates trimmed x → ofText text = x ∧ (ToNumber trimmed x → ∃ y, Overrun trimmed y)) ∧
      ∀ c, Text.isBlank c = true ↔ c = '\u0085' ∨ IsScriptSpace c ∧ c ≠ '\ufeff' := by
  refine ⟨fun regular x => ?_, fun x deviates => ⟨?_, deviates.not_toNumber⟩, isBlank_iff⟩
  · rw [toNumber_iff (Text.trim_trim _) regular, ofChars_trim, ofText]
  · rw [ofText, ← ofChars_trim, deviates.ofChars_eq]

/-- The first text is regular. The second one has a sign where none may be. -/
theorem ofText_as_toNumber_hexadecimal :
    ToNumber "0x20".toList (ofText " 0x20\n") ∧ ofText "0x+1f" = .ofInt (31 : Nat) := by
  have marked : RadixMark ['0', 'x'] 16 := .hexadecimal (.inl rfl)
  have digits : Numeral 16 ['1', 'f'] 31 := (Po.Line.numeral_eq_some_iff (by decide)).1 (by decide)
  have regular : ∀ y, ¬Deviates "0x20".toList y := by
    intro y deviates
    generalize known : "0x20".toList = text at deviates
    have only : ∀ {start radix digits}, RadixMark start radix → "0x20".toList = start ++ digits →
        some (16, ['2', '0']) = some (radix, digits) := fun {start _ _} marked same =>
      (radixDigits_eq_some_iff.2 ⟨start, marked, same⟩ : radixDigits? "0x20".toList = _)
    cases deviates with
    | overlong marked denotes large =>
      cases only marked known
      have value := (Po.Line.numeral_eq_some_iff (by decide)).2 denotes
      cases value
      exact absurd large (by decide)
    | plus marked => cases only marked known
    | overrun overrun =>
      cases overrun with
      | literal _ _ long =>
        have short := congrArg List.length known
        simp only [List.length_append] at short
        have few : "0x20".toList.length = 4 := rfl
        omega
  exact ⟨((ofText_as_toNumber " 0x20\n").1 regular _).2 rfl,
    ((ofText_as_toNumber "0x+1f").2.1 _ (.plus marked digits (by decide) (rounds_natCast.2 rfl))).1⟩

/-- A number beyond 64 bits is lost, although there is a double for it. -/
theorem not_toNumber_overlong :
    let text := "0x10000000000000000"
    ofText text = .nan ∧ ¬ToNumber (Text.trim text.toList) (ofText text) ∧
      ToNumber (Text.trim text.toList) (.ofInt (2 ^ 64 : Nat)) := by
  intro text
  have marked : RadixMark ['0', 'x'] 16 := .hexadecimal (.inl rfl)
  have digits : Numeral 16 "10000000000000000".toList (2 ^ 64) :=
    (Po.Line.numeral_eq_some_iff (by decide)).1 (by decide)
  have trimmed : Text.trim text.toList = ['0', 'x'] ++ "10000000000000000".toList := by
    decide +kernel
  have reads : Reads (Text.trim text.toList) (.ofInt (2 ^ 64 : Nat)) :=
    trimmed ▸ .radix marked digits (rounds_natCast.2 rfl)
  have lost : ofText text = .nan := by
    rw [ofText, ← ofChars_trim, trimmed]
    exact (Deviates.overlong marked digits (Nat.le_refl _)).ofChars_eq
  refine ⟨lost, ?_, .reads reads⟩
  rw [lost]
  rintro (none | other)
  · exact none.ne_nan rfl
  · exact other _ reads

end Phrasebook.Number
