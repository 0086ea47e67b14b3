import Phrasebook.Proofs.Plural.Grammar

/-!
The tokens that the reader of plural expressions sees are the longest ones, and blanks between
them leave no trace.
-/

namespace Phrasebook.Plural

theorem Spells.ne_nil {token : Token} {spelling : List Char} (spelled : Spells token spelling) :
    spelling ≠ [] := by
  cases spelled with
  | numeral nonempty _ => exact nonempty
  | operator operator => cases operator <;> decide
  | _ => decide

theorem Spells.ne_stray {token : Token} {spelling : List Char} (spelled : Spells token spelling) :
    token ≠ .stray := by
  cases spelled <;> exact Token.noConfusion

theorem isSeparator_iff (c : Char) :
    isSeparator c = true ↔ c = ' ' ∨ c = '\t' ∨ c = '\n' ∨ c = '\r' ∨ c = '\x0c' := by
  simp only [isSeparator, Bool.or_eq_true, beq_iff_eq, or_assoc]

theorem tokenAt_digit (c : Char) (rest : List Char) (digit : Text.isDigit c = true) :
    tokenAt (c :: rest) =
      (some (.numeral (Text.decimalValue 0 (c :: rest.takeWhile Text.isDigit))),
        (rest.takeWhile Text.isDigit).length + 1) := by
  have separator : isSeparator c = false := by
    cases blank : isSeparator c with
    | false => rfl
    | true =>
      rcases (isSeparator_iff c).1 blank with rfl | rfl | rfl | rfl | rfl <;>
        exact absurd digit (by decide)
  unfold tokenAt
  split <;> rename_i same <;> cases same <;> try exact absurd digit (by decide)
  simp [separator, digit]

theorem tokenAt_separator (c : Char) (rest : List Char) (blank : isSeparator c = true) :
    tokenAt (c :: rest) = (none, 1) := by
  rcases (isSeparator_iff c).1 blank with rfl | rfl | rfl | rfl | rfl <;>
    simp [tokenAt, isSeparator]

/-- A token of one character that could go on with an equals sign does not. -/
private theorem not_equals_next {token other : Token} {first c : Char} {rest : List Char}
    (begins : BeginsWith (first :: c :: rest) token [first]) (longer : Spells other [first, '=']) :
    c ≠ '=' := by
  intro same
  subst same
  have bound := begins.longest _ _ longer ⟨rest, rfl⟩
  simp at bound

private theorem takeWhile_of_longest {token : Token} {digits rest : List Char}
    (begins : BeginsWith (digits ++ rest) token digits)
    (all : ∀ c ∈ digits, Text.isDigit c = true) :
    (digits ++ rest).takeWhile Text.isDigit = digits := by
  rw [List.takeWhile_append_of_pos all]
  cases rest with
  | nil => simp
  | cons c rest =>
    cases digit : Text.isDigit c with
    | false => simp [digit]
    | true =>
      have longer : Spells _ (digits ++ [c]) := .numeral (by simp) (by
        intro d member
        rcases List.mem_append.1 member with inside | last
        · exact all d inside
        · rw [List.mem_singleton.1 last]
          exact digit)
      have bound := begins.longest _ _ longer ⟨rest, by simp⟩
      simp only [List.length_append, List.length_singleton] at bound
      omega

theorem BeginsWith.tokenAt_eq {text : List Char} {token : Token} {spelling : List Char}
    (begins : BeginsWith text token spelling) : tokenAt text = (some token, spelling.length) := by
  obtain ⟨rest, rfl⟩ := begins.leading
  cases begins.spelled with
  | numeral nonempty all =>
    have taken := takeWhile_of_longest begins all
    obtain ⟨c, digits, rfl⟩ := List.exists_cons_of_ne_nil nonempty
    have digit : Text.isDigit c = true := all c (by simp)
    rw [List.cons_append, List.takeWhile_cons_of_pos digit] at taken
    rw [List.cons_append, tokenAt_digit c _ digit, (List.cons.inj taken).2, List.length_cons]
  | operator operator =>
    cases operator with
    | less =>
      cases rest with
      | nil => rfl
      | cons c rest =>
        have different := not_equals_next begins (.operator .lessOrEqual)
        simp [tokenAt, Operator.symbol, different]
    | greater =>
      cases rest with
      | nil => rfl
      | cons c rest =>
        have different := not_equals_next begins (.operator .greaterOrEqual)
        simp [tokenAt, Operator.symbol, different]
    | _ => rfl
  | bang =>
    cases rest with
    | nil => rfl
    | cons c rest =>
      have different := not_equals_next begins (.operator .notEqual)
      simp [tokenAt, different]
  | _ => rfl

theorem spells_take_of_tokenAt {text : List Char} {token : Token} {length : Nat}
    (found : tokenAt text = (some token, length)) (known : token ≠ .stray) :
    Spells token (text.take length) := by
  cases text with
  | nil => simp [tokenAt] at found
  | cons c rest =>
    cases digit : Text.isDigit c with
    | true =>
      rw [tokenAt_digit c rest digit] at found
      obtain ⟨rfl, rfl⟩ : _ = token ∧ _ = length := by simpa using found
      have taken := List.prefix_iff_eq_take.1 (List.takeWhile_prefix Text.isDigit (l := rest))
      rw [List.take_succ_cons, ← taken]
      refine .numeral (by simp) fun d member => ?_
      rcases List.mem_cons.1 member with rfl | inside
      · exact digit
      · exact List.all_eq_true.1 List.all_takeWhile d inside
    | false =>
      unfold tokenAt at found
      split at found <;> rename_i same <;> cases same <;> try (cases found; constructor)
      split at found
      · cases found
      · simp only [List.takeWhile_cons, digit, Bool.false_eq_true, if_false, List.isEmpty_nil,
          if_true, Prod.mk.injEq, Option.some.injEq] at found
        exact absurd found.1.symm known

theorem separator_of_tokenAt {c : Char} {rest : List Char} {length : Nat}
    (found : tokenAt (c :: rest) = (none, length)) : isSeparator c = true ∧ length = 1 := by
  unfold tokenAt at found
  split at found <;> rename_i same <;> cases same <;> try cases found
  split at found
  · rename_i blank
    exact ⟨blank, by cases found; rfl⟩
  · dsimp only at found
    split at found <;> cases found

theorem exists_beginsWith {text : List Char} {token : Token} {spelling : List Char}
    (spelled : Spells token spelling) (leading : spelling <+: text) :
    ∃ other longer, BeginsWith text other longer := by
  by_cases longest : ∀ other longer, Spells other longer → longer <+: text →
      longer.length ≤ spelling.length
  · exact ⟨token, spelling, spelled, leading, longest⟩
  · simp only [Classical.not_forall, Nat.not_le] at longest
    obtain ⟨other, longer, spelledLonger, leadingLonger, exceeds⟩ := longest
    -- No spelling is longer than the text, so looking for longer ones ends.
    have bounded := leadingLonger.length_le
    exact exists_beginsWith spelledLonger leadingLonger
termination_by text.length - spelling.length

/-- The reader takes a token exactly if the text begins with it and with no longer one. -/
theorem beginsWith_of_tokenAt {text : List Char} {token : Token} {length : Nat}
    (found : tokenAt text = (some token, length)) (known : token ≠ .stray) :
    BeginsWith text token (text.take length) := by
  have spelled := spells_take_of_tokenAt found known
  obtain ⟨other, longer, begins⟩ := exists_beginsWith spelled (List.take_prefix length text)
  have same := begins.tokenAt_eq
  rw [found] at same
  obtain ⟨rfl, rfl⟩ : token = other ∧ length = longer.length := by simpa using same
  rwa [← List.prefix_iff_eq_take.1 begins.leading]

theorem tokenAt_positive (text : List Char) : 0 < (tokenAt text).2 := by
  unfold tokenAt
  split <;> try exact Nat.succ_pos _
  split
  · exact Nat.one_pos
  · dsimp only
    split
    · exact Nat.one_pos
    · rename_i nonempty
      exact List.length_pos_iff.2 (by simpa using nonempty)

theorem lexemes_separator {c : Char} (rest : List Char) (blank : isSeparator c = true) :
    lexemes (c :: rest) = lexemes rest := by
  simp [lexemes, Text.scan_cons, lexemeAt, tokenAt_separator c rest blank]

theorem lexemes_token {text : List Char} {token : Token} {length : Nat} (nonempty : text ≠ [])
    (found : tokenAt text = (some token, length)) :
    lexemes text = (token, text) :: lexemes (text.drop length) := by
  have positive : 0 < length := by simpa [found] using tokenAt_positive text
  obtain ⟨c, rest, rfl⟩ := List.exists_cons_of_ne_nil nonempty
  obtain ⟨length, rfl⟩ := Nat.exists_eq_succ_of_ne_zero (Nat.ne_of_gt positive)
  simp [lexemes, Text.scan_cons, lexemeAt, found]

theorem BeginsWith.lexemes_eq {rest : List Char} {token : Token} {spelling : List Char}
    (begins : BeginsWith (spelling ++ rest) token spelling) :
    lexemes (spelling ++ rest) = (token, spelling ++ rest) :: lexemes rest := by
  have nonempty := begins.spelled.ne_nil
  rw [lexemes_token (by simp [nonempty]) begins.tokenAt_eq, List.drop_left]

theorem Tokenized.lexemes_eq {text : List Char} {tokens : List Token}
    (cut : Tokenized text tokens) :
    (lexemes text).map Prod.fst = tokens ∧ Token.stray ∉ tokens := by
  induction cut with
  | nil => exact ⟨rfl, List.not_mem_nil⟩
  | blank blank _ ih => rwa [lexemes_separator _ blank]
  | token begins _ ih =>
    rw [begins.lexemes_eq, List.map_cons, ih.1, List.mem_cons, not_or]
    exact ⟨rfl, begins.spelled.ne_stray.symm, ih.2⟩

theorem BeginsWith.of_drop {text : List Char} {token : Token} {tokens : List Token} {length : Nat}
    (begins : BeginsWith text token (text.take length))
    (later : Tokenized (text.drop length) tokens) : Tokenized text (token :: tokens) := by
  have cut : Tokenized (text.take length ++ text.drop length) (token :: tokens) :=
    .token (by rwa [List.take_append_drop]) later
  rwa [List.take_append_drop] at cut

theorem tokenized_lexemes (text : List Char)
    (known : Token.stray ∉ (lexemes text).map Prod.fst) :
    Tokenized text ((lexemes text).map Prod.fst) := by
  match text with
  | [] => exact .nil
  | c :: rest =>
    have positive := tokenAt_positive (c :: rest)
    rcases found : tokenAt (c :: rest) with ⟨_ | token, length⟩
    · have blank := (separator_of_tokenAt found).1
      rw [lexemes_separator rest blank] at known ⊢
      exact .blank blank (tokenized_lexemes rest known)
    · have cut := lexemes_token (List.cons_ne_nil c rest) found
      rw [cut, List.map_cons, List.mem_cons, not_or] at known
      have begins := beginsWith_of_tokenAt found (Ne.symm known.1)
      have positive : 0 < length := by simpa only [found] using positive
      rw [cut]
      exact begins.of_drop (tokenized_lexemes ((c :: rest).drop length) known.2)
termination_by text.length

/-- The cut of a text into longest tokens exists exactly if the reader meets no stray
character, and then it is what the reader sees. -/
theorem tokenized_iff (text : List Char) (tokens : List Token) :
    Tokenized text tokens ↔ (lexemes text).map Prod.fst = tokens ∧ Token.stray ∉ tokens := by
  constructor
  · exact Tokenized.lexemes_eq
  · rintro ⟨rfl, known⟩
    exact tokenized_lexemes text known

end Phrasebook.Plural
