import Phrasebook.Proofs.Po.Readable
import Phrasebook.Proofs.Po.Written

/-!
Every line of a written catalog is read as what was written, whether or not it loses a carriage
return before the line feed.
-/

namespace Phrasebook.Po

namespace Line

theorem decodes_escaped (piece : List Char) : Decodes (piece.flatMap escaped) piece := by
  induction piece with
  | nil => exact .nil
  | cons c piece ih =>
    have letter : ∀ sign, (sign, c) ∈ letterMeanings →
        Decodes ('\\' :: [sign] ++ piece.flatMap escaped) (c :: piece) :=
      fun _ listed => .escape (.letter _ listed) ih
    rw [List.flatMap_cons, escaped]
    split
    · rename_i backslash
      subst backslash
      exact letter _ (by decide)
    · rename_i unescaped
      split
      · rename_i quote
        subst quote
        exact letter _ (by decide)
      · rename_i unquoted
        split
        · rename_i feed
          subst feed
          exact letter _ (by decide)
        · exact .plain unescaped unquoted ih

theorem quotes_quotedPiece (piece : List Char) : Quotes (quotedPiece piece) piece :=
  .quote (decodes_escaped piece)

theorem ofChars_blank {line : List Char} (blank : ∀ c ∈ line, Text.isBlank c = true) :
    ofChars line = .ok .blank := by
  rw [ofChars, Text.trim_blank blank]

theorem isFuzzyFlag_eq_false {text : List Char} (plain : ∀ flags, text ≠ ',' :: flags) :
    isFuzzyFlag text = false := by
  unfold isFuzzyFlag
  split
  · rename_i flags
    exact absurd rfl (plain flags)
  · rfl

theorem plain_of_leading {text rest : List Char} (plain : ∀ flags, text ≠ ',' :: flags)
    (leading : rest <+: text) : ∀ flags, rest ≠ ',' :: flags := by
  rintro flags rfl
  obtain ⟨after, rfl⟩ := leading
  exact plain _ rfl

theorem ofChars_comment {indent text : List Char} (blank : ∀ c ∈ indent, Text.isBlank c = true)
    (plain : ∀ flags, text ≠ ',' :: flags) :
    ofChars (indent ++ '#' :: text) = .ok (.comment false) := by
  obtain ⟨rest, trimmed, leading⟩ := Text.trim_append_cons text blank
    (show Text.isBlank '#' = false by decide)
  rw [ofChars, trimmed]
  simp [isFuzzyFlag_eq_false (plain_of_leading plain leading)]

theorem ofChars_quotedPiece (piece : List Char) :
    ofChars (quotedPiece piece) = .ok (.continuation piece) := by
  have written := IsContinuation.line isGap_nil (quotes_quotedPiece piece) isGap_nil
  rw [List.append_nil] at written
  exact ofChars_of_isContinuation written

theorem ofChars_keyword {keyword : List Char} {field : Field} (names : Keyword keyword field)
    (piece : List Char) :
    ofChars (keyword ++ ' ' :: quotedPiece piece) = .ok (.keyword field piece) := by
  have space : IsGap [' '] := List.forall_mem_singleton.2 (.inl rfl)
  have written := IsKeywordLine.line isGap_nil names space (List.cons_ne_nil _ _)
    (quotes_quotedPiece piece) isGap_nil
  rw [List.append_nil, List.append_assoc] at written
  exact ofChars_of_isKeywordLine written

theorem keyword_indexedKeyword {index : Nat} (small : index < 2 ^ 64) :
    Keyword (indexedKeyword index) (.wording index) :=
  .indexed ((numeral_eq_some_iff (by decide)).1 (Text.numeral_decimal index)) small

theorem unbroken_keyword {keyword : List Char} {field : Field} (names : Keyword keyword field) :
    '\n' ∉ keyword := by
  cases names with
  | context | id | idPlural | wording => decide
  | indexed denotes small =>
    have digit := isDigit_of_numeral denotes '\n'
    have none : Text.isDigit '\n' = false := by decide
    simpa [none] using digit

/-- The line stays one line, and means the same, when line feeds are put around it. -/
structure Reads (line : List Char) (parsed : Line) : Prop where
  unbroken : '\n' ∉ line
  kept : ofChars line = .ok parsed
  fed : ofChars (Text.fed line) = .ok parsed

theorem unbroken_quotedPiece (piece : List Char) : '\n' ∉ quotedPiece piece := by
  have none : ∀ c, '\n' ∉ escaped c := by
    intro c
    by_cases feed : c = '\n'
    · subst feed
      decide
    · unfold escaped
      split
      · decide
      · split
        · decide
        · simpa [feed] using Ne.symm feed
  simp [quotedPiece, none]

theorem reads_of_kept {line : List Char} {parsed : Line} (unbroken : '\n' ∉ line)
    (kept : ofChars line = .ok parsed) : Reads line parsed :=
  ⟨unbroken, kept, ofChars_fed kept⟩

theorem reads_quotedPiece (piece : List Char) : Reads (quotedPiece piece) (.continuation piece) :=
  reads_of_kept (unbroken_quotedPiece piece) (ofChars_quotedPiece piece)

theorem reads_keyword {keyword : List Char} {field : Field} (names : Keyword keyword field)
    (piece : List Char) :
    Reads (keyword ++ ' ' :: quotedPiece piece) (.keyword field piece) := by
  apply reads_of_kept _ (ofChars_keyword names piece)
  simp [unbroken_keyword names, unbroken_quotedPiece piece]

theorem reads_filler {line : List Char} (filler : IsFiller line) :
    ∃ parsed, (parsed = .blank ∨ parsed = .comment false) ∧ Reads line parsed := by
  cases filler with
  | blank blank =>
    have unbroken : '\n' ∉ line := fun member => (blank _ member).2 rfl
    have visible : ∀ c ∈ line, Text.isBlank c = true := fun c member => (blank c member).1
    exact ⟨.blank, .inl rfl, reads_of_kept unbroken (ofChars_blank visible)⟩
  | @comment indent text blank plain unbrokenText =>
    have unbroken : '\n' ∉ indent := fun member => (blank _ member).2 rfl
    have visible : ∀ c ∈ indent, Text.isBlank c = true := fun c member => (blank c member).1
    have kept := ofChars_comment visible plain
    exact ⟨.comment false, .inr rfl, reads_of_kept (by simp [unbroken, unbrokenText]) kept⟩

end Line

end Phrasebook.Po
