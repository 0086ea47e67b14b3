import Phrasebook.Proofs.Except
import Phrasebook.Proofs.Po.Escapes
import Phrasebook.Proofs.Text.Blank
import Phrasebook.Proofs.Text.Lines

/-!
A line with a string is read exactly if it is written as the grammar of lines says, and its string is
decoded in the one way that the grammar has for it.
-/

namespace Phrasebook.Po.Line

theorem not_isDigitFor_quote {radix value : Nat} (small : radix ≤ 16) :
    ¬IsDigitFor radix value '"' := by
  rw [isDigitFor_iff small]
  have code : '"'.toNat = 34 := rfl
  omega

/-- The quote behind the last numeral does not make it longer. -/
theorem longestNumeral_enclosed {radix limit number : Nat} (small : radix ≤ 16)
    {digits rest : List Char} (after : List Char) :
    LongestNumeral radix limit digits (rest ++ '"' :: after) number ↔
      LongestNumeral radix limit digits rest number := by
  cases rest with
  | cons c rest => exact ⟨fun ⟨denotes, within, longest⟩ => ⟨denotes, within, longest⟩,
      fun ⟨denotes, within, longest⟩ => ⟨denotes, within, longest⟩⟩
  | nil =>
    constructor
    · intro enclosed
      exact ⟨enclosed.denotes, enclosed.within, fun _ c none => by cases none⟩
    · intro alone
      refine ⟨alone.denotes, alone.within, fun _ c head value => ?_⟩
      cases head
      exact not_isDigitFor_quote small

theorem escapes_enclosed {sign rest : List Char} {c : Char} (after : List Char) :
    Escapes sign (rest ++ '"' :: after) c ↔ Escapes sign rest c := by
  constructor
  · intro escapes
    cases escapes with
    | hexadecimal longest =>
      exact .hexadecimal ((longestNumeral_enclosed (by decide) after).1 longest)
    | octal longest bounded =>
      exact .octal ((longestNumeral_enclosed (by decide) after).1 longest) bounded
    | letter _ listed => exact .letter rest listed
  · intro escapes
    cases escapes with
    | hexadecimal longest =>
      exact .hexadecimal ((longestNumeral_enclosed (by decide) after).2 longest)
    | octal longest bounded =>
      exact .octal ((longestNumeral_enclosed (by decide) after).2 longest) bounded
    | letter _ listed => exact .letter _ listed

theorem decodes_of_body {skip : Nat} {text decoded after : List Char}
    (read : body skip text = .ok (decoded, after)) :
    ∃ skipped written, text = skipped ++ (written ++ '"' :: after) ∧ skipped.length = skip ∧
      Decodes written decoded := by
  induction text generalizing skip decoded with
  | nil => cases read
  | cons c rest ih =>
    cases skip with
    | succ skip =>
      obtain ⟨skipped, written, rfl, rfl, decodes⟩ := ih read
      exact ⟨c :: skipped, written, rfl, rfl, decodes⟩
    | zero =>
      rw [body] at read
      split at read
      · rename_i quote
        cases read
        exact ⟨[], [], by rw [quote]; rfl, rfl, .nil⟩
      · rename_i unquoted
        split at read
        · rename_i backslash
          cases escape : escape? rest with
          | none =>
            rw [escape] at read
            cases read
          | some found =>
            rw [escape] at read
            obtain ⟨⟨text, behind⟩, later, same⟩ := (map_eq_ok_iff _ _ _).1 read
            cases same
            obtain ⟨skipped, written, rfl, size, decodes⟩ := ih later
            obtain ⟨sign, behind, whole, length, escapes⟩ := escapes_of_escape escape
            obtain ⟨rfl, rfl⟩ := List.append_inj whole (size.trans length.symm)
            refine ⟨[], '\\' :: skipped ++ written, by simp [backslash], rfl, ?_⟩
            exact .escape ((escapes_enclosed after).1 escapes) decodes
        · rename_i plain
          obtain ⟨⟨text, behind⟩, later, same⟩ := (map_eq_ok_iff _ _ _).1 read
          cases same
          obtain ⟨skipped, written, rfl, size, decodes⟩ := ih later
          rw [List.length_eq_zero_iff.1 size]
          exact ⟨[], c :: written, rfl, rfl, .plain plain unquoted decodes⟩

theorem body_append (skipped rest : List Char) :
    body skipped.length (skipped ++ rest) = body 0 rest := by
  induction skipped with
  | nil => rfl
  | cons c skipped ih => exact ih

theorem body_of_decodes {written decoded : List Char} (decodes : Decodes written decoded)
    (after : List Char) : body 0 (written ++ '"' :: after) = .ok (decoded, after) := by
  induction decodes with
  | nil => rfl
  | plain unescaped unquoted _ ih =>
    rw [List.cons_append, body, if_neg unquoted, if_neg unescaped, ih]
    rfl
  | @escape sign written c text escapes _ ih =>
    have escape := escape_of_escapes ((escapes_enclosed after).2 escapes)
    have whole : '\\' :: sign ++ written ++ '"' :: after =
        '\\' :: (sign ++ (written ++ '"' :: after)) := by simp
    rw [whole, body, if_neg (by decide), if_pos rfl, escape]
    simp only [body_append, ih]
    rfl

theorem isGap_iff {text : List Char} : IsGap text ↔ ∀ c ∈ text, Text.isSpaceOrTab c = true := by
  simp [IsGap, Text.isSpaceOrTab]

theorem isGap_nil : IsGap [] :=
  List.forall_mem_nil _

theorem isBlank_of_gap {gap : List Char} (blank : IsGap gap) :
    ∀ c ∈ gap, Text.isBlank c = true := fun c member =>
  Text.isBlank_of_isSpaceOrTab c (isGap_iff.1 blank c member)

theorem dropSpaces_eq_nil_iff {text : List Char} : dropSpaces text = [] ↔ IsGap text := by
  rw [dropSpaces, List.dropWhile_eq_nil_iff, isGap_iff]

theorem dropSpaces_append {gap : List Char} (blank : IsGap gap) {c : Char}
    (visible : Text.isSpaceOrTab c = false) (rest : List Char) :
    dropSpaces (gap ++ c :: rest) = c :: rest := by
  apply Text.dropWhile_append (isGap_iff.1 blank)
  intro d head
  cases head
  exact visible

theorem exists_gap (text : List Char) : ∃ gap, IsGap gap ∧ text = gap ++ dropSpaces text :=
  ⟨text.takeWhile Text.isSpaceOrTab, isGap_iff.2 fun _ => List.mem_takeWhile_imp,
    List.takeWhile_append_dropWhile.symm⟩

theorem quoted_eq_ok_iff {text decoded : List Char} :
    quoted text = .ok decoded ↔
      ∃ quote ending, text = quote ++ ending ∧ Quotes quote decoded ∧ IsGap ending := by
  constructor
  · intro read
    unfold quoted at read
    split at read
    · split at read
      · cases read
      · rename_i rest found after string
        split at read
        · rename_i ends
          cases read
          obtain ⟨_, written, rfl, none, decodes⟩ := decodes_of_body string
          rw [List.length_eq_zero_iff.1 none]
          refine ⟨'"' :: written ++ ['"'], after, by simp, .quote decodes, ?_⟩
          exact dropSpaces_eq_nil_iff.1 (List.isEmpty_iff.1 ends)
        · cases read
    · cases read
  · rintro ⟨quote, ending, rfl, ⟨decodes⟩, blank⟩
    have string := body_of_decodes decodes ending
    have whole : ∀ written,
        '"' :: written ++ ['"'] ++ ending = '"' :: (written ++ '"' :: ending) := by simp
    rw [whole, quoted, string]
    simp [dropSpaces_eq_nil_iff.2 blank]

theorem exists_quote_eq_cons {quote decoded : List Char} (quotes : Quotes quote decoded) :
    ∃ rest, quote = '"' :: rest := by
  obtain ⟨_⟩ := quotes
  exact ⟨_, rfl⟩

theorem quoted_dropSpaces_eq_ok_iff {text decoded : List Char} :
    quoted (dropSpaces text) = .ok decoded ↔ ∃ gap quote ending,
      text = gap ++ (quote ++ ending) ∧ IsGap gap ∧ Quotes quote decoded ∧ IsGap ending := by
  rw [quoted_eq_ok_iff]
  constructor
  · rintro ⟨quote, ending, rest, quotes, blank⟩
    obtain ⟨gap, gapBlank, whole⟩ := exists_gap text
    exact ⟨gap, quote, ending, rest ▸ whole, gapBlank, quotes, blank⟩
  · rintro ⟨gap, quote, ending, rfl, gapBlank, quotes, blank⟩
    refine ⟨quote, ending, ?_, quotes, blank⟩
    obtain ⟨rest, rfl⟩ := exists_quote_eq_cons quotes
    exact dropSpaces_append gapBlank (by decide) (rest ++ ending)

theorem after_eq_some_iff {word : String} {text rest : List Char} :
    after? word text = some rest ↔ text = word.toList ++ rest := by
  constructor
  · intro found
    unfold after? at found
    split at found
    · rename_i leading
      cases found
      obtain ⟨behind, rfl⟩ := List.isPrefixOf_iff_prefix.1 leading
      rw [← String.length_toList, List.drop_left]
    · cases found
  · rintro rfl
    have leading : word.toList.isPrefixOf (word.toList ++ rest) = true :=
      List.isPrefixOf_iff_prefix.2 (List.prefix_append _ _)
    rw [after?, if_pos leading, ← String.length_toList, List.drop_left]

theorem indexed_eq_some_iff {text rest : List Char} {field : Field} :
    indexed? text = some (field, rest) ↔ ∃ digits index,
      text = "msgstr[".toList ++ digits ++ [']'] ++ rest ∧ Numeral 10 digits index ∧
      index < 2 ^ 64 ∧ field = .wording index := by
  constructor
  · intro found
    unfold indexed? at found
    split at found
    · cases found
    · rename_i behind bracket
      simp only at found
      split at found
      · rename_i index after number closing
        split at found
        · rename_i small
          cases found
          refine ⟨behind.takeWhile Text.isDigit, index, ?_,
            (numeral_eq_some_iff (by decide)).1 number, small, rfl⟩
          rw [after_eq_some_iff.1 bracket, List.append_assoc, List.append_assoc,
            List.singleton_append, ← closing, List.takeWhile_append_dropWhile]
        · cases found
      · cases found
  · rintro ⟨digits, index, rfl, denotes, small, rfl⟩
    have all := isDigit_of_numeral denotes
    have stops : Text.Without Text.isDigit (']' :: rest) := by
      intro c head
      cases head
      rfl
    have bracket : after? "msgstr[" ("msgstr[".toList ++ digits ++ [']'] ++ rest) =
        some (digits ++ ']' :: rest) := by
      rw [after_eq_some_iff]
      simp
    simp only [indexed?, bracket, Text.takeWhile_append all stops, Text.dropWhile_append all stops,
      (numeral_eq_some_iff (by decide)).2 denotes, if_pos small]

theorem keyword_of_field {text rest : List Char} {field : Field}
    (found : field? text = some (field, rest)) :
    ∃ keyword, text = keyword ++ rest ∧ Keyword keyword field := by
  simp only [field?, Option.or_eq_some_iff, Option.map_eq_some_iff, Prod.mk.injEq,
    after_eq_some_iff] at found
  rcases found with ⟨_, rfl, rfl, rfl⟩ | ⟨_, ⟨_, rfl, rfl, rfl⟩ | ⟨_, ⟨_, rfl, rfl, rfl⟩ |
    ⟨_, indexed | ⟨_, _, rfl, rfl, rfl⟩⟩⟩⟩
  · exact ⟨_, rfl, .context⟩
  · exact ⟨_, rfl, .idPlural⟩
  · exact ⟨_, rfl, .id⟩
  · obtain ⟨digits, index, rfl, denotes, small, rfl⟩ := indexed_eq_some_iff.1 indexed
    exact ⟨_, rfl, .indexed denotes small⟩
  · exact ⟨_, rfl, .wording⟩

/-- A keyword names its field where a gap follows, so that no longer keyword stands there. -/
theorem field_of_keyword {keyword : List Char} {field : Field} (names : Keyword keyword field)
    {c : Char} (gap : Text.isSpaceOrTab c = true) (rest : List Char) :
    field? (keyword ++ c :: rest) = some (field, c :: rest) := by
  have blank : c = ' ' ∨ c = '\t' := by simpa [Text.isSpaceOrTab] using gap
  cases names with
  | context => rfl
  | id => rcases blank with rfl | rfl <;> rfl
  | idPlural => rfl
  | wording => rcases blank with rfl | rfl <;> rfl
  | @indexed digits index denotes small =>
    have indexed : indexed? ("msgstr[".toList ++ digits ++ [']'] ++ c :: rest) =
        some (.wording index, c :: rest) :=
      indexed_eq_some_iff.2 ⟨digits, index, rfl, denotes, small, rfl⟩
    simp only [field?, indexed]
    rfl

theorem exists_keyword_eq_cons {keyword : List Char} {field : Field}
    (names : Keyword keyword field) : ∃ rest, keyword = 'm' :: rest := by
  cases names <;> exact ⟨_, rfl⟩

theorem keywordLine_eq_ok_iff {line text : List Char} {field : Field} :
    keywordLine line = .ok (field, text) ↔ IsKeywordLine line field text := by
  constructor
  · intro read
    unfold keywordLine at read
    split at read
    · cases read
    · rename_i found rest named
      split at read
      · rename_i spaced
        obtain ⟨decoded, string, same⟩ := (map_eq_ok_iff _ _ _).1 read
        cases same
        obtain ⟨indent, indentBlank, whole⟩ := exists_gap line
        obtain ⟨keyword, behind, names⟩ := keyword_of_field named
        obtain ⟨gap, quote, ending, rfl, gapBlank, quotes, blank⟩ :=
          quoted_dropSpaces_eq_ok_iff.1 string
        have nonempty : gap ≠ [] := by
          rintro rfl
          obtain ⟨_, rfl⟩ := exists_quote_eq_cons quotes
          cases spaced
        rw [whole, behind, ← List.append_assoc, ← List.append_assoc, ← List.append_assoc]
        exact .line indentBlank names gapBlank nonempty quotes blank
      · cases read
  · intro written
    cases written with
    | @line indent keyword gap quote ending field text indentBlank names gapBlank nonempty quotes
        blank =>
      obtain ⟨c, gap, rfl⟩ := List.exists_cons_of_ne_nil nonempty
      have spaced : Text.isSpaceOrTab c = true := isGap_iff.1 gapBlank c List.mem_cons_self
      have string : quoted (dropSpaces (c :: (gap ++ (quote ++ ending)))) = .ok text :=
        quoted_dropSpaces_eq_ok_iff.2 ⟨c :: gap, quote, ending, rfl, gapBlank, quotes, blank⟩
      have start : dropSpaces (indent ++ keyword ++ c :: gap ++ quote ++ ending) =
          keyword ++ c :: (gap ++ (quote ++ ending)) := by
        obtain ⟨rest, rfl⟩ := exists_keyword_eq_cons names
        simp only [List.append_assoc, List.cons_append]
        exact dropSpaces_append indentBlank (by decide) _
      simp only [keywordLine, start, field_of_keyword names spaced, List.head?_cons,
        Option.any_some, spaced, if_true, string]
      rfl

theorem ofChars_of_isKeywordLine {line text : List Char} {field : Field}
    (written : IsKeywordLine line field text) : ofChars line = .ok (.keyword field text) := by
  have read := keywordLine_eq_ok_iff.2 written
  cases written with
  | @line indent keyword gap quote ending _ _ indentBlank names =>
    obtain ⟨rest, rfl⟩ := exists_keyword_eq_cons names
    have whole : indent ++ 'm' :: rest ++ gap ++ quote ++ ending =
        indent ++ 'm' :: (rest ++ gap ++ quote ++ ending) := by simp
    obtain ⟨kept, trimmed, _⟩ := Text.trim_append_cons (rest ++ gap ++ quote ++ ending)
      (isBlank_of_gap indentBlank) (show Text.isBlank 'm' = false by decide)
    rw [whole] at read ⊢
    rw [ofChars, trimmed]
    simp [read, Except.map, -List.append_assoc]

theorem ofChars_of_isContinuation {line text : List Char} (written : IsContinuation line text) :
    ofChars line = .ok (.continuation text) := by
  cases written with
  | @line indent quote ending _ indentBlank quotes blank =>
    have read : quoted (dropSpaces (indent ++ (quote ++ ending))) = .ok text :=
      quoted_dropSpaces_eq_ok_iff.2 ⟨indent, quote, ending, rfl, indentBlank, quotes, blank⟩
    obtain ⟨rest, rfl⟩ := exists_quote_eq_cons quotes
    obtain ⟨kept, trimmed, _⟩ := Text.trim_append_cons (rest ++ ending)
      (isBlank_of_gap indentBlank) (show Text.isBlank '"' = false by decide)
    rw [List.append_assoc, ofChars, List.cons_append, trimmed]
    rw [List.cons_append] at read
    simp [read, Except.map]

/-- A line with a string does not end with a carriage return. -/
theorem ne_concat_return {start quote ending decoded : List Char} (quotes : Quotes quote decoded)
    (blank : IsGap ending) (front : List Char) : start ++ quote ++ ending ≠ front ++ ['\r'] := by
  intro whole
  rcases List.eq_nil_or_concat ending with rfl | ⟨gap, last, rfl⟩
  · obtain ⟨_⟩ := quotes
    rw [List.append_nil, ← List.append_assoc] at whole
    cases List.append_inj_right' whole rfl
  · rw [List.concat_eq_append, ← List.append_assoc] at whole
    cases List.append_inj_right' whole rfl
    have visible := blank '\r' (by simp)
    revert visible
    decide

theorem ofChars_fed {line : List Char} {parsed : Line} (read : ofChars line = .ok parsed) :
    ofChars (Text.fed line) = .ok parsed := by
  rcases Text.fed_cases line with same | whole
  · rwa [same]
  · have trimmed : Text.trim line = Text.trim (Text.fed line) := by
      rw [← Text.trim_concat (Text.fed line) (show Text.isBlank '\r' = true by decide), ← whole]
    unfold ofChars at read ⊢
    rw [trimmed] at read
    split at read
    · exact read
    · split at read
      · rename_i comment
        rw [if_pos comment]
        exact read
      · split at read
        · obtain ⟨text, string, _⟩ := (map_eq_ok_iff _ _ _).1 read
          obtain ⟨gap, quote, ending, written, _, quotes, blank⟩ :=
            quoted_dropSpaces_eq_ok_iff.1 string
          rw [← List.append_assoc] at written
          exact absurd (written.symm.trans whole) (ne_concat_return quotes blank _)
        · obtain ⟨⟨field, text⟩, keyed, _⟩ := (map_eq_ok_iff _ _ _).1 read
          cases keywordLine_eq_ok_iff.1 keyed with
          | line _ _ _ _ quotes blank => exact absurd whole (ne_concat_return quotes blank _)

/-- A line is read as a keyword with a string, or as a string alone, exactly if it is written so: the
field and the text are then those that the grammar gives, and any other line is refused. -/
theorem reads_exactly_grammar (line : List Char) :
    (∀ field text, keywordLine line = .ok (field, text) ↔ IsKeywordLine line field text) ∧
      ∀ text, quoted (dropSpaces line) = .ok text ↔ IsContinuation line text := by
  refine ⟨fun field text => keywordLine_eq_ok_iff, fun text => ?_⟩
  rw [quoted_dropSpaces_eq_ok_iff]
  constructor
  · rintro ⟨indent, quote, ending, rfl, indentBlank, quotes, blank⟩
    rw [← List.append_assoc]
    exact .line indentBlank quotes blank
  · rintro ⟨indentBlank, quotes, blank⟩
    exact ⟨_, _, _, List.append_assoc _ _ _, indentBlank, quotes, blank⟩

end Phrasebook.Po.Line
