import Phrasebook.Proofs.Plural.Reading
import Phrasebook.Proofs.Plural.Tokens

/-!
Which texts are plural expressions: those of bounded length and nesting whose longest tokens
the grammar derives.
-/

namespace Phrasebook.Plural

theorem Derives.no_stray {level : Level} {tokens : List Token} {rule : Expr}
    (derives : Derives level tokens rule) : Token.stray ∉ tokens := by
  induction derives with
  | tighter _ ih => exact ih
  | conditional _ _ _ ihCondition ihChosen ihOtherwise =>
    simp [ihCondition, ihChosen, ihOtherwise]
  | binary _ _ _ ihLeft ihRight => simp [ihLeft, ihRight]
  | negation _ ih => simp [ih]
  | count => simp
  | literal _ => simp
  | group _ ih => simp [ih]

/-! The nesting of a text depends on its parentheses alone, and those of a derived text are
balanced, so that the reader's count of open parentheses never has to stop at zero. -/

def isParenthesis (c : Char) : Bool :=
  c == '(' || c == ')'

def parentheses (text : List Char) : List Char :=
  text.filter isParenthesis

theorem count_open_parentheses (text : List Char) :
    (parentheses text).count '(' = text.count '(' :=
  List.count_filter rfl

theorem count_close_parentheses (text : List Char) :
    (parentheses text).count ')' = text.count ')' :=
  List.count_filter rfl

theorem nestsWithin_parentheses (limit : Nat) (text : List Char) :
    NestsWithin limit (parentheses text) ↔ NestsWithin limit text := by
  constructor
  · intro nests before leading
    have bound := nests _ (leading.filter isParenthesis)
    rwa [← parentheses, count_open_parentheses, count_close_parentheses] at bound
  · intro nests before leading
    obtain ⟨whole, inside, rfl⟩ := List.prefix_filter_iff.1 leading
    rw [← parentheses, count_open_parentheses, count_close_parentheses]
    exact nests whole inside

structure Balanced (text : List Char) : Prop where
  even : text.count '(' = text.count ')'
  ordered : ∀ before, before <+: text → before.count ')' ≤ before.count '('

theorem Balanced.nil : Balanced [] := by
  refine ⟨rfl, fun before leading => ?_⟩
  rw [List.prefix_nil.1 leading]
  exact Nat.le_refl _

theorem Balanced.append {first second : List Char} (left : Balanced first)
    (right : Balanced second) : Balanced (first ++ second) := by
  constructor
  · rw [List.count_append, List.count_append, left.even, right.even]
  · intro before leading
    rcases List.prefix_or_prefix_of_prefix leading (List.prefix_append first second) with
      inside | ⟨rest, rfl⟩
    · exact left.ordered before inside
    · have later := right.ordered rest ((List.prefix_append_right_inj first).1 leading)
      have even := left.even
      rw [List.count_append, List.count_append]
      omega

theorem Balanced.enclose {text : List Char} (inner : Balanced text) :
    Balanced ('(' :: text ++ [')']) := by
  have even := inner.even
  constructor
  · simp [List.count_append, even]
  · intro before leading
    rcases List.prefix_cons_iff.1 leading with rfl | ⟨behind, rfl, within⟩
    · exact Nat.le_refl _
    · have bound : behind.count ')' ≤ behind.count '(' + 1 := by
        rcases List.prefix_concat_iff.1 within with rfl | inside
        · simp [List.count_append, even]
        · exact Nat.le_succ_of_le (inner.ordered behind inside)
      simpa using bound

def Token.parentheses : Token → List Char
  | .openGroup => ['(']
  | .closeGroup => [')']
  | _ => []

theorem Spells.parentheses_eq {token : Token} {spelling : List Char}
    (spelled : Spells token spelling) : Plural.parentheses spelling = token.parentheses := by
  cases spelled with
  | numeral _ all =>
    refine List.filter_eq_nil_iff.2 fun c member parenthesis => ?_
    have digit := all c member
    simp only [isParenthesis, Bool.or_eq_true, beq_iff_eq] at parenthesis
    rcases parenthesis with rfl | rfl <;> exact absurd digit (by decide)
  | operator operator => cases operator <;> rfl
  | _ => rfl

theorem Tokenized.parentheses_eq {text : List Char} {tokens : List Token}
    (cut : Tokenized text tokens) : parentheses text = tokens.flatMap Token.parentheses := by
  induction cut with
  | nil => rfl
  | @blank c rest tokens blank _ ih =>
    have none : isParenthesis c = false := by
      rcases (isSeparator_iff c).1 blank with rfl | rfl | rfl | rfl | rfl <;> rfl
    rw [parentheses, List.filter_cons_of_neg (by simp [none])]
    exact ih
  | token begins _ ih =>
    rw [parentheses, List.filter_append, List.flatMap_cons, ← begins.spelled.parentheses_eq, ← ih]
    rfl

theorem balanced_of_derives {level : Level} {tokens : List Token} {rule : Expr}
    (derives : Derives level tokens rule) : Balanced (tokens.flatMap Token.parentheses) := by
  induction derives with
  | tighter _ ih => exact ih
  | conditional _ _ _ ihCondition ihChosen ihOtherwise =>
    simp only [List.flatMap_append, List.flatMap_cons, Token.parentheses, List.nil_append]
    exact (ihCondition.append ihChosen).append ihOtherwise
  | binary _ _ _ ihLeft ihRight =>
    simp only [List.flatMap_append, List.flatMap_cons, Token.parentheses, List.nil_append]
    exact ihLeft.append ihRight
  | negation _ ih => exact ih
  | count => exact .nil
  | literal _ => exact .nil
  | group _ ih =>
    simp only [List.flatMap_append, List.flatMap_cons, Token.parentheses, List.flatMap_nil,
      List.append_nil]
    exact ih.enclose

theorem forall_prefix_cons {c : Char} {rest : List Char} {holds : List Char → Prop} :
    (∀ before, before <+: c :: rest → holds before) ↔
      holds [] ∧ ∀ before, before <+: rest → holds (c :: before) := by
  constructor
  · intro all
    exact ⟨all [] List.nil_prefix, fun before leading => all _ ((List.prefix_cons_inj c).2 leading)⟩
  · rintro ⟨empty, longer⟩ before leading
    rcases List.prefix_cons_iff.1 leading with rfl | ⟨behind, rfl, inside⟩
    · exact empty
    · exact longer behind inside

/-- The count of open parentheses passes the limit nowhere exactly if no place of the text has
too many of them open, as long as none is closed that was not opened. -/
theorem tooDeep_eq_none_iff (depth : Nat) (text : List Char) (shallow : depth ≤ maxNesting)
    (ordered : ∀ before, before <+: text → before.count ')' ≤ depth + before.count '(') :
    tooDeep? depth text = none ↔
      ∀ before, before <+: text → depth + before.count '(' ≤ before.count ')' + maxNesting := by
  -- The depth never falls below zero, so where it would, `ordered` has to exclude it.
  induction text generalizing depth with
  | nil =>
    refine ⟨fun _ before leading => ?_, fun _ => rfl⟩
    rw [List.prefix_nil.1 leading]
    simpa using shallow
  | cons c rest ih =>
    rw [forall_prefix_cons] at ordered ⊢
    obtain ⟨_, ordered⟩ := ordered
    have start : depth + List.count '(' [] ≤ List.count ')' [] + maxNesting := by simpa using shallow
    by_cases opens : c = '('
    · subst opens
      simp only [List.count_cons_self, List.count_cons_of_ne (show '(' ≠ ')' by decide)] at ordered ⊢
      by_cases below : depth < maxNesting
      · rw [tooDeep?, if_pos rfl, if_pos below, ih (depth + 1) below fun before inside => by
          have bound := ordered before inside
          omega]
        rw [and_iff_right start]
        refine forall_congr' fun before => imp_congr_right fun _ => ?_
        omega
      · rw [tooDeep?, if_pos rfl, if_neg below]
        refine ⟨fun deep => (nomatch deep), fun nests => ?_⟩
        have bound := nests.2 [] List.nil_prefix
        simp only [List.count_nil] at bound
        omega
    · rw [tooDeep?, if_neg opens]
      by_cases closes : c = ')'
      · subst closes
        simp only [List.count_cons_self, List.count_cons_of_ne (show ')' ≠ '(' by decide)] at ordered ⊢
        have positive := ordered [] List.nil_prefix
        simp only [List.count_nil] at positive
        rw [if_true, ih (depth - 1) (by omega) fun before inside => by
          have bound := ordered before inside
          omega]
        rw [and_iff_right start]
        refine forall_congr' fun before => imp_congr_right fun _ => ?_
        omega
      · simp only [List.count_cons_of_ne opens, List.count_cons_of_ne closes] at ordered ⊢
        rw [if_neg closes, ih depth shallow ordered]
        exact (and_iff_right start).symm

theorem tooDeep_eq_none_of_derives {text : List Char} {tokens : List Token} {rule : Expr}
    (cut : Tokenized text tokens) (derives : Derives .conditional tokens rule) :
    tooDeep? 0 text = none ↔ NestsWithin maxNesting text := by
  have balanced := balanced_of_derives derives
  rw [← cut.parentheses_eq] at balanced
  rw [tooDeep_eq_none_iff 0 text (Nat.zero_le _)]
  · simp only [NestsWithin, Nat.zero_add]
  · intro before leading
    have bound := balanced.ordered _ (leading.filter isParenthesis)
    rw [← parentheses, count_open_parentheses, count_close_parentheses] at bound
    omega

theorem run_lexemes_iff (text : List Char) (rule : Expr) :
    run (.wanting []) (lexemes text) = .ok rule ↔
      ∃ tokens, Tokenized text tokens ∧ Derives .conditional tokens rule := by
  rw [run_eq_ok_iff, readTokens_iff_derives]
  constructor
  · intro derives
    exact ⟨_, (tokenized_iff text _).2 ⟨rfl, derives.no_stray⟩, derives⟩
  · rintro ⟨tokens, cut, derives⟩
    rwa [cut.lexemes_eq.1]

theorem parseChars_eq_ok_iff (source : List Char) (rule : Expr) :
    parseChars source = .ok rule ↔
      source.length ≤ maxLength ∧ tooDeep? 0 source = none ∧
        run (.wanting []) (lexemes source) = .ok rule := by
  by_cases long : maxLength < source.length
  · have exceeds := Nat.not_le_of_lt long
    simp [parseChars, long, exceeds]
  · have short : source.length ≤ maxLength := Nat.le_of_not_lt long
    cases deep : tooDeep? 0 source with
    | some rest => simp [parseChars, long, deep]
    | none =>
      simp only [parseChars, if_neg long, deep, short, true_and]
      exact mapError_eq_ok_iff _ _ rule

theorem parse_eq_ok_iff_derives (source : String) (rule : Expr) :
    parse source = .ok rule ↔
      source.length ≤ maxLength ∧ NestsWithin maxNesting source.toList ∧
        ∃ tokens, Tokenized source.toList tokens ∧ Derives .conditional tokens rule := by
  rw [parse, parseChars_eq_ok_iff, run_lexemes_iff, String.length_toList]
  refine and_congr_right fun _ => and_congr_left fun ⟨tokens, cut, derives⟩ => ?_
  exact tooDeep_eq_none_of_derives cut derives

theorem Tokenized.unique {text : List Char} {first second : List Token}
    (cut : Tokenized text first) (other : Tokenized text second) : first = second :=
  cut.lexemes_eq.1.symm.trans other.lexemes_eq.1

theorem Derives.unique {tokens : List Token} {first second : Expr}
    (derives : Derives .conditional tokens first) (other : Derives .conditional tokens second) :
    first = second := by
  obtain ⟨final, read, ended⟩ := finish_of_derives derives
  obtain ⟨final', read', ended'⟩ := finish_of_derives other
  cases read.symm.trans read'
  cases ended.symm.trans ended'
  rfl

theorem nestsWithin_of_same_tokens {limit : Nat} {first second : List Char} {tokens : List Token}
    (cut : Tokenized first tokens) (other : Tokenized second tokens) :
    NestsWithin limit first ↔ NestsWithin limit second := by
  rw [← nestsWithin_parentheses, cut.parentheses_eq, ← other.parentheses_eq,
    nestsWithin_parentheses]

/-- Two texts with the same tokens, both short enough, are accepted as the same rule or are
both refused. -/
theorem parse_of_same_tokens {first second : String} {tokens : List Token}
    (cut : Tokenized first.toList tokens) (other : Tokenized second.toList tokens)
    (short : first.length ≤ maxLength) (short' : second.length ≤ maxLength) :
    (parse first).toOption = (parse second).toOption := by
  have same : ∀ rule, parse first = .ok rule ↔ parse second = .ok rule := by
    intro rule
    rw [parse_eq_ok_iff_derives, parse_eq_ok_iff_derives, nestsWithin_of_same_tokens cut other]
    have unique : ∀ found, Tokenized first.toList found ↔ Tokenized second.toList found :=
      fun found => ⟨fun again => cut.unique again ▸ other, fun again => other.unique again ▸ cut⟩
    simp only [short, short', unique]
  cases read : parse first with
  | ok rule => rw [(same rule).1 read]
  | error refusal =>
    cases read' : parse second with
    | ok rule => rw [(same rule).2 read'] at read; cases read
    | error refusal' => rfl

/-- An expression is accepted as a rule exactly if it has at most a thousand characters, its
parentheses nest at most sixty-four deep, and its longest tokens derive the rule in the
stratified grammar. Both the cut into tokens and the derived rule are unique, so blanks between
the tokens do not change what is accepted. -/
theorem parse_accepts_exactly_grammar :
    (∀ (source : String) (rule : Expr), parse source = .ok rule ↔
      source.length ≤ 1000 ∧ NestsWithin 64 source.toList ∧
        ∃ tokens, Tokenized source.toList tokens ∧ Derives .conditional tokens rule) ∧
    (∀ (source : String) (first second : List Token),
      Tokenized source.toList first → Tokenized source.toList second → first = second) ∧
    (∀ (tokens : List Token) (first second : Expr),
      Derives .conditional tokens first → Derives .conditional tokens second → first = second) ∧
    ∀ (first second : String) (tokens : List Token),
      Tokenized first.toList tokens → Tokenized second.toList tokens →
      first.length ≤ 1000 → second.length ≤ 1000 →
      (parse first).toOption = (parse second).toOption := by
  refine ⟨parse_eq_ok_iff_derives, ?_, ?_, ?_⟩
  · intro source first second cut other
    exact cut.unique other
  · intro tokens first second derives other
    exact derives.unique other
  · intro first second tokens cut other short short'
    exact parse_of_same_tokens cut other short short'

example : (parse "!n!=1<n").toOption =
    some (.binary .notEqual (.not .count) (.binary .less (.literal 1) .count)) := by decide

end Phrasebook.Plural
