import Phrasebook.Proofs.Plural.Acceptance
import Phrasebook.Proofs.Text.Digits

/-!
Rules that are written out and read again. A written rule has a pair of parentheses around every
operation of two or three operands, so that its tokens derive it at the level of negations, and
its text nests as deep as the rule does.
-/

namespace Phrasebook.Plural

namespace Expr

def literals : Expr → List Int64
  | .count => []
  | .literal value => [value]
  | .not inner => inner.literals
  | .binary _ left right => left.literals ++ right.literals
  | .conditional condition chosen otherwise =>
    condition.literals ++ chosen.literals ++ otherwise.literals

/-- A path from the rule down to an operand, with so many operations of two or three operands
on it. -/
inductive Path : Expr → Nat → Prop
  | count : Path .count 0
  | literal {value} : Path (.literal value) 0
  | not {inner operations} : Path inner operations → Path (.not inner) operations
  | left {operator left right operations} :
      Path left operations → Path (.binary operator left right) (operations + 1)
  | right {operator left right operations} :
      Path right operations → Path (.binary operator left right) (operations + 1)
  | condition {condition chosen otherwise operations} :
      Path condition operations → Path (.conditional condition chosen otherwise) (operations + 1)
  | chosen {condition chosen otherwise operations} :
      Path chosen operations → Path (.conditional condition chosen otherwise) (operations + 1)
  | otherwise {condition chosen otherwise operations} :
      Path otherwise operations → Path (.conditional condition chosen otherwise) (operations + 1)

def depth : Expr → Nat
  | .count | .literal _ => 0
  | .not inner => inner.depth
  | .binary _ left right => max left.depth right.depth + 1
  | .conditional condition chosen otherwise =>
    max condition.depth (max chosen.depth otherwise.depth) + 1

theorem depth_of_path {rule : Expr} {operations : Nat} (path : Path rule operations) :
    operations ≤ rule.depth := by
  induction path with
  | count | literal => exact Nat.le_refl 0
  | not _ ih => exact ih
  | left | right | condition | chosen | otherwise =>
    simp only [depth]
    omega

theorem path_depth (rule : Expr) : Path rule rule.depth := by
  induction rule with
  | count => exact .count
  | literal value => exact .literal
  | not inner ih => exact .not ih
  | binary operator left right ihLeft ihRight =>
    rw [depth]
    rcases Nat.le_total left.depth right.depth with deeper | deeper
    · rw [Nat.max_eq_right deeper]
      exact .right ihRight
    · rw [Nat.max_eq_left deeper]
      exact .left ihLeft
  | conditional condition chosen otherwise ihCondition ihChosen ihOtherwise =>
    rw [depth]
    rcases Nat.le_total condition.depth (max chosen.depth otherwise.depth) with deeper | deeper
    · rw [Nat.max_eq_right deeper]
      rcases Nat.le_total chosen.depth otherwise.depth with deeper | deeper
      · rw [Nat.max_eq_right deeper]
        exact .otherwise ihOtherwise
      · rw [Nat.max_eq_left deeper]
        exact .chosen ihChosen
    · rw [Nat.max_eq_left deeper]
      exact .condition ihCondition

theorem depth_le_iff (rule : Expr) (limit : Nat) :
    rule.depth ≤ limit ↔ ∀ operations, Path rule operations → operations ≤ limit := by
  constructor
  · intro shallow operations path
    exact Nat.le_trans (depth_of_path path) shallow
  · intro shallow
    exact shallow rule.depth rule.path_depth

def tokens : Expr → List Token
  | .count => [.count]
  | .literal value =>
    if value.toInt < 0 then [.operator .subtract, .numeral value.toInt.natAbs]
    else [.numeral value.toInt.natAbs]
  | .not inner => .bang :: inner.tokens
  | .binary operator left right =>
    .openGroup :: (left.tokens ++ .operator operator :: right.tokens) ++ [.closeGroup]
  | .conditional condition chosen otherwise =>
    .openGroup :: (condition.tokens ++ .question :: chosen.tokens ++ .colon :: otherwise.tokens) ++
      [.closeGroup]

end Expr

/-! The text of a rule is cut into its tokens, whatever stands behind it but a digit. -/

theorem tokenized_of_tokenAt {text : List Char} {token : Token} {tokens : List Token} {length : Nat}
    (found : tokenAt text = (some token, length)) (known : token ≠ .stray)
    (later : Tokenized (text.drop length) tokens) : Tokenized text (token :: tokens) :=
  (beginsWith_of_tokenAt found known).of_drop later

theorem tokenized_mark {c : Char} {token : Token} {rest : List Char} {later : List Token}
    (alone : ∀ rest, tokenAt (c :: rest) = (some token, 1)) (known : token ≠ .stray)
    (cut : Tokenized rest later) : Tokenized (c :: rest) (token :: later) :=
  tokenized_of_tokenAt (alone rest) known cut

theorem tokenized_space {rest : List Char} {tokens : List Token} (cut : Tokenized rest tokens) :
    Tokenized (' ' :: rest) tokens :=
  .blank (by decide) cut

theorem tokenized_decimal (value : Nat) {rest : List Char} {later : List Token}
    (stops : Text.Without Text.isDigit rest) (cut : Tokenized rest later) :
    Tokenized (Text.decimal value ++ rest) (.numeral value :: later) := by
  have digits : ∀ c ∈ Text.decimal value, Text.isDigit c = true := fun _ =>
    Text.isDigit_of_mem_decimal
  have taken := Text.takeWhile_append digits stops
  have denoted := Text.decimalValue_decimal value
  obtain ⟨c, tail, written, digit⟩ := Text.exists_decimal_eq_cons value
  rw [written] at denoted
  rw [written, List.cons_append, List.takeWhile_cons_of_pos digit] at taken
  have found := tokenAt_digit c (tail ++ rest) digit
  rw [(List.cons.inj taken).2, denoted] at found
  rw [written]
  refine tokenized_of_tokenAt found Token.noConfusion ?_
  rwa [List.cons_append, List.drop_succ_cons, List.drop_left]

theorem tokenized_symbol (operator : Operator) {rest : List Char} {later : List Token}
    (cut : Tokenized rest later) :
    Tokenized (operator.symbol.toList ++ ' ' :: rest) (.operator operator :: later) := by
  have found : tokenAt (operator.symbol.toList ++ ' ' :: rest) =
      (some (.operator operator), operator.symbol.toList.length) := by
    cases operator <;> rfl
  refine tokenized_of_tokenAt found Token.noConfusion ?_
  rw [List.drop_left]
  exact tokenized_space cut

/-- A written rule does not begin with an equals sign, which would make one token with a bang. -/
theorem Expr.exists_written_eq_cons (rule : Expr) :
    ∃ c rest, rule.written = c :: rest ∧ c ≠ '=' := by
  cases rule with
  | count => exact ⟨'n', _, rfl, by decide⟩
  | not inner => exact ⟨'!', _, rfl, by decide⟩
  | binary operator left right => exact ⟨'(', _, rfl, by decide⟩
  | conditional condition chosen otherwise => exact ⟨'(', _, rfl, by decide⟩
  | literal value =>
    obtain ⟨c, rest, written, numeric⟩ := Text.exists_signedDecimal_eq_cons value.toInt
    refine ⟨c, rest, written, ?_⟩
    rintro rfl
    exact absurd numeric (by decide)

theorem tokenized_written (rule : Expr) {rest : List Char} {later : List Token}
    (stops : Text.Without Text.isDigit rest) (cut : Tokenized rest later) :
    Tokenized (rule.written ++ rest) (rule.tokens ++ later) := by
  have mark : ∀ {c : Char} (text : List Char), Text.isDigit c = false →
      Text.Without Text.isDigit (c :: text) := by
    rintro c text none d ⟨⟩
    exact none
  induction rule generalizing rest later with
  | count => exact tokenized_mark (fun _ => rfl) (by decide) cut
  | literal value =>
    rw [Expr.written, Expr.tokens, Text.signedDecimal]
    split
    · exact tokenized_mark (fun _ => rfl) (by decide) (tokenized_decimal _ stops cut)
    · exact tokenized_decimal _ stops cut
  | not inner ih =>
    have inside := ih stops cut
    obtain ⟨c, tail, written, other⟩ := inner.exists_written_eq_cons
    have found : tokenAt ('!' :: (inner.written ++ rest)) = (some .bang, 1) := by
      rw [written]
      simp [tokenAt, other]
    exact tokenized_of_tokenAt found (by decide) inside
  | binary operator left right ihLeft ihRight =>
    have closing := tokenized_mark (c := ')') (fun _ => rfl) (by decide) cut
    have second := ihRight (mark rest rfl) closing
    have symbol := tokenized_space (tokenized_symbol operator second)
    have first := ihLeft (mark _ rfl) symbol
    have whole := tokenized_mark (c := '(') (fun _ => rfl) (by decide) first
    simpa [Expr.written, Expr.tokens] using whole
  | conditional condition chosen otherwise ihCondition ihChosen ihOtherwise =>
    have closing := tokenized_mark (c := ')') (fun _ => rfl) (by decide) cut
    have third := tokenized_space (ihOtherwise (mark rest rfl) closing)
    have colon := tokenized_space (tokenized_mark (c := ':') (fun _ => rfl) (by decide) third)
    have second := tokenized_space (ihChosen (mark _ rfl) colon)
    have question := tokenized_space (tokenized_mark (c := '?') (fun _ => rfl) (by decide) second)
    have first := ihCondition (mark _ rfl) question
    have whole := tokenized_mark (c := '(') (fun _ => rfl) (by decide) first
    simpa [Expr.written, Expr.tokens] using whole

theorem derives_tokens {rule : Expr} (natural : ∀ value ∈ rule.literals, 0 ≤ value) :
    Derives .negation rule.tokens rule := by
  induction rule with
  | count => exact .tighter .count
  | literal value =>
    have positive : 0 ≤ value.toInt := by
      have bound := natural value List.mem_cons_self
      rwa [Int64.le_iff_toInt_le] at bound
    have small : value.toInt.natAbs < 2 ^ 63 := by
      have bound := value.toInt_lt
      omega
    have same : Int64.ofNat value.toInt.natAbs = value := by
      rw [← Int64.ofInt_eq_ofNat, Int.natAbs_of_nonneg positive, Int64.ofInt_toInt]
    have derives := Derives.literal small
    rw [same] at derives
    rw [Expr.tokens, if_neg (Int.not_lt.2 positive)]
    exact .tighter derives
  | not inner ih => exact .negation (ih natural)
  | binary operator left right ihLeft ihRight =>
    rw [Expr.literals, List.forall_mem_append] at natural
    obtain ⟨level, member⟩ := Level.exists_mem_operators operator
    have strength := Level.strength_eq_rank member
    have limit := operator.strength_le
    have next := Level.rank_tighter member
    have first : Derives level left.tokens left :=
      derives_of_rank_le (by rw [← strength]; exact Nat.le_succ_of_le limit) (ihLeft natural.1)
    have second : Derives level.tighter right.tokens right :=
      derives_of_rank_le (by rw [next, ← strength]; exact Nat.succ_le_succ limit)
        (ihRight natural.2)
    have whole : Derives .conditional _ (.binary operator left right) :=
      derives_of_rank_le (Nat.zero_le _) (.binary member first second)
    exact .tighter (.group whole)
  | conditional condition chosen otherwise ihCondition ihChosen ihOtherwise =>
    rw [Expr.literals, List.forall_mem_append, List.forall_mem_append] at natural
    have first : Derives .disjunction condition.tokens condition :=
      derives_of_rank_le (by decide) (ihCondition natural.1.1)
    have second : Derives .conditional chosen.tokens chosen :=
      derives_of_rank_le (by decide) (ihChosen natural.1.2)
    have third : Derives .conditional otherwise.tokens otherwise :=
      derives_of_rank_le (by decide) (ihOtherwise natural.2)
    exact .tighter (.group (.conditional first second third))

theorem readTokens_tokens {rule : Expr} (natural : ∀ value ∈ rule.literals, 0 ≤ value)
    (frames : List Frame) (later : List Token) :
    readTokens (.wanting frames) (rule.tokens ++ later) =
      readTokens (settle frames rule) later := by
  obtain ⟨pending, value, read, waits⟩ :=
    readTokens_of_derives (derives_tokens natural) frames (awaits_negation frames)
  obtain ⟨rfl, rfl⟩ := waits.eq_nil (Nat.le_refl 7)
  exact readTokens_append later read

theorem readTokens_openGroup (frames : List Frame) (tokens : List Token) :
    readTokens (.wanting frames) (.openGroup :: tokens) =
      readTokens (.wanting (.group :: frames)) tokens :=
  readTokens_cons tokens rfl

/-- A negative literal is refused wherever it stands in a rule. -/
theorem readTokens_refused {rule : Expr} (negative : ¬∀ value ∈ rule.literals, 0 ≤ value)
    (frames : List Frame) (later : List Token) :
    ∃ fault, readTokens (.wanting frames) (rule.tokens ++ later) = .error fault := by
  -- The parts before the first negative literal are read; there a minus sign is in the way.
  induction rule generalizing frames later with
  | count => exact absurd (List.forall_mem_nil _) negative
  | literal value =>
    have below : value.toInt < 0 := by
      rw [Expr.literals, List.forall_mem_singleton, Int64.le_iff_toInt_le] at negative
      exact Int.not_le.1 negative
    rw [Expr.tokens, if_pos below]
    exact ⟨_, rfl⟩
  | not inner ih => exact ih negative (.negation :: frames) later
  | binary operator left right ihLeft ihRight =>
    rw [Expr.literals, List.forall_mem_append] at negative
    simp only [Expr.tokens, List.cons_append, List.append_assoc, readTokens_openGroup]
    by_cases first : ∀ value ∈ left.literals, 0 ≤ value
    · have next : ∀ tokens, readTokens (settle (.group :: frames) left)
          (.operator operator :: tokens) =
          readTokens (.wanting (.operand operator left :: .group :: frames)) tokens :=
        fun tokens => readTokens_cons tokens rfl
      rw [readTokens_tokens first, next]
      exact ihRight (fun second => negative ⟨first, second⟩) _ _
    · exact ihLeft first _ _
  | conditional condition chosen otherwise ihCondition ihChosen ihOtherwise =>
    rw [Expr.literals, List.forall_mem_append, List.forall_mem_append] at negative
    simp only [Expr.tokens, List.cons_append, List.append_assoc, readTokens_openGroup]
    by_cases first : ∀ value ∈ condition.literals, 0 ≤ value
    · have question : ∀ tokens, readTokens (settle (.group :: frames) condition)
          (.question :: tokens) =
          readTokens (.wanting (.chosen condition :: .group :: frames)) tokens :=
        fun tokens => readTokens_cons tokens rfl
      rw [readTokens_tokens first, question]
      by_cases second : ∀ value ∈ chosen.literals, 0 ≤ value
      · have colon : ∀ tokens, readTokens (settle (.chosen condition :: .group :: frames) chosen)
            (.colon :: tokens) =
            readTokens (.wanting (.otherwise condition chosen :: .group :: frames)) tokens :=
          fun tokens => readTokens_cons tokens rfl
        rw [readTokens_tokens second, colon]
        exact ihOtherwise (fun third => negative ⟨⟨first, second⟩, third⟩) _ _
      · exact ihChosen second _ _
    · exact ihCondition first _ _

/-! The parentheses of a written rule nest as deep as the rule. -/

theorem nestsWithin_nil (limit : Nat) : NestsWithin limit [] := by
  intro before leading
  rw [List.prefix_nil.1 leading]
  exact Nat.zero_le _

theorem nestsWithin_append {limit : Nat} {first : List Char} (second : List Char)
    (balanced : Balanced first) :
    NestsWithin limit (first ++ second) ↔ NestsWithin limit first ∧ NestsWithin limit second := by
  have even := balanced.even
  constructor
  · intro nests
    refine ⟨fun before leading => nests before (List.prefix_append_of_prefix leading), ?_⟩
    intro before leading
    have bound := nests (first ++ before) ((List.prefix_append_right_inj first).2 leading)
    rw [List.count_append, List.count_append] at bound
    omega
  · rintro ⟨nests, nests'⟩ before leading
    rcases List.prefix_or_prefix_of_prefix leading (List.prefix_append first second) with
      inside | ⟨rest, rfl⟩
    · exact nests before inside
    · have bound := nests' rest ((List.prefix_append_right_inj first).1 leading)
      rw [List.count_append, List.count_append]
      omega

theorem nestsWithin_enclose (limit : Nat) {text : List Char} (balanced : Balanced text) :
    NestsWithin limit ('(' :: text ++ [')']) ↔
      ∃ inner, limit = inner + 1 ∧ NestsWithin inner text := by
  have even := balanced.even
  constructor
  · intro nests
    have inside : ∀ before, before <+: text →
        before.count '(' + 1 ≤ before.count ')' + limit := by
      intro before leading
      have bound := nests ('(' :: before)
        ((List.prefix_cons_inj '(').2 (List.prefix_append_of_prefix leading))
      simpa using bound
    have positive : 1 ≤ limit := by simpa using inside [] List.nil_prefix
    refine ⟨limit - 1, by omega, fun before leading => ?_⟩
    have bound := inside before leading
    omega
  · rintro ⟨inner, rfl, nests⟩ before leading
    rcases List.prefix_cons_iff.1 leading with rfl | ⟨behind, rfl, within⟩
    · exact Nat.zero_le _
    · have bound : behind.count '(' + 1 ≤ behind.count ')' + (inner + 1) := by
        rcases List.prefix_concat_iff.1 within with rfl | inside
        · simp [List.count_append, even]
        · exact Nat.succ_le_succ (nests behind inside)
      simpa using bound

theorem parentheses_literal (value : Int64) :
    (Expr.literal value).tokens.flatMap Token.parentheses = [] := by
  rw [Expr.tokens]
  split <;> rfl

theorem parentheses_binary (operator : Operator) (left right : Expr) :
    (Expr.binary operator left right).tokens.flatMap Token.parentheses =
      '(' :: (left.tokens.flatMap Token.parentheses ++ right.tokens.flatMap Token.parentheses) ++
        [')'] := by
  simp [Expr.tokens, Token.parentheses]

theorem parentheses_conditional (condition chosen otherwise : Expr) :
    (Expr.conditional condition chosen otherwise).tokens.flatMap Token.parentheses =
      '(' :: (condition.tokens.flatMap Token.parentheses ++
        (chosen.tokens.flatMap Token.parentheses ++
          otherwise.tokens.flatMap Token.parentheses)) ++ [')'] := by
  simp [Expr.tokens, Token.parentheses]

theorem balanced_tokens (rule : Expr) : Balanced (rule.tokens.flatMap Token.parentheses) := by
  induction rule with
  | count => exact .nil
  | literal value =>
    rw [parentheses_literal]
    exact .nil
  | not inner ih => exact ih
  | binary operator left right ihLeft ihRight =>
    rw [parentheses_binary]
    exact (ihLeft.append ihRight).enclose
  | conditional condition chosen otherwise ihCondition ihChosen ihOtherwise =>
    rw [parentheses_conditional]
    exact (ihCondition.append (ihChosen.append ihOtherwise)).enclose

theorem nestsWithin_tokens (rule : Expr) (limit : Nat) :
    NestsWithin limit (rule.tokens.flatMap Token.parentheses) ↔ rule.depth ≤ limit := by
  induction rule generalizing limit with
  | count => exact iff_of_true (nestsWithin_nil limit) (Nat.zero_le _)
  | literal value =>
    rw [parentheses_literal]
    exact iff_of_true (nestsWithin_nil limit) (Nat.zero_le _)
  | not inner ih => exact ih limit
  | binary operator left right ihLeft ihRight =>
    have inside := balanced_tokens left
    simp only [parentheses_binary, nestsWithin_enclose limit (inside.append (balanced_tokens right)),
      nestsWithin_append _ inside, ihLeft, ihRight, Expr.depth]
    constructor
    · rintro ⟨inner, rfl, bounds⟩
      omega
    · intro bound
      exact ⟨limit - 1, by omega, by omega⟩
  | conditional condition chosen otherwise ihCondition ihChosen ihOtherwise =>
    have inside := balanced_tokens condition
    have inside' := balanced_tokens chosen
    have rest := inside'.append (balanced_tokens otherwise)
    simp only [parentheses_conditional, nestsWithin_enclose limit (inside.append rest),
      nestsWithin_append _ inside, nestsWithin_append _ inside', ihCondition, ihChosen, ihOtherwise,
      Expr.depth]
    constructor
    · rintro ⟨inner, rfl, bounds⟩
      omega
    · intro bound
      exact ⟨limit - 1, by omega, by omega⟩

/-- The rule can be read where it is written: it has no negative literal, is short, and no path of
it holds too many operations of two or three operands. -/
structure Expr.Legible (rule : Expr) : Prop where
  natural : ∀ value ∈ rule.literals, 0 ≤ value
  short : (toString rule).length ≤ 1000
  shallow : ∀ operations, rule.Path operations → operations ≤ 64

theorem toList_toString (rule : Expr) : (toString rule).toList = rule.written :=
  String.toList_ofList

/-- The grammar derives nothing but the rule from its tokens, and that only without negative
literals. -/
theorem derives_tokens_iff (rule other : Expr) :
    Derives .conditional rule.tokens other ↔
      other = rule ∧ ∀ value ∈ rule.literals, 0 ≤ value := by
  constructor
  · intro derives
    have natural : ∀ value ∈ rule.literals, 0 ≤ value := by
      refine Classical.byContradiction fun negative => ?_
      obtain ⟨final, read, _⟩ := finish_of_derives derives
      obtain ⟨fault, refused⟩ := readTokens_refused negative [] []
      rw [List.append_nil, read] at refused
      cases refused
    have own : Derives .conditional rule.tokens rule :=
      derives_of_rank_le (Nat.zero_le _) (derives_tokens natural)
    exact ⟨derives.unique own, natural⟩
  · rintro ⟨rfl, natural⟩
    exact derives_of_rank_le (Nat.zero_le _) (derives_tokens natural)

theorem parse_toString_eq_ok_iff (rule other : Expr) :
    parse (toString rule) = .ok other ↔ other = rule ∧ rule.Legible := by
  have cut : Tokenized rule.written rule.tokens := by
    have whole := @tokenized_written rule [] [] (fun _ member => nomatch member) .nil
    rwa [List.append_nil, List.append_nil] at whole
  have nests : NestsWithin maxNesting rule.written ↔
      ∀ operations, rule.Path operations → operations ≤ maxNesting := by
    rw [← nestsWithin_parentheses, cut.parentheses_eq, nestsWithin_tokens, Expr.depth_le_iff]
  have derived : (∃ tokens, Tokenized rule.written tokens ∧ Derives .conditional tokens other) ↔
      other = rule ∧ ∀ value ∈ rule.literals, 0 ≤ value := by
    rw [← derives_tokens_iff]
    constructor
    · rintro ⟨tokens, other, derives⟩
      rwa [cut.unique other]
    · intro derives
      exact ⟨rule.tokens, cut, derives⟩
  rw [parse_eq_ok_iff_derives, toList_toString, nests, derived]
  constructor
  · rintro ⟨short, shallow, same, natural⟩
    exact ⟨same, natural, short, shallow⟩
  · rintro ⟨same, natural, short, shallow⟩
    exact ⟨short, shallow, same, natural⟩

/-- A written rule is read back exactly if it has no negative literal, at most a thousand
characters, and on every path at most sixty-four operations of two or three operands; else
its text is refused. -/
theorem parse_toString (rule : Expr) :
    (parse (toString rule) = .ok rule ↔ rule.Legible) ∧
      ((∃ refusal, parse (toString rule) = .error refusal) ↔ ¬rule.Legible) := by
  have known := parse_toString_eq_ok_iff rule
  refine ⟨(known rule).trans (and_iff_right rfl), ?_⟩
  constructor
  · rintro ⟨refusal, refused⟩ legible
    rw [(known rule).2 ⟨rfl, legible⟩] at refused
    cases refused
  · intro illegible
    cases read : parse (toString rule) with
    | ok other => exact absurd ((known other).1 read).2 illegible
    | error refusal => exact ⟨refusal, rfl⟩

end Phrasebook.Plural
