import Phrasebook.Proofs.Except
import Phrasebook.Proofs.Plural.Grammar

/-!
The reader of plural expressions follows the grammar. Forwards, the tokens of an expression
leave it in the hands of the reader, up to operations that the next token will complete.
Backwards, the waiting operations and the tokens read so far are always parts of a derivation.
-/

namespace Phrasebook.Plural

namespace Level

def rank : Level → Nat
  | conditional => 0
  | disjunction => 1
  | conjunction => 2
  | equality => 3
  | comparison => 4
  | sum => 5
  | product => 6
  | negation => 7
  | operand => 8

theorem rank_le_tighter (level : Level) : level.rank ≤ level.tighter.rank := by
  cases level <;> decide

theorem rank_injective {level other : Level} (same : level.rank = other.rank) : level = other := by
  cases level <;> cases other <;> first | rfl | exact absurd same (by decide)

theorem rank_le_operand (level : Level) : level.rank ≤ operand.rank := by
  cases level <;> decide

theorem rank_tighter_of_ne {level : Level} (loose : level ≠ operand) :
    level.tighter.rank = level.rank + 1 := by
  cases level <;> first | rfl | exact absurd rfl loose

theorem strength_eq_rank {level : Level} {operator : Operator}
    (member : operator ∈ level.operators) : operator.strength = level.rank := by
  cases level <;> cases operator <;> first | rfl | exact absurd member (by decide)

theorem rank_tighter {level : Level} {operator : Operator} (member : operator ∈ level.operators) :
    level.tighter.rank = level.rank + 1 := by
  apply rank_tighter_of_ne
  intro same
  subst same
  exact absurd member List.not_mem_nil

theorem exists_mem_operators (operator : Operator) :
    ∃ level : Level, operator ∈ level.operators := by
  cases operator with
  | or => exact ⟨disjunction, by decide⟩
  | and => exact ⟨conjunction, by decide⟩
  | equal | notEqual => exact ⟨equality, by decide⟩
  | less | lessOrEqual | greater | greaterOrEqual => exact ⟨comparison, by decide⟩
  | add | subtract => exact ⟨sum, by decide⟩
  | multiply | divide | remainder => exact ⟨product, by decide⟩

end Level

theorem Operator.strength_pos (operator : Operator) : 1 ≤ operator.strength := by
  cases operator <;> decide

theorem Operator.strength_le (operator : Operator) : operator.strength ≤ 6 := by
  cases operator <;> decide

def readTokens (state : State) (tokens : List Token) : Except Fault State :=
  tokens.foldlM (fun state token => step state token []) state

theorem readTokens_append {state middle : State} {first : List Token} (second : List Token)
    (read : readTokens state first = .ok middle) :
    readTokens state (first ++ second) = readTokens middle second := by
  have split : readTokens state (first ++ second) =
      (readTokens state first).bind (readTokens · second) := List.foldlM_append
  exact split.trans (congrArg (·.bind (readTokens · second)) read)

theorem readTokens_cons {state middle : State} {token : Token} (tokens : List Token)
    (read : step state token [] = .ok middle) :
    readTokens state (token :: tokens) = readTokens middle tokens := by
  have split : readTokens state (token :: tokens) =
      (step state token []).bind (readTokens · tokens) := List.foldlM_cons
  exact split.trans (congrArg (·.bind (readTokens · tokens)) read)

theorem step_eq_ok_iff (state next : State) (token : Token) (text : List Char) :
    step state token text = .ok next ↔ step state token [] = .ok next := by
  cases state with
  | wanting frames =>
    cases token <;> simp [step]
  | holding frames value =>
    cases token <;> simp only [step, reduceCtorEq]
    all_goals
      rcases applyAll frames value with ⟨_ | ⟨frame, outer⟩, applied⟩
      · simp
      · cases frame <;> simp

theorem run_eq_ok_iff (state : State) (lexemes : List Lexeme) (rule : Expr) :
    run state lexemes = .ok rule ↔
      ∃ final, readTokens state (lexemes.map Prod.fst) = .ok final ∧ finish final = .ok rule := by
  induction lexemes generalizing state with
  | nil =>
    rw [run, mapError_eq_ok_iff]
    constructor
    · intro ended
      exact ⟨state, rfl, ended⟩
    · rintro ⟨final, read, ended⟩
      cases read
      exact ended
  | cons lexeme rest ih =>
    obtain ⟨token, text⟩ := lexeme
    rw [List.map_cons]
    cases read : step state token text with
    | ok next =>
      have same := (step_eq_ok_iff state next token text).1 read
      rw [run, read, readTokens_cons _ same]
      exact ih next
    | error fault =>
      cases bare : step state token [] with
      | ok next =>
        rw [(step_eq_ok_iff state next token text).2 bare] at read
        cases read
      | error fault =>
        simp [run, read, readTokens, bare, bind, Except.bind]

/-- Whether an operand of a level stays in place on top of the stack, so that the innermost
waiting operation does not take it before it is complete. -/
def Awaits (rank : Nat) : List Frame → Prop
  | .negation :: _ => 7 ≤ rank
  | .operand operator _ :: _ => operator.strength < rank
  | _ => True

/-- The innermost operations only wait for their last operand. Once the value is given to them
they become one rule, of a level at least as tight as the rank. -/
inductive Pending : Nat → List Frame → Expr → Expr → Prop
  | nil {rank rule} : Pending rank [] rule rule
  | operand {rank frames operator left value rule} :
      rank ≤ operator.strength → Pending rank frames (.binary operator left value) rule →
      Pending rank (.operand operator left :: frames) value rule
  | otherwise {frames condition chosen value rule} :
      Pending 0 frames (.conditional condition chosen value) rule →
      Pending 0 (.otherwise condition chosen :: frames) value rule

namespace Pending

variable {rank : Nat} {frames outer : List Frame} {value middle rule : Expr}

theorem mono {looser : Nat} (bound : looser ≤ rank) (pending : Pending rank frames value rule) :
    Pending looser frames value rule := by
  induction pending with
  | nil => exact .nil
  | operand tight _ ih => exact .operand (Nat.le_trans bound tight) (ih bound)
  | otherwise _ ih =>
    obtain rfl := Nat.le_zero.1 bound
    exact .otherwise (ih bound)

theorem append (inner : Pending rank frames value middle) (rest : Pending rank outer middle rule) :
    Pending rank (frames ++ outer) value rule := by
  induction inner with
  | nil => exact rest
  | operand tight _ ih => exact .operand tight (ih rest)
  | otherwise _ ih => exact .otherwise (ih rest)

theorem eq_nil (tight : 7 ≤ rank) (pending : Pending rank frames value rule) :
    frames = [] ∧ value = rule := by
  cases pending with
  | nil => exact ⟨rfl, rfl⟩
  | @operand _ _ operator _ _ _ bound _ =>
    have limit := operator.strength_le
    omega
  | otherwise _ => omega

theorem settle_eq (pending : Pending rank frames value rule) (loose : rank ≤ 6)
    (outer : List Frame) (awaits : Awaits rank outer) :
    settle (frames ++ outer) value = .holding (frames ++ outer) value := by
  cases pending with
  | nil =>
    cases outer with
    | nil => rfl
    | cons frame outer =>
      cases frame <;> try rfl
      simp only [Awaits] at awaits
      omega
  | _ => rfl

theorem applyOperators_eq (pending : Pending rank frames value rule) (positive : 1 ≤ rank)
    {strength : Nat} (bound : strength ≤ rank) (awaits : Awaits strength outer) :
    applyOperators strength (frames ++ outer) value = (outer, rule) := by
  induction pending with
  | nil =>
    cases outer with
    | nil => rfl
    | cons frame outer =>
      cases frame <;> try rfl
      simp only [Awaits] at awaits
      rw [List.nil_append, applyOperators, if_neg (by omega)]
  | operand tight _ ih =>
    rw [List.cons_append, applyOperators, if_pos (Nat.le_trans bound tight)]
    exact ih positive bound
  | otherwise => omega

theorem applyAll_eq (pending : Pending rank frames value rule) (outer : List Frame) :
    applyAll (frames ++ outer) value = applyAll outer rule := by
  induction pending with
  | nil => rfl
  | operand _ _ ih => exact ih
  | otherwise _ ih => exact ih

end Pending

theorem awaits_of_le {rank tighter : Nat} {frames : List Frame} (bound : rank ≤ tighter)
    (awaits : Awaits rank frames) : Awaits tighter frames := by
  cases frames with
  | nil => trivial
  | cons frame frames =>
    cases frame <;> simp only [Awaits] at awaits ⊢ <;> omega

/-- Every waiting operation leaves a negation in place. -/
theorem awaits_negation (frames : List Frame) : Awaits 7 frames := by
  cases frames with
  | nil => trivial
  | cons frame frames =>
    cases frame with
    | operand operator left => exact Nat.lt_succ_of_le operator.strength_le
    | negation => exact Nat.le_refl 7
    | _ => trivial

/-- The tokens of an expression are read in front of any waiting operations that leave an
operand of its level in place. -/
theorem readTokens_of_derives {level : Level} {tokens : List Token} {rule : Expr}
    (derives : Derives level tokens rule) (frames : List Frame)
    (awaits : Awaits level.rank frames) :
    ∃ pending value, readTokens (.wanting frames) tokens = .ok (settle (pending ++ frames) value) ∧
      Pending level.rank pending value rule := by
  -- On the derivation. What waits in front is left alone, so the parts are read one by one.
  induction derives generalizing frames with
  | @tighter level _ _ _ ih =>
    have bound := level.rank_le_tighter
    obtain ⟨pending, value, read, waits⟩ := ih frames (awaits_of_le bound awaits)
    exact ⟨pending, value, read, waits.mono bound⟩
  | @conditional conditionTokens chosenTokens otherwiseTokens condition chosen otherwise _ _ _
      ihCondition ihChosen ihOtherwise =>
    obtain ⟨first, value, readFirst, waitsFirst⟩ :=
      ihCondition frames (awaits_of_le (by decide) awaits)
    obtain ⟨second, value', readSecond, waitsSecond⟩ :=
      ihChosen (.chosen condition :: frames) trivial
    obtain ⟨third, value'', readThird, waitsThird⟩ :=
      ihOtherwise (.otherwise condition chosen :: frames) trivial
    have waits : Pending 0 (third ++ [.otherwise condition chosen]) value''
        (.conditional condition chosen otherwise) :=
      Pending.append waitsThird (.otherwise .nil)
    refine ⟨_, value'', ?_, waits⟩
    have question : step (settle (first ++ frames) value) .question [] =
        .ok (.wanting (.chosen condition :: frames)) := by
      rw [waitsFirst.settle_eq (by decide) frames (awaits_of_le (by decide) awaits)]
      simp only [step, waitsFirst.applyOperators_eq (Nat.le_refl 1) (Nat.zero_le 1) awaits]
    have colon : step (settle (second ++ .chosen condition :: frames) value') .colon [] =
        .ok (.wanting (.otherwise condition chosen :: frames)) := by
      rw [waitsSecond.settle_eq (by decide) (.chosen condition :: frames) trivial]
      simp only [step, waitsSecond.applyAll_eq, applyAll]
    calc
      _ = readTokens (.wanting frames)
          (conditionTokens ++ .question :: (chosenTokens ++ .colon :: otherwiseTokens)) := by
        rw [List.append_assoc, List.cons_append]
      _ = readTokens (settle (first ++ frames) value)
          (.question :: (chosenTokens ++ .colon :: otherwiseTokens)) :=
        readTokens_append _ readFirst
      _ = readTokens (.wanting (.chosen condition :: frames))
          (chosenTokens ++ .colon :: otherwiseTokens) :=
        readTokens_cons _ question
      _ = readTokens (settle (second ++ .chosen condition :: frames) value')
          (.colon :: otherwiseTokens) :=
        readTokens_append _ readSecond
      _ = readTokens (.wanting (.otherwise condition chosen :: frames)) otherwiseTokens :=
        readTokens_cons _ colon
      _ = .ok (settle (third ++ .otherwise condition chosen :: frames) value'') := readThird
      _ = _ := by rw [List.append_assoc, List.singleton_append]
  | @binary level operator leftTokens rightTokens left right member _ _ ihLeft ihRight =>
    have strength := Level.strength_eq_rank member
    have positive := operator.strength_pos
    have limit := operator.strength_le
    obtain ⟨first, value, readFirst, waitsFirst⟩ := ihLeft frames awaits
    obtain ⟨second, value', readSecond, waitsSecond⟩ :=
      ihRight (.operand operator left :: frames) (by
        rw [Awaits, strength, Level.rank_tighter member]
        exact Nat.lt_succ_self _)
    have waits : Pending level.rank (second ++ [.operand operator left]) value'
        (.binary operator left right) :=
      (waitsSecond.mono level.rank_le_tighter).append (.operand (Nat.le_of_eq strength.symm) .nil)
    refine ⟨_, value', ?_, waits⟩
    have operation : step (settle (first ++ frames) value) (.operator operator) [] =
        .ok (.wanting (.operand operator left :: frames)) := by
      rw [waitsFirst.settle_eq (by omega) frames awaits]
      simp only [step, strength]
      rw [waitsFirst.applyOperators_eq (by omega) (Nat.le_refl _) awaits]
    calc
      readTokens (.wanting frames) (leftTokens ++ .operator operator :: rightTokens)
      _ = readTokens (settle (first ++ frames) value) (.operator operator :: rightTokens) :=
        readTokens_append _ readFirst
      _ = readTokens (.wanting (.operand operator left :: frames)) rightTokens :=
        readTokens_cons _ operation
      _ = .ok (settle (second ++ .operand operator left :: frames) value') := readSecond
      _ = _ := by rw [List.append_assoc, List.singleton_append]
  | @negation _ inner _ ih =>
    obtain ⟨pending, value, read, waits⟩ := ih (.negation :: frames) (Nat.le_refl 7)
    obtain ⟨rfl, rfl⟩ := waits.eq_nil (Nat.le_refl 7)
    exact ⟨[], .not value, (readTokens_cons _ rfl).trans read, .nil⟩
  | count => exact ⟨[], .count, rfl, .nil⟩
  | @literal value small =>
    refine ⟨[], .literal (Int64.ofNat value), ?_, .nil⟩
    exact readTokens_cons [] (if_pos small)
  | @group tokens inner _ ih =>
    obtain ⟨pending, value, read, waits⟩ := ih (.group :: frames) trivial
    have closing : step (settle (pending ++ .group :: frames) value) .closeGroup [] =
        .ok (settle frames inner) := by
      rw [waits.settle_eq (by decide) (.group :: frames) trivial]
      simp only [step, waits.applyAll_eq, applyAll]
    refine ⟨[], inner, ?_, .nil⟩
    calc
      readTokens (.wanting frames) (.openGroup :: tokens ++ [.closeGroup])
      _ = readTokens (.wanting (.group :: frames)) (tokens ++ [.closeGroup]) := readTokens_cons _ rfl
      _ = readTokens (settle (pending ++ .group :: frames) value) [.closeGroup] :=
        readTokens_append _ read
      _ = .ok (settle frames inner) := readTokens_cons [] closing

theorem finish_of_derives {tokens : List Token} {rule : Expr}
    (derives : Derives .conditional tokens rule) :
    ∃ final, readTokens (.wanting []) tokens = .ok final ∧ finish final = .ok rule := by
  obtain ⟨pending, value, read, waits⟩ := readTokens_of_derives derives [] trivial
  refine ⟨_, read, ?_⟩
  rw [waits.settle_eq (by decide) [] trivial, finish, waits.applyAll_eq []]
  rfl

/-- The waiting operations were opened by the tokens, and each of them may stand where it does:
the operands that it has are derived at their levels, and it is itself no operand of a waiting
operation that binds more tightly. -/
inductive Opened : List Frame → List Token → Prop
  | nil : Opened [] []
  | group {frames tokens} :
      Opened frames tokens → Opened (.group :: frames) (tokens ++ [.openGroup])
  | negation {frames tokens} :
      Opened frames tokens → Opened (.negation :: frames) (tokens ++ [.bang])
  | operand {frames tokens level operator leftTokens left} :
      Opened frames tokens → operator ∈ level.operators → Awaits level.rank frames →
      Derives level leftTokens left →
      Opened (.operand operator left :: frames) (tokens ++ leftTokens ++ [.operator operator])
  | chosen {frames tokens conditionTokens condition} :
      Opened frames tokens → Awaits 0 frames → Derives .disjunction conditionTokens condition →
      Opened (.chosen condition :: frames) (tokens ++ conditionTokens ++ [.question])
  | otherwise {frames tokens conditionTokens chosenTokens condition chosen} :
      Opened frames tokens → Awaits 0 frames → Derives .disjunction conditionTokens condition →
      Derives .conditional chosenTokens chosen →
      Opened (.otherwise condition chosen :: frames)
        (tokens ++ conditionTokens ++ .question :: chosenTokens ++ [.colon])

/-- The innermost waiting operation is not a negation, which would have taken its operand. -/
def Settled : List Frame → Prop
  | .negation :: _ => False
  | _ => True

structure Holds (level : Level) (frames : List Frame) (value : Expr) (tokens : List Token) :
    Prop where
  settled : Settled frames
  awaits : Awaits level.rank frames
  split : ∃ before operand, tokens = before ++ operand ∧ Opened frames before ∧
    Derives level operand value

def Invariant (tokens : List Token) : State → Prop
  | .wanting frames => Opened frames tokens
  | .holding frames value => Holds .negation frames value tokens

theorem derives_of_rank_le {level tighter : Level} {tokens : List Token} {rule : Expr}
    (bound : level.rank ≤ tighter.rank) (derives : Derives tighter tokens rule) :
    Derives level tokens rule := by
  by_cases same : level.rank = tighter.rank
  · exact Level.rank_injective same ▸ derives
  · have loose : level ≠ .operand := by
      rintro rfl
      exact same (Nat.le_antisymm bound tighter.rank_le_operand)
    have next := Level.rank_tighter_of_ne loose
    exact .tighter (derives_of_rank_le (by omega) derives)
termination_by tighter.rank - level.rank

theorem settled_of_awaits {rank : Nat} {frames : List Frame} (loose : rank ≤ 6)
    (awaits : Awaits rank frames) : Settled frames := by
  cases frames with
  | nil => trivial
  | cons frame frames =>
    cases frame <;> try trivial
    simp only [Awaits] at awaits
    omega

/-- No operator binds so loosely that it could wait for the condition of a conditional. -/
theorem awaits_zero_of_one {frames : List Frame} (awaits : Awaits 1 frames) : Awaits 0 frames := by
  cases frames with
  | nil => trivial
  | cons frame frames =>
    cases frame with
    | operand operator left => exact absurd operator.strength_pos (Nat.not_le_of_lt awaits)
    | negation => exact absurd (show 7 ≤ 1 from awaits) (by decide)
    | _ => trivial

namespace Holds

variable {level target : Level} {frames : List Frame} {value left : Expr} {tokens : List Token}
  {operator : Operator}

theorem loosen (bound : target.rank ≤ level.rank) (awaits : Awaits target.rank frames)
    (holds : Holds level frames value tokens) : Holds target frames value tokens := by
  obtain ⟨before, operand, split, opened, derives⟩ := holds.split
  exact ⟨holds.settled, awaits, before, operand, split, opened, derives_of_rank_le bound derives⟩

theorem apply (holds : Holds level (.operand operator left :: frames) value tokens) :
    ∃ own : Level, operator ∈ own.operators ∧
      Holds own frames (.binary operator left value) tokens := by
  obtain ⟨before, right, split, opened, derives⟩ := holds.split
  have tight : operator.strength < level.rank := holds.awaits
  cases opened with
  | @operand _ earlier own _ leftTokens _ opened member awaits leftDerives =>
    have strength := Level.strength_eq_rank member
    have limit := operator.strength_le
    have rightDerives : Derives own.tighter right value :=
      derives_of_rank_le (by rw [Level.rank_tighter member]; omega) derives
    refine ⟨own, member, settled_of_awaits (by omega) awaits, awaits, earlier, _, ?_, opened,
      .binary member leftDerives rightDerives⟩
    rw [split, List.append_assoc, List.append_assoc, List.singleton_append]

theorem branch {condition chosen : Expr}
    (holds : Holds level (.otherwise condition chosen :: frames) value tokens) :
    Holds .conditional frames (.conditional condition chosen value) tokens := by
  obtain ⟨before, last, split, opened, derives⟩ := holds.split
  cases opened with
  | @otherwise _ earlier conditionTokens chosenTokens _ _ opened awaits first second =>
    have third : Derives .conditional last value := derives_of_rank_le (Nat.zero_le _) derives
    refine ⟨settled_of_awaits (by decide) awaits, awaits, earlier, _, ?_, opened,
      .conditional first second third⟩
    rw [split]
    simp only [List.append_assoc, List.cons_append, List.nil_append]

theorem applyOperators (holds : Holds level frames value tokens) (strength : Nat)
    (bound : target.rank ≤ level.rank)
    (tight : ∀ operator : Operator, strength ≤ operator.strength ↔ target.rank ≤ operator.strength) :
    Holds target (applyOperators strength frames value).1 (applyOperators strength frames value).2
      tokens := by
  induction frames generalizing level value with
  | nil => exact holds.loosen bound trivial
  | cons frame frames ih =>
    cases frame with
    | operand operator left =>
      by_cases takes : strength ≤ operator.strength
      · obtain ⟨own, member, applied⟩ := holds.apply
        have strength := Level.strength_eq_rank member
        have enough : target.rank ≤ own.rank := strength ▸ (tight operator).1 takes
        rw [Plural.applyOperators, if_pos takes]
        exact ih applied enough
      · have stays : operator.strength < target.rank :=
          Nat.lt_of_not_le fun above => takes ((tight operator).2 above)
        rw [Plural.applyOperators, if_neg takes]
        exact holds.loosen bound stays
    | negation => exact holds.settled.elim
    | _ => exact holds.loosen bound trivial

theorem applyAll (holds : Holds level frames value tokens) :
    Holds .conditional (applyAll frames value).1 (applyAll frames value).2 tokens := by
  induction frames generalizing level value with
  | nil => exact holds.loosen (Nat.zero_le _) trivial
  | cons frame frames ih =>
    cases frame with
    | operand operator left =>
      obtain ⟨own, _, applied⟩ := holds.apply
      exact ih applied
    | otherwise condition chosen => exact ih holds.branch
    | negation => exact holds.settled.elim
    | _ => exact holds.loosen (Nat.zero_le _) trivial

end Holds

theorem invariant_settle {frames : List Frame} {before operand : List Token} {value : Expr}
    (opened : Opened frames before) (derives : Derives .negation operand value) :
    Invariant (before ++ operand) (settle frames value) := by
  induction frames generalizing before operand value with
  | nil => exact ⟨trivial, trivial, before, operand, rfl, opened, derives⟩
  | cons frame frames ih =>
    cases frame with
    | negation =>
      cases opened with
      | negation opened =>
        rw [settle, List.append_assoc]
        exact ih opened (.negation derives)
    | _ =>
      exact ⟨trivial, awaits_negation _, before, operand, rfl, opened, derives⟩

theorem invariant_step {tokens : List Token} {state next : State} {token : Token}
    (invariant : Invariant tokens state) (read : step state token [] = .ok next) :
    Invariant (tokens ++ [token]) next := by
  cases state with
  | wanting frames =>
    cases token with
    | count =>
      cases read
      exact invariant_settle invariant (.tighter .count)
    | numeral value =>
      simp only [step] at read
      split at read
      · rename_i small
        cases read
        exact invariant_settle invariant (.tighter (.literal small))
      · cases read
    | openGroup =>
      cases read
      exact .group invariant
    | bang =>
      cases read
      exact .negation invariant
    | _ => cases read
  | holding frames value =>
    have holds : Holds .negation frames value tokens := invariant
    cases token with
    | operator operator =>
      obtain ⟨level, member⟩ := Level.exists_mem_operators operator
      have strength := Level.strength_eq_rank member
      have limit := operator.strength_le
      have bound : level.rank ≤ Level.negation.rank := strength ▸ Nat.le_succ_of_le limit
      have applied := holds.applyOperators operator.strength bound fun other => by rw [strength]
      obtain ⟨before, left, split, opened, derives⟩ := applied.split
      cases read
      rw [split]
      exact .operand opened member applied.awaits derives
    | question =>
      -- Strength zero takes every operator, as strength one would.
      have applied : Holds .disjunction _ _ tokens := holds.applyOperators 0 (by decide)
        fun other => ⟨fun _ => other.strength_pos, fun _ => Nat.zero_le _⟩
      obtain ⟨before, condition, split, opened, derives⟩ := applied.split
      cases read
      rw [split]
      exact .chosen opened (awaits_zero_of_one applied.awaits) derives
    | colon =>
      have applied := holds.applyAll
      rcases result : applyAll frames value with ⟨waiting, chosen⟩
      simp only [step, result] at read applied
      obtain ⟨before, chosenTokens, split, opened, derives⟩ := applied.split
      cases opened with
      | chosen opened awaits condition =>
        cases read
        rw [split, List.append_assoc _ [Token.question]]
        exact .otherwise opened awaits condition derives
      | _ => cases read
    | closeGroup =>
      have applied := holds.applyAll
      rcases result : applyAll frames value with ⟨waiting, inner⟩
      simp only [step, result] at read applied
      obtain ⟨before, innerTokens, split, opened, derives⟩ := applied.split
      cases opened with
      | group opened =>
        cases read
        rw [split, List.append_assoc, List.append_assoc]
        exact invariant_settle opened (.tighter (.group derives))
      | _ => cases read
    | _ => cases read

theorem invariant_readTokens {before tokens : List Token} {state final : State}
    (invariant : Invariant before state) (read : readTokens state tokens = .ok final) :
    Invariant (before ++ tokens) final := by
  induction tokens generalizing before state with
  | nil =>
    cases read
    rwa [List.append_nil]
  | cons token tokens ih =>
    cases one : step state token [] with
    | ok next =>
      rw [readTokens_cons tokens one] at read
      have later := ih (invariant_step invariant one) read
      rwa [List.append_assoc, List.singleton_append] at later
    | error fault => simp [readTokens, one, bind, Except.bind] at read

theorem derives_of_finish {tokens : List Token} {rule : Expr} {final : State}
    (read : readTokens (.wanting []) tokens = .ok final) (ended : finish final = .ok rule) :
    Derives .conditional tokens rule := by
  have begun : Invariant [] (.wanting []) := Opened.nil
  have invariant : Invariant tokens final := invariant_readTokens begun read
  cases final with
  | wanting frames => cases ended
  | holding frames value =>
    have applied := Holds.applyAll invariant
    rcases result : applyAll frames value with ⟨waiting, whole⟩
    simp only [finish, result] at ended applied
    obtain ⟨before, operand, split, opened, derives⟩ := applied.split
    cases opened with
    | nil =>
      cases ended
      rw [List.nil_append] at split
      exact split ▸ derives
    | _ => cases ended

theorem readTokens_iff_derives (tokens : List Token) (rule : Expr) :
    (∃ final, readTokens (.wanting []) tokens = .ok final ∧ finish final = .ok rule) ↔
      Derives .conditional tokens rule := by
  constructor
  · rintro ⟨final, read, ended⟩
    exact derives_of_finish read ended
  · exact finish_of_derives

end Phrasebook.Plural
