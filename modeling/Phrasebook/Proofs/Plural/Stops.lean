import Phrasebook.Proofs.Plural.Acceptance
import Phrasebook.Proofs.Text.Digits
import Phrasebook.Proofs.Text.Place

/-!
Where the reading of a plural expression stops: at the first token with which no expression can go
on, or behind a text that only begins one. If the parentheses nest too deep, it stops at the first
one that does.
-/

namespace Phrasebook.Plural

def Viable (tokens : List Token) : Prop :=
  ∃ more rule, Derives .conditional (tokens ++ more) rule

theorem Viable.of_append {first second : List Token} (viable : Viable (first ++ second)) :
    Viable first := by
  obtain ⟨more, rule, derives⟩ := viable
  rw [List.append_assoc] at derives
  exact ⟨second ++ more, rule, derives⟩

theorem Derives.whole {level : Level} {tokens : List Token} {rule : Expr}
    (derives : Derives level tokens rule) : Derives .conditional tokens rule :=
  derives_of_rank_le (Nat.zero_le _) derives

/-- Whatever operations wait, once they have an operand they can be brought to their end. -/
theorem Opened.viable {frames : List Frame} {tokens operand : List Token} {level : Level}
    {value : Expr} (opened : Opened frames tokens) (awaits : Awaits level.rank frames)
    (derives : Derives level operand value) : Viable (tokens ++ operand) := by
  -- The innermost operation is completed first, and is then the operand of the next one.
  induction opened generalizing level operand value with
  | nil =>
    refine ⟨[], value, ?_⟩
    rw [List.append_nil]
    exact derives.whole
  | @group frames tokens _ ih =>
    have waits : Awaits Level.negation.rank frames := awaits_negation frames
    have grouped : Derives .negation (.openGroup :: operand ++ [.closeGroup]) value :=
      .tighter (.group derives.whole)
    have viable : Viable (tokens ++ [.openGroup] ++ operand ++ [.closeGroup]) := by
      simpa using ih waits grouped
    exact viable.of_append
  | @negation frames tokens _ ih =>
    have waits : Awaits Level.negation.rank frames := awaits_negation frames
    have negated : Derives .negation (.bang :: operand) (.not value) :=
      .negation (derives_of_rank_le awaits derives)
    simpa using ih waits negated
  | @operand frames tokens own operator leftTokens left _ member waits leftDerives ih =>
    have tight : own.tighter.rank ≤ level.rank := by
      rw [Level.rank_tighter member, ← Level.strength_eq_rank member]
      exact awaits
    have both : Derives own (leftTokens ++ .operator operator :: operand)
        (.binary operator left value) :=
      .binary member leftDerives (derives_of_rank_le tight derives)
    simpa using ih waits both
  | @chosen frames tokens conditionTokens condition _ waits conditionDerives ih =>
    have waits : Awaits Level.conditional.rank frames := waits
    have all : Derives .conditional
        (conditionTokens ++ .question :: operand ++ .colon :: [.count])
        (.conditional condition value .count) :=
      .conditional conditionDerives derives.whole Derives.count.whole
    have viable : Viable (tokens ++ conditionTokens ++ [.question] ++ operand ++
        [.colon, .count]) := by
      simpa using ih waits all
    exact viable.of_append
  | @otherwise frames tokens conditionTokens chosenTokens condition chosen _ waits
      conditionDerives chosenDerives ih =>
    have waits : Awaits Level.conditional.rank frames := waits
    have all : Derives .conditional
        (conditionTokens ++ .question :: chosenTokens ++ .colon :: operand)
        (.conditional condition chosen value) :=
      .conditional conditionDerives chosenDerives derives.whole
    simpa using ih waits all

theorem viable_of_readTokens {tokens : List Token} {state : State}
    (read : readTokens (.wanting []) tokens = .ok state) : Viable tokens := by
  have begun : Invariant [] (.wanting []) := Opened.nil
  have invariant : Invariant tokens state := invariant_readTokens begun read
  cases state with
  | wanting frames =>
    have opened : Opened frames tokens := invariant
    have waits : Awaits Level.negation.rank frames := awaits_negation frames
    exact (opened.viable waits (.tighter .count)).of_append
  | holding frames value =>
    obtain ⟨_, awaits, before, operand, split, opened, derives⟩ := invariant
    rw [split]
    exact opened.viable awaits derives

/-- No expression goes on with a token that is refused. -/
theorem not_viable_of_step {tokens : List Token} {token : Token} {text : List Char} {state : State}
    {fault : Fault} (read : readTokens (.wanting []) tokens = .ok state)
    (refused : step state token text = .error fault) : ¬Viable (tokens ++ [token]) := by
  rintro ⟨more, rule, derives⟩
  obtain ⟨final, readAll, _⟩ := finish_of_derives derives
  rw [List.append_assoc, List.singleton_append, readTokens_append _ read] at readAll
  cases taken : step state token [] with
  | ok next =>
    rw [(step_eq_ok_iff state next token text).2 taken] at refused
    cases refused
  | error other => simp [readTokens, taken, bind, Except.bind] at readAll

def textFrom : List Lexeme → List Char
  | [] => []
  | (_, text) :: _ => text

/-- The place in a text where its reading has to stop, by what is left of the text from there on:
what stands before it begins an expression, but with the token there none can go on, or the text
is at its end and is none. -/
inductive StopsAt (text : List Char) : List Char → Prop
  | token {earlier later : List Lexeme} {token : Token} {stuck : List Char} :
      lexemes text = earlier ++ (token, stuck) :: later → Viable (earlier.map Prod.fst) →
      ¬Viable (earlier.map Prod.fst ++ [token]) → StopsAt text stuck
  | endOfText :
      Viable ((lexemes text).map Prod.fst) →
      (∀ rule, ¬Derives .conditional ((lexemes text).map Prod.fst) rule) → StopsAt text []

theorem prefix_of_viable {text stuck : List Char} {token : Token}
    {earlier later first second : List Lexeme}
    (cut : lexemes text = earlier ++ (token, stuck) :: later)
    (dead : ¬Viable (earlier.map Prod.fst ++ [token])) (other : lexemes text = first ++ second)
    (viable : Viable (first.map Prod.fst)) : first <+: earlier := by
  have leading : first <+: lexemes text := ⟨second, other.symm⟩
  have through : earlier ++ [(token, stuck)] <+: lexemes text := ⟨later, by simp [cut]⟩
  rcases List.prefix_or_prefix_of_prefix leading through with inside | ⟨more, rfl⟩
  · rcases List.prefix_concat_iff.1 inside with rfl | before
    · rw [List.map_append, List.map_singleton] at viable
      exact absurd viable dead
    · exact before
  · rw [List.map_append, List.map_append, List.map_singleton] at viable
    exact absurd viable.of_append dead

theorem StopsAt.unique {text stuck other : List Char} (first : StopsAt text stuck)
    (second : StopsAt text other) : stuck = other := by
  cases first with
  | @token earlier later token stuck cut viable dead =>
    cases second with
    | @token earlier' later' token' other cut' viable' dead' =>
      have before := prefix_of_viable cut' dead' cut viable
      have behind := prefix_of_viable cut dead cut' viable'
      have same : earlier = earlier' := before.eq_of_length_le behind.length_le
      subst same
      have heads := List.append_cancel_left (cut.symm.trans cut')
      exact congrArg Prod.snd (List.cons.inj heads).1
    | endOfText viable' _ =>
      have before := prefix_of_viable cut dead (List.append_nil _).symm viable'
      have long := before.length_le
      rw [cut, List.length_append, List.length_cons] at long
      omega
  | endOfText viable _ =>
    cases second with
    | @token earlier' later' token' other cut' viable' dead' =>
      have before := prefix_of_viable cut' dead' (List.append_nil _).symm viable
      have long := before.length_le
      rw [cut', List.length_append, List.length_cons] at long
      omega
    | endOfText _ _ => rfl

inductive Refuses (state : State) (fault : Fault) : List Lexeme → Prop
  | finish : Plural.finish state = .error fault → Refuses state fault []
  | step {token : Token} {text : List Char} {later : List Lexeme} :
      Plural.step state token text = .error fault → Refuses state fault ((token, text) :: later)

/-- Tokens are read up to one that is refused, or all of them up to the end. -/
theorem refuses_of_run {state : State} {lexemes : List Lexeme} {fault : Fault} {stuck : List Char}
    (refused : run state lexemes = .error (fault, stuck)) :
    ∃ earlier later middle, lexemes = earlier ++ later ∧
      readTokens state (earlier.map Prod.fst) = .ok middle ∧ Refuses middle fault later ∧
      stuck = textFrom later := by
  induction lexemes generalizing state with
  | nil =>
    obtain ⟨other, ended, same⟩ := (mapError_eq_error_iff _ _ _).1 refused
    cases same
    exact ⟨[], [], state, rfl, rfl, .finish ended, rfl⟩
  | cons lexeme rest ih =>
    obtain ⟨token, text⟩ := lexeme
    rw [run] at refused
    cases read : step state token text with
    | error other =>
      rw [read] at refused
      cases refused
      exact ⟨[], _, state, rfl, rfl, .step read, rfl⟩
    | ok next =>
      rw [read] at refused
      obtain ⟨earlier, later, middle, rfl, readRest, refuses, same⟩ := ih refused
      have first := (step_eq_ok_iff state next token text).1 read
      refine ⟨(token, text) :: earlier, later, middle, rfl, ?_, refuses, same⟩
      rw [List.map_cons, readTokens_cons _ first, readRest]

theorem stopsAt_of_refuses {text : List Char} {earlier later : List Lexeme} {state : State}
    {fault : Fault} (cut : lexemes text = earlier ++ later)
    (read : readTokens (.wanting []) (earlier.map Prod.fst) = .ok state)
    (refuses : Refuses state fault later) : StopsAt text (textFrom later) := by
  have viable := viable_of_readTokens read
  cases refuses with
  | step refused => exact .token cut viable (not_viable_of_step read refused)
  | finish ended =>
    rw [List.append_nil] at cut
    rw [← cut] at viable read
    refine .endOfText viable fun rule derives => ?_
    obtain ⟨final, readAll, done⟩ := finish_of_derives derives
    cases read.symm.trans readAll
    cases ended.symm.trans done

theorem misplaced_ne_nestedTooDeep (rest : List Char) (frames : List Frame) :
    misplaced rest frames ≠ .nestedTooDeep := by
  unfold misplaced
  split
  · exact Fault.noConfusion
  · exact Fault.noConfusion
  · split <;> exact Fault.noConfusion

theorem ne_nestedTooDeep_of_step {state : State} {token : Token} {text : List Char} {fault : Fault}
    (refused : step state token text = .error fault) : fault ≠ .nestedTooDeep := by
  cases state with
  | wanting frames =>
    cases token with
    | count | openGroup | bang => cases refused
    | numeral value =>
      simp only [step] at refused
      split at refused
      · cases refused
      · cases refused
        exact Fault.noConfusion
    | operator _ | question | colon | closeGroup | stray =>
      cases refused
      exact misplaced_ne_nestedTooDeep _ _
  | holding frames value =>
    cases token with
    | operator _ | question => cases refused
    | colon | closeGroup =>
      simp only [step] at refused
      split at refused
      · cases refused
      · cases refused
        exact misplaced_ne_nestedTooDeep _ _
    | count | numeral _ | openGroup | bang | stray =>
      cases refused
      exact misplaced_ne_nestedTooDeep _ _

theorem ne_nestedTooDeep_of_finish {state : State} {fault : Fault}
    (refused : finish state = .error fault) : fault ≠ .nestedTooDeep := by
  unfold finish at refused
  split at refused
  · cases refused
    exact misplaced_ne_nestedTooDeep _ _
  · split at refused
    · cases refused
    · cases refused
      exact misplaced_ne_nestedTooDeep _ _

theorem Refuses.ne_nestedTooDeep {state : State} {fault : Fault} {later : List Lexeme}
    (refuses : Refuses state fault later) : fault ≠ .nestedTooDeep := by
  cases refuses with
  | finish ended => exact ne_nestedTooDeep_of_finish ended
  | step refused => exact ne_nestedTooDeep_of_step refused

theorem Spells.utf8Size_eq {token : Token} {spelling : List Char} (spelled : Spells token spelling) :
    ∀ c ∈ spelling, c.utf8Size = 1 := by
  cases spelled with
  | numeral _ all =>
    intro c member
    have digit := (Text.isDigit_iff c).1 (all c member)
    exact Char.utf8Size_eq_one_iff.2 (show c.toNat ≤ 127 by omega)
  | operator operator =>
    have single : operator.symbol.toList.all (·.utf8Size == 1) = true := by
      cases operator <;> rfl
    intro c member
    exact beq_iff_eq.1 (List.all_eq_true.1 single c member)
  | _ => exact List.forall_mem_singleton.2 rfl

/-- In front of a place that the reading comes to there are only characters of a single byte. -/
theorem exists_front {text : List Char} {first second : List Lexeme}
    (cut : lexemes text = first ++ second) (known : .stray ∉ first.map Prod.fst) :
    ∃ front, text = front ++ textFrom second ∧ ∀ c ∈ front, c.utf8Size = 1 := by
  match text with
  | [] =>
    obtain ⟨rfl, rfl⟩ := List.nil_eq_append_iff.1 cut
    exact ⟨[], rfl, by simp⟩
  | c :: rest =>
    rcases found : tokenAt (c :: rest) with ⟨_ | token, length⟩
    · have blank := (separator_of_tokenAt found).1
      rw [lexemes_separator rest blank] at cut
      obtain ⟨front, rfl, small⟩ := exists_front cut known
      have single : c.utf8Size = 1 := by
        rcases (isSeparator_iff c).1 blank with rfl | rfl | rfl | rfl | rfl <;> rfl
      refine ⟨c :: front, rfl, ?_⟩
      rw [List.forall_mem_cons]
      exact ⟨single, small⟩
    · rw [lexemes_token (List.cons_ne_nil c rest) found] at cut
      cases first with
      | nil =>
        rw [List.nil_append] at cut
        rw [← cut]
        exact ⟨[], rfl, by simp⟩
      | cons lexeme first =>
        obtain ⟨rfl, later⟩ := List.cons.inj cut
        rw [List.map_cons, List.mem_cons, not_or] at known
        have spelled := spells_take_of_tokenAt found (Ne.symm known.1)
        have positive : 0 < length := by
          simpa only [found] using tokenAt_positive (c :: rest)
        obtain ⟨front, split, small⟩ := exists_front later known.2
        refine ⟨(c :: rest).take length ++ front, ?_, ?_⟩
        · rw [List.append_assoc, ← split, List.take_append_drop]
        · rw [List.forall_mem_append]
          exact ⟨spelled.utf8Size_eq, small⟩
termination_by text.length

def openAfter (depth : Nat) (text : List Char) : Nat :=
  text.foldl (fun depth c => if c = '(' then depth + 1 else if c = ')' then depth - 1 else depth)
    depth

structure OpensTooDeep (depth : Nat) (front stuck : List Char) : Prop where
  opens : stuck.head? = some '('
  deep : openAfter depth front = maxNesting
  within : ∀ before, before <+: front → openAfter depth before ≤ maxNesting

theorem OpensTooDeep.cons {depth : Nat} {front stuck : List Char} (c : Char)
    (shallow : depth ≤ maxNesting) (deep : OpensTooDeep (openAfter depth [c]) front stuck) :
    OpensTooDeep depth (c :: front) stuck :=
  ⟨deep.opens, deep.deep, forall_prefix_cons.2 ⟨shallow, deep.within⟩⟩

theorem opensTooDeep_of_found {depth : Nat} {text stuck : List Char} (shallow : depth ≤ maxNesting)
    (found : tooDeep? depth text = some stuck) :
    ∃ front, text = front ++ stuck ∧ OpensTooDeep depth front stuck := by
  induction text generalizing depth with
  | nil => cases found
  | cons c rest ih =>
    rw [tooDeep?] at found
    -- Either the parenthesis is found here, or the search goes on with what is open behind it.
    have later (bound : openAfter depth [c] ≤ maxNesting)
        (found : tooDeep? (openAfter depth [c]) rest = some stuck) :
        ∃ front, c :: rest = front ++ stuck ∧ OpensTooDeep depth front stuck := by
      obtain ⟨front, rfl, deep⟩ := ih bound found
      exact ⟨c :: front, rfl, deep.cons c shallow⟩
    by_cases opens : c = '('
    · subst opens
      rw [if_pos rfl] at found
      split at found
      · rename_i below
        exact later below found
      · rename_i full
        cases found
        have deep : depth = maxNesting := by omega
        refine ⟨[], rfl, rfl, deep, fun before leading => ?_⟩
        rw [List.prefix_nil.1 leading]
        exact shallow
    · rw [if_neg opens] at found
      by_cases closes : c = ')'
      · subst closes
        rw [if_pos rfl] at found
        apply later
        · show depth - 1 ≤ maxNesting
          omega
        · exact found
      · rw [if_neg closes] at found
        have same : openAfter depth [c] = depth := by simp [openAfter, opens, closes]
        rw [same] at later
        exact later shallow found

theorem Viable.no_stray {tokens : List Token} (viable : Viable tokens) : .stray ∉ tokens := by
  obtain ⟨more, rule, derives⟩ := viable
  intro member
  exact derives.no_stray (List.mem_append_left more member)

/-- A text that is no plural expression is refused for its nesting, with a column that counts the
characters in front of the place, or where the reading has to stop, with a column that counts bytes
from the last line feed on. -/
theorem stops_of_parse {source : String} {column : Nat} {fault : Fault}
    (refused : parse source = .error (.invalid column fault)) :
    ∃ front stuck, source.toList = front ++ stuck ∧
      ((fault = .nestedTooDeep ∧ OpensTooDeep 0 front stuck ∧ column = front.length + 1) ∨
        (fault ≠ .nestedTooDeep ∧ StopsAt source.toList stuck ∧ (∀ c ∈ front, c.utf8Size = 1) ∧
          column = Text.columnAfter front)) := by
  unfold parse parseChars at refused
  split at refused
  · cases refused
  · split at refused
    · rename_i stuck found
      cases refused
      obtain ⟨front, whole, deep⟩ := opensTooDeep_of_found (Nat.zero_le maxNesting) found
      refine ⟨front, stuck, whole, .inl ⟨rfl, deep, ?_⟩⟩
      rw [whole, Text.consumed_append]
    · obtain ⟨⟨other, stuck⟩, stopped, same⟩ := (mapError_eq_error_iff _ _ _).1 refused
      cases same
      obtain ⟨earlier, later, state, cut, read, refuses, rfl⟩ := refuses_of_run stopped
      have stops := stopsAt_of_refuses cut read refuses
      obtain ⟨front, whole, small⟩ := exists_front cut (viable_of_readTokens read).no_stray
      refine ⟨front, textFrom later, whole, .inr ⟨refuses.ne_nestedTooDeep, stops, small, ?_⟩⟩
      rw [whole, Text.consumed_append]

end Phrasebook.Plural
