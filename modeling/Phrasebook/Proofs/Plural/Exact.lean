import Phrasebook.Proofs.Plural.Written

/-!
Rules over unbounded integers. A rule on words comes to the exact value as long as no value on the
way leaves the range of a word; without sums, differences and products none ever does.
-/

namespace Phrasebook.Plural

def answer (holds : Prop) [Decidable holds] : Int :=
  if holds then 1 else 0

/-- The exact value of an operation. Quotients are taken toward zero, and there is none by zero. -/
def Operator.exact (a b : Int) : Operator → Int
  | .or => answer (a ≠ 0 ∨ b ≠ 0)
  | .and => answer (a ≠ 0 ∧ b ≠ 0)
  | .equal => answer (a = b)
  | .notEqual => answer (a ≠ b)
  | .less => answer (a < b)
  | .lessOrEqual => answer (a ≤ b)
  | .greater => answer (a > b)
  | .greaterOrEqual => answer (a ≥ b)
  | .add => a + b
  | .subtract => a - b
  | .multiply => a * b
  | .divide => if b = 0 then 0 else a.tdiv b
  | .remainder => if b = 0 then 0 else a.tmod b

def Operator.needsRight (left : Int) : Operator → Bool
  | .or => left == 0
  | .and => left != 0
  | _ => true

namespace Expr

def exact (n : Int) : Expr → Int
  | .count => n
  | .literal value => value.toInt
  | .not inner => answer (inner.exact n = 0)
  | .binary operator left right => operator.exact (left.exact n) (right.exact n)
  | .conditional condition chosen otherwise =>
    if condition.exact n ≠ 0 then chosen.exact n else otherwise.exact n

/-- All exact values that come up where only the branches are evaluated that are needed, the value
of the rule last. -/
def values (n : Int) : Expr → List Int
  | .count => [n]
  | .literal value => [value.toInt]
  | .not inner => inner.values n ++ [(Expr.not inner).exact n]
  | .binary operator left right =>
    left.values n ++ (if operator.needsRight (left.exact n) then right.values n else []) ++
      [(Expr.binary operator left right).exact n]
  | .conditional condition chosen otherwise =>
    condition.values n ++
      if condition.exact n ≠ 0 then chosen.values n else otherwise.values n

def operators : Expr → List Operator
  | .count | .literal _ => []
  | .not inner => inner.operators
  | .binary operator left right => operator :: (left.operators ++ right.operators)
  | .conditional condition chosen otherwise =>
    condition.operators ++ chosen.operators ++ otherwise.operators

def ceiling (n : Int) (rule : Expr) : Int :=
  (rule.literals.map Int64.toInt).foldr max (max 1 n)

end Expr

def InWord (value : Int) : Prop :=
  Int64.minValue.toInt ≤ value ∧ value ≤ Int64.maxValue.toInt

instance (value : Int) : Decidable (InWord value) :=
  inferInstanceAs (Decidable (_ ∧ _))

theorem inWord_iff (value : Int) :
    InWord value ↔ -9223372036854775808 ≤ value ∧ value < 9223372036854775808 := by
  rw [InWord, Int64.toInt_minValue, Int64.toInt_maxValue]
  omega

theorem bmod_of_inWord {value : Int} (fits : InWord value) : value.bmod (2 ^ 64) = value := by
  rw [inWord_iff] at fits
  apply Int.bmod_eq_of_le <;> omega

theorem toInt_eq_zero_iff (word : Int64) : word.toInt = 0 ↔ word = 0 := by
  rw [← Int64.toInt_zero, Int64.toInt_inj]

theorem toInt_truth {holds : Bool} {meaning : Prop} [Decidable meaning]
    (same : holds = true ↔ meaning) : (truth holds).toInt = answer meaning := by
  by_cases known : meaning
  · rw [truth, if_pos (same.2 known), answer, if_pos known]
    rfl
  · rw [truth, if_neg (mt same.1 known), answer, if_neg known]
    rfl

theorem toInt_truncatedQuotient {a b : Int64}
    (fits : InWord (Operator.divide.exact a.toInt b.toInt)) :
    (truncatedQuotient a b).toInt = Operator.divide.exact a.toInt b.toInt := by
  rw [Operator.exact] at fits ⊢
  by_cases zero : b = 0
  · rw [truncatedQuotient, if_pos (.inl zero), if_pos ((toInt_eq_zero_iff b).2 zero)]
    rfl
  · have divisor : b.toInt ≠ 0 := mt (toInt_eq_zero_iff b).1 zero
    rw [if_neg divisor] at fits ⊢
    have regular : ¬(b = 0 ∨ a = Int64.minValue ∧ b = -1) := by
      rintro (none | ⟨rfl, rfl⟩)
      · exact zero none
      · exact absurd ((inWord_iff _).1 fits).2 (by decide)
    rw [truncatedQuotient, if_neg regular, Int64.toInt_div, bmod_of_inWord fits]

theorem toInt_truncatedRemainder (a b : Int64) :
    (truncatedRemainder a b).toInt = Operator.remainder.exact a.toInt b.toInt := by
  rw [Operator.exact]
  by_cases zero : b = 0
  · rw [truncatedRemainder, if_pos (.inl zero), if_pos ((toInt_eq_zero_iff b).2 zero)]
    rfl
  · have divisor : b.toInt ≠ 0 := mt (toInt_eq_zero_iff b).1 zero
    rw [if_neg divisor, truncatedRemainder]
    split
    · rename_i exception
      obtain ⟨rfl, rfl⟩ := exception.resolve_left zero
      rfl
    · exact Int64.toInt_mod a b

theorem toInt_apply {operator : Operator} {a b : Int64}
    (fits : InWord (operator.exact a.toInt b.toInt)) :
    (operator.apply a b).toInt = operator.exact a.toInt b.toInt := by
  cases operator with
  | or => exact toInt_truth (by simp [toInt_eq_zero_iff])
  | and => exact toInt_truth (by simp [toInt_eq_zero_iff])
  | equal => exact toInt_truth (by simp [Int64.toInt_inj])
  | notEqual => exact toInt_truth (by simp [Int64.toInt_inj])
  | less => exact toInt_truth (by simp [Int64.lt_iff_toInt_lt])
  | lessOrEqual => exact toInt_truth (by simp [Int64.le_iff_toInt_le])
  | greater => exact toInt_truth (by simp [Int64.lt_iff_toInt_lt])
  | greaterOrEqual => exact toInt_truth (by simp [Int64.le_iff_toInt_le])
  | add => exact (Int64.toInt_add a b).trans (bmod_of_inWord fits)
  | subtract => exact (Int64.toInt_sub a b).trans (bmod_of_inWord fits)
  | multiply => exact (Int64.toInt_mul a b).trans (bmod_of_inWord fits)
  | divide => exact toInt_truncatedQuotient fits
  | remainder => exact toInt_truncatedRemainder a b

/-- Where the right operand is not needed, the operation comes to the same with any. -/
theorem toInt_apply_of_settled {operator : Operator} {a : Int64}
    (settled : operator.needsRight a.toInt = false) (b : Int64) (other : Int) :
    (operator.apply a b).toInt = operator.exact a.toInt other := by
  cases operator with
  | or =>
    have nonzero : a.toInt ≠ 0 := by simpa [Operator.needsRight] using settled
    have word : a ≠ 0 := mt (toInt_eq_zero_iff a).2 nonzero
    exact toInt_truth (by simp [nonzero, word])
  | and =>
    have zero : a.toInt = 0 := by simpa [Operator.needsRight] using settled
    have word : a = 0 := (toInt_eq_zero_iff a).1 zero
    exact toInt_truth (by simp [word])
  | _ => cases settled

/-- As long as every value on the way is a word, the rule on words comes to the exact value. -/
theorem toInt_eval {rule : Expr} {n : Int64} (fits : ∀ value ∈ rule.values n.toInt, InWord value) :
    (rule.eval n).toInt = rule.exact n.toInt := by
  induction rule with
  | count => rfl
  | literal value => rfl
  | not inner ih =>
    have inside := ih fun value member => fits value (List.mem_append_left _ member)
    refine toInt_truth ?_
    rw [beq_iff_eq, ← toInt_eq_zero_iff, inside]
  | binary operator left right ihLeft ihRight =>
    simp only [Expr.values, List.forall_mem_append, List.forall_mem_singleton] at fits
    obtain ⟨⟨first, second⟩, whole⟩ := fits
    have leftValue := ihLeft first
    rw [Expr.exact] at whole ⊢
    rw [Expr.eval]
    by_cases needed : operator.needsRight (left.exact n.toInt) = true
    · rw [if_pos needed] at second
      rw [← leftValue, ← ihRight second] at whole ⊢
      exact toInt_apply whole
    · rw [← leftValue] at needed ⊢
      exact toInt_apply_of_settled (Bool.not_eq_true _ ▸ needed) _ _
  | conditional condition chosen otherwise ihCondition ihChosen ihOtherwise =>
    simp only [Expr.values, List.forall_mem_append] at fits
    have decided := ihCondition fits.1
    have branch := fits.2
    rw [Expr.exact, Expr.eval]
    by_cases holds : condition.exact n.toInt = 0
    · have word : condition.eval n = 0 := by rw [← toInt_eq_zero_iff, decided, holds]
      rw [if_neg (not_not.2 holds)] at branch ⊢
      rw [if_neg (by simp [word])]
      exact ihOtherwise branch
    · have word : condition.eval n ≠ 0 := by rw [ne_eq, ← toInt_eq_zero_iff, decided]; exact holds
      rw [if_pos holds] at branch ⊢
      rw [if_pos (by simpa using word)]
      exact ihChosen branch

theorem toInt_wordOfCount {n : UInt64} (small : n.toNat < 2 ^ 63) :
    (Expr.wordOfCount n).toInt = n.toNat := by
  have bound : (2 ^ 63 : UInt64).toNat = 2 ^ 63 := by decide +kernel
  have below : n < 2 ^ 63 := by
    rw [UInt64.lt_iff_toNat_lt, bound]
    exact small
  rw [Expr.wordOfCount, if_pos below]
  calc n.toInt64.toInt
    _ = (UInt64.ofNat n.toNat).toInt64.toInt := by rw [UInt64.ofNat_toNat]
    _ = (Int64.ofNat n.toNat).toInt := by rw [UInt64.toInt64_ofNat']
    _ = n.toNat := Int64.toInt_ofNat_of_lt small

/-! Without sums, differences and products no value rises above the ceiling. -/

def Within (top value : Int) : Prop :=
  0 ≤ value ∧ value ≤ top

theorem within_answer {top : Int} (positive : 1 ≤ top) (holds : Prop) [Decidable holds] :
    Within top (answer holds) := by
  unfold Within answer
  split <;> omega

theorem within_exact {operator : Operator} {top a b : Int} (positive : 1 ≤ top)
    (bounded : operator ∉ [.add, .subtract, .multiply]) (left : Within top a)
    (right : Within top b) : Within top (operator.exact a b) := by
  cases operator with
  | add => simp at bounded
  | subtract => simp at bounded
  | multiply => simp at bounded
  | divide =>
    rw [Operator.exact]
    split
    · exact ⟨Int.le_refl 0, by omega⟩
    · exact ⟨Int.tdiv_nonneg left.1 right.1, Int.le_trans (Int.tdiv_le_self b left.1) left.2⟩
  | remainder =>
    rw [Operator.exact]
    split
    · exact ⟨Int.le_refl 0, by omega⟩
    · rename_i divisor
      have rest := Int.tmod_lt_of_pos a (show 0 < b by have := right.1; omega)
      exact ⟨Int.tmod_nonneg b left.1, Int.le_trans (Int.le_of_lt rest) right.2⟩
  | _ => exact within_answer positive _

/-- Where the count and the literals are no greater than a bound, no value of the rule is, in the
branches that are needed as in the others. -/
theorem within_of_bounded {rule : Expr} {n top : Int} (positive : 1 ≤ top) (count : Within top n)
    (literals : ∀ value ∈ rule.literals, Within top value.toInt)
    (bounded : ∀ operator ∈ rule.operators, operator ∉ [.add, .subtract, .multiply]) :
    Within top (rule.exact n) ∧ ∀ value ∈ rule.values n, Within top value := by
  induction rule with
  | count => exact ⟨count, List.forall_mem_singleton.2 count⟩
  | literal value =>
    have own := literals value List.mem_cons_self
    exact ⟨own, List.forall_mem_singleton.2 own⟩
  | not inner ih =>
    obtain ⟨_, inside⟩ := ih literals bounded
    have whole := within_answer positive (inner.exact n = 0)
    exact ⟨whole, List.forall_mem_append.2 ⟨inside, List.forall_mem_singleton.2 whole⟩⟩
  | binary operator left right ihLeft ihRight =>
    rw [Expr.literals, List.forall_mem_append] at literals
    rw [Expr.operators, List.forall_mem_cons, List.forall_mem_append] at bounded
    obtain ⟨first, ofLeft⟩ := ihLeft literals.1 bounded.2.1
    obtain ⟨second, ofRight⟩ := ihRight literals.2 bounded.2.2
    have whole := within_exact positive bounded.1 first second
    refine ⟨whole, ?_⟩
    simp only [Expr.values, List.forall_mem_append, List.forall_mem_singleton]
    refine ⟨⟨ofLeft, ?_⟩, whole⟩
    split
    · exact ofRight
    · exact List.forall_mem_nil _
  | conditional condition chosen otherwise ihCondition ihChosen ihOtherwise =>
    rw [Expr.literals, List.forall_mem_append, List.forall_mem_append] at literals
    rw [Expr.operators, List.forall_mem_append, List.forall_mem_append] at bounded
    obtain ⟨_, ofCondition⟩ := ihCondition literals.1.1 bounded.1.1
    obtain ⟨first, ofChosen⟩ := ihChosen literals.1.2 bounded.1.2
    obtain ⟨second, ofOtherwise⟩ := ihOtherwise literals.2 bounded.2
    simp only [Expr.exact, Expr.values, List.forall_mem_append]
    split
    · exact ⟨first, ofCondition, ofChosen⟩
    · exact ⟨second, ofCondition, ofOtherwise⟩

theorem foldr_max_le_iff {values : List Int} {start top : Int} :
    values.foldr max start ≤ top ↔ start ≤ top ∧ ∀ value ∈ values, value ≤ top := by
  induction values with
  | nil => simp
  | cons value values ih =>
    rw [List.foldr_cons, Int.max_le, ih, List.forall_mem_cons]
    exact and_left_comm

theorem ceiling_le_iff (rule : Expr) (n top : Int) :
    rule.ceiling n ≤ top ↔
      1 ≤ top ∧ n ≤ top ∧ ∀ value ∈ rule.literals, value.toInt ≤ top := by
  rw [Expr.ceiling, foldr_max_le_iff, Int.max_le, List.forall_mem_map, and_assoc]

theorem literals_of_derives {level : Level} {tokens : List Token} {rule : Expr}
    (derives : Derives level tokens rule) : ∀ value ∈ rule.literals, 0 ≤ value.toInt := by
  induction derives with
  | tighter _ ih => exact ih
  | conditional _ _ _ ihCondition ihChosen ihOtherwise =>
    exact List.forall_mem_append.2 ⟨List.forall_mem_append.2 ⟨ihCondition, ihChosen⟩, ihOtherwise⟩
  | binary _ _ _ ihLeft ihRight => exact List.forall_mem_append.2 ⟨ihLeft, ihRight⟩
  | negation _ ih => exact ih
  | count => exact List.forall_mem_nil _
  | @literal value small =>
    refine List.forall_mem_singleton.2 ?_
    rw [Int64.toInt_ofNat_of_lt small]
    exact Int.natCast_nonneg value
  | group _ ih => exact ih

/-- The values of an accepted rule without sums, differences and products are words below its
ceiling. -/
theorem values_of_parse {source : String} {rule : Expr} {n : Nat}
    (accepted : parse source = .ok rule) (small : n < 2 ^ 63)
    (bounded : ∀ operator ∈ rule.operators, operator ∉ [.add, .subtract, .multiply]) :
    Within (rule.ceiling n) (rule.exact n) ∧ ∀ value ∈ rule.values n, InWord value := by
  obtain ⟨_, _, tokens, _, derives⟩ := (parse_eq_ok_iff_derives source rule).1 accepted
  have natural := literals_of_derives derives
  obtain ⟨one, count, literals⟩ := (ceiling_le_iff rule n _).1 (Int.le_refl _)
  obtain ⟨whole, values⟩ := within_of_bounded one ⟨Int.natCast_nonneg n, count⟩
    (fun value member => ⟨natural value member, literals value member⟩) bounded
  have top : rule.ceiling n < 9223372036854775808 := by
    refine Int.lt_of_le_sub_one ((ceiling_le_iff rule n _).2 ⟨by decide, by omega, ?_⟩)
    intro value _
    have bound := value.toInt_lt
    omega
  refine ⟨whole, fun value member => (inWord_iff value).2 ?_⟩
  obtain ⟨lower, upper⟩ := values value member
  omega

/-- For a count below two to the sixty-third, an accepted rule comes to its exact value if every
value on the way is a word. Without sums, differences and products every one is, the value lies
between zero and the greatest of one, the count and the literals, and is the index itself. -/
theorem evaluate_eq_exact {source : String} {rule : Expr} {n : UInt64}
    (accepted : parse source = .ok rule) (small : n.toNat < 2 ^ 63) :
    ((∀ value ∈ rule.values n.toNat, InWord value) →
      (rule.evaluate n).toInt = rule.exact n.toNat) ∧
    ((∀ operator ∈ rule.operators, operator ∉ [.add, .subtract, .multiply]) →
      (∀ value ∈ rule.values n.toNat, InWord value) ∧
      0 ≤ (rule.evaluate n).toInt ∧ (rule.evaluate n).toInt ≤ rule.ceiling n.toNat ∧
      ((rule.index n : Nat) : Int) = (rule.evaluate n).toInt) := by
  have word := toInt_wordOfCount small
  have exactly : (∀ value ∈ rule.values n.toNat, InWord value) →
      (rule.evaluate n).toInt = rule.exact n.toNat := by
    intro fits
    rw [← word] at fits ⊢
    exact toInt_eval fits
  refine ⟨exactly, fun bounded => ?_⟩
  obtain ⟨whole, fits⟩ := values_of_parse accepted small bounded
  rw [← exactly fits] at whole
  exact ⟨fits, whole.1, whole.2, Int.toNat_of_nonneg whole.1⟩

/-- A negative value on the way, and a quotient by zero. -/
theorem evaluate_eq_exact_quotients :
    (∃ rule, parse "(n - 5) * 7 / 2" = .ok rule ∧ (2 : UInt64).toNat < 2 ^ 63 ∧
      (∀ value ∈ rule.values 2, InWord value) ∧ (rule.evaluate 2).toInt = -10) ∧
    ∃ rule, parse "n % 10 == 1 ? 3 : 7 / n" = .ok rule ∧ (0 : UInt64).toNat < 2 ^ 63 ∧
      (∀ operator ∈ rule.operators, operator ∉ [.add, .subtract, .multiply]) ∧
      rule.ceiling 0 = 10 ∧ rule.index 0 = 0 ∧ (rule.index 0 : Int) = (rule.evaluate 0).toInt := by
  have sloping : parse "(n - 5) * 7 / 2" = .ok (.binary .divide (.binary .multiply
      (.binary .subtract .count (.literal 5)) (.literal 7)) (.literal 2)) := by decide +kernel
  have branching : parse "n % 10 == 1 ? 3 : 7 / n" = .ok (.conditional (.binary .equal
      (.binary .remainder .count (.literal 10)) (.literal 1)) (.literal 3)
      (.binary .divide (.literal 7) .count)) := by decide +kernel
  have small : (2 : UInt64).toNat < 2 ^ 63 ∧ (0 : UInt64).toNat < 2 ^ 63 := by decide
  refine ⟨⟨_, sloping, small.1, by decide +kernel, ?_⟩,
    ⟨_, branching, small.2, by decide, by decide, by decide +kernel, ?_⟩⟩
  · have exactly := (evaluate_eq_exact sloping small.1).1 (by decide +kernel)
    exact exactly.trans (by decide +kernel)
  · exact ((evaluate_eq_exact branching small.2).2 (by decide)).2.2.2

end Phrasebook.Plural
