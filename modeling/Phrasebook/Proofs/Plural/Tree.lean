import Phrasebook.Plural.Tree
import Phrasebook.Proofs.Json.Reading

/-!
Rules as JSON values. The value of a rule tells it, and its text is read back as the rule as long
as it does not nest too deep for a reader of JSON.
-/

namespace Phrasebook.Plural

theorem Kind.ofName_name (kind : Kind) : Kind.ofName? kind.name = some kind := by
  cases kind <;> decide

theorem Operator.ofSymbol_symbol (operator : Operator) :
    Operator.ofSymbol? operator.symbol = some operator := by
  cases operator <;> decide

theorem Operator.symbol_injective {first second : Operator}
    (same : first.symbol = second.symbol) : first = second := by
  have found := Operator.ofSymbol_symbol first
  rw [same, Operator.ofSymbol_symbol] at found
  exact (Option.some.inj found).symm

namespace Expr

theorem exact_toJson (rule : Expr) : rule.toJson.Exact := by
  induction rule with
  | count => exact ⟨trivial, trivial⟩
  | literal value =>
    have low := value.le_toInt
    have high := value.toInt_lt
    exact ⟨trivial, ⟨low, by omega⟩, trivial⟩
  | not inner ih => exact ⟨trivial, ih, trivial⟩
  | binary operator left right ihLeft ihRight =>
    exact ⟨trivial, ⟨trivial, ihLeft, ihRight, trivial⟩, trivial⟩
  | conditional condition chosen otherwise ihCondition ihChosen ihOtherwise =>
    exact ⟨trivial, ⟨ihCondition, ihChosen, ihOtherwise, trivial⟩, trivial⟩

theorem toJson_injective {first second : Expr} (same : first.toJson = second.toJson) :
    first = second := by
  induction first generalizing second with
  | count =>
    cases second <;> simp [toJson, node, Kind.name] at same
    rfl
  | literal value =>
    cases second <;> simp [toJson, node, Kind.name, Int64.toInt_inj] at same
    rw [same]
  | not inner ih =>
    cases second <;> simp [toJson, node, Kind.name] at same
    rw [ih same]
  | binary operator left right ihLeft ihRight =>
    cases second <;> simp [toJson, node, Kind.name] at same
    rw [Operator.symbol_injective same.1, ihLeft same.2.1, ihRight same.2.2]
  | conditional condition chosen otherwise ihCondition ihChosen ihOtherwise =>
    cases second <;> simp [toJson, node, Kind.name] at same
    rw [ihCondition same.1, ihChosen same.2.1, ihOtherwise same.2.2]

open Json.Layout

theorem readName_quote {α : Type} {find : String → Option α} {name : String} {found : α}
    (known : find name = some found) (depth : Nat) (rest : List Char) :
    readName find depth (Json.quote name.toList ++ rest) = .ok (found, rest) := by
  have spells := Json.spells_flatMap_escapeChar name.toList
  have read : Json.readString (name.toList.flatMap Json.escapeChar ++ '"' :: rest) =
      .ok (name, rest) := by
    rw [Json.readString_of_spells spells, String.ofList_toList]
  have whole : Json.quote name.toList ++ rest =
      '"' :: (name.toList.flatMap Json.escapeChar ++ '"' :: rest) := by
    simp only [Json.quote, List.cons_append, List.append_assoc, List.nil_append]
  rw [whole, readName, Json.dropBlanks_cons (by decide)]
  simp only [if_true, read, bind, Except.bind, known]
  rfl

theorem readField_op (depth : Nat) (inner deeper : Json.Reader Expr) (kind : Kind)
    (later : List Char) :
    readField depth inner deeper {} "op" (':' :: (Json.quote kind.name.toList ++ later)) =
      .ok ({ kind := some kind }, later) := by
  have read := readName_quote (Kind.ofName_name kind) depth later
  simp only [readField, if_true, Json.readOnce_colon, read]
  rfl

theorem readField_args {depth : Nat} {inner deeper : Json.Reader Expr} {kind : Kind}
    {text later : List Char} {rule : Expr}
    (read : readArgs depth inner deeper kind text = .ok (rule, later)) :
    readField depth inner deeper { kind := some kind } "args" (':' :: text) =
      .ok ({ kind := some kind, rule := some rule }, later) := by
  have colon : Json.readColon (':' :: text) = .ok text := rfl
  have other : ¬"args" = "op" := by decide
  simp only [readField, if_neg other, if_true, Option.isSome_none, Bool.or_self,
    Bool.false_eq_true, if_false, colon, read, bind, Except.bind]
  rfl

theorem readByName_node {depth level : Nat} {inner deeper : Json.Reader Expr} {kind : Kind}
    {args : Json} {rule : Expr}
    (read : ∀ later, Json.EndsNumber later →
      readArgs depth inner deeper kind (compact.write level args ++ later) = .ok (rule, later))
    (rest : List Char) :
    readByName inner deeper depth (compact.writeFields level true
      [("op", .string kind.name), ("args", args)] ++ '\x7d' :: rest) =
      .ok (rule, '\x7d' :: rest) := by
  have reads : Json.ReadsFields compact level (readField depth inner deeper) {}
      [("op", .string kind.name), ("args", args)] { kind := some kind, rule := some rule } :=
    .cons (fun later _ => readField_op depth inner deeper kind later)
      (.cons (fun later ends => readField_args (read later ends)) .nil)
  have fields : Json.readFields (readField depth inner deeper) {} (compact.writeFields level true
      [("op", .string kind.name), ("args", args)] ++ '\x7d' :: rest) =
      .ok ({ kind := some kind, rule := some rule }, '\x7d' :: rest) :=
    Json.readFields_of_reads Json.legible_compact 0 reads rest
  simp only [readByName, fields, bind, Except.bind, Json.required]
  rfl

theorem readByName_count (depth : Nat) (inner deeper : Json.Reader Expr) (level : Nat)
    (rest : List Char) :
    readByName inner deeper depth (compact.writeFields level true
      [("op", .string Kind.count.name)] ++ '\x7d' :: rest) = .ok (.count, '\x7d' :: rest) := by
  have reads : Json.ReadsFields compact level (readField depth inner deeper) {}
      [("op", .string Kind.count.name)] { kind := some .count } :=
    .cons (fun later _ => readField_op depth inner deeper .count later) .nil
  have fields : Json.readFields (readField depth inner deeper) {} (compact.writeFields level true
      [("op", .string Kind.count.name)] ++ '\x7d' :: rest) =
      .ok ({ kind := some .count }, '\x7d' :: rest) :=
    Json.readFields_of_reads Json.legible_compact 0 reads rest
  simp only [readByName, fields, bind, Except.bind, Json.required]
  rfl

theorem readNode_brace {depth : Nat} {inner deeper : Json.Reader Expr} {text rest : List Char}
    {rule : Expr} (read : readByName inner deeper depth text = .ok (rule, '\x7d' :: rest)) :
    readNode inner deeper (depth + 1) ('\x7b' :: text) = .ok (rule, rest) :=
  Json.readRecord_brace "Expr" read rfl

theorem readLiteral_write (level : Nat) (value : Int64) {rest : List Char}
    (ends : Json.EndsNumber rest) :
    readLiteral (compact.write level (.integer value.toInt) ++ rest) =
      .ok (.literal value, rest) := by
  have low := value.le_toInt
  have high := value.toInt_lt
  have number := Json.readNumber_signedDecimal ends low (by omega)
  have literal : ofInteger? value.toInt = some (.literal value) := by
    rw [ofInteger?, if_pos ⟨low, high⟩, Int64.ofInt_toInt]
  obtain ⟨c, text, written, numeric⟩ := Text.exists_signedDecimal_eq_cons value.toInt
  have whole : compact.write level (.integer value.toInt) = c :: text := written
  rw [written, List.cons_append] at number
  rw [whole, List.cons_append, readLiteral,
    Json.dropBlanks_cons (Json.isBlank_of_numeric numeric)]
  simp only [if_pos numeric, number, bind, Except.bind, literal]
  rfl

/-- Three things stand in a list one level deeper. -/
theorem readThree_write {α β : Type} {first : Json.Reader α} {other : Json.Reader β}
    {depth : Nat} (room : depth ≠ 0) (level : Nat) {x y z : Json} {a : α} {b c : β}
    (exact : Json.ExactItems [x, y, z])
    (readFirst : ∀ later, first (compact.write (level + 1) x ++ later) = .ok (a, later))
    (readSecond : ∀ later, other (compact.write (level + 1) y ++ later) = .ok (b, later))
    (readThird : ∀ later, other (compact.write (level + 1) z ++ later) = .ok (c, later))
    (rest : List Char) :
    readThree first other depth (compact.write level (.array [x, y, z]) ++ rest) =
      .ok ((a, b, c), rest) := by
  have legible := Json.legible_compact
  have begins : ∀ {value : Json} (later : List Char), value.Exact →
      Json.BeginsValue (compact.write (level + 1) value ++ later) := fun later exact =>
    Json.beginsValue_append (Json.beginsValue_write legible (level + 1) exact) later
  -- What the reader has before it after each of the three.
  let afterThird := compact.line level ++ ']' :: rest
  let afterSecond := comma false ++ (compact.line (level + 1) ++
    (compact.write (level + 1) z ++ afterThird))
  let afterFirst := comma false ++ (compact.line (level + 1) ++
    (compact.write (level + 1) y ++ afterSecond))
  have firstPlace : Json.readPlace? 0 first (comma true ++ (compact.line (level + 1) ++
      (compact.write (level + 1) x ++ afterFirst))) = .ok (some a, afterFirst) :=
    Json.readPlace_comma legible (level + 1) 0 (begins afterFirst exact.1) (readFirst afterFirst)
  have secondPlace : Json.readPlace? 1 other afterFirst = .ok (some b, afterSecond) :=
    Json.readPlace_comma legible (level + 1) 1 (begins afterSecond exact.2.1)
      (readSecond afterSecond)
  have thirdPlace : Json.readPlace? 2 other afterSecond = .ok (some c, afterThird) :=
    Json.readPlace_comma legible (level + 1) 2 (begins afterThird exact.2.2.1)
      (readThird afterThird)
  have closed := Json.endList_bracket legible level rest
  have whole : compact.write level (.array [x, y, z]) ++ rest =
      '[' :: (comma true ++ (compact.line (level + 1) ++
        (compact.write (level + 1) x ++ afterFirst))) := by
    simp only [write, writeItems, List.append_assoc, List.cons_append, List.nil_append,
      afterFirst, afterSecond, afterThird]
  rw [whole, readThree, Json.dropBlanks_cons (by decide)]
  simp only [if_true, if_neg room, firstPlace, secondPlace, thirdPlace, bind, Except.bind]
  rw [closed]
  rfl

def readBelow : Nat → Json.Reader Expr
  | 0 => readNone
  | depth + 1 => readRule depth

theorem readRule_succ (depth : Nat) :
    readRule (depth + 1) = readNode (readRule depth) (readBelow depth) (depth + 1) := by
  cases depth <;> rfl

theorem readBelow_eq {depth : Nat} (room : depth ≠ 0) : readBelow depth = readRule (depth - 1) := by
  cases depth with
  | zero => exact absurd rfl room
  | succ depth => rfl

theorem readRule_node {depth level : Nat} {kind : Kind} {args : Json} {rule : Expr}
    (read : ∀ later, Json.EndsNumber later →
      readArgs depth (readRule depth) (readBelow depth) kind
        (compact.write (level + 1) args ++ later) = .ok (rule, later)) (rest : List Char) :
    readRule (depth + 1) (compact.write level (node kind args) ++ rest) = .ok (rule, rest) := by
  rw [readRule_succ, node, write_object_append]
  exact readNode_brace (readByName_node read rest)

theorem readRule_write (rule : Expr) {depth : Nat} (deep : rule.toJson.nesting ≤ depth)
    (level : Nat) (rest : List Char) :
    readRule depth (compact.write level rule.toJson ++ rest) = .ok (rule, rest) := by
  cases depth with
  | zero => cases rule <;> exact absurd deep (Nat.not_succ_le_zero _)
  | succ depth =>
    match rule with
    | .count =>
      rw [readRule_succ, toJson, write_object_append]
      exact readNode_brace (readByName_count depth _ _ (level + 1) rest)
    | .literal value =>
      apply readRule_node
      intro later ends
      exact readLiteral_write (level + 1) value ends
    | .not inner =>
      have shallow : inner.toJson.nesting ≤ depth := by
        simp only [toJson, node, Json.nesting, Json.nestingOfFields] at deep
        omega
      apply readRule_node
      intro later _
      rw [readArgs, inner.readRule_write shallow]
      rfl
    | .binary operator left right =>
      -- Lists take a level of their own, so the operands lie two levels below.
      simp only [toJson, node, Json.nesting, Json.nestingOfFields, Json.nestingOfItems] at deep
      have room : depth ≠ 0 := by omega
      have readLeft := @readRule_write left (depth - 1) (by omega) (level + 1 + 1)
      have readRight := @readRule_write right (depth - 1) (by omega) (level + 1 + 1)
      have readOperator := readName_quote operator.ofSymbol_symbol (depth - 1)
      rw [← readBelow_eq room] at readLeft readRight
      have exact : Json.ExactItems [.string operator.symbol, left.toJson, right.toJson] :=
        ⟨trivial, left.exact_toJson, right.exact_toJson, trivial⟩
      apply readRule_node
      intro later _
      rw [readArgs, readThree_write room (level + 1) exact readOperator readLeft readRight]
      rfl
    | .conditional condition chosen otherwise =>
      simp only [toJson, node, Json.nesting, Json.nestingOfFields, Json.nestingOfItems] at deep
      have room : depth ≠ 0 := by omega
      have readCondition := @readRule_write condition (depth - 1) (by omega) (level + 1 + 1)
      have readChosen := @readRule_write chosen (depth - 1) (by omega) (level + 1 + 1)
      have readOtherwise := @readRule_write otherwise (depth - 1) (by omega) (level + 1 + 1)
      rw [← readBelow_eq room] at readCondition readChosen readOtherwise
      have exact : Json.ExactItems [condition.toJson, chosen.toJson, otherwise.toJson] :=
        ⟨condition.exact_toJson, chosen.exact_toJson, otherwise.exact_toJson, trivial⟩
      apply readRule_node
      intro later _
      rw [readArgs, readThree_write room (level + 1) exact readCondition readChosen readOtherwise]
      rfl

/-- A rule that nests no deeper than a reader of JSON goes is read back from its text, so no other
such rule has that text. -/
theorem read_compact {rule : Expr} (deep : rule.toJson.nesting ≤ 127) :
    read (String.ofList rule.toJson.compact) = .ok rule ∧
      ∀ other : Expr, other.toJson.nesting ≤ 127 →
        other.toJson.compact = rule.toJson.compact → other = rule := by
  have back : ∀ rule : Expr, rule.toJson.nesting ≤ 127 →
      read (String.ofList rule.toJson.compact) = .ok rule := by
    intro rule deep
    have front := rule.readRule_write deep 0 []
    rw [List.append_nil, write_compact] at front
    rw [read, String.toList_ofList, readChars, Json.readWhole, Json.maxDepth, front]
    rfl
  refine ⟨back rule deep, fun other deep' same => ?_⟩
  have found := back other deep'
  rw [same, back rule deep] at found
  exact (Except.ok.inj found).symm

def leastRemainder : Expr :=
  .conditional (.not .count) (.binary .remainder .count (.literal Int64.minValue)) (.literal 1)

theorem read_compact_leastRemainder :
    leastRemainder.toJson.nesting ≤ 127 ∧
      read (String.ofList leastRemainder.toJson.compact) = .ok leastRemainder :=
  ⟨by decide, (read_compact (by decide)).1⟩

end Expr

end Phrasebook.Plural
