import Phrasebook.Json.Basic
import Phrasebook.Proofs.Text.Digits

/-!
JSON texts of any layout. The two ways of writing are layouts, and a change made to a text is a
change of its layout if it leaves the skeleton of the text alone.
-/

namespace Phrasebook.Json

mutual

/-- A value without doubles, of which all numbers fit 64-bit words. -/
def Exact : Json → Prop
  | .integer value => -(2 ^ 63) ≤ value ∧ value < 2 ^ 64
  | .real _ => False
  | .array items => ExactItems items
  | .object fields => ExactFields fields
  | _ => True

def ExactItems : List Json → Prop
  | [] => True
  | item :: rest => item.Exact ∧ ExactItems rest

def ExactFields : List (String × Json) → Prop
  | [] => True
  | (_, value) :: rest => value.Exact ∧ ExactFields rest

end

mutual

def nesting : Json → Nat
  | .array items => nestingOfItems items + 1
  | .object fields => nestingOfFields fields + 1
  | _ => 0

def nestingOfItems : List Json → Nat
  | [] => 0
  | item :: rest => max item.nesting (nestingOfItems rest)

def nestingOfFields : List (String × Json) → Nat
  | [] => 0
  | (_, value) :: rest => max value.nesting (nestingOfFields rest)

end

theorem exactItems_iff {items : List Json} : ExactItems items ↔ ∀ item ∈ items, item.Exact := by
  induction items with
  | nil => exact iff_of_true trivial (List.forall_mem_nil _)
  | cons item rest ih => rw [ExactItems, ih, List.forall_mem_cons]

theorem exactFields_iff {fields : List (String × Json)} :
    ExactFields fields ↔ ∀ field ∈ fields, field.2.Exact := by
  induction fields with
  | nil => exact iff_of_true trivial (List.forall_mem_nil _)
  | cons field rest ih => rw [ExactFields, ih, List.forall_mem_cons]

theorem nestingOfItems_le_iff {items : List Json} {depth : Nat} :
    nestingOfItems items ≤ depth ↔ ∀ item ∈ items, item.nesting ≤ depth := by
  induction items with
  | nil => exact iff_of_true (Nat.zero_le depth) (List.forall_mem_nil _)
  | cons item rest ih => rw [nestingOfItems, Nat.max_le, ih, List.forall_mem_cons]

theorem nestingOfFields_le_iff {fields : List (String × Json)} {depth : Nat} :
    nestingOfFields fields ≤ depth ↔ ∀ field ∈ fields, field.2.nesting ≤ depth := by
  induction fields with
  | nil => exact iff_of_true (Nat.zero_le depth) (List.forall_mem_nil _)
  | cons field rest ih => rw [nestingOfFields, Nat.max_le, ih, List.forall_mem_cons]

/-- A layout: what begins a line at a level of indentation, what stands between a colon and a
value, and how strings are written. -/
structure Layout where
  line : Nat → List Char
  gap : List Char
  quote : List Char → List Char

namespace Layout

def comma (first : Bool) : List Char :=
  if first then [] else [',']

mutual

def write (layout : Layout) (level : Nat) : Json → List Char
  | .array (item :: rest) =>
    '[' :: (layout.writeItems (level + 1) true (item :: rest) ++ (layout.line level ++ [']']))
  | .object (field :: rest) =>
    '\x7b' :: (layout.writeFields (level + 1) true (field :: rest) ++
      (layout.line level ++ ['\x7d']))
  | .string text => layout.quote text.toList
  | value => value.scalar

def writeItems (layout : Layout) (level : Nat) (first : Bool) : List Json → List Char
  | [] => []
  | item :: rest =>
    comma first ++ (layout.line level ++ (layout.write level item ++
      layout.writeItems level false rest))

def writeFields (layout : Layout) (level : Nat) (first : Bool) :
    List (String × Json) → List Char
  | [] => []
  | (name, value) :: rest =>
    comma first ++ (layout.line level ++ (layout.quote name.toList ++ (':' :: (layout.gap ++
      (layout.write level value ++ layout.writeFields level false rest)))))

end

theorem write_array_append (layout : Layout) (level : Nat) (item : Json) (items : List Json)
    (rest : List Char) :
    layout.write level (.array (item :: items)) ++ rest =
      '[' :: (layout.writeItems (level + 1) true (item :: items) ++
        (layout.line level ++ ']' :: rest)) := by
  rw [write, List.cons_append, List.append_assoc, List.append_assoc, List.singleton_append]

theorem write_object_append (layout : Layout) (level : Nat) (field : String × Json)
    (fields : List (String × Json)) (rest : List Char) :
    layout.write level (.object (field :: fields)) ++ rest =
      '\x7b' :: (layout.writeFields (level + 1) true (field :: fields) ++
        (layout.line level ++ '\x7d' :: rest)) := by
  rw [write, List.cons_append, List.append_assoc, List.append_assoc, List.singleton_append]

def compact : Layout := ⟨fun _ => [], [], Json.quote⟩

def indented (indent : List Char) : Layout := ⟨newLine indent, [' '], Json.quote⟩

mutual

theorem write_compact (level : Nat) (value : Json) : compact.write level value = value.compact := by
  cases value with
  | array items =>
    cases items with
    | nil => rfl
    | cons item rest =>
      rw [write, Json.compact, writeItems_compact (level + 1) (item :: rest)]
      rfl
  | object fields =>
    cases fields with
    | nil => rfl
    | cons field rest =>
      rw [write, Json.compact, writeFields_compact (level + 1) (field :: rest)]
      rfl
  | null => rfl
  | bool _ => rfl
  | integer _ => rfl
  | real _ => rfl
  | string _ => rfl

theorem writeItems_compact (level : Nat) (items : List Json) :
    compact.writeItems level true items = compactItems items := by
  cases items with
  | nil => rfl
  | cons item rest =>
    have first := write_compact level item
    cases rest with
    | nil =>
      rw [writeItems, first, compactItems]
      exact List.append_nil item.compact
    | cons next rest =>
      have others := writeItems_compact level (next :: rest)
      rw [writeItems, first, compactItems, ← others]
      · rfl
      · exact List.cons_ne_nil next rest

theorem writeFields_compact (level : Nat) (fields : List (String × Json)) :
    compact.writeFields level true fields = compactFields fields := by
  match fields with
  | [] => rfl
  | [(name, value)] =>
    rw [writeFields, write_compact level value, compactFields]
    simp [compact, comma, writeFields]
  | (name, value) :: next :: rest =>
    have others := writeFields_compact level (next :: rest)
    rw [writeFields, write_compact level value, compactFields, ← others]
    · simp [compact, comma, writeFields]
    · exact List.cons_ne_nil next rest

end

mutual

theorem write_indented (indent : List Char) (level : Nat) (value : Json) :
    (indented indent).write level value = value.prettyAt indent level := by
  cases value with
  | array items =>
    cases items with
    | nil => rfl
    | cons item rest =>
      rw [write, Json.prettyAt, writeItems_indented indent (level + 1) (item :: rest)]
      simp [indented]
  | object fields =>
    cases fields with
    | nil => rfl
    | cons field rest =>
      rw [write, Json.prettyAt, writeFields_indented indent (level + 1) (field :: rest)]
      simp [indented]
  | null => rfl
  | bool _ => rfl
  | integer _ => rfl
  | real _ => rfl
  | string _ => rfl

theorem writeItems_indented (indent : List Char) (level : Nat) (items : List Json) :
    (indented indent).writeItems level true items = prettyItems indent level items := by
  match items with
  | [] => rfl
  | [item] =>
    rw [writeItems, write_indented indent level item, prettyItems]
    simp [indented, comma, writeItems]
  | item :: next :: rest =>
    have others := writeItems_indented indent level (next :: rest)
    rw [writeItems, write_indented indent level item, prettyItems, ← others]
    · simp [indented, comma, writeItems]
    · exact List.cons_ne_nil next rest

theorem writeFields_indented (indent : List Char) (level : Nat) (fields : List (String × Json)) :
    (indented indent).writeFields level true fields = prettyFields indent level fields := by
  match fields with
  | [] => rfl
  | [(name, value)] =>
    rw [writeFields, write_indented indent level value, prettyFields]
    simp [indented, comma, writeFields]
  | (name, value) :: next :: rest =>
    have others := writeFields_indented indent level (next :: rest)
    rw [writeFields, write_indented indent level value, prettyFields, ← others]
    · simp [indented, comma, writeFields]
    · exact List.cons_ne_nil next rest

end

end Layout

def Turns (change : List Char → List Char) (before after : List Char) : Prop :=
  ∀ rest, change (before ++ rest) = after ++ change rest

namespace Turns

variable {change : List Char → List Char} {first first' second second' : List Char}

theorem nil : Turns change [] [] := fun _ => rfl

theorem append (left : Turns change first first') (right : Turns change second second') :
    Turns change (first ++ second) (first' ++ second') := by
  intro rest
  rw [List.append_assoc, left, right, List.append_assoc]

theorem cons {c : Char} (head : Turns change [c] [c]) (tail : Turns change first first') :
    Turns change (c :: first) (c :: first') :=
  append head tail

theorem whole (turns : Turns change first first') (empty : change [] = []) :
    change first = first' := by
  have turned := turns []
  rwa [List.append_nil, empty, List.append_nil] at turned

theorem of_chars {text : List Char} (kept : ∀ c ∈ text, Turns change [c] [c]) :
    Turns change text text := by
  induction text with
  | nil => exact nil
  | cons c rest ih =>
    exact cons (kept c List.mem_cons_self) (ih fun d member => kept d (List.mem_cons_of_mem _ member))

end Turns

/-- A character that none of the changes made to a script touches. -/
def IsSkeletal (c : Char) : Prop :=
  c ≠ '\n' ∧ c ≠ '<' ∧ c ≠ '\u2028' ∧ c ≠ '\u2029'

instance (c : Char) : Decidable (IsSkeletal c) :=
  inferInstanceAs (Decidable (_ ∧ _))

theorem isSkeletal_of_isDigit {c : Char} (digit : Text.isDigit c = true) : IsSkeletal c := by
  refine ⟨?_, ?_, ?_, ?_⟩ <;> rintro rfl <;> exact absurd digit (by decide)

theorem isSkeletal_signedDecimal (value : Int) : ∀ c ∈ Text.signedDecimal value, IsSkeletal c := by
  intro c member
  unfold Text.signedDecimal at member
  split at member
  · rcases List.mem_cons.1 member with rfl | digit
    · decide
    · exact isSkeletal_of_isDigit (Text.isDigit_of_mem_decimal digit)
  · exact isSkeletal_of_isDigit (Text.isDigit_of_mem_decimal member)

structure Changes (change : List Char → List Char) (before after : Layout) : Prop where
  skeletal : ∀ c, IsSkeletal c → Turns change [c] [c]
  line : ∀ level, Turns change (before.line level) (after.line level)
  gap : Turns change before.gap after.gap
  quote : ∀ text, Turns change (before.quote text) (after.quote text)

namespace Changes

variable {change : List Char → List Char} {before after : Layout}

theorem comma (changes : Changes change before after) (first : Bool) :
    Turns change (Layout.comma first) (Layout.comma first) := by
  cases first with
  | true => exact Turns.nil
  | false => exact changes.skeletal ',' (by decide)

mutual

theorem write (changes : Changes change before after) (level : Nat) {value : Json}
    (exact : value.Exact) : Turns change (before.write level value) (after.write level value) := by
  have mark : ∀ c, IsSkeletal c → Turns change [c] [c] := changes.skeletal
  have word : ∀ text : List Char, (text.all fun c => decide (IsSkeletal c)) = true →
      Turns change text text := by
    intro text skeletal
    rw [List.all_eq_true] at skeletal
    exact Turns.of_chars fun c member => mark c (of_decide_eq_true (skeletal c member))
  match value with
  | .null => exact word "null".toList (by decide)
  | .bool true => exact word "true".toList (by decide)
  | .bool false => exact word "false".toList (by decide)
  | .integer number =>
    exact Turns.of_chars fun c member => mark c (isSkeletal_signedDecimal number c member)
  | .real _ => exact exact.elim
  | .string text => exact changes.quote text.toList
  | .array [] => exact word ['[', ']'] (by decide)
  | .array (item :: rest) =>
    exact (mark '[' (by decide)).cons ((writeItems changes (level + 1) true exact).append
      ((changes.line level).append (mark ']' (by decide))))
  | .object [] => exact word ['\x7b', '\x7d'] (by decide)
  | .object (field :: rest) =>
    exact (mark '\x7b' (by decide)).cons ((writeFields changes (level + 1) true exact).append
      ((changes.line level).append (mark '\x7d' (by decide))))

theorem writeItems (changes : Changes change before after) (level : Nat) (first : Bool)
    {items : List Json} (exact : ExactItems items) :
    Turns change (before.writeItems level first items) (after.writeItems level first items) := by
  match items with
  | [] => exact Turns.nil
  | item :: rest =>
    have others := writeItems changes level false exact.2
    exact (changes.comma first).append ((changes.line level).append
      ((write changes level exact.1).append others))

theorem writeFields (changes : Changes change before after) (level : Nat) (first : Bool)
    {fields : List (String × Json)} (exact : ExactFields fields) :
    Turns change (before.writeFields level first fields) (after.writeFields level first fields) := by
  match fields with
  | [] => exact Turns.nil
  | (name, value) :: rest =>
    have others := writeFields changes level false exact.2
    exact (changes.comma first).append ((changes.line level).append
      ((changes.quote name.toList).append ((changes.skeletal ':' (by decide)).cons
        (changes.gap.append ((write changes level exact.1).append others)))))

end

end Changes

end Phrasebook.Json
