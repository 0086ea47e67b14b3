import Phrasebook.Json.Record
import Phrasebook.Proofs.Json.Scalars

/-!
A value that is written in any layout is read back, and the reader stops right behind it.
-/

namespace Phrasebook.Json

/-- What stands between the parts is blank, and strings spell what they quote. -/
structure Layout.Legible (layout : Layout) : Prop where
  line : ∀ level, ∀ c ∈ layout.line level, isBlank c = true
  gap : ∀ c ∈ layout.gap, isBlank c = true
  quote : ∀ text, ∃ spelled, Spells text spelled ∧ layout.quote text = '"' :: (spelled ++ ['"'])

theorem legible_compact : Layout.compact.Legible where
  line _ _ member := by cases member
  gap _ member := by cases member
  quote text := ⟨_, spells_flatMap_escapeChar text, rfl⟩

theorem isBlank_newLine {indent : List Char} (blank : ∀ c ∈ indent, isBlank c = true)
    (level : Nat) : ∀ c ∈ newLine indent level, isBlank c = true := by
  intro c member
  rcases List.mem_cons.1 member with rfl | later
  · decide
  · obtain ⟨copy, inside, space⟩ := List.mem_flatten.1 later
    rw [List.eq_of_mem_replicate inside] at space
    exact blank c space

theorem isBlank_spaces (width : Nat) : ∀ c ∈ List.replicate width ' ', isBlank c = true := by
  intro c member
  rw [List.eq_of_mem_replicate member]
  decide

theorem legible_indented {indent : List Char} (blank : ∀ c ∈ indent, isBlank c = true) :
    (Layout.indented indent).Legible where
  line level := isBlank_newLine blank level
  gap c member := by
    rw [List.mem_singleton.1 member]
    decide
  quote text := ⟨_, spells_flatMap_escapeChar text, rfl⟩

def WrittenAs (value : Json) (text : List Char) : Prop :=
  ∃ layout : Layout, layout.Legible ∧ ∃ level, layout.write level value = text

theorem writtenAs_pretty (width : Nat) (value : Json) : value.WrittenAs (value.pretty width) :=
  ⟨_, legible_indented (isBlank_spaces width), 0, Layout.write_indented _ 0 value⟩

theorem dropBlanks_append {blanks : List Char} (blank : ∀ c ∈ blanks, isBlank c = true)
    (rest : List Char) : dropBlanks (blanks ++ rest) = dropBlanks rest :=
  List.dropWhile_append_of_pos blank

theorem dropBlanks_cons {c : Char} (shown : isBlank c = false) (rest : List Char) :
    dropBlanks (c :: rest) = c :: rest := by
  rw [dropBlanks, List.dropWhile_cons_of_neg (by simp [shown])]

/-- A text that begins with what a value may begin with, which neither is blank nor ends a list. -/
def BeginsValue (text : List Char) : Prop :=
  ∃ c rest, text = c :: rest ∧ isBlank c = false ∧ c ≠ ']'

theorem beginsValue_append {text : List Char} (begins : BeginsValue text) (rest : List Char) :
    BeginsValue (text ++ rest) := by
  obtain ⟨c, tail, rfl, shown, other⟩ := begins
  exact ⟨c, tail ++ rest, rfl, shown, other⟩

theorem isBlank_iff (c : Char) :
    isBlank c = true ↔ c = ' ' ∨ c = '\n' ∨ c = '\t' ∨ c = '\r' := by
  simp only [isBlank, Bool.or_eq_true, beq_iff_eq, or_assoc]

theorem numeric_ne {c d : Char} (numeric : c = '-' ∨ Text.isDigit c = true)
    (other : ¬(d = '-' ∨ Text.isDigit d = true)) : c ≠ d := by
  rintro rfl
  exact other numeric

theorem isBlank_of_numeric {c : Char} (numeric : c = '-' ∨ Text.isDigit c = true) :
    isBlank c = false := by
  cases blank : isBlank c with
  | false => rfl
  | true =>
    rcases (isBlank_iff c).1 blank with rfl | rfl | rfl | rfl <;> exact absurd numeric (by decide)

theorem beginsValue_signedDecimal (value : Int) : BeginsValue (Text.signedDecimal value) := by
  obtain ⟨c, rest, written, numeric⟩ := Text.exists_signedDecimal_eq_cons value
  exact ⟨c, rest, written, isBlank_of_numeric numeric, numeric_ne numeric (by decide)⟩

theorem beginsValue_write {layout : Layout} (legible : layout.Legible) (level : Nat) {value : Json}
    (exact : value.Exact) : BeginsValue (layout.write level value) := by
  cases value with
  | null => exact ⟨'n', _, rfl, by decide, by decide⟩
  | bool holds =>
    cases holds with
    | true => exact ⟨'t', _, rfl, by decide, by decide⟩
    | false => exact ⟨'f', _, rfl, by decide, by decide⟩
  | integer number => exact beginsValue_signedDecimal number
  | real _ => exact exact.elim
  | string text =>
    obtain ⟨spelled, _, quoted⟩ := legible.quote text.toList
    exact ⟨'"', _, quoted, by decide, by decide⟩
  | array items =>
    cases items with
    | nil => exact ⟨'[', _, rfl, by decide, by decide⟩
    | cons item rest => exact ⟨'[', _, rfl, by decide, by decide⟩
  | object fields =>
    cases fields with
    | nil => exact ⟨'\x7b', _, rfl, by decide, by decide⟩
    | cons field rest => exact ⟨'\x7b', _, rfl, by decide, by decide⟩

theorem endsNumber_append {blanks : List Char} (blank : ∀ c ∈ blanks, isBlank c = true) {c : Char}
    {rest : List Char} (ends : EndsNumber (c :: rest)) : EndsNumber (blanks ++ c :: rest) := by
  cases blanks with
  | nil => exact ends
  | cons d blanks =>
    have first : isBlank d = true := blank d List.mem_cons_self
    rintro e ⟨⟩
    rcases (isBlank_iff d).1 first with rfl | rfl | rfl | rfl <;> decide

theorem endsNumber_mark {c : Char}
    (mark : Text.isDigit c = false ∧ c ≠ '.' ∧ c ≠ 'e' ∧ c ≠ 'E') (rest : List Char) :
    EndsNumber (c :: rest) := by
  rintro d ⟨⟩
  exact mark

section Readers

variable {layout : Layout}

theorem nextItem_comma (legible : layout.Legible) (level : Nat) (first : Bool) {text : List Char}
    (begins : BeginsValue text) :
    nextItem? first (Layout.comma first ++ (layout.line level ++ text)) = .ok (some text) := by
  obtain ⟨c, rest, rfl, shown, other⟩ := begins
  have dropped : dropBlanks (layout.line level ++ c :: rest) = c :: rest := by
    rw [dropBlanks_append (legible.line level), dropBlanks_cons shown]
  cases first with
  | true =>
    rw [Layout.comma, if_pos rfl, List.nil_append, nextItem?, dropped]
    simp [other]
  | false =>
    rw [Layout.comma, if_neg Bool.false_ne_true, List.singleton_append, nextItem?,
      dropBlanks_cons (by decide)]
    simp [dropped]
    split
    · rename_i same
      exact absurd same (List.cons_ne_nil c rest)
    · rename_i same
      exact absurd (List.cons.inj same).1 other
    · rfl

theorem readPlace_comma (legible : layout.Legible) (level place : Nat) {α : Type} {value : Reader α}
    {found : α} {text after : List Char} (begins : BeginsValue text)
    (read : value text = .ok (found, after)) :
    readPlace? place value (Layout.comma (place == 0) ++ (layout.line level ++ text)) =
      .ok (some found, after) := by
  rw [readPlace?, nextItem_comma legible level _ begins]
  simp only [read]
  rfl

theorem nextItem_bracket (legible : layout.Legible) (level : Nat) (first : Bool)
    (rest : List Char) : nextItem? first (layout.line level ++ ']' :: rest) = .ok none := by
  rw [nextItem?, dropBlanks_append (legible.line level), dropBlanks_cons (by decide)]
  rfl

theorem endList_bracket (legible : layout.Legible) (level : Nat) (rest : List Char) :
    endList (layout.line level ++ ']' :: rest) = .ok rest := by
  rw [endList, dropBlanks_append (legible.line level), dropBlanks_cons (by decide)]
  rfl

theorem readString_of_spells {decoded text : List Char} (spells : Spells decoded text)
    (rest : List Char) :
    readString (text ++ '"' :: rest) = .ok (String.ofList decoded, rest) := by
  rw [readString, readStringAfter_of_spells spells]
  rfl

theorem nextField_comma (legible : layout.Legible) (level : Nat) (first : Bool) (name : String)
    (rest : List Char) :
    nextField? first (Layout.comma first ++ (layout.line level ++
      (layout.quote name.toList ++ rest))) = .ok (some (name, rest)) := by
  obtain ⟨spelled, spells, quoted⟩ := legible.quote name.toList
  have read : readString (spelled ++ '"' :: rest) = .ok (name, rest) := by
    rw [readString_of_spells spells, String.ofList_toList]
  have whole : layout.quote name.toList ++ rest = '"' :: (spelled ++ '"' :: rest) := by
    rw [quoted, List.cons_append, List.append_assoc, List.singleton_append]
  have dropped : dropBlanks (layout.line level ++ '"' :: (spelled ++ '"' :: rest)) =
      '"' :: (spelled ++ '"' :: rest) := by
    rw [dropBlanks_append (legible.line level), dropBlanks_cons (by decide)]
  rw [whole]
  cases first with
  | true =>
    rw [Layout.comma, if_pos rfl, List.nil_append, nextField?, dropped]
    simp [read, Except.map]
  | false =>
    rw [Layout.comma, if_neg Bool.false_ne_true, List.singleton_append, nextField?,
      dropBlanks_cons (by decide)]
    simp [dropped, read, Except.map]

theorem nextField_brace (legible : layout.Legible) (level : Nat) (first : Bool)
    (rest : List Char) : nextField? first (layout.line level ++ '\x7d' :: rest) = .ok none := by
  rw [nextField?, dropBlanks_append (legible.line level), dropBlanks_cons (by decide)]
  rfl

theorem readFieldsWithin_field (legible : layout.Legible) (level steps : Nat) (first : Bool)
    {σ : Type} {field : σ → String → Reader σ} {state next : σ} {name : String}
    {text after : List Char} (read : field state name text = .ok (next, after)) :
    readFieldsWithin field (steps + 1) first state (Layout.comma first ++ (layout.line level ++
      (layout.quote name.toList ++ text))) = readFieldsWithin field steps false next after := by
  rw [readFieldsWithin, nextField_comma legible]
  simp only [read]

theorem readFieldsWithin_brace (legible : layout.Legible) (level steps : Nat) (first : Bool)
    {σ : Type} (field : σ → String → Reader σ) (state : σ) (rest : List Char) :
    readFieldsWithin field (steps + 1) first state (layout.line level ++ '\x7d' :: rest) =
      .ok (state, layout.line level ++ '\x7d' :: rest) := by
  rw [readFieldsWithin, nextField_brace legible]

theorem endObject_brace (legible : layout.Legible) (level : Nat) (rest : List Char) :
    endObject (layout.line level ++ '\x7d' :: rest) = .ok rest := by
  rw [endObject, dropBlanks_append (legible.line level), dropBlanks_cons (by decide)]
  rfl

theorem length_le_length_writeFields (layout : Layout) (level : Nat) (first : Bool)
    (fields : List (String × Json)) :
    fields.length ≤ (layout.writeFields level first fields).length := by
  induction fields generalizing first with
  | nil => exact Nat.zero_le _
  | cons field rest ih =>
    have others := ih false
    simp only [Layout.writeFields, List.length_append, List.length_cons]
    omega

inductive ReadsItems (layout : Layout) (level : Nat) {α : Type} (item : Reader α) :
    List Json → List α → Prop
  | nil : ReadsItems layout level item [] []
  | cons {value found others founds} :
      BeginsValue (layout.write level value) →
      (∀ later, EndsNumber later →
        item (layout.write level value ++ later) = .ok (found, later)) →
      ReadsItems layout level item others founds →
      ReadsItems layout level item (value :: others) (found :: founds)

section Items

variable {α : Type} {item : Reader α} {level : Nat} {items : List Json} {founds : List α}

theorem length_le_length_writeItems (reads : ReadsItems layout level item items founds)
    (first : Bool) : items.length ≤ (layout.writeItems level first items).length := by
  induction reads generalizing first with
  | nil => exact Nat.zero_le _
  | cons begins _ _ ih =>
    obtain ⟨c, tail, begins, _⟩ := begins
    have others := ih false
    rw [Layout.writeItems, begins]
    simp only [List.length_append, List.length_cons]
    omega

theorem endsNumber_items (legible : layout.Legible) (outer level : Nat) (items : List Json)
    (rest : List Char) :
    EndsNumber (layout.writeItems level false items ++ (layout.line outer ++ ']' :: rest)) := by
  cases items with
  | nil => exact endsNumber_append (legible.line outer) (endsNumber_mark (by decide) rest)
  | cons item others => exact endsNumber_mark (by decide) _

theorem readItemsWithin_of_reads (legible : layout.Legible) (outer : Nat)
    (reads : ReadsItems layout level item items founds) (first : Bool) (rest : List Char)
    {steps : Nat} (enough : items.length < steps) :
    readItemsWithin item steps first
      (layout.writeItems level first items ++ (layout.line outer ++ ']' :: rest)) =
      .ok (founds, layout.line outer ++ ']' :: rest) := by
  induction reads generalizing first steps with
  | nil =>
    cases steps with
    | zero => exact absurd enough (Nat.not_lt_zero _)
    | succ steps => rw [Layout.writeItems, List.nil_append, readItemsWithin, nextItem_bracket legible]
  | @cons value found others founds begins read _ ih =>
    cases steps with
    | zero => exact absurd enough (Nat.not_lt_zero _)
    | succ steps =>
      let later := layout.writeItems level false others ++ (layout.line outer ++ ']' :: rest)
      have next := nextItem_comma legible level first (beginsValue_append begins later)
      have taken := read later (endsNumber_items legible outer level others rest)
      have readOthers := ih false (Nat.lt_of_succ_lt_succ enough)
      rw [Layout.writeItems, List.append_assoc, List.append_assoc, List.append_assoc,
        readItemsWithin, next]
      simp only [taken]
      rw [readOthers]
      rfl

/-- The reader may take as many steps as there are characters, and an item has one at least. -/
theorem readItems_of_reads (legible : layout.Legible) (outer : Nat)
    (reads : ReadsItems layout level item items founds) (rest : List Char) :
    readItems item (layout.writeItems level true items ++ (layout.line outer ++ ']' :: rest)) =
      .ok (founds, layout.line outer ++ ']' :: rest) := by
  have enough := length_le_length_writeItems reads true
  apply readItemsWithin_of_reads legible outer reads true
  rw [List.length_append]
  omega

end Items

theorem endsNumber_line (legible : layout.Legible) (outer level : Nat)
    (fields : List (String × Json)) (rest : List Char) :
    EndsNumber (layout.writeFields level false fields ++ (layout.line outer ++ '\x7d' :: rest)) := by
  cases fields with
  | nil => exact endsNumber_append (legible.line outer) (endsNumber_mark (by decide) rest)
  | cons field others => exact endsNumber_mark (by decide) _

inductive ReadsFields (layout : Layout) (level : Nat) {σ : Type} (field : σ → String → Reader σ) :
    σ → List (String × Json) → σ → Prop
  | nil {state} : ReadsFields layout level field state [] state
  | cons {state next last name value others} :
      (∀ later, EndsNumber later → field state name
        (':' :: (layout.gap ++ (layout.write level value ++ later))) = .ok (next, later)) →
      ReadsFields layout level field next others last →
      ReadsFields layout level field state ((name, value) :: others) last

section Fields

variable {σ : Type} {field : σ → String → Reader σ} {level : Nat} {state last : σ}
  {fields : List (String × Json)}

theorem readFieldsWithin_of_reads (legible : layout.Legible) (outer : Nat)
    (reads : ReadsFields layout level field state fields last) (first : Bool) (rest : List Char)
    {steps : Nat} (enough : fields.length < steps) :
    readFieldsWithin field steps first state
      (layout.writeFields level first fields ++ (layout.line outer ++ '\x7d' :: rest)) =
      .ok (last, layout.line outer ++ '\x7d' :: rest) := by
  induction reads generalizing first steps with
  | nil =>
    cases steps with
    | zero => exact absurd enough (Nat.not_lt_zero _)
    | succ steps => rw [Layout.writeFields, List.nil_append, readFieldsWithin_brace legible]
  | @cons state next last name value others read _ ih =>
    cases steps with
    | zero => exact absurd enough (Nat.not_lt_zero _)
    | succ steps =>
      have taken := readFieldsWithin_field legible level steps first
        (read _ (endsNumber_line legible outer level others rest))
      have readOthers := ih false (Nat.lt_of_succ_lt_succ enough)
      rw [Layout.writeFields, List.append_assoc, List.append_assoc, List.append_assoc,
        List.cons_append, List.append_assoc, List.append_assoc, taken, readOthers]

theorem readFields_of_reads (legible : layout.Legible) (outer : Nat)
    (reads : ReadsFields layout level field state fields last) (rest : List Char) :
    readFields field state
      (layout.writeFields level true fields ++ (layout.line outer ++ '\x7d' :: rest)) =
      .ok (last, layout.line outer ++ '\x7d' :: rest) := by
  have enough := length_le_length_writeFields layout level true fields
  apply readFieldsWithin_of_reads legible outer reads true
  rw [List.length_append]
  omega

end Fields

def readAnyField (depth : Nat) (fields : List (String × Json)) (name : String) :
    Reader (List (String × Json)) := fun text => do
  let (value, after) ← readValue depth (← readColon text)
  return ((name, value) :: fields, after)

theorem readValue_blanks (depth : Nat) {blanks : List Char} (blank : ∀ c ∈ blanks, isBlank c = true)
    (text : List Char) : readValue depth (blanks ++ text) = readValue depth text := by
  unfold readValue
  rw [dropBlanks_append blank]

theorem readValue_list (depth : Nat) {text rest : List Char} {items : List Json}
    (read : readItems (readValue depth) text = .ok (items, rest)) {after : List Char}
    (ends : endList rest = .ok after) :
    readValue (depth + 1) ('[' :: text) = .ok (.array items, after) := by
  rw [readValue, dropBlanks_cons (by decide)]
  simp only [if_true, closingList, read, closing, ends]
  rfl

theorem readValue_object (depth : Nat) {text rest : List Char} {fields : List (String × Json)}
    (read : readFields (readAnyField depth) [] text = .ok (fields, rest)) {after : List Char}
    (ends : endObject rest = .ok after) :
    readValue (depth + 1) ('\x7b' :: text) = .ok (.object fields.reverse, after) := by
  rw [readValue, dropBlanks_cons (by decide)]
  have same : (fun (fields : List (String × Json)) (name : String) (text : List Char) => do
      let (value, after) ← readValue depth (← readColon text)
      return ((name, value) :: fields, after)) = readAnyField depth := rfl
  simp only [same, closingObject, read, closing, ends]
  rfl

theorem readValue_scalar (depth : Nat) {c : Char} (rest : List Char) (shown : isBlank c = false)
    (list : c ≠ '[') (object : c ≠ '\x7b') :
    readValue depth (c :: rest) = readScalar (c :: rest) := by
  unfold readValue
  rw [dropBlanks_cons shown]
  simp only [if_neg list, if_neg object]

theorem readScalar_number {c : Char} {text rest : List Char} {value : Int}
    (numeric : c = '-' ∨ Text.isDigit c = true)
    (read : readNumber (c :: text) = .ok (.integer value, rest)) :
    readScalar (c :: text) = .ok (.integer value, rest) := by
  have null : c ≠ 'n' := numeric_ne numeric (by decide)
  have yes : c ≠ 't' := numeric_ne numeric (by decide)
  have no : c ≠ 'f' := numeric_ne numeric (by decide)
  have quote : c ≠ '"' := numeric_ne numeric (by decide)
  rw [readScalar, if_neg null, if_neg yes, if_neg no, if_neg quote, if_pos numeric, read]
  rfl

theorem readValue_signedDecimal (depth : Nat) {value : Int} {rest : List Char}
    (ends : EndsNumber rest) (low : -(2 ^ 63) ≤ value) (high : value < 2 ^ 64) :
    readValue depth (Text.signedDecimal value ++ rest) = .ok (.integer value, rest) := by
  have read := readNumber_signedDecimal ends low high
  obtain ⟨c, text, written, numeric⟩ := Text.exists_signedDecimal_eq_cons value
  have list : c ≠ '[' := numeric_ne numeric (by decide)
  have object : c ≠ '\x7b' := numeric_ne numeric (by decide)
  rw [written, List.cons_append] at read ⊢
  rw [readValue_scalar depth _ (isBlank_of_numeric numeric) list object,
    readScalar_number numeric read]

theorem readValue_quoted (depth : Nat) {text spelled : List Char} (spells : Spells text spelled)
    (rest : List Char) :
    readValue depth ('"' :: (spelled ++ '"' :: rest)) =
      .ok (.string (String.ofList text), rest) := by
  rw [readValue_scalar depth _ (by decide) (by decide) (by decide)]
  show (readString (spelled ++ '"' :: rest)).map _ = _
  rw [readString_of_spells spells]
  rfl

theorem exists_write_string_append (legible : layout.Legible) (level : Nat) (text : String)
    (later : List Char) :
    ∃ spelled, Spells text.toList spelled ∧
      layout.write level (.string text) ++ later = '"' :: (spelled ++ '"' :: later) := by
  obtain ⟨spelled, spells, quoted⟩ := legible.quote text.toList
  refine ⟨spelled, spells, ?_⟩
  rw [Layout.write, quoted, List.cons_append, List.append_assoc, List.singleton_append]

mutual

/-- A value is read back from any legible layout, down to any depth that it does not exceed. -/
theorem readValue_write (legible : layout.Legible) (level : Nat) {value : Json}
    (exact : value.Exact) {depth : Nat} (deep : value.nesting ≤ depth) {rest : List Char}
    (ends : EndsNumber rest) :
    readValue depth (layout.write level value ++ rest) = .ok (value, rest) := by
  match value with
  | .null => exact readValue_scalar depth _ (by decide) (by decide) (by decide)
  | .bool true => exact readValue_scalar depth _ (by decide) (by decide) (by decide)
  | .bool false => exact readValue_scalar depth _ (by decide) (by decide) (by decide)
  | .integer number => exact readValue_signedDecimal depth ends exact.1 exact.2
  | .real _ => exact exact.elim
  | .string text =>
    obtain ⟨spelled, spells, written⟩ := exists_write_string_append legible level text rest
    have read := readValue_quoted depth spells rest
    rw [String.ofList_toList] at read
    rw [written, read]
  | .array [] =>
    cases depth with
    | zero => exact absurd deep (by simp [nesting])
    | succ depth => exact readValue_list depth rfl rfl
  | .array (item :: others) =>
    cases depth with
    | zero => exact absurd deep (by simp [nesting])
    | succ depth =>
      have reads := readsItems_write legible (level + 1) exact (Nat.le_of_succ_le_succ deep)
      have read := readItems_of_reads legible level reads rest
      rw [Layout.write_array_append]
      exact readValue_list depth read (endList_bracket legible level rest)
  | .object [] =>
    cases depth with
    | zero => exact absurd deep (by simp [nesting])
    | succ depth =>
      have read : readFields (readAnyField depth) [] ('\x7d' :: rest) = .ok ([], '\x7d' :: rest) :=
        rfl
      exact readValue_object depth read rfl
  | .object (field :: others) =>
    cases depth with
    | zero => exact absurd deep (by simp [nesting])
    | succ depth =>
      have reads := readsFields_write legible (level + 1) exact (Nat.le_of_succ_le_succ deep) []
      have read := readFields_of_reads legible level reads rest
      have whole := readValue_object depth read (endObject_brace legible level rest)
      rw [List.append_nil, List.reverse_reverse] at whole
      rw [Layout.write_object_append, whole]

theorem readsItems_write (legible : layout.Legible) (level : Nat) {items : List Json}
    (exact : ExactItems items) {depth : Nat} (deep : nestingOfItems items ≤ depth) :
    ReadsItems layout level (readValue depth) items items := by
  match items with
  | [] => exact .nil
  | item :: others =>
    have readOthers := readsItems_write legible level exact.2
      (Nat.le_trans (Nat.le_max_right _ _) deep)
    refine .cons (beginsValue_write legible level exact.1) (fun later ends => ?_) readOthers
    exact readValue_write legible level exact.1 (Nat.le_trans (Nat.le_max_left _ _) deep) ends

theorem readsFields_write (legible : layout.Legible) (level : Nat)
    {fields : List (String × Json)} (exact : ExactFields fields) {depth : Nat}
    (deep : nestingOfFields fields ≤ depth) (state : List (String × Json)) :
    ReadsFields layout level (readAnyField depth) state fields (fields.reverse ++ state) := by
  match fields with
  | [] => exact .nil
  | (name, value) :: others =>
    have readOthers := readsFields_write legible level exact.2
      (Nat.le_trans (Nat.le_max_right _ _) deep) ((name, value) :: state)
    rw [List.reverse_cons, List.append_assoc, List.singleton_append]
    refine .cons (fun later ends => ?_) readOthers
    have read := readValue_write legible level exact.1 (Nat.le_trans (Nat.le_max_left _ _) deep) ends
    rw [readAnyField, readColon, dropBlanks_cons (by decide)]
    simp only [if_true, bind, Except.bind, readValue_blanks depth legible.gap, read]
    rfl

end

theorem WrittenAs.readWhole {value : Json} {text : List Char} (written : value.WrittenAs text)
    (exact : value.Exact) (deep : value.nesting ≤ maxDepth) :
    readWhole (readValue maxDepth) (text ++ ['\n']) = .ok value := by
  obtain ⟨layout, legible, level, rfl⟩ := written
  have read := readValue_write legible level exact deep (endsNumber_mark (c := '\n') (by decide) [])
  rw [Json.readWhole, read]
  rfl

theorem readText_write (legible : layout.Legible) {blanks : List Char}
    (blank : ∀ c ∈ blanks, isBlank c = true) (level : Nat) (text : String) (later : List Char) :
    readText (blanks ++ (layout.write level (.string text) ++ later)) = .ok (text, later) := by
  obtain ⟨spelled, spells, written⟩ := exists_write_string_append legible level text later
  have read := readString_of_spells spells later
  rw [String.ofList_toList] at read
  rw [written, readText, dropBlanks_append blank, dropBlanks_cons (by decide)]
  simp only [if_true, read]

theorem readOptionalText_write (legible : layout.Legible) {blanks : List Char}
    (blank : ∀ c ∈ blanks, isBlank c = true) (level : Nat) (text : String) (later : List Char) :
    readOptionalText (blanks ++ (layout.write level (.string text) ++ later)) =
      .ok (some text, later) := by
  obtain ⟨spelled, spells, written⟩ := exists_write_string_append legible level text later
  have read := @readText_write _ legible [] (by simp) level text later
  rw [List.nil_append, written] at read
  rw [written, readOptionalText, dropBlanks_append blank, dropBlanks_cons (by decide)]
  show (readText ('"' :: (spelled ++ '"' :: later))).map _ = _
  rw [read]
  rfl

theorem readOnce_colon {α : Type} (name : String) (value : Reader α) (text : List Char) :
    readOnce name none value (':' :: text) = value text :=
  rfl

theorem readRecord_brace {α : Type} (name : String) {byName byPlace : Nat → Reader α} {depth : Nat}
    {text rest after : List Char} {value : α} (read : byName depth text = .ok (value, rest))
    (ends : endObject rest = .ok after) :
    readRecord name byName byPlace (depth + 1) ('\x7b' :: text) = .ok (value, after) := by
  rw [readRecord, dropBlanks_cons (by decide)]
  simp only [if_true, closingObject, read, closing, ends]
  rfl

theorem readList_write (legible : layout.Legible) {blanks : List Char}
    (blank : ∀ c ∈ blanks, isBlank c = true) (level : Nat) {α : Type} {item : Nat → Reader α}
    {depth : Nat} {items : List Json} {founds : List α}
    (reads : ReadsItems layout (level + 1) (item depth) items founds) (later : List Char) :
    readList item (depth + 1) (blanks ++ (layout.write level (.array items) ++ later)) =
      .ok (founds, later) := by
  cases reads with
  | nil =>
    have whole : layout.write level (.array []) ++ later = '[' :: ']' :: later := rfl
    rw [whole, readList, dropBlanks_append blank, dropBlanks_cons (by decide)]
    rfl
  | @cons value found others founds begins read readOthers =>
    have content := readItems_of_reads legible level (.cons begins read readOthers) later
    have closed := endList_bracket legible level later
    rw [Layout.write_array_append, readList, dropBlanks_append blank, dropBlanks_cons (by decide)]
    simp only [if_true, closingList, content, closing, closed]
    rfl

end Readers

end Phrasebook.Json
