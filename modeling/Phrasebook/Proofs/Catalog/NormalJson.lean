import Phrasebook.Catalog.NormalJson
import Phrasebook.Proofs.Dictionary
import Phrasebook.Proofs.Json.Reading

/-!
Normal catalogs are written as values that tell them, but are read back only if no entry has
plural forms.
-/

namespace Phrasebook

namespace Entry

theorem exact_toJson (entry : Entry) : entry.toJson.Exact := by
  cases entry with
  | simple text => trivial
  | plural forms => exact Json.exactFields_iff.2 (List.forall_mem_map.2 fun _ _ => trivial)

theorem toJson_injective {first second : Entry} (same : first.toJson = second.toJson) :
    first = second := by
  cases first with
  | simple text =>
    cases second with
    | simple other => exact congrArg simple (Json.string.inj same)
    | plural forms => cases same
  | plural forms =>
    cases second with
    | simple text => cases same
    | plural others =>
      have field : ∀ form other : Nat × String,
          (String.ofList (Text.decimal form.1), Json.string form.2) =
            (String.ofList (Text.decimal other.1), Json.string other.2) → form = other := by
        rintro ⟨index, text⟩ ⟨index', text'⟩ equal
        have digits := String.ofList_injective (Prod.mk.inj equal).1
        have texts := Json.string.inj (Prod.mk.inj equal).2
        exact Prod.ext (Text.decimal_injective digits) texts
      have entries := (List.map_inj_right field).1 (Json.object.inj same)
      exact congrArg plural (Dictionary.ext entries)

theorem nesting_toJson_le (entry : Entry) : entry.toJson.nesting ≤ 1 := by
  cases entry with
  | simple text => exact Nat.zero_le 1
  | plural forms =>
    exact Nat.succ_le_succ (Json.nestingOfFields_le_iff.2
      (List.forall_mem_map.2 fun _ _ => Nat.le_refl 0))

def HasForms : Entry → Prop
  | simple _ => False
  | plural forms => forms.entries ≠ []

instance : DecidablePred HasForms := fun entry =>
  match entry with
  | simple _ => inferInstanceAs (Decidable False)
  | plural forms => inferInstanceAs (Decidable (forms.entries ≠ []))

/-- An entry is read back from its value only without forms, for their indices are strings there. -/
theorem ofJson_toJson (entry : Entry) :
    ofJson? entry.toJson = if entry.HasForms then none else some entry := by
  cases entry with
  | simple text => rfl
  | plural forms =>
    obtain ⟨entries, sorted⟩ := forms
    cases entries with
    | nil => rfl
    | cons form rest => rfl

end Entry

namespace NormalCatalog

open Json.Layout

theorem exact_toJson (catalog : NormalCatalog) : catalog.toJson.Exact :=
  Json.exactFields_iff.2 (List.forall_mem_map.2 fun entry _ => entry.2.exact_toJson)

theorem toJson_injective {first second : NormalCatalog} (same : first.toJson = second.toJson) :
    first = second := by
  have field : ∀ entry other : String × Entry,
      (entry.1, entry.2.toJson) = (other.1, other.2.toJson) → entry = other := by
    rintro ⟨text, entry⟩ ⟨text', entry'⟩ equal
    exact Prod.ext (Prod.mk.inj equal).1 (Entry.toJson_injective (Prod.mk.inj equal).2)
  exact Dictionary.ext ((List.map_inj_right field).1 (Json.object.inj same))

theorem endsNumber_fields (level : Nat) (fields : List (String × Json)) (rest : List Char) :
    Json.EndsNumber (compact.writeFields level false fields ++ '\x7d' :: rest) := by
  cases fields with
  | nil => exact Json.endsNumber_mark (by decide) rest
  | cons field others => exact Json.endsNumber_mark (by decide) _

theorem readField_write {depth : Nat} (deep : 1 ≤ depth) (known : NormalCatalog) (name : String)
    (level : Nat) (entry : Entry) {later : List Char} (ends : Json.EndsNumber later) :
    readField depth known name (':' :: (compact.write level entry.toJson ++ later)) =
      if entry.HasForms then .error (.unplaced (.noVariant "CatalogEntry") later)
      else .ok (known.insert name entry, later) := by
  have read := Json.readValue_write Json.legible_compact level entry.exact_toJson
    (entry.nesting_toJson_le.trans deep) ends
  have colon : Json.readColon (':' :: (compact.write level entry.toJson ++ later)) =
      .ok (compact.write level entry.toJson ++ later) := rfl
  simp only [readField, colon, read, bind, Except.bind, Entry.ofJson_toJson]
  by_cases forms : entry.HasForms
  · rw [if_pos forms, if_pos forms]
  · rw [if_neg forms, if_neg forms]
    rfl

theorem readFieldsWithin_cons {depth : Nat} (deep : 1 ≤ depth) (steps level : Nat) (first : Bool)
    (known : NormalCatalog) (name : String) (entry : Entry) (fields : List (String × Json)) :
    Json.readFieldsWithin (readField depth) (steps + 1) first known
        (compact.writeFields level first ((name, entry.toJson) :: fields) ++ ['\x7d']) =
      if entry.HasForms then .error (.unplaced (.noVariant "CatalogEntry")
        (compact.writeFields level false fields ++ ['\x7d']))
      else Json.readFieldsWithin (readField depth) steps false (known.insert name entry)
        (compact.writeFields level false fields ++ ['\x7d']) := by
  have next := Json.nextField_comma Json.legible_compact level first name
    (':' :: (compact.write level entry.toJson ++
      (compact.writeFields level false fields ++ ['\x7d'])))
  have read := readField_write deep known name level entry (endsNumber_fields level fields [])
  have gap : compact.gap = [] := rfl
  rw [Json.Layout.writeFields, gap, List.nil_append, List.append_assoc, List.append_assoc,
    List.append_assoc, List.cons_append, List.append_assoc, Json.readFieldsWithin, next]
  simp only [read]
  by_cases forms : entry.HasForms
  · rw [if_pos forms, if_pos forms]
  · rw [if_neg forms, if_neg forms]

def fieldsOf (entries : List (String × Entry)) : List (String × Json) :=
  entries.map fun (text, entry) => (text, entry.toJson)

theorem readFieldsWithin_write {depth : Nat} (deep : 1 ≤ depth) (level : Nat)
    {entries : List (String × Entry)} (plain : ∀ pair ∈ entries, ¬pair.2.HasForms)
    (first : Bool) (known : NormalCatalog) {steps : Nat} (enough : entries.length < steps) :
    Json.readFieldsWithin (readField depth) steps first known
        (compact.writeFields level first (fieldsOf entries) ++ ['\x7d']) =
      .ok (known.insertAll entries, ['\x7d']) := by
  induction entries generalizing first known steps with
  | nil =>
    cases steps with
    | zero => exact absurd enough (Nat.not_lt_zero _)
    | succ steps =>
      exact Json.readFieldsWithin_brace Json.legible_compact level steps first (readField depth)
        known []
  | cons pair rest ih =>
    rw [List.forall_mem_cons] at plain
    cases steps with
    | zero => exact absurd enough (Nat.not_lt_zero _)
    | succ steps =>
      have step := readFieldsWithin_cons deep steps level first known pair.1 pair.2 (fieldsOf rest)
      rw [if_neg plain.1, ih plain.2 false _ (Nat.lt_of_succ_lt_succ enough)] at step
      exact step

theorem readFieldsWithin_refused {depth : Nat} (deep : 1 ≤ depth) (level : Nat)
    {entries : List (String × Entry)} {pair : String × Entry} (member : pair ∈ entries)
    (forms : pair.2.HasForms) (first : Bool) (known : NormalCatalog) {steps : Nat}
    (enough : entries.length < steps) :
    ∃ refusal, Json.readFieldsWithin (readField depth) steps first known
      (compact.writeFields level first (fieldsOf entries) ++ ['\x7d']) = .error refusal := by
  induction entries generalizing first known steps with
  | nil => cases member
  | cons next rest ih =>
    cases steps with
    | zero => exact absurd enough (Nat.not_lt_zero _)
    | succ steps =>
      have step := readFieldsWithin_cons deep steps level first known next.1 next.2 (fieldsOf rest)
      by_cases here : next.2.HasForms
      · rw [if_pos here] at step
        exact ⟨_, step⟩
      · have later : pair ∈ rest := by
          rcases List.mem_cons.1 member with same | later
          · exact absurd (same ▸ forms) here
          · exact later
        obtain ⟨refusal, refused⟩ := ih later false (known.insert next.1 next.2)
          (Nat.lt_of_succ_lt_succ enough)
        rw [if_neg here] at step
        exact ⟨refusal, step.trans refused⟩

theorem compact_toJson (catalog : NormalCatalog) :
    catalog.toJson.compact =
      '\x7b' :: (compact.writeFields 1 true (fieldsOf catalog.entries) ++ ['\x7d']) := by
  show Json.compact (.object (fieldsOf catalog.entries)) = _
  rw [writeFields_compact, Json.compact]
  rfl

theorem readObject_brace (text : List Char) :
    readObject ('\x7b' :: text) =
      Json.closingObject (Json.readFields (readField (Json.maxDepth - 1)) .empty text) :=
  rfl

/-- Writing a catalog in JSON and reading it again gives it back if no entry has plural forms, and
else gives no catalog at all. -/
theorem read_compact_toJson (catalog : NormalCatalog) :
    ((∀ pair ∈ catalog.entries, ¬pair.2.HasForms) →
      read (String.ofList catalog.toJson.compact) = .ok catalog) ∧
    ((∃ pair ∈ catalog.entries, pair.2.HasForms) →
      ∃ e, read (String.ofList catalog.toJson.compact) = .error e) := by
  have deep : 1 ≤ Json.maxDepth - 1 := by decide
  have enough : catalog.entries.length <
      (compact.writeFields 1 true (fieldsOf catalog.entries) ++ ['\x7d']).length + 1 := by
    have fields := Json.length_le_length_writeFields compact 1 true (fieldsOf catalog.entries)
    rw [fieldsOf, List.length_map, ← fieldsOf] at fields
    rw [List.length_append]
    omega
  rw [read, String.toList_ofList, compact_toJson, Json.readWhole, readObject_brace, Json.readFields]
  constructor
  · intro plain
    rw [readFieldsWithin_write deep 1 plain true .empty enough]
    exact congrArg Except.ok catalog.ofList_entries
  · rintro ⟨pair, member, forms⟩
    obtain ⟨refusal, refused⟩ :=
      readFieldsWithin_refused deep 1 member forms true .empty enough
    rw [refused]
    exact ⟨_, rfl⟩

/-- A catalog is not always read back: here the only form of `a` is refused. -/
theorem not_read_back :
    ¬∀ catalog : NormalCatalog, read (String.ofList catalog.toJson.compact) = .ok catalog := by
  intro back
  have whole := back (.ofList [("a", .plural (.ofList [(0, "x")]))])
  have refused : (read (String.ofList (toJson (.ofList [("a", .plural (.ofList [(0, "x")]))])).compact)
      ).isOk = false := by decide +kernel
  rw [whole] at refused
  cases refused

end NormalCatalog

end Phrasebook
