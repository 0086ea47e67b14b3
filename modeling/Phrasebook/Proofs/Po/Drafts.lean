import Phrasebook.Proofs.Po.Passages
import Phrasebook.Proofs.Po.Steps

/-!
A draft holds the fields of the lines that were read into it.
-/

namespace Phrasebook.Po

namespace Passage

theorem continued_append_of_unkeyed {lines : List Line} (unkeyed : fieldsOf lines = [])
    (more : List Line) : continued (lines ++ more) = continued lines ++ continued more := by
  induction lines with
  | nil => rfl
  | cons line rest ih =>
    cases line with
    | keyword field text => cases unkeyed
    | blank => exact ih unkeyed
    | comment fuzzy => exact ih unkeyed
    | continuation text =>
      have step := ih unkeyed
      simp only [continued, List.cons_append, Line.isKeyword, List.takeWhile_cons, Bool.not_false,
        if_true, List.flatMap_cons, List.append_assoc] at step ⊢
      rw [step]

theorem continued_append_of_keyed {lines : List Line} (keyed : fieldsOf lines ≠ [])
    (more : List Line) : continued (lines ++ more) = continued lines := by
  induction lines with
  | nil => exact absurd rfl keyed
  | cons line rest ih =>
    cases line with
    | keyword field text => rfl
    | blank => exact ih keyed
    | comment fuzzy => exact ih keyed
    | continuation text =>
      have step := ih keyed
      simp only [continued, List.cons_append, Line.isKeyword, List.takeWhile_cons, Bool.not_false,
        if_true, List.flatMap_cons] at step ⊢
      rw [step]

theorem fieldsOf_append_of_unkeyed {lines : List Line} (unkeyed : fieldsOf lines = [])
    (more : List Line) : fieldsOf (lines ++ more) = fieldsOf more := by
  induction lines with
  | nil => rfl
  | cons line rest ih =>
    cases line with
    | keyword field text => cases unkeyed
    | blank => exact ih unkeyed
    | comment fuzzy => exact ih unkeyed
    | continuation text => exact ih unkeyed

theorem fieldsOf_append {lines : List Line} {before : List (Field × String)} {field : Field}
    {value : String} (fields : fieldsOf lines = before ++ [(field, value)]) (more : List Line) :
    fieldsOf (lines ++ more) =
      before ++ (field, value ++ String.ofList (continued more)) :: fieldsOf more := by
  induction lines generalizing before with
  | nil => simp [fieldsOf] at fields
  | cons line rest ih =>
    cases line with
    | blank => exact ih fields
    | comment fuzzy => exact ih fields
    | continuation text => exact ih fields
    | keyword first text =>
      simp only [List.cons_append, fieldsOf] at fields ⊢
      cases before with
      | nil =>
        obtain ⟨same, unkeyed⟩ := List.cons.inj fields
        obtain ⟨rfl, rfl⟩ := Prod.mk.inj same
        rw [continued_append_of_unkeyed unkeyed, fieldsOf_append_of_unkeyed unkeyed,
          ← List.append_assoc, String.ofList_append]
        rfl
      | cons other before =>
        obtain ⟨rfl, later⟩ := List.cons.inj fields
        have keyed : fieldsOf rest ≠ [] := by simp [later]
        rw [continued_append_of_keyed keyed, ih later]
        rfl

theorem indexed_eq_nil_iff {lines : List Line} :
    (fieldsOf lines).filterMap indexedWording? = [] ↔ ∀ line ∈ lines, line.isWording = false := by
  induction lines with
  | nil => simp [fieldsOf]
  | cons line rest ih =>
    rw [List.forall_mem_cons]
    cases line with
    | blank | comment | continuation => exact ih.trans (and_iff_right rfl).symm
    | keyword field text =>
      cases field with
      | wording index => simp [fieldsOf, indexedWording?, Line.isWording]
      | context | id | idPlural => exact ih.trans (and_iff_right rfl).symm

@[simp] theorem continued_nil : continued [] = [] := rfl

@[simp] theorem continued_singleton (line : Line) :
    continued [line] = line.continuationText := by
  cases line <;> simp [continued, Line.isKeyword, Line.continuationText]

end Passage

open Passage

def Draft.value? (draft : Draft) : Field → Option String
  | .context => draft.context
  | .id => draft.id
  | .idPlural => draft.idPlural
  | .wording index => draft.wordings[index]?

structure Draft.Holds (draft : Draft) (fields : List (Field × String)) : Prop where
  values : ∀ field, draft.value? field = fields.lookup field
  wordings : fields.filterMap indexedWording? = draft.wordings.mapIdx Prod.mk
  last : draft.last = fields.getLast?.map Prod.fst
  once : (fields.map Prod.fst).Nodup

namespace Draft

variable {draft : Draft} {fields before : List (Field × String)} {field : Field}
  {value text : String}

theorem lookup_concat (other : Field) (absent : fields.lookup field = none) :
    (fields ++ [(field, text)]).lookup other =
      if other = field then some text else fields.lookup other := by
  rw [List.lookup_append]
  by_cases same : other = field
  · subst same
    simp [absent]
  · have distinct : (other == field) = false := by simpa using same
    simp [same, List.lookup_cons, distinct]

theorem value_put (other : Field) (admits : draft.Admits field) :
    (draft.put text field).value? other =
      if other = field then some text else draft.value? other := by
  cases field with
  | wording index =>
    obtain ⟨_, rfl⟩ := admits
    cases other with
    | wording place =>
      simp only [Draft.put, Draft.value?, List.getElem?_append, Field.wording.injEq]
      split
      · grind
      · grind
    | context | id | idPlural => rfl
  | context | id | idPlural => cases other <;> rfl

theorem value_eq_none (admits : draft.Admits field) : draft.value? field = none := by
  cases field with
  | wording index =>
    obtain ⟨_, rfl⟩ := admits
    simp [Draft.value?]
  | context | id | idPlural => simpa [Draft.has, Draft.value?] using admits.2

theorem Holds.put (holds : draft.Holds fields) (text : String) (admits : draft.Admits field) :
    (draft.put text field).Holds (fields ++ [(field, text)]) := by
  have absent : fields.lookup field = none := by rw [← holds.values, value_eq_none admits]
  constructor
  · intro other
    rw [value_put other admits, lookup_concat other absent, holds.values]
  · rw [List.filterMap_append, holds.wordings]
    cases field with
    | wording index =>
      obtain ⟨_, rfl⟩ := admits
      simp [Draft.put, indexedWording?]
    | context | id | idPlural => simp [Draft.put, indexedWording?]
  · cases field <;> simp [Draft.put]
  · have fresh : field ∉ fields.map Prod.fst := by
      intro member
      obtain ⟨⟨_, value⟩, there, rfl⟩ := List.mem_map.1 member
      simpa using List.lookup_eq_none_iff.1 absent _ there
    rw [List.map_append, List.map_singleton, List.nodup_append_comm]
    exact List.nodup_cons.2 ⟨fresh, holds.once⟩

theorem value_extend (other : Field) (there : draft.value? field = some value) :
    (draft.extend text field).value? other =
      if other = field then some (value ++ text) else draft.value? other := by
  cases field with
  | wording index =>
    have there : draft.wordings[index]? = some value := there
    cases other with
    | wording place =>
      simp only [Draft.extend, Draft.value?, List.getElem?_modify, Field.wording.injEq]
      grind
    | context | id | idPlural => rfl
  | context | id | idPlural =>
    have there : draft.value? _ = some value := there
    simp only [Draft.value?] at there
    cases other <;> simp [Draft.extend, Draft.value?, there]

theorem indexed_extend
    (indexed : (before ++ [(field, value)]).filterMap indexedWording? =
      draft.wordings.mapIdx Prod.mk) :
    (before ++ [(field, value ++ text)]).filterMap indexedWording? =
      (draft.extend text field).wordings.mapIdx Prod.mk := by
  cases field with
  | wording index =>
    simp only [List.filterMap_append, List.filterMap_cons, indexedWording?,
      List.filterMap_nil] at indexed ⊢
    rcases List.eq_nil_or_concat draft.wordings with none | ⟨others, last, whole⟩
    · simp [none] at indexed
    · rw [List.concat_eq_append] at whole
      rw [whole, List.mapIdx_concat] at indexed
      obtain ⟨earlier, same⟩ := List.append_inj' indexed rfl
      cases same
      simp [Draft.extend, whole, earlier, Reader.modify_length]
  | context | id | idPlural =>
    simpa [Draft.extend, List.filterMap_cons, indexedWording?] using indexed

theorem Holds.extend (holds : draft.Holds (before ++ [(field, value)])) (text : String) :
    (draft.extend text field).Holds (before ++ [(field, value ++ text)]) := by
  have once := holds.once
  rw [List.map_append, List.map_singleton] at once
  have absent : before.lookup field = none := by
    rw [List.lookup_eq_none_iff]
    rintro ⟨other, found⟩ member
    have different : field ≠ other := by
      rintro rfl
      exact (List.nodup_cons.1 (List.nodup_append_comm.1 once)).1
        (List.mem_map.2 ⟨_, member, rfl⟩)
    simpa using different
  have there : draft.value? field = some value := by
    rw [holds.values, lookup_concat field absent, if_pos rfl]
  constructor
  · intro other
    rw [value_extend other there, lookup_concat other absent, holds.values,
      lookup_concat other absent]
    split <;> rfl
  · exact indexed_extend holds.wordings
  · have last := holds.last
    rw [List.getLast?_concat] at last ⊢
    cases field <;> exact last
  · simpa using once

end Draft

end Phrasebook.Po
