import Phrasebook.Proofs.Po.Gathering

/-!
The entry that the reader is in. Behind every line the draft holds the fields of the lines of that
entry, whether or not a keyword has come yet, and a continuation goes to the last field of them.
-/

namespace Phrasebook.Po

def Line.keywordField? : Line → Option Field
  | .keyword field _ => some field
  | .blank | .comment _ | .continuation _ => none

/-- The current entry behind one more line. A line that ends an entry with a wording is not of that
entry; a keyword is the first line of the next one. -/
def growEntry (entry : List Line) (line : Line) : List Line :=
  if line.endsEntry && entry.any Line.isWording then
    if line.isKeyword then [line] else []
  else entry ++ [line]

def currentEntry (lines : List Line) : List Line :=
  lines.foldl growEntry []

def latestField? (lines : List Line) : Option Field :=
  ((currentEntry lines).filterMap Line.keywordField?).getLast?

namespace Passage

theorem map_fst_fieldsOf (lines : List Line) :
    (fieldsOf lines).map Prod.fst = lines.filterMap Line.keywordField? := by
  induction lines with
  | nil => rfl
  | cons line rest ih =>
    cases line with
    | blank | comment | continuation => exact ih
    | keyword field text => exact congrArg (field :: ·) ih

/-- Behind an entry a line is worth the field that it begins and the text that it adds. -/
theorem fieldsOf_concat (entry : List Line) {line : Line} (plain : line.continuationText = []) :
    fieldsOf (entry ++ [line]) = fieldsOf entry ++ fieldsOf [line] := by
  rcases List.eq_nil_or_concat (fieldsOf entry) with unkeyed | ⟨before, ⟨field, value⟩, fields⟩
  · rw [fieldsOf_append_of_unkeyed unkeyed, unkeyed, List.nil_append]
  · rw [List.concat_eq_append] at fields
    rw [fieldsOf_append fields, fields, continued_singleton, plain, String.ofList_nil,
      String.append_empty, List.append_assoc]
    rfl

end Passage

open Passage

namespace Draft

variable {draft : Draft} {fields : List (Field × String)}

/-- What a draft holds has nothing to do with its place and its flag. -/
theorem Holds.begun (holds : draft.Holds fields) (line : Nat) (fuzzy : Bool) :
    { draft with line, fuzzy }.Holds fields := by
  have same : ∀ field, { draft with line, fuzzy }.value? field = draft.value? field :=
    fun field => by cases field <;> rfl
  exact ⟨fun field => (same field).trans (holds.values field), holds.wordings, holds.last, holds.once⟩

theorem holds_empty : Draft.empty.Holds [] :=
  ⟨fun field => by cases field <;> rfl, rfl, rfl, List.nodup_nil⟩

theorem Holds.exists_value {field : Field} (holds : draft.Holds fields)
    (last : draft.last = some field) : ∃ value, draft.value? field = some value := by
  rw [holds.last, Option.map_eq_some_iff] at last
  obtain ⟨⟨_, value⟩, latest, rfl⟩ := last
  have member := List.mem_of_getLast? latest
  rw [holds.values]
  refine Option.ne_none_iff_exists'.1 fun absent => ?_
  simpa using List.lookup_eq_none_iff.1 absent _ member

theorem Holds.wordings_eq_nil_iff {lines : List Line} (holds : draft.Holds (fieldsOf lines)) :
    draft.wordings = [] ↔ lines.any Line.isWording = false := by
  rw [List.any_eq_false, ← List.mapIdx_eq_nil_iff (f := Prod.mk), ← holds.wordings,
    indexed_eq_nil_iff]
  simp

end Draft

namespace Reader

variable {reader next : Reader} {number : Nat} {line : Line} {entry : List Line}

theorem holds_beginAt (holds : reader.draft.Holds (fieldsOf entry)) (number : Nat) :
    (reader.beginAt number).draft.Holds (fieldsOf entry) := by
  unfold beginAt
  split
  · exact holds.begun number reader.fuzzyNext
  · exact holds

/-- A line that does not end the entry comes to its fields. -/
theorem holds_concat (holds : reader.draft.Holds (fieldsOf entry))
    (unended : line.endsEntry = true → reader.draft.wordings = [])
    (taken : reader.take number line = .ok next) :
    next.draft.Holds (fieldsOf (entry ++ [line])) := by
  have unflushed (ends : line.endsEntry = true) : reader.flushIfWorded = .ok reader :=
    flushIfWorded_of_unworded (unended ends)
  cases line with
  | blank =>
    cases (unflushed rfl).symm.trans taken
    rw [fieldsOf_concat entry rfl]
    simpa [fieldsOf] using holds
  | comment fuzzy =>
    simp only [take, unflushed rfl, bind, Except.bind] at taken
    cases taken
    rw [fieldsOf_concat entry rfl]
    simpa [fieldsOf] using holds
  | continuation text =>
    have last := holds.last
    rcases List.eq_nil_or_concat (fieldsOf entry) with unkeyed | ⟨before, ⟨field, value⟩, fields⟩
    · rw [unkeyed] at last
      simp [take, readContinuation, last] at taken
    · rw [List.concat_eq_append] at fields
      rw [fields, List.getLast?_concat] at last
      simp only [take, readContinuation, last, Option.map_some, Except.ok.injEq] at taken
      subst taken
      rw [fields] at holds
      rw [fieldsOf_append fields, continued_singleton]
      exact holds.extend (String.ofList text)
  | keyword field text =>
    obtain ⟨admits, rfl⟩ := admits_of_readKeyword
      (fun starts => unflushed ((Line.endsEntry_keyword field text).trans starts)) taken
    rw [fieldsOf_concat entry rfl]
    have put := (holds_beginAt holds number).put (String.ofList text) admits
    simpa [fieldsOf] using put

theorem holds_growEntry (holds : reader.draft.Holds (fieldsOf entry))
    (taken : reader.take number line = .ok next) :
    next.draft.Holds (fieldsOf (growEntry entry line)) := by
  have worded := holds.wordings_eq_nil_iff
  rw [growEntry]
  split
  · rename_i ended
    rw [Bool.and_eq_true] at ended
    obtain ⟨closed, flushed, later⟩ := flush_of_endsEntry
      (worded.not.2 (by simp [ended.2])) ended.1 taken
    have empty : closed.draft.Holds (fieldsOf []) := draft_of_flush flushed ▸ Draft.holds_empty
    have grown := holds_concat empty (fun _ => congrArg Draft.wordings (draft_of_flush flushed)) later
    rw [List.nil_append] at grown
    split
    · exact grown
    · cases line with
      | blank | comment => exact grown
      | continuation => exact nomatch ended.1
      | keyword => contradiction
  · rename_i unended
    refine holds_concat holds (fun ends => worded.2 ?_) taken
    simpa [ends] using unended

theorem holds_of_takes {lines : List Line} (takes : Takes reader lines next)
    (holds : reader.draft.Holds (fieldsOf entry)) :
    next.draft.Holds (fieldsOf (lines.foldl growEntry entry)) := by
  induction takes generalizing entry with
  | nil => exact holds
  | cons number taken _ ih => exact ih (holds_growEntry holds taken)

/-- What a continuation does behind lines with the given latest field: it comes to the value of that
field and to nothing else, or is refused where there is no field. -/
inductive Continues (reader : Reader) (number : Nat) (text : List Char) : Option Field → Prop
  | stray :
      reader.take number (.continuation text) = .error (.malformed number 1 .strayContinuation) →
      Continues reader number text none
  | field {field value next} :
      reader.draft.value? field = some value →
      reader.take number (.continuation text) = .ok next →
      next.draft.value? field = some (value ++ String.ofList text) →
      (∀ other ≠ field, next.draft.value? other = reader.draft.value? other) →
      next.catalog = reader.catalog → Continues reader number text (some field)

theorem continues_of_holds {lines : List Line}
    (holds : reader.draft.Holds (fieldsOf (currentEntry lines))) (number : Nat) (text : List Char) :
    Continues reader number text (latestField? lines) := by
  have last := holds.last
  rw [← List.getLast?_map, map_fst_fieldsOf, ← latestField?] at last
  rw [← last]
  cases latest : reader.draft.last with
  | none => exact .stray (by rw [take, readContinuation, latest])
  | some field =>
    obtain ⟨value, known⟩ := holds.exists_value latest
    have taken : reader.take number (.continuation text) =
        .ok { reader with draft := reader.draft.extend (String.ofList text) field } := by
      rw [take, readContinuation, latest]
    refine .field known taken ?_ (fun other different => ?_) rfl
    · exact (Draft.value_extend field known).trans (if_pos rfl)
    · exact (Draft.value_extend other known).trans (if_neg different)

end Reader

end Phrasebook.Po
