import Mathlib.Data.List.Induction
import Phrasebook.Proofs.Po.Drafts

/-!
The reader gathers the lines of an entry in its draft, up to the line that ends the entry.
-/

namespace Phrasebook.Po

theorem Line.endsEntry_of_isWording {line : Line} (wording : line.isWording = true) :
    line.endsEntry = false := by
  cases line with
  | blank | comment | continuation => cases wording
  | keyword field text =>
    cases field with
    | wording index => rfl
    | context | id | idPlural => cases wording

theorem Line.endsEntry_keyword (field : Field) (text : List Char) :
    (Line.keyword field text).endsEntry = Reader.startsEntry field := by
  cases field <;> rfl

namespace Reader

inductive Takes : Reader → List Line → Reader → Prop
  | nil {reader : Reader} : Takes reader [] reader
  | cons {reader middle next : Reader} {line : Line} {rest : List Line} (number : Nat) :
      reader.take number line = .ok middle → Takes middle rest next →
      Takes reader (line :: rest) next

theorem takes_of_readLines {reader next : Reader} {number : Nat} {raw : List (List Char)}
    (read : reader.readLines number raw = .ok next) :
    Takes reader (raw.filterMap fun line => (Line.ofChars line).toOption) next := by
  induction raw generalizing reader number with
  | nil =>
    cases read
    exact .nil
  | cons line rest ih =>
    obtain ⟨middle, readLine, later⟩ := readLines_cons_eq_ok_iff.1 read
    obtain ⟨parsed, parse, taken⟩ := readLine_eq_ok_iff.1 readLine
    simp only [List.filterMap_cons, parse, Except.toOption]
    exact .cons number taken (ih later)

theorem takes_append {reader next : Reader} {first second : List Line}
    (takes : Takes reader (first ++ second) next) :
    ∃ middle, Takes reader first middle ∧ Takes middle second next := by
  induction first generalizing reader with
  | nil => exact ⟨reader, .nil, takes⟩
  | cons line rest ih =>
    cases takes with
    | cons number taken later =>
      obtain ⟨middle, early, late⟩ := ih later
      exact ⟨middle, .cons number taken early, late⟩

theorem take_of_takes_singleton {reader next : Reader} {line : Line}
    (takes : Takes reader [line] next) : ∃ number, reader.take number line = .ok next := by
  cases takes with
  | cons number taken rest =>
    cases rest
    exact ⟨number, taken⟩

theorem takes_fillers {reader next : Reader} {lines : List Line}
    (closed : reader.draft = .empty) (fillers : ∀ line ∈ lines, line.isFiller = true)
    (takes : Takes reader lines next) :
    next = { reader with
      fuzzyNext := reader.fuzzyNext || decide (.comment true ∈ lines) } := by
  induction takes with
  | nil => simp
  | @cons reader middle next line rest number taken _ ih =>
    have filler := fillers line List.mem_cons_self
    have unworded := flushIfWorded_of_closed closed
    have step : middle = { reader with
        fuzzyNext := reader.fuzzyNext || decide (line = .comment true) } := by
      cases line with
      | blank =>
        rw [take, unworded] at taken
        cases taken
        simp
      | comment fuzzy =>
        simp only [take, unworded, bind, Except.bind] at taken
        cases taken
        simp
      | continuation text => cases filler
      | keyword field text => cases filler
    subst step
    rw [ih closed fun other member => fillers other (List.mem_cons_of_mem _ member)]
    simp [Bool.or_assoc, eq_comm]

def WithinEntry (lines : List Line) : Prop :=
  ∀ done line, done ++ [line] <+: lines → line.endsEntry = true →
    ∀ other ∈ done, other.isWording = false

structure Gathers (reader : Reader) (lines : List Line) (next : Reader) : Prop where
  metadata : next.metadata = reader.metadata
  messages : next.messages = reader.messages
  fuzzy : next.draft.fuzzy = reader.fuzzyNext
  flag : next.fuzzyNext = decide (.comment true ∈ lines)
  begun : Passage.fieldsOf lines ≠ []
  holds : next.draft.Holds (Passage.fieldsOf lines)

theorem Gathers.last_ne_none {reader next : Reader} {lines : List Line}
    (gathers : Gathers reader lines next) : next.draft.last ≠ none := by
  rw [gathers.holds.last]
  simpa using gathers.begun

theorem Gathers.wordings_eq_nil_iff {reader next : Reader} {lines : List Line}
    (gathers : Gathers reader lines next) :
    next.draft.wordings = [] ↔ ∀ line ∈ lines, line.isWording = false := by
  rw [← Passage.indexed_eq_nil_iff, gathers.holds.wordings, List.mapIdx_eq_nil_iff]

/-- An entry is begun by a keyword, which takes the flag. -/
theorem gathers_first {reader next : Reader} {number : Nat} {line : Line}
    (closed : reader.draft = .empty) (key : line.isFiller = false)
    (taken : reader.take number line = .ok next) : Gathers reader [line] next := by
  cases line with
  | blank => cases key
  | comment fuzzy => cases key
  | continuation text =>
    simp [take, readContinuation, closed, Draft.empty] at taken
  | keyword field text =>
    obtain ⟨admits, rfl⟩ := admits_of_readKeyword (fun _ => flushIfWorded_of_closed closed) taken
    have begins : reader.beginAt number =
        { reader with
          draft := { Draft.empty with line := number, fuzzy := reader.fuzzyNext }
          fuzzyNext := false } := by
      rw [beginAt, closed]
      rfl
    rw [begins] at admits ⊢
    have none : Draft.Holds { Draft.empty with line := number, fuzzy := reader.fuzzyNext } [] :=
      ⟨fun field => by cases field <;> rfl, rfl, rfl, List.nodup_nil⟩
    have holds := none.put (String.ofList text) admits
    refine ⟨rfl, rfl, by cases field <;> rfl, by simp, List.cons_ne_nil _ _, ?_⟩
    simpa [Passage.fieldsOf] using holds

theorem Gathers.redraft {reader middle : Reader} {done : List Line}
    (gathers : Gathers reader done middle) {draft : Draft}
    (fuzzy : draft.fuzzy = middle.draft.fuzzy) {lines : List Line} {fuzzyNext : Bool}
    (flag : fuzzyNext = decide (.comment true ∈ lines))
    (holds : draft.Holds (Passage.fieldsOf lines)) (begun : Passage.fieldsOf lines ≠ []) :
    Gathers reader lines { middle with draft, fuzzyNext } :=
  ⟨gathers.metadata, gathers.messages, fuzzy.trans gathers.fuzzy, flag, begun, holds⟩

theorem gathers_concat {reader middle next : Reader} {number : Nat} {line : Line}
    {done : List Line} (gathers : Gathers reader done middle)
    (unended : line.endsEntry = true → middle.draft.wordings = [])
    (taken : middle.take number line = .ok next) :
    Gathers reader (done ++ [line]) next := by
  obtain ⟨before, ⟨field, value⟩, fields⟩ :=
    (List.eq_nil_or_concat _).resolve_left gathers.begun
  rw [List.concat_eq_append] at fields
  have unflushed (ends : line.endsEntry = true) : middle.flushIfWorded = .ok middle :=
    flushIfWorded_of_unworded (unended ends)
  have kept (plain : line ≠ .comment true) :
      middle.fuzzyNext = decide (.comment true ∈ done ++ [line]) := by
    simp [gathers.flag, Ne.symm plain]
  have now := Passage.fieldsOf_append fields [line]
  have begun : Passage.fieldsOf (done ++ [line]) ≠ [] := by simp [now]
  have holds := gathers.holds
  have last := holds.last
  rw [fields] at holds
  rw [fields, List.getLast?_concat] at last
  cases line with
  | blank =>
    cases (unflushed rfl).symm.trans taken
    refine gathers.redraft rfl (kept Line.noConfusion) ?_ begun
    simpa [now, Passage.fieldsOf, Line.continuationText] using holds
  | comment fuzzy =>
    simp only [take, unflushed rfl, bind, Except.bind] at taken
    cases taken
    refine gathers.redraft rfl (by simp [gathers.flag, eq_comm]) ?_ begun
    simpa [now, Passage.fieldsOf, Line.continuationText] using holds
  | continuation text =>
    simp only [take, readContinuation, last, Option.map_some, Except.ok.injEq] at taken
    subst taken
    refine gathers.redraft (by cases field <;> rfl) (kept Line.noConfusion) ?_ begun
    simpa [now, Passage.fieldsOf, Line.continuationText] using
      holds.extend (String.ofList text)
  | keyword other text =>
    obtain ⟨admits, rfl⟩ := admits_of_readKeyword
      (fun starts => unflushed ((Line.endsEntry_keyword other text).trans starts)) taken
    have still : middle.beginAt number = middle := by
      simp [beginAt, Draft.isEmpty, last]
    rw [still] at admits ⊢
    refine gathers.redraft (by cases other <;> rfl) (kept Line.noConfusion) ?_ begun
    simpa [now, Passage.fieldsOf, Line.continuationText] using
      holds.put (String.ofList text) admits

theorem gathers_of_takes {reader next : Reader} {lines : List Line}
    (closed : reader.draft = .empty) (nonempty : lines ≠ [])
    (key : ∀ line ∈ lines.head?, line.isFiller = false) (within : WithinEntry lines)
    (takes : Takes reader lines next) :
    Gathers reader lines next := by
  -- Lines are put behind those that were gathered, so the last one is the one to take off.
  induction lines using List.reverseRecOn generalizing next with
  | nil => exact absurd rfl nonempty
  | append_singleton done line ih =>
    obtain ⟨middle, early, late⟩ := takes_append takes
    obtain ⟨number, taken⟩ := take_of_takes_singleton late
    cases done with
    | nil =>
      cases early
      exact gathers_first closed (key line rfl) taken
    | cons first rest =>
      have gathers := ih (List.cons_ne_nil first rest) key
        (fun done other leading => within done other (leading.trans (List.prefix_append _ _)))
        early
      refine gathers_concat gathers (fun ends => ?_) taken
      exact gathers.wordings_eq_nil_iff.2 (within _ line (List.prefix_refl _) ends)

/-- An entry with a wording is closed before the line that ends it. -/
theorem flush_of_endsEntry {reader next : Reader} {number : Nat} {line : Line}
    (worded : reader.draft.wordings ≠ []) (ends : line.endsEntry = true)
    (taken : reader.take number line = .ok next) :
    ∃ closed, reader.flush = .ok closed ∧ closed.take number line = .ok next := by
  have flushes : reader.flushIfWorded = reader.flush := by
    simp [flushIfWorded, Draft.hasWording, worded]
  cases line with
  | blank =>
    have flushed : reader.flush = .ok next := flushes.symm.trans taken
    exact ⟨next, flushed, flushIfWorded_of_closed (draft_of_flush flushed)⟩
  | comment fuzzy =>
    simp only [take, flushes, bind_eq_ok_iff] at taken ⊢
    obtain ⟨closed, flushed, same⟩ := taken
    exact ⟨closed, flushed, closed, flushIfWorded_of_closed (draft_of_flush flushed), same⟩
  | continuation text => cases ends
  | keyword field text =>
    obtain ⟨closed, step, admits, rfl⟩ := readKeyword_eq_ok_iff.1 taken
    have starts : startsEntry field = true := (Line.endsEntry_keyword field text).symm.trans ends
    rw [if_pos starts, flushes] at step
    refine ⟨closed, step, readKeyword_eq_ok_iff.2 ⟨closed, ?_, admits, rfl⟩⟩
    rw [if_pos starts, flushIfWorded_of_closed (draft_of_flush step)]

end Reader

end Phrasebook.Po
