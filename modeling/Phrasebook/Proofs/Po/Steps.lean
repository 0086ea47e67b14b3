import Phrasebook.Proofs.Except
import Phrasebook.Proofs.Po.Entries

/-!
All that a line can do to the reader if it is not refused.
-/

namespace Phrasebook.Po

namespace Draft

/-- A field may come next in the draft: a wording behind the id and the wordings before it, any
other field once and before all wordings. -/
def Admits (draft : Draft) : Field → Prop
  | .wording index => draft.id ≠ none ∧ index = draft.wordings.length
  | field => draft.wordings = [] ∧ draft.has field = false

def put (draft : Draft) (text : String) : Field → Draft
  | .context => { draft with context := some text, last := some .context }
  | .id => { draft with id := some text, last := some .id }
  | .idPlural => { draft with idPlural := some text, last := some .idPlural }
  | .wording index =>
    { draft with wordings := draft.wordings ++ [text], last := some (.wording index) }

def IsHeader (draft : Draft) : Prop := draft.id = some "" ∧ draft.context = none

def LeftOut (draft : Draft) : Prop :=
  draft.id ≠ none ∧ ¬draft.IsHeader ∧
    (draft.fuzzy = true ∨ draft.context ≠ none ∨ "" ∈ draft.wordings)

structure Kept (draft : Draft) (id : String) : Prop where
  known : draft.id = some id
  named : id ≠ ""
  certain : draft.fuzzy = false
  plain : draft.context = none
  complete : "" ∉ draft.wordings

inductive Tells (draft : Draft) : MessageKey → Wording → Prop
  | single {id text} : Kept draft id → draft.idPlural = none → draft.wordings = [text] →
      Tells draft (.singular id) (.single text)
  | forms {id plural} : Kept draft id → draft.idPlural = some plural →
      Tells draft (.pair id plural) (.forms draft.wordings)

theorem Tells.placed {draft : Draft} {key : MessageKey} {wording : Wording}
    (tells : draft.Tells key wording) (line : Nat) : { draft with line }.Tells key wording := by
  cases tells with
  | single kept plural texts =>
    exact .single ⟨kept.known, kept.named, kept.certain, kept.plain, kept.complete⟩ plural texts
  | forms kept plural =>
    exact .forms ⟨kept.known, kept.named, kept.certain, kept.plain, kept.complete⟩ plural

end Draft

namespace Reader

inductive Closes (reader : Reader) : Reader → Prop
  | header : reader.draft.IsHeader →
      Closes reader
        { reader with draft := .empty, metadata := String.join reader.draft.wordings }
  | leftOut : reader.draft.LeftOut → Closes reader { reader with draft := .empty }
  | stored {key wording} : reader.draft.Tells key wording →
      reader.messages.contains key = false →
      Closes reader
        { reader with draft := .empty, messages := reader.messages.insert key wording }

theorem flushIfWorded_of_unworded {reader : Reader} (unworded : reader.draft.wordings = []) :
    reader.flushIfWorded = .ok reader := by
  simp [flushIfWorded, unworded, Draft.hasWording]

theorem flushIfWorded_of_closed {reader : Reader} (closed : reader.draft = .empty) :
    reader.flushIfWorded = .ok reader :=
  flushIfWorded_of_unworded (congrArg Draft.wordings closed)

theorem flush_of_closed {reader : Reader} (closed : reader.draft = .empty) :
    reader.flush = .ok reader := by
  obtain ⟨metadata, messages, draft, fuzzyNext⟩ := reader
  subst closed
  rfl

theorem store_eq_ok_iff {reader next : Reader} {line : Nat} {key : MessageKey}
    {wording : Wording} :
    reader.store line key wording = .ok next ↔ reader.messages.contains key = false ∧
      next = { reader with messages := reader.messages.insert key wording } := by
  unfold store
  cases reader.messages.contains key with
  | true => simp
  | false => simp [eq_comm]

/-- A draft that was begun is closed only if it has an id and a wording. -/
theorem closes_of_flush {reader next : Reader} (begun : reader.draft.last ≠ none)
    (flushed : reader.flush = .ok next) : reader.draft.wordings ≠ [] ∧ Closes reader next := by
  have notEmpty : reader.draft.isEmpty = false := by
    simpa [Draft.isEmpty, Option.isSome_iff_ne_none] using begun
  simp only [flush, notEmpty, Bool.false_eq_true, if_false] at flushed
  cases known : reader.draft.id with
  | none =>
    rw [known] at flushed
    cases flushed
  | some id =>
    simp only [known] at flushed
    split at flushed
    · cases flushed
    · rename_i worded
      refine ⟨by simpa using worded, ?_⟩
      split at flushed
      · rename_i header
        cases flushed
        have header : reader.draft.IsHeader := by simpa [Draft.IsHeader, known] using header
        exact .header header
      · rename_i named
        have named : ¬reader.draft.IsHeader := by simpa [Draft.IsHeader, known] using named
        split at flushed
        · rename_i skipped
          cases flushed
          refine .leftOut ⟨by simp [known], named, ?_⟩
          simpa [or_assoc, Option.isSome_iff_ne_none] using skipped
        · rename_i kept
          simp only [Bool.or_eq_true, not_or, Bool.not_eq_true, Option.isSome_eq_false_iff,
            Option.isNone_iff_eq_none, List.any_eq_true, String.isEmpty_iff, exists_eq_right] at kept
          obtain ⟨⟨certain, plain⟩, complete⟩ := kept
          have kept : reader.draft.Kept id :=
            ⟨known, fun empty => named ⟨known.trans (congrArg some empty), plain⟩, certain, plain,
              complete⟩
          split at flushed
          · rename_i plural
            obtain ⟨fresh, rfl⟩ := store_eq_ok_iff.1 flushed
            exact .stored (.forms kept plural) fresh
          · rename_i text plural texts
            obtain ⟨fresh, rfl⟩ := store_eq_ok_iff.1 flushed
            exact .stored (.single kept plural texts) fresh
          · cases flushed

theorem flush_of_unbegun {reader : Reader} (unbegun : reader.draft.last = none) :
    reader.flush = .ok { reader with draft := .empty } := by
  simp [flush, Draft.isEmpty, unbegun]

theorem draft_of_flush {reader next : Reader} (flushed : reader.flush = .ok next) :
    next.draft = .empty := by
  by_cases begun : reader.draft.last = none
  · cases flushed.symm.trans (flush_of_unbegun begun)
    rfl
  · cases (closes_of_flush begun flushed).2 <;> rfl

theorem wordings_of_flushIfWorded {reader next : Reader}
    (flushed : reader.flushIfWorded = .ok next) : next.draft.wordings = [] := by
  unfold flushIfWorded at flushed
  by_cases worded : reader.draft.hasWording = true
  · rw [if_pos worded] at flushed
    rw [draft_of_flush flushed]
    rfl
  · rw [if_neg worded] at flushed
    cases flushed
    simpa [Draft.hasWording] using worded

theorem flush_of_tells {reader : Reader} (begun : reader.draft.last ≠ none)
    (worded : reader.draft.wordings ≠ []) {key : MessageKey} {wording : Wording}
    (tells : reader.draft.Tells key wording) :
    reader.flush = { reader with draft := .empty }.store reader.draft.line key wording := by
  have notEmpty : reader.draft.isEmpty = false := by
    simpa [Draft.isEmpty, Option.isSome_iff_ne_none] using begun
  cases tells with
  | single kept plural texts =>
    obtain ⟨known, named, certain, plain, complete⟩ := kept
    simp [texts] at complete
    simp [flush, notEmpty, known, named, plain, certain, texts, complete, plural]
  | forms kept plural =>
    obtain ⟨known, named, certain, plain, complete⟩ := kept
    simp [flush, notEmpty, known, named, plain, certain, worded, complete, plural]

theorem flush_of_closes {reader next : Reader} (begun : reader.draft.last ≠ none)
    (worded : reader.draft.wordings ≠ []) (closes : Closes reader next) :
    reader.flush = .ok next := by
  have notEmpty : reader.draft.isEmpty = false := by
    simpa [Draft.isEmpty, Option.isSome_iff_ne_none] using begun
  cases closes with
  | header header =>
    obtain ⟨known, plain⟩ := header
    simp [flush, notEmpty, known, plain, worded]
  | leftOut leftOut =>
    obtain ⟨named, other, reason⟩ := leftOut
    obtain ⟨id, known⟩ := Option.ne_none_iff_exists'.1 named
    have other : ¬(id = "" ∧ reader.draft.context = none) := by
      simpa [Draft.IsHeader, known] using other
    simp [flush, notEmpty, known, worded, other, or_assoc, Option.isSome_iff_ne_none, reason]
  | stored tells fresh =>
    rw [flush_of_tells begun worded tells, store_eq_ok_iff]
    exact ⟨fresh, rfl⟩

/-- A field that the draft admits is put into it, and no other is. -/
theorem allow_fill_iff {draft next : Draft} {line : Nat} {field : Field} {text : String} :
    (∃ allowed, allow draft line field = .ok allowed ∧ allowed.fill field text = next) ↔
      draft.Admits field ∧ draft.put text field = next := by
  cases field with
  | wording index =>
    have filled := modify_length draft.wordings "" (· ++ text)
    rw [String.empty_append] at filled
    simp only [allow, Draft.Admits, Draft.put]
    by_cases named : draft.id = none
    · simp [named]
    · by_cases next : index = draft.wordings.length
      · simp [named, next, Draft.fill, Draft.extend, filled]
      · simp [named, next]
  | context | id | idPlural =>
    simp only [allow, Draft.Admits, Draft.put]
    by_cases worded : draft.wordings = []
    · cases has : draft.has _ with
      | true => simp [Draft.hasWording, worded]
      | false =>
        have free := has
        simp only [Draft.has, Option.isSome_eq_false_iff, Option.isNone_iff_eq_none] at free
        simp [Draft.hasWording, worded, Draft.fill, Draft.extend, free]
    · simp [Draft.hasWording, worded]

/-- A keyword closes the entry before it if it is the first of its own, and then puts its field
into the draft, which it may begin. -/
theorem readKeyword_eq_ok_iff {reader next : Reader} {number : Nat} {field : Field}
    {text : String} :
    reader.readKeyword number field text = .ok next ↔ ∃ opened,
      (if startsEntry field then reader.flushIfWorded else .ok reader) = .ok opened ∧
      (opened.beginAt number).draft.Admits field ∧
      { opened.beginAt number with
        draft := (opened.beginAt number).draft.put text field } = next := by
  constructor
  · intro read
    have steps : ∃ opened,
        (if startsEntry field then reader.flushIfWorded else .ok reader) = .ok opened ∧
        ∃ allowed, allow (opened.beginAt number).draft number field = .ok allowed ∧
          { opened.beginAt number with draft := allowed.fill field text } = next := by
      unfold readKeyword at read
      by_cases starts : startsEntry field = true
      · simp only [if_pos starts, bind_eq_ok_iff] at read ⊢
        obtain ⟨opened, closed, allowed, admitted, same⟩ := read
        exact ⟨opened, closed, allowed, admitted, Except.ok.inj same⟩
      · simp only [if_neg starts, bind_eq_ok_iff] at read ⊢
        obtain ⟨opened, closed, allowed, admitted, same⟩ := read
        exact ⟨opened, closed, allowed, admitted, Except.ok.inj same⟩
    obtain ⟨opened, closed, allowed, admitted, rfl⟩ := steps
    obtain ⟨admits, put⟩ := allow_fill_iff.1 ⟨allowed, admitted, rfl⟩
    exact ⟨opened, closed, admits, by rw [put]⟩
  · rintro ⟨opened, closed, admits, rfl⟩
    obtain ⟨allowed, admitted, put⟩ := allow_fill_iff.2 ⟨admits, rfl⟩
    rw [readKeyword_of_ok closed admitted text, put]

theorem admits_of_readKeyword {reader next : Reader} {number : Nat} {field : Field} {text : String}
    (still : startsEntry field = true → reader.flushIfWorded = .ok reader)
    (read : reader.readKeyword number field text = .ok next) :
    (reader.beginAt number).draft.Admits field ∧
      { reader.beginAt number with
        draft := (reader.beginAt number).draft.put text field } = next := by
  obtain ⟨opened, step, admits, same⟩ := readKeyword_eq_ok_iff.1 read
  have unchanged : opened = reader := by
    by_cases starts : startsEntry field = true
    · rw [if_pos starts, still starts] at step
      exact (Except.ok.inj step).symm
    · rw [if_neg starts] at step
      exact (Except.ok.inj step).symm
  subst unchanged
  exact ⟨admits, same⟩

theorem readLine_eq_ok_iff {reader next : Reader} {number : Nat} {line : List Char} :
    reader.readLine number line = .ok next ↔
      ∃ parsed, Line.ofChars line = .ok parsed ∧ reader.take number parsed = .ok next := by
  unfold readLine
  cases Line.ofChars line with
  | error stuck => simp
  | ok parsed => simp

theorem readLines_cons_eq_ok_iff {reader next : Reader} {number : Nat} {line : List Char}
    {rest : List (List Char)} :
    reader.readLines number (line :: rest) = .ok next ↔ ∃ middle,
      reader.readLine number line = .ok middle ∧ middle.readLines (number + 1) rest = .ok next := by
  rw [readLines]
  cases reader.readLine number line with
  | error refusal => simp
  | ok middle => simp

theorem ofChars_eq_ok_iff {text : List Char} {reader : Reader} :
    ofChars text = .ok reader ↔
      ∃ last, start.readLines 1 (Text.lines text) = .ok last ∧ last.flush = .ok reader :=
  bind_eq_ok_iff

end Reader

theorem read_eq_ok_iff {text : String} {catalog : Catalog} :
    read text = .ok catalog ↔
      ∃ reader, Reader.ofChars text.toList = .ok reader ∧ reader.catalog = catalog := by
  unfold read
  cases Reader.ofChars text.toList with
  | error refusal => simp [Except.map]
  | ok reader => simp [Except.map]

end Phrasebook.Po
