import Phrasebook.Proofs.Po.CurrentEntry
import Phrasebook.Proofs.Po.Storing

/-!
The reader never reaches for a wording that is not there. What a draft has been given fits together
in every state of the reader, also in those in which a line is refused.
-/

namespace Phrasebook.Po

namespace Draft

/-- What has been put into a draft fits together: there is a field to continue as soon as there is
any, wordings come behind an id, and the latest wording is the last one. -/
structure Sound (draft : Draft) : Prop where
  begun : draft.last = none ↔
    draft.context = none ∧ draft.id = none ∧ draft.idPlural = none ∧ draft.wordings = []
  named : draft.wordings ≠ [] → draft.id ≠ none
  latest : ∀ index, draft.last = some (.wording index) → index + 1 = draft.wordings.length

variable {draft : Draft} {field : Field}

theorem sound_empty : Draft.empty.Sound :=
  ⟨by simp [Draft.empty], fun worded => absurd rfl worded, fun _ same => by cases same⟩

theorem Sound.placed (sound : draft.Sound) (line : Nat) (fuzzy : Bool) :
    { draft with line, fuzzy }.Sound :=
  ⟨sound.begun, sound.named, sound.latest⟩

theorem sound_put (admits : draft.Admits field) (text : String) : (draft.put text field).Sound := by
  cases field with
  | wording index =>
    obtain ⟨named, rfl⟩ := admits
    refine ⟨by simp [Draft.put], fun _ => named, fun index same => ?_⟩
    simp only [Draft.put, Option.some.injEq, Field.wording.injEq] at same
    simp [Draft.put, same]
  | context | id | idPlural =>
    obtain ⟨unworded, _⟩ := admits
    exact ⟨by simp [Draft.put], fun worded => absurd unworded worded, fun _ same => by cases same⟩

theorem Sound.lt_of_last (sound : draft.Sound) {index : Nat}
    (last : draft.last = some (.wording index)) : index < draft.wordings.length :=
  Nat.lt_of_succ_le (Nat.le_of_eq (sound.latest index last))

theorem Sound.extend (sound : draft.Sound) (last : draft.last = some field) (text : String) :
    (draft.extend text field).Sound := by
  cases field with
  | wording index =>
    have inside := sound.lt_of_last last
    have worded : draft.wordings ≠ [] := List.ne_nil_of_length_pos (Nat.zero_lt_of_lt inside)
    refine ⟨by simp [Draft.extend, last, worded], fun _ => sound.named worded, fun other same => ?_⟩
    simpa [Draft.extend] using sound.latest other same
  | context | idPlural =>
    exact ⟨by simp [Draft.extend, last], sound.named, sound.latest⟩
  | id =>
    exact ⟨by simp [Draft.extend, last], fun _ => Option.some_ne_none _, sound.latest⟩

/-- Puts text at the end of a field. There is no result if it is a wording that is not there. -/
def extend? (draft : Draft) (text : String) : Field → Option Draft
  | .wording index =>
    draft.wordings[index]?.map fun start =>
      { draft with wordings := draft.wordings.set index (start ++ text) }
  | field => some (draft.extend text field)

theorem extend_of_there (there : ∀ index, field = .wording index → index < draft.wordings.length)
    (text : String) : draft.extend? text field = some (draft.extend text field) := by
  cases field with
  | wording index =>
    have inside := there index rfl
    simp [Draft.extend?, Draft.extend, List.getElem?_eq_getElem inside, List.modify_eq_set]
  | context | id | idPlural => rfl

end Draft

namespace Reader

/-- The states behind the steps in which a reader takes a line: an entry is taken out of the reader
and judged, perhaps refused, and a keyword opens the next one, perhaps to be refused there. -/
inductive Within (reader : Reader) (number : Nat) : Line → Reader → Prop
  | emptied {line} :
      line.endsEntry = true → reader.draft.wordings ≠ [] →
      Within reader number line { reader with draft := .empty }
  | closed {line next} :
      line.endsEntry = true → reader.flushIfWorded = .ok next → Within reader number line next
  | opened {field text next} :
      (if startsEntry field then reader.flushIfWorded else .ok reader) = .ok next →
      Within reader number (.keyword field text) (next.beginAt number)
  | taken {line next} : reader.take number line = .ok next → Within reader number line next

inductive Reached (text : List Char) : Reader → Prop
  | between {front rest reader} :
      Text.lines text = front ++ rest → start.readLines 1 front = .ok reader → Reached text reader
  | within {front line rest parsed reader next} :
      Text.lines text = front ++ line :: rest → start.readLines 1 front = .ok reader →
      Line.ofChars line = .ok parsed → Within reader (front.length + 1) parsed next →
      Reached text next
  | emptied {reader} :
      start.readLines 1 (Text.lines text) = .ok reader →
      Reached text { reader with draft := .empty }
  | ended {reader} : ofChars text = .ok reader → Reached text reader

variable {reader next : Reader} {number : Nat} {line : Line}

theorem sound_of_flushIfWorded (sound : reader.draft.Sound)
    (flushed : reader.flushIfWorded = .ok next) : next.draft.Sound := by
  unfold flushIfWorded at flushed
  split at flushed
  · exact draft_of_flush flushed ▸ Draft.sound_empty
  · cases flushed
    exact sound

theorem sound_beginAt (sound : reader.draft.Sound) (number : Nat) :
    (reader.beginAt number).draft.Sound := by
  unfold beginAt
  split
  · exact sound.placed number reader.fuzzyNext
  · exact sound

theorem sound_of_opened {field : Field} (sound : reader.draft.Sound)
    (opened : (if startsEntry field then reader.flushIfWorded else .ok reader) = .ok next) :
    next.draft.Sound := by
  split at opened
  · exact sound_of_flushIfWorded sound opened
  · cases opened
    exact sound

theorem sound_of_take (taken : reader.take number line = .ok next) (sound : reader.draft.Sound) :
    next.draft.Sound := by
  cases line with
  | blank => exact sound_of_flushIfWorded sound taken
  | comment fuzzy =>
    obtain ⟨closed, flushed, same⟩ := bind_eq_ok_iff.1 taken
    cases same
    have closes := sound_of_flushIfWorded sound flushed
    exact closes
  | continuation text =>
    simp only [take, readContinuation] at taken
    split at taken
    · cases taken
    · rename_i field last
      cases taken
      exact sound.extend last _
  | keyword field text =>
    obtain ⟨opened, _, admits, rfl⟩ := readKeyword_eq_ok_iff.1 taken
    exact Draft.sound_put admits _

theorem sound_of_readLines {lines : List (List Char)}
    (read : start.readLines number lines = .ok next) : next.draft.Sound :=
  readLines_induction (fun reader => reader.draft.Sound) sound_of_take read Draft.sound_empty

theorem sound_of_within (within : Within reader number line next) (sound : reader.draft.Sound) :
    next.draft.Sound := by
  cases within with
  | emptied => exact Draft.sound_empty
  | closed _ flushed => exact sound_of_flushIfWorded sound flushed
  | opened opened => exact sound_beginAt (sound_of_opened sound opened) number
  | taken taken => exact sound_of_take taken sound

theorem sound_of_reached {text : List Char} (reached : Reached text reader) : reader.draft.Sound := by
  cases reached with
  | between _ read => exact sound_of_readLines read
  | within _ read _ within => exact sound_of_within within (sound_of_readLines read)
  | emptied => exact Draft.sound_empty
  | ended read =>
    obtain ⟨last, _, flushed⟩ := ofChars_eq_ok_iff.1 read
    exact draft_of_flush flushed ▸ Draft.sound_empty

/-! The reader with every access to a wording in the open -/

abbrev Checked (α : Type) := ExceptT ReadError Option α

def checked {α : Type} (result : Except ReadError α) : Checked α :=
  ExceptT.mk (some result)

def flush? (reader : Reader) : Checked Reader :=
  let draft := reader.draft
  let reader := { reader with draft := .empty }
  if draft.isEmpty then pure reader
  else match draft.id with
    | none => throw (.malformed draft.line 1 .noId)
    | some id =>
      if draft.wordings.isEmpty then throw (.malformed draft.line 1 (.noWording id))
      else if id.isEmpty && draft.context.isNone then
        pure { reader with metadata := String.join draft.wordings }
      else if draft.fuzzy || draft.context.isSome || draft.wordings.any String.isEmpty then
        pure reader
      else match draft.idPlural with
        | some plural => checked (reader.store draft.line (.pair id plural) (.forms draft.wordings))
        | none =>
          if 1 < draft.wordings.length then throw (.malformed draft.line 1 .formsWithoutPlural)
          else do
            let text ← ExceptT.lift draft.wordings[0]?
            checked (reader.store draft.line (.singular id) (.single text))

def flushIfWorded? (reader : Reader) : Checked Reader :=
  if reader.draft.hasWording then reader.flush? else pure reader

def readKeyword? (reader : Reader) (line : Nat) (field : Field) (text : String) :
    Checked Reader := do
  let reader ← if startsEntry field then reader.flushIfWorded? else pure reader
  let reader := reader.beginAt line
  let draft ← checked (allow reader.draft line field)
  let draft ← ExceptT.lift (draft.extend? text field)
  return { reader with draft := { draft with last := some field } }

def readContinuation? (reader : Reader) (line : Nat) (text : String) : Checked Reader :=
  match reader.draft.last with
  | none => throw (.malformed line 1 .strayContinuation)
  | some field => do
    let draft ← ExceptT.lift (reader.draft.extend? text field)
    return { reader with draft }

def take? (reader : Reader) (number : Nat) : Line → Checked Reader
  | .blank => reader.flushIfWorded?
  | .comment fuzzy => do
    let reader ← reader.flushIfWorded?
    return { reader with fuzzyNext := reader.fuzzyNext || fuzzy }
  | .continuation text => reader.readContinuation? number (String.ofList text)
  | .keyword field text => reader.readKeyword? number field (String.ofList text)

def readLine? (reader : Reader) (number : Nat) (line : List Char) : Checked Reader :=
  match Line.ofChars line with
  | .error stuck =>
    throw (.malformed number (Text.byteLength (Text.consumed line stuck) + 1) .unreadable)
  | .ok parsed => reader.take? number parsed

def readLines? (reader : Reader) (number : Nat) : List (List Char) → Checked Reader
  | [] => pure reader
  | line :: rest => do
    let next ← reader.readLine? number line
    next.readLines? (number + 1) rest

def ofChars? (text : List Char) : Checked Reader := do
  (← start.readLines? 1 (Text.lines text)).flush?

theorem checked_bind {α β : Type} {first : Except ReadError α} {next? : α → Checked β}
    {next : α → Except ReadError β}
    (same : ∀ value, first = .ok value → next? value = checked (next value)) :
    checked first >>= next? = checked (first >>= next) := by
  cases first with
  | error refusal => rfl
  | ok value => exact same value rfl

/-- The first wording is looked for only where there is one. -/
theorem flush_checked (reader : Reader) : reader.flush? = checked reader.flush := by
  simp only [flush?, flush]
  split
  · rfl
  cases reader.draft.id with
  | none => rfl
  | some id =>
    simp only
    split
    · rfl
    rename_i worded
    split
    · rfl
    split
    · rfl
    cases reader.draft.idPlural with
    | some plural => rfl
    | none =>
      cases texts : reader.draft.wordings with
      | nil => exact absurd (congrArg List.isEmpty texts) worded
      | cons text others => cases others <;> rfl

theorem flushIfWorded_checked (reader : Reader) :
    reader.flushIfWorded? = checked reader.flushIfWorded := by
  unfold flushIfWorded? flushIfWorded
  split
  · exact flush_checked reader
  · rfl

/-- A wording is put at the end of the list before text is put into it. -/
theorem there_of_allow {draft allowed : Draft} {field : Field}
    (admitted : allow draft number field = .ok allowed) :
    ∀ index, field = .wording index → index < allowed.wordings.length := by
  rintro index rfl
  simp only [allow] at admitted
  split at admitted
  · cases admitted
  split at admitted
  · rename_i place
    cases admitted
    simp [place]
  · cases admitted

theorem readKeyword_checked (reader : Reader) (number : Nat) (field : Field) (text : String) :
    reader.readKeyword? number field text = checked (reader.readKeyword number field text) := by
  have admitted (next : Reader) :
      (do
        let draft ← checked (allow (next.beginAt number).draft number field)
        let draft ← ExceptT.lift (draft.extend? text field)
        return { next.beginAt number with draft := { draft with last := some field } } :
          Checked Reader) =
      checked (allow (next.beginAt number).draft number field >>= fun draft => .ok
        { next.beginAt number with draft := { draft.extend text field with last := some field } }) :=
    checked_bind fun allowed admitted => by
      rw [Draft.extend_of_there (there_of_allow admitted)]
      rfl
  by_cases starts : startsEntry field = true
  · simp only [readKeyword?, readKeyword, if_pos starts, flushIfWorded_checked]
    exact checked_bind fun next _ => admitted next
  · simp only [readKeyword?, readKeyword, if_neg starts]
    exact admitted reader

theorem take_checked (sound : reader.draft.Sound) (number : Nat) (line : Line) :
    reader.take? number line = checked (reader.take number line) := by
  cases line with
  | blank => exact flushIfWorded_checked reader
  | comment fuzzy =>
    rw [take?, flushIfWorded_checked]
    exact checked_bind fun _ _ => rfl
  | continuation text =>
    rw [take?, readContinuation?, take, readContinuation]
    cases last : reader.draft.last with
    | none => rfl
    | some field =>
      have there : ∀ index, field = .wording index → index < reader.draft.wordings.length := by
        rintro index rfl
        exact sound.lt_of_last last
      simp only [Draft.extend_of_there there]
      rfl
  | keyword field text => exact readKeyword_checked reader number field _

theorem readLines_checked (sound : reader.draft.Sound) (number : Nat) (lines : List (List Char)) :
    reader.readLines? number lines = checked (reader.readLines number lines) := by
  induction lines generalizing reader number with
  | nil => rfl
  | cons line rest ih =>
    have taken : reader.readLine? number line = checked (reader.readLine number line) := by
      rw [readLine?, readLine]
      cases Line.ofChars line with
      | error stuck => rfl
      | ok parsed => exact take_checked sound number parsed
    have steps : reader.readLines number (line :: rest) =
        reader.readLine number line >>= fun next => next.readLines (number + 1) rest := by
      rw [readLines]
      cases reader.readLine number line <;> rfl
    rw [readLines?, taken, steps]
    refine checked_bind fun next read => ih ?_ _
    obtain ⟨parsed, _, took⟩ := readLine_eq_ok_iff.1 read
    exact sound_of_take took sound

theorem ofChars_checked (text : List Char) : ofChars? text = checked (ofChars text) := by
  rw [ofChars?, readLines_checked Draft.sound_empty]
  exact checked_bind fun last _ => flush_checked last

end Reader

def read? (text : String) : Option (Except ReadError Catalog) :=
  (Reader.ofChars? text.toList).run.map (Except.map Reader.catalog)

/-- What has been put into the draft fits together in every state of the reader, and a wording that
is reached for is there. Behind the lines that have been taken, the draft holds the fields of the
current entry and of no entry before it, and a continuation goes to the latest of these fields. -/
theorem reader_within_bounds (text : String) :
    (∀ reader, Reader.Reached text.toList reader → reader.draft.Sound) ∧
      read? text = some (read text) ∧
      ∀ front rest reader, Text.lines text.toList = front ++ rest →
        Reader.start.readLines 1 front = .ok reader →
        let lines := front.filterMap fun line => (Line.ofChars line).toOption
        reader.draft.Holds (Passage.fieldsOf (currentEntry lines)) ∧
          ∀ number more, reader.Continues number more (latestField? lines) := by
  refine ⟨fun _ reached => Reader.sound_of_reached reached, ?_, fun front rest reader _ taken => ?_⟩
  · rw [read?, Reader.ofChars_checked]
    rfl
  · have empty : Reader.start.draft.Holds (Passage.fieldsOf []) := Draft.holds_empty
    have holds := Reader.holds_of_takes (Reader.takes_of_readLines taken) empty
    exact ⟨holds, fun number more => Reader.continues_of_holds holds number more⟩

theorem reader_within_bounds_refused :
    let text := "msgid \"a\"\nmsgstr \"b\"\nmsgid \"c\"\n\"d\"\nmsgid \"e\""
    (read text).toOption = none ∧ ∃ reader, Reader.Reached text.toList reader ∧
      reader.draft.Sound ∧ reader.draft.id = some "cd" ∧ reader.Continues 5 ['!'] (some .id) := by
  intro text
  have refused : (read text).toOption = none := by decide +kernel
  obtain ⟨sound, _, behind⟩ := reader_within_bounds text
  let front := (Text.lines text.toList).take 4
  have split : Text.lines text.toList = front ++ (Text.lines text.toList).drop 4 :=
    (List.take_append_drop 4 _).symm
  have put : (Reader.start.readLines 1 front).toOption.map (·.draft.id) = some (some "cd") := by
    decide +kernel
  have latest :
      latestField? (front.filterMap fun line => (Line.ofChars line).toOption) = some .id := by
    decide +kernel
  cases taken : Reader.start.readLines 1 front with
  | error refusal =>
    rw [taken] at put
    cases put
  | ok reader =>
    rw [taken] at put
    have reached : Reader.Reached text.toList reader := .between split taken
    exact ⟨refused, reader, reached, sound reader reached, Option.some.inj put,
      latest ▸ (behind front _ reader split taken).2 5 ['!']⟩

end Phrasebook.Po
