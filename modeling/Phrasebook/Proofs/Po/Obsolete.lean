import Phrasebook.Proofs.Po.Parallel
import Phrasebook.Proofs.Po.Readable

/-!
Obsolete entries are read as comments. They are inert, but for a fuzzy flag among their comments:
it is kept for the next entry of the file.
-/

namespace Phrasebook.Po

inductive Begins (mark : List Char) : List Char → Prop
  | line {indent text} : (∀ c ∈ indent, Text.isBlank c = true) → '\n' ∉ indent ++ mark ++ text →
      Begins mark (indent ++ mark ++ text)

inductive Obsolete : List (List Char) → Prop
  | entry {comments lines} : (∀ line ∈ comments, Begins ['#'] line) → lines ≠ [] →
      (∀ line ∈ lines, Begins ['#', '~'] line) → Obsolete (comments ++ lines)

def Flagged (lines : List (List Char)) : Prop :=
  ∃ line ∈ lines, Line.ofChars line = .ok (.comment true)

theorem Obsolete.begins {block : List (List Char)} (obsolete : Obsolete block) :
    block ≠ [] ∧ ∀ line ∈ block, Begins ['#'] line := by
  cases obsolete with
  | @entry comments lines comment nonempty old =>
    refine ⟨by simp [nonempty], ?_⟩
    intro line member
    rcases List.mem_append.1 member with early | late
    · exact comment line early
    · cases old line late with
      | @line indent text blank unbroken =>
        have same : indent ++ ['#', '~'] ++ text = indent ++ ['#'] ++ '~' :: text := by simp
        rw [same] at unbroken ⊢
        exact .line blank unbroken

theorem Begins.unbroken {mark line : List Char} (begins : Begins mark line) : '\n' ∉ line := by
  cases begins with
  | line blank unbroken => exact unbroken

theorem Begins.comment {line : List Char} (begins : Begins ['#'] line) :
    ∃ fuzzy, Line.ofChars line = .ok (.comment fuzzy) := by
  cases begins with
  | @line indent text blank unbroken =>
    obtain ⟨rest, trimmed, _⟩ := Text.trim_append_cons text blank
      (show Text.isBlank '#' = false by decide)
    exact ⟨Line.isFuzzyFlag rest, by simp [Line.ofChars, trimmed]⟩

theorem Begins.fed_eq {line : List Char} (begins : Begins ['#'] line) :
    Line.ofChars (Text.fed line) = Line.ofChars line := by
  obtain ⟨fuzzy, parse⟩ := begins.comment
  rw [parse, Line.ofChars_fed parse]

namespace Draft

variable {draft : Draft} {key : MessageKey} {wording : Wording}

theorem Tells.leftOut_of_fuzzy (tells : draft.Tells key wording) (line : Nat) :
    { draft with line, fuzzy := true }.LeftOut := by
  have kept : ∃ id, draft.Kept id := by
    cases tells with
    | single kept => exact ⟨_, kept⟩
    | forms kept => exact ⟨_, kept⟩
  obtain ⟨id, kept⟩ := kept
  refine ⟨by simp [kept.known], fun header => ?_, .inl rfl⟩
  exact kept.named (Option.some.inj (kept.known.symm.trans header.1))

end Draft

namespace Reader

/-- How a reader that came through an obsolete entry stands to one that did not. If there was a
flag in the entry it may be pending, or upon the draft, or a message may be lost. -/
inductive Trails (flagged : Prop) (reader : Reader) : Reader → Prop
  | same (line : Nat) :
      Trails flagged reader { reader with draft := { reader.draft with line } }
  | pending (line : Nat) : flagged →
      Trails flagged reader
        { reader with draft := { reader.draft with line }, fuzzyNext := true }
  | marked (line : Nat) : flagged →
      Trails flagged reader { reader with draft := { reader.draft with line, fuzzy := true } }
  | lost (line : Nat) (key : MessageKey) : flagged → reader.messages.contains key = true →
      Trails flagged reader
        { reader with draft := { reader.draft with line }, messages := reader.messages.erase key }

variable {flagged : Prop} {reader other next : Reader}

/-- Only a stored message makes a difference: a flag upon its draft keeps it out. -/
theorem Trails.closes (trails : Trails flagged reader other) (closes : Closes reader next) :
    ∃ after, Closes other after ∧ Trails flagged next after := by
  cases closes with
  | header header =>
    cases trails with
    | same line => exact ⟨_, .header header, .same 0⟩
    | pending line flag => exact ⟨_, .header header, .pending 0 flag⟩
    | marked line flag => exact ⟨_, .header header, .same 0⟩
    | lost line key flag held => exact ⟨_, .header header, .lost 0 key flag held⟩
  | leftOut leftOut =>
    cases trails with
    | same line => exact ⟨_, .leftOut leftOut, .same 0⟩
    | pending line flag => exact ⟨_, .leftOut leftOut, .pending 0 flag⟩
    | marked line flag =>
      exact ⟨_, .leftOut ⟨leftOut.1, leftOut.2.1, .inl rfl⟩, .same 0⟩
    | lost line key flag held => exact ⟨_, .leftOut leftOut, .lost 0 key flag held⟩
  | @stored key wording tells fresh =>
    cases trails with
    | same line => exact ⟨_, .stored (tells.placed line) fresh, .same 0⟩
    | pending line flag => exact ⟨_, .stored (tells.placed line) fresh, .pending 0 flag⟩
    | marked line flag =>
      -- Stored on the one side and left out on the other: from now on this message is lost.
      refine ⟨_, .leftOut (tells.leftOut_of_fuzzy line), ?_⟩
      have held : (reader.messages.insert key wording).contains key = true :=
        (Dictionary.contains_insert _ _ _ _).2 (.inl rfl)
      have lost : Trails flagged
          { reader with draft := .empty, messages := reader.messages.insert key wording } _ :=
        .lost 0 key flag held
      rwa [Dictionary.erase_insert_self fresh] at lost
    | lost line gone flag held =>
      have different : key ≠ gone := by
        intro same
        rw [same, held] at fresh
        cases fresh
      have still : (reader.messages.erase gone).contains key = false := by
        rw [Bool.eq_false_iff, ne_eq, Dictionary.contains_erase, fresh]
        simp
      refine ⟨_, .stored (tells.placed line) still, ?_⟩
      rw [← Dictionary.erase_insert_of_ne _ different]
      exact .lost 0 gone flag ((Dictionary.contains_insert _ _ _ _).2 (.inr held))

theorem Trails.last_eq (trails : Trails flagged reader other) :
    other.draft.last = reader.draft.last := by
  cases trails <;> rfl

theorem Trails.wordings_eq (trails : Trails flagged reader other) :
    other.draft.wordings = reader.draft.wordings := by
  cases trails <;> rfl

theorem Trails.flush (trails : Trails flagged reader other) (flushed : reader.flush = .ok next) :
    ∃ after, other.flush = .ok after ∧ Trails flagged next after := by
  by_cases begun : reader.draft.last = none
  · cases flushed.symm.trans (Reader.flush_of_unbegun begun)
    refine ⟨_, Reader.flush_of_unbegun (trails.last_eq.trans begun), ?_⟩
    cases trails with
    | same line => exact .same 0
    | pending line flag => exact .pending 0 flag
    | marked line flag => exact .same 0
    | lost line key flag held => exact .lost 0 key flag held
  · obtain ⟨worded, closes⟩ := closes_of_flush begun flushed
    obtain ⟨after, closes, trails'⟩ := trails.closes closes
    refine ⟨after, flush_of_closes ?_ ?_ closes, trails'⟩
    · rwa [trails.last_eq]
    · rwa [trails.wordings_eq]

theorem Trails.beginAt (trails : Trails flagged reader other) (number place : Nat) :
    Trails flagged (reader.beginAt number) (other.beginAt place) := by
  have same : other.draft.isEmpty = reader.draft.isEmpty := by
    rw [Draft.isEmpty, trails.last_eq, Draft.isEmpty]
  unfold Reader.beginAt
  rw [same]
  by_cases empty : reader.draft.isEmpty = true
  · rw [if_pos empty, if_pos empty]
    cases trails with
    | same line => exact .same place
    | pending line flag => exact .marked place flag
    | marked line flag => exact .same place
    | lost line key flag held => exact .lost place key flag held
  · rw [if_neg empty, if_neg empty]
    exact trails

theorem Trails.put (trails : Trails flagged reader other) (field : Field) (text : String) :
    Trails flagged { reader with draft := reader.draft.put text field }
      { other with draft := other.draft.put text field } := by
  cases trails with
  | same line => cases field <;> exact .same line
  | pending line flag => cases field <;> exact .pending line flag
  | marked line flag => cases field <;> exact .marked line flag
  | lost line key flag held => cases field <;> exact .lost line key flag held

theorem Trails.extend (trails : Trails flagged reader other) (field : Field) (text : String) :
    Trails flagged { reader with draft := reader.draft.extend text field }
      { other with draft := other.draft.extend text field } := by
  cases trails with
  | same line => cases field <;> exact .same line
  | pending line flag => cases field <;> exact .pending line flag
  | marked line flag => cases field <;> exact .marked line flag
  | lost line key flag held => cases field <;> exact .lost line key flag held

theorem Trails.raise (trails : Trails flagged reader other) (fuzzy : Bool) :
    Trails flagged { reader with fuzzyNext := reader.fuzzyNext || fuzzy }
      { other with fuzzyNext := other.fuzzyNext || fuzzy } := by
  cases trails with
  | same line => exact .same line
  | pending line flag => exact .pending line flag
  | marked line flag => exact .marked line flag
  | lost line key flag held => exact .lost line key flag held

theorem Trails.draft (trails : Trails flagged reader other) :
    ∃ line fuzzy, other.draft = { reader.draft with line, fuzzy } := by
  cases trails with
  | same line => exact ⟨line, reader.draft.fuzzy, rfl⟩
  | pending line flag => exact ⟨line, reader.draft.fuzzy, rfl⟩
  | marked line flag => exact ⟨line, true, rfl⟩
  | lost line key flag held => exact ⟨line, reader.draft.fuzzy, rfl⟩

/-- No line sees the difference, or brings in a new one. -/
theorem parallel_trails (flagged : Prop) : Parallel (Trails flagged) fun _ _ => False where
  draft := Trails.draft
  flush trails flushed := follows_of_ok (trails.flush flushed)
  flag fuzzy trails := trails.raise fuzzy
  beginAt number place trails := trails.beginAt number place
  put field text trails := trails.put field text
  extend field text trails := trails.extend field text
  stands _ _ stopped _ := stopped

theorem Trails.readLines (trails : Trails flagged reader other) {number : Nat} (place : Nat)
    {lines : List (List Char)} (read : reader.readLines number lines = .ok next) :
    ∃ after, other.readLines place lines = .ok after ∧ Trails flagged next after :=
  ok_of_follows ((parallel_trails flagged).readLines trails place read)

theorem Trails.catalog (trails : Trails flagged reader other) :
    other.catalog = reader.catalog ∨ flagged ∧ ∃ key, reader.catalog.messages.contains key = true ∧
      other.catalog = { reader.catalog with messages := reader.catalog.messages.erase key } := by
  cases trails with
  | same line => exact .inl rfl
  | pending line flag => exact .inl rfl
  | marked line flag => exact .inl rfl
  | lost line key flag held => exact .inr ⟨flag, key, held, rfl⟩

/-- A block of comments closes what is open, and then only its flags are left. -/
theorem readLines_comments {closed : Reader} (flushed : reader.flushIfWorded = .ok closed)
    {block : List (List Char)} (nonempty : block ≠ [])
    (comments : ∀ line ∈ block, ∃ fuzzy, Line.ofChars line = .ok (.comment fuzzy)) (number : Nat) :
    ∃ fuzzy, reader.readLines number block =
        .ok { closed with fuzzyNext := closed.fuzzyNext || fuzzy } ∧
      (fuzzy = true → Flagged block) := by
  induction block generalizing reader closed number with
  | nil => exact absurd rfl nonempty
  | cons line rest ih =>
    rw [List.forall_mem_cons] at comments
    obtain ⟨⟨fuzzy, parse⟩, others⟩ := comments
    have taken : reader.readLine number line =
        .ok { closed with fuzzyNext := closed.fuzzyNext || fuzzy } := by
      rw [readLine_of_reads parse, Reader.take, flushed]
      rfl
    have flag : fuzzy = true → Flagged (line :: rest) := by
      intro same
      subst same
      exact ⟨line, List.mem_cons_self, parse⟩
    rw [readLines_of_ok taken]
    cases rest with
    | nil => exact ⟨fuzzy, rfl, flag⟩
    | cons next rest =>
      have unworded := wordings_of_flushIfWorded flushed
      have still : Reader.flushIfWorded { closed with fuzzyNext := closed.fuzzyNext || fuzzy } =
          .ok _ := flushIfWorded_of_unworded unworded
      obtain ⟨later, read, flagged⟩ := ih still (List.cons_ne_nil next rest) others (number + 1)
      refine ⟨fuzzy || later, ?_, ?_⟩
      · rw [read, Bool.or_assoc]
      · intro either
        rcases Bool.or_eq_true_iff.1 either with here | there
        · exact flag here
        · obtain ⟨other, member, parse⟩ := flagged there
          exact ⟨other, List.mem_cons_of_mem line member, parse⟩

/-- An obsolete entry stands for a blank line, but for its flag. -/
theorem trails_of_block {closed : Reader} (flushed : reader.flushIfWorded = .ok closed)
    {block : List (List Char)} (nonempty : block ≠ []) (begins : ∀ line ∈ block, Begins ['#'] line)
    (number : Nat) :
    ∃ after, reader.readLines number (block.map Text.fed) = .ok after ∧
      Trails (Flagged block) closed after := by
  have comments : ∀ line ∈ block.map Text.fed, ∃ fuzzy, Line.ofChars line = .ok (.comment fuzzy) := by
    intro line member
    obtain ⟨own, there, rfl⟩ := List.mem_map.1 member
    rw [(begins own there).fed_eq]
    exact (begins own there).comment
  obtain ⟨fuzzy, read, flag⟩ := readLines_comments flushed (List.map_eq_nil_iff.not.2 nonempty)
    comments number
  refine ⟨_, read, ?_⟩
  cases fuzzy with
  | false =>
    rw [Bool.or_false]
    exact .same closed.draft.line
  | true =>
    have flagged : Flagged block := by
      obtain ⟨line, member, parse⟩ := flag rfl
      obtain ⟨own, there, rfl⟩ := List.mem_map.1 member
      exact ⟨own, there, (begins own there).fed_eq ▸ parse⟩
    rw [Bool.or_true]
    exact .pending closed.draft.line flagged

end Reader

/-- A file is read as well with an obsolete entry in it as with a blank line in its place. The
catalog is the same, or one message is lost; but that only if the entry has a fuzzy flag. -/
theorem read_obsolete {before after : String} {block : List (List Char)} (obsolete : Obsolete block)
    {catalog : Catalog} (accepted : read (before ++ "\n\n" ++ after) = .ok catalog) :
    ∃ other, read (before ++ "\n" ++ String.ofList (Text.joined block) ++ "\n" ++ after) = .ok other ∧
      (other = catalog ∨ Flagged block ∧ ∃ key, catalog.messages.contains key = true ∧
        other = { catalog with messages := catalog.messages.erase key }) := by
  obtain ⟨nonempty, begins⟩ := obsolete.begins
  obtain ⟨final, taken, same⟩ := read_eq_ok_iff.1 accepted
  obtain ⟨last, readAll, flushed⟩ := Reader.ofChars_eq_ok_iff.1 taken
  have apart : Text.lines (before ++ "\n\n" ++ after).toList =
      Text.lines (before.toList ++ ['\n']) ++ [] :: Text.lines after.toList := by
    have feeds : (before ++ "\n\n" ++ after).toList =
        before.toList ++ '\n' :: ([] ++ '\n' :: after.toList) := by simp
    rw [feeds, Text.lines_append_feed, Text.lines_append [] _ List.not_mem_nil]
    rfl
  have between : Text.lines
        (before ++ "\n" ++ String.ofList (Text.joined block) ++ "\n" ++ after).toList =
      Text.lines (before.toList ++ ['\n']) ++ (block.map Text.fed ++ Text.lines after.toList) := by
    have feeds : (before ++ "\n" ++ String.ofList (Text.joined block) ++ "\n" ++ after).toList =
        before.toList ++ '\n' :: (Text.joined block ++ '\n' :: after.toList) := by simp
    rw [feeds, Text.lines_append_feed, Text.lines_joined_append nonempty
      (fun line member => (begins line member).unbroken)]
  rw [apart, Reader.readLines_append] at readAll
  obtain ⟨middle, readBefore, readRest⟩ := bind_eq_ok_iff.1 readAll
  obtain ⟨closed, readBlank, readAfter⟩ := Reader.readLines_cons_eq_ok_iff.1 readRest
  obtain ⟨opened, readBlock, trails⟩ := Reader.trails_of_block
    (show middle.flushIfWorded = .ok closed from readBlank) nonempty begins
    (1 + (Text.lines (before.toList ++ ['\n'])).length)
  obtain ⟨last', readAfter', trails⟩ := trails.readLines _ readAfter
  obtain ⟨final', flushed', trails⟩ := trails.flush flushed
  have readAll' : Reader.start.readLines 1 (Text.lines
      (before ++ "\n" ++ String.ofList (Text.joined block) ++ "\n" ++ after).toList) = .ok last' := by
    rw [between, Reader.readLines_append_of_ok readBefore, Reader.readLines_append_of_ok readBlock]
    exact readAfter'
  rw [← same]
  exact ⟨final'.catalog, read_eq_ok_iff.2
    ⟨final', Reader.ofChars_eq_ok_iff.2 ⟨last', readAll', flushed'⟩, rfl⟩, trails.catalog⟩

theorem obsolete_old :
    Obsolete (["#, fuzzy", "#~ msgid \"old\"", "#~ msgstr \"y\""].map String.toList) := by
  have flag : Begins ['#'] "#, fuzzy".toList :=
    @Begins.line ['#'] [] ", fuzzy".toList (List.forall_mem_nil _) (by decide)
  have id : Begins ['#', '~'] "#~ msgid \"old\"".toList :=
    @Begins.line ['#', '~'] [] " msgid \"old\"".toList (List.forall_mem_nil _) (by decide)
  have text : Begins ['#', '~'] "#~ msgstr \"y\"".toList :=
    @Begins.line ['#', '~'] [] " msgstr \"y\"".toList (List.forall_mem_nil _) (by decide)
  exact .entry (List.forall_mem_singleton.2 flag) (List.cons_ne_nil _ _)
    (List.forall_mem_cons.2 ⟨id, List.forall_mem_singleton.2 text⟩)

theorem read_obsolete_old :
    let block := ["#, fuzzy", "#~ msgid \"old\"", "#~ msgstr \"y\""].map String.toList
    let both : Catalog :=
      ⟨"", .ofList [(.singular "a", .single "x"), (.singular "b", .single "z")]⟩
    ∃ other, read ("msgid \"a\"\nmsgstr \"x\"" ++ "\n" ++ String.ofList (Text.joined block) ++ "\n" ++
        "msgid \"b\"\nmsgstr \"z\"\n") = .ok other ∧
      (other = both ∨ Flagged block ∧ ∃ key, both.messages.contains key = true ∧
        other = { both with messages := both.messages.erase key }) := by
  intro block both
  have accepted : read ("msgid \"a\"\nmsgstr \"x\"" ++ "\n\n" ++ "msgid \"b\"\nmsgstr \"z\"\n") =
      .ok both := by decide +kernel
  exact read_obsolete obsolete_old accepted

/-- The flag of an obsolete entry stays for the next one, whose message is left out: `b` is read
behind a blank line, but not behind the obsolete entry, although no flag was pending before. -/
theorem not_inert_of_flagged :
    ¬∀ (before after : String) (block : List (List Char)) (catalog : Catalog), Obsolete block →
      (∀ reader, Reader.start.readLines 1 (Text.lines before.toList) = .ok reader →
        reader.fuzzyNext = false) →
      read (before ++ "\n\n" ++ after) = .ok catalog →
      read (before ++ "\n" ++ String.ofList (Text.joined block) ++ "\n" ++ after) = .ok catalog := by
  intro inert
  have calm : ∀ reader, Reader.start.readLines 1
      (Text.lines "msgid \"a\"\nmsgstr \"x\"".toList) = .ok reader → reader.fuzzyNext = false := by
    intro reader readBefore
    cases readBefore
    rfl
  have both : read ("msgid \"a\"\nmsgstr \"x\"" ++ "\n\n" ++ "msgid \"b\"\nmsgstr \"z\"\n") =
      .ok ⟨"", .ofList [(.singular "a", .single "x"), (.singular "b", .single "z")]⟩ := by
    decide +kernel
  have one : read ("msgid \"a\"\nmsgstr \"x\"" ++ "\n" ++ String.ofList (Text.joined
      (["#, fuzzy", "#~ msgid \"old\"", "#~ msgstr \"y\""].map String.toList)) ++ "\n" ++
      "msgid \"b\"\nmsgstr \"z\"\n") = .ok ⟨"", .ofList [(.singular "a", .single "x")]⟩ := by
    decide +kernel
  have same := one.symm.trans (inert _ _ _ _ obsolete_old calm both)
  exact absurd same (by decide +kernel)

end Phrasebook.Po
