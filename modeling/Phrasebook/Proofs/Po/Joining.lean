import Phrasebook.Proofs.Po.Headers
import Phrasebook.Proofs.Po.Parallel
import Phrasebook.Proofs.Po.Readable

/-!
Two files behind one another. A blank line behind the first closes its last entry, so that the second
is read as if it stood alone, but upon the messages of the first: it comes to the same end, unless it
brings a message that the first has.
-/

namespace Phrasebook.Po

/-- At the end of the file no flag is kept for an entry that would come next. -/
def LeavesNoFlag (text : String) : Prop :=
  ∀ reader, Reader.ofChars text.toList = .ok reader → reader.fuzzyNext = false

namespace Reader

variable {reader other next last closed : Reader}

def Tidy (reader : Reader) : Prop :=
  reader.draft.last = none → reader.draft = .empty

theorem tidy_of_flushIfWorded (flushed : reader.flushIfWorded = .ok next) (tidy : reader.Tidy) :
    next.Tidy := by
  unfold flushIfWorded at flushed
  split at flushed
  · exact fun _ => draft_of_flush flushed
  · cases flushed
    exact tidy

theorem tidy_of_take {number : Nat} {line : Line} (taken : reader.take number line = .ok next)
    (tidy : reader.Tidy) : next.Tidy := by
  cases line with
  | blank => exact tidy_of_flushIfWorded taken tidy
  | comment fuzzy =>
    obtain ⟨closed, flushed, same⟩ := bind_eq_ok_iff.1 taken
    have kept := tidy_of_flushIfWorded flushed tidy
    cases same
    exact kept
  | continuation text =>
    simp only [take, readContinuation] at taken
    split at taken
    · cases taken
    · rename_i field begun
      cases taken
      intro unbegun
      cases field <;> cases begun.symm.trans unbegun
  | keyword field text =>
    obtain ⟨opened, _, _, rfl⟩ := readKeyword_eq_ok_iff.1 taken
    intro unbegun
    cases field <;> cases unbegun

/-- What the end of the file closes, a blank line closes as well. -/
theorem flushIfWorded_of_flush (tidy : reader.Tidy) (flushed : reader.flush = .ok closed) :
    reader.flushIfWorded = .ok closed := by
  by_cases begun : reader.draft.last = none
  · have empty := tidy begun
    rw [flush_of_closed empty] at flushed
    rw [flushIfWorded_of_closed empty, flushed]
  · have worded := (closes_of_flush begun flushed).1
    rw [flushIfWorded, if_pos (by simpa [Draft.hasWording] using worded), flushed]

/-- A line feed behind a text makes no difference, but that it may stand for a blank line. -/
theorem readLines_concat_feed {number : Nat} {text : List Char}
    (read : reader.readLines number (Text.lines text) = .ok last)
    (closes : last.flushIfWorded = .ok closed) :
    ∃ next, reader.readLines number (Text.lines (text ++ ['\n'])) = .ok next ∧
      (next = last ∨ next = closed) := by
  rcases Text.lines_concat_feed text with blank | ⟨before, ending, cut, cutFed⟩
  · refine ⟨closed, ?_, .inr rfl⟩
    rw [blank, readLines_append_of_ok read, readLines_blank, closes]
  · rw [cut, readLines_append] at read
    obtain ⟨middle, readBefore, readEnding⟩ := bind_eq_ok_iff.1 read
    obtain ⟨next, readLine, done⟩ := readLines_cons_eq_ok_iff.1 readEnding
    obtain ⟨parsed, parse, taken⟩ := readLine_eq_ok_iff.1 readLine
    cases done
    refine ⟨last, ?_, .inl rfl⟩
    rw [cutFed, readLines_append_of_ok readBefore, readLines,
      readLine_of_reads (Line.ofChars_fed parse), taken]
    rfl

/-- A blank line behind a file closes all that is open, as the end of the file does. -/
theorem readLines_blank_behind {text : List Char} (read : ofChars text = .ok closed) :
    start.readLines 1 (Text.lines (text ++ ['\n']) ++ [[]]) = .ok closed := by
  obtain ⟨last, readAll, flushed⟩ := ofChars_eq_ok_iff.1 read
  have tidy : last.Tidy := readLines_induction Tidy tidy_of_take readAll fun _ => rfl
  have closes := flushIfWorded_of_flush tidy flushed
  obtain ⟨next, readFeed, same⟩ := readLines_concat_feed readAll closes
  have blank : next.flushIfWorded = .ok closed := by
    rcases same with rfl | rfl
    · exact closes
    · exact flushIfWorded_of_closed (draft_of_flush flushed)
  rw [readLines_append_of_ok readFeed, readLines_blank, blank]

/-- The other reader stands as the first does, but upon the messages of a base. The metadata are
another matter. -/
structure Upon (base : RawCatalog) (reader other : Reader) : Prop where
  joins : Dictionary.Joins base reader.messages other.messages
  draft : ∃ line, other.draft = { reader.draft with line }
  flag : other.fuzzyNext = reader.fuzzyNext

def Repeats (base messages : RawCatalog) (e : ReadError) : Prop :=
  ∃ line key, base.contains key = true ∧ messages.contains key = true ∧
    e = .duplicateMessage line key.singularText

variable {base : RawCatalog}

theorem flush_of_held (begun : reader.draft.last ≠ none) (worded : reader.draft.wordings ≠ [])
    {key : MessageKey} {wording : Wording} (tells : reader.draft.Tells key wording)
    (held : reader.messages.contains key = true) :
    reader.flush = .error (.duplicateMessage reader.draft.line key.singularText) := by
  rw [flush_of_tells begun worded tells, store, if_pos held]

theorem Upon.flush (upon : Upon base reader other) (flushed : reader.flush = .ok next) :
    Follows (Upon base) (Repeats base) next other.flush := by
  obtain ⟨joins, ⟨line, same⟩, flag⟩ := upon
  have last_eq : other.draft.last = reader.draft.last := by rw [same]
  by_cases begun : reader.draft.last = none
  · cases flushed.symm.trans (flush_of_unbegun begun)
    rw [flush_of_unbegun (last_eq.trans begun)]
    exact ⟨joins, ⟨0, rfl⟩, flag⟩
  · obtain ⟨worded, closes⟩ := closes_of_flush begun flushed
    have otherBegun : other.draft.last ≠ none := last_eq ▸ begun
    have otherWorded : other.draft.wordings ≠ [] := by rwa [same]
    cases closes with
    | header header =>
      rw [flush_of_closes otherBegun otherWorded (.header (by rwa [same]))]
      exact ⟨joins, ⟨0, rfl⟩, flag⟩
    | leftOut leftOut =>
      rw [flush_of_closes otherBegun otherWorded (.leftOut (by rwa [same]))]
      exact ⟨joins, ⟨0, rfl⟩, flag⟩
    | @stored key wording tells fresh =>
      have otherTells : other.draft.Tells key wording := same ▸ tells.placed line
      cases held : base.contains key with
      | true =>
        have stored : (reader.messages.insert key wording).contains key = true :=
          (Dictionary.contains_insert _ _ _ _).2 (.inl rfl)
        rw [flush_of_held otherBegun otherWorded otherTells (by rw [joins.contains_eq, held]; rfl)]
        exact ⟨_, key, held, stored, rfl⟩
      | false =>
        have free : other.messages.contains key = false := by rw [joins.contains_eq, held, fresh]; rfl
        rw [flush_of_closes otherBegun otherWorded (.stored otherTells free)]
        exact ⟨joins.insert held wording, ⟨0, rfl⟩, flag⟩

theorem Upon.beginAt (upon : Upon base reader other) (number place : Nat) :
    Upon base (reader.beginAt number) (other.beginAt place) := by
  obtain ⟨joins, ⟨line, same⟩, flag⟩ := upon
  have empty_eq : other.draft.isEmpty = reader.draft.isEmpty := by rw [same]; rfl
  unfold Reader.beginAt
  rw [empty_eq]
  split
  · exact ⟨joins, ⟨place, by rw [same, flag]⟩, rfl⟩
  · exact ⟨joins, ⟨line, same⟩, flag⟩

theorem parallel_upon (base : RawCatalog) : Parallel (Upon base) (Repeats base) where
  draft := by
    rintro reader other ⟨_, ⟨line, same⟩, _⟩
    exact ⟨line, reader.draft.fuzzy, same⟩
  flush := Upon.flush
  flag := by
    rintro reader other fuzzy ⟨joins, draft, flag⟩
    exact ⟨joins, draft, congrArg (· || fuzzy) flag⟩
  beginAt number place upon := upon.beginAt number place
  put := by
    rintro reader other field text ⟨joins, ⟨line, same⟩, flag⟩
    refine ⟨joins, ⟨line, ?_⟩, flag⟩
    rw [same]
    cases field <;> rfl
  extend := by
    rintro reader other field text ⟨joins, ⟨line, same⟩, flag⟩
    refine ⟨joins, ⟨line, ?_⟩, flag⟩
    rw [same]
    cases field <;> rfl
  stands := by
    rintro messages e key wording ⟨line, shared, held, there, rfl⟩ fresh
    exact ⟨line, shared, held, (Dictionary.contains_insert _ _ _ _).2 (.inr there), rfl⟩

end Reader

theorem lines_behind (first second : String) :
    Text.lines (first ++ "\n\n" ++ second).toList =
      (Text.lines (first.toList ++ ['\n']) ++ [[]]) ++ Text.lines second.toList := by
  have feeds : (first ++ "\n\n" ++ second).toList =
      first.toList ++ '\n' :: ([] ++ '\n' :: second.toList) := by simp
  rw [feeds, Text.lines_append_feed, Text.lines_append [] _ List.not_mem_nil, List.append_assoc]
  rfl

theorem read_append_blank {first : String} {one : Reader}
    (readFirst : Reader.ofChars first.toList = .ok one) (second : String) :
    ∃ number, read (first ++ "\n\n" ++ second) =
      (one.readLines number (Text.lines second.toList) >>= Reader.flush).map Reader.catalog := by
  refine ⟨1 + (Text.lines (first.toList ++ ['\n']) ++ [[]]).length, ?_⟩
  rw [read, Reader.ofChars, lines_behind,
    Reader.readLines_append_of_ok (Reader.readLines_blank_behind readFirst)]

theorem lastMetadata_eq_ite (first second : String) (entries : List Passage) :
    lastMetadata first entries = if entries = [] then first else lastMetadata second entries := by
  cases last : entries.getLast? with
  | none =>
    have none := List.getLast?_eq_none_iff.1 last
    rw [if_pos none, none]
    rfl
  | some header =>
    have some : entries ≠ [] := by
      rintro rfl
      cases last
    rw [if_neg some, lastMetadata, lastMetadata, last]
    rfl

namespace Reader

variable {one final both : Reader} {second : String}

/-- A file that sets the metadata sets the same ones, whatever they were before. -/
theorem metadata_behind {number : Nat} (closed : one.draft = .empty)
    (read : ofChars second.toList = .ok final)
    (readBehind : (one.readLines number (Text.lines second.toList) >>= flush) = .ok both) :
    both.metadata = if headers second = [] then one.metadata else final.metadata := by
  obtain ⟨last, readAll, flushed⟩ := ofChars_eq_ok_iff.1 read
  obtain ⟨lastBehind, readAllBehind, flushedBehind⟩ := bind_eq_ok_iff.1 readBehind
  have own := metadata_of_passesAll (passesAll_of_takes rfl (takes_of_readLines readAll) flushed)
  have behind := metadata_of_passesAll
    (passesAll_of_takes closed (takes_of_readLines readAllBehind) flushedBehind)
  rw [own]
  exact behind.trans (lastMetadata_eq_ite one.metadata start.metadata (headers second))

end Reader

theorem joins_or_repeats {first second : String} {one other : Catalog} (calm : LeavesNoFlag first)
    (readFirst : read first = .ok one) (readSecond : read second = .ok other) :
    (∃ joined, read (first ++ "\n\n" ++ second) = .ok joined ∧
      Dictionary.Joins one.messages other.messages joined.messages ∧
      joined.metadata = if headers second = [] then one.metadata else other.metadata) ∨
    ∃ e, read (first ++ "\n\n" ++ second) = .error e ∧
      Reader.Repeats one.messages other.messages e := by
  obtain ⟨one, readOne, rfl⟩ := read_eq_ok_iff.1 readFirst
  obtain ⟨final, readTwo, rfl⟩ := read_eq_ok_iff.1 readSecond
  obtain ⟨_, _, flushedOne⟩ := Reader.ofChars_eq_ok_iff.1 readOne
  obtain ⟨last, readAll, flushed⟩ := Reader.ofChars_eq_ok_iff.1 readTwo
  have closed : one.draft = .empty := Reader.draft_of_flush flushedOne
  have upon : Reader.Upon one.messages .start one :=
    ⟨Dictionary.joins_empty one.messages, ⟨0, closed⟩, calm one readOne⟩
  obtain ⟨number, whole⟩ := read_append_blank readOne second
  have follows := (Reader.parallel_upon one.messages).readLines_flush upon number readAll flushed
  cases behind : one.readLines number (Text.lines second.toList) >>= Reader.flush with
  | error e =>
    rw [behind] at whole follows
    exact .inr ⟨e, whole, follows⟩
  | ok both =>
    have metadata := Reader.metadata_behind closed readTwo behind
    rw [behind] at whole follows
    exact .inl ⟨both.catalog, whole, follows.joins, metadata⟩

/-- Behind a first file a second one is read exactly if they have no key in common, and else refused
for a message that both have. What is read holds the messages of both, and the metadata of the second
if it has a header, otherwise those of the first. -/
theorem read_behind {first second : String} {one other : Catalog} (calm : LeavesNoFlag first)
    (readFirst : read first = .ok one) (readSecond : read second = .ok other) :
    ((∃ joined, read (first ++ "\n\n" ++ second) = .ok joined) ↔
      ∀ key, one.messages.contains key = true → other.messages.contains key = false) ∧
    (∀ joined, read (first ++ "\n\n" ++ second) = .ok joined →
      (∀ key, joined.messages.find? key =
        (one.messages.find? key).or (other.messages.find? key)) ∧
      joined.metadata = if headers second = [] then one.metadata else other.metadata) ∧
    ∀ e, read (first ++ "\n\n" ++ second) = .error e → ∃ line key,
      one.messages.contains key = true ∧ other.messages.contains key = true ∧
        e = .duplicateMessage line key.singularText := by
  rcases joins_or_repeats calm readFirst readSecond with ⟨joined, readBoth, joins, metadata⟩ |
    ⟨e, refused, repeats⟩
  · refine ⟨⟨fun _ => joins.apart, fun _ => ⟨joined, readBoth⟩⟩, ?_, ?_⟩
    · intro same readSame
      cases readBoth.symm.trans readSame
      exact ⟨joins.found, metadata⟩
    · intro e refused
      cases readBoth.symm.trans refused
  · obtain ⟨line, key, held, repeated, named⟩ := repeats
    refine ⟨⟨?_, ?_⟩, ?_, ?_⟩
    · rintro ⟨joined, readBoth⟩
      cases refused.symm.trans readBoth
    · intro apart
      cases repeated.symm.trans (apart key held)
    · intro joined readBoth
      cases refused.symm.trans readBoth
    · intro same refusedSame
      cases refused.symm.trans refusedSame
      exact ⟨line, key, held, repeated, named⟩

theorem read_behind_header :
    let first := "msgid \"a\"\nmsgstr \"x\""
    let second := "msgid \"\"\nmsgstr \"B\"\n\nmsgid \"b\"\nmsgstr \"y\"\n"
    ∃ joined, read (first ++ "\n\n" ++ second) = .ok joined ∧ joined.metadata = "B" := by
  intro first second
  have calm : LeavesNoFlag first := by
    intro reader accepted
    have flag : (Reader.ofChars first.toList).map Reader.fuzzyNext = .ok false := by decide +kernel
    rw [accepted] at flag
    exact Except.ok.inj flag
  have readFirst : read first = .ok ⟨"", .ofList [(.singular "a", .single "x")]⟩ := by decide +kernel
  have readSecond : read second = .ok ⟨"B", .ofList [(.singular "b", .single "y")]⟩ := by
    decide +kernel
  have header : headers second ≠ [] := by decide +kernel
  obtain ⟨succeeds, joins, _⟩ := read_behind calm readFirst readSecond
  obtain ⟨joined, readBoth⟩ := succeeds.2 <| by
    intro key held
    have only : key = .singular "a" ∨ (.empty : RawCatalog).contains key = true :=
      (Dictionary.contains_insert _ _ _ _).1 held
    rcases only with rfl | none
    · decide +kernel
    · cases none
  have metadata := (joins joined readBoth).2
  rw [if_neg header] at metadata
  exact ⟨joined, readBoth, metadata⟩

end Phrasebook.Po
