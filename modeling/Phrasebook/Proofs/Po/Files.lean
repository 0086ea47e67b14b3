import Phrasebook.Proofs.Po.Entries

/-!
A written catalog is read back, however its values are cut and its entries are spaced.
-/

namespace Phrasebook.Po

namespace Reader

variable {reader : Reader} {metadata : String} {messages : RawCatalog} {lines : List (List Char)}

theorem settled_within {line : Nat} {id : String} {plural : Option String} {texts : List String}
    {last : Field} {metadata' : String} {messages' : RawCatalog} (nonempty : texts ≠ [])
    (closed : (within metadata messages line id plural texts last).flush =
      .ok ⟨metadata', messages', .empty, false⟩) :
    (within metadata messages line id plural texts last).Settled metadata' messages' := by
  have worded : (within metadata messages line id plural texts last).draft.hasWording = true := by
    simp [within, Draft.hasWording, nonempty]
  exact ⟨by rw [flushIfWorded, if_pos worded, closed], closed⟩

theorem flush_header (line : Nat) (text : String) (last : Field) :
    (within metadata messages line "" none [text] last).flush =
      .ok ⟨text, messages, .empty, false⟩ := by
  simp [flush, within, Draft.isEmpty, String.join]

/-- Closing an entry with one text stores it, if it is neither empty nor there already. -/
theorem flush_single {id text : String} (line : Nat) (last : Field) (named : id ≠ "")
    (worded : text ≠ "") (fresh : messages.contains (.singular id) = false) :
    (within metadata messages line id none [text] last).flush =
      .ok ⟨metadata, messages.insert (.singular id) (.single text), .empty, false⟩ := by
  simp [flush, within, Draft.isEmpty, store, named, worded, fresh]

/-- Closing an entry with plural forms stores them, if none is empty. -/
theorem flush_forms {id plural : String} {texts : List String} (line : Nat) (last : Field)
    (named : id ≠ "") (nonempty : texts ≠ []) (worded : ∀ text ∈ texts, text ≠ "")
    (fresh : messages.contains (.pair id plural) = false) :
    (within metadata messages line id (some plural) texts last).flush =
      .ok ⟨metadata, messages.insert (.pair id plural) (.forms texts), .empty, false⟩ := by
  have full : texts.any String.isEmpty = false := by
    rw [List.any_eq_false]
    intro text member
    simpa using worded text member
  simp [flush, within, Draft.isEmpty, store, named, nonempty, full, fresh]

theorem readLines_header (settled : reader.Settled metadata messages)
    {idLines textLines : List (List Char)} {text : String}
    (writtenId : WritesField "msgid".toList "" idLines)
    (writtenText : WritesField "msgstr".toList text textLines) (number : Nat) :
    ∃ next, reader.readLines number (idLines ++ textLines) = .ok next ∧
      next.Settled text messages := by
  refine ⟨within metadata messages number "" none [text] (.wording 0), ?_,
    settled_within (List.cons_ne_nil text []) (flush_header number text (.wording 0))⟩
  rw [readLines_append_of_ok (readLines_id settled writtenId number)]
  exact readLines_wording metadata messages number "" none [] .id .wording writtenText _

theorem readLines_message (settled : reader.Settled metadata messages) {message : FileMessage}
    (written : WritesMessage message lines) (named : message.id ≠ "")
    (complete : Complete message.wording) (fresh : messages.contains message.key = false)
    (number : Nat) :
    ∃ next, reader.readLines number lines = .ok next ∧
      next.Settled metadata (messages.insert message.key message.wording) := by
  cases written with
  | @single id text idLines textLines writtenId writtenText =>
    refine ⟨within metadata messages number id none [text] (.wording 0), ?_,
      settled_within (List.cons_ne_nil text [])
        (flush_single number (.wording 0) named complete fresh)⟩
    rw [readLines_append_of_ok (readLines_id settled writtenId number)]
    exact readLines_wording metadata messages number id none [] .id .wording writtenText _
  | @plural id plural texts idLines pluralLines formLines writtenId writtenPlural writtenForms =>
    obtain ⟨last, readForms⟩ := readLines_forms metadata messages writtenForms number id
      (some plural) [] .idPlural rfl (number + (idLines ++ pluralLines).length)
    refine ⟨within metadata messages number id plural texts last, ?_,
      settled_within complete.1
        (flush_forms number last named complete.1 complete.2 fresh)⟩
    have readIds : reader.readLines number (idLines ++ pluralLines) =
        .ok (within metadata messages number id plural [] .idPlural) := by
      rw [readLines_append_of_ok (readLines_id settled writtenId number)]
      exact readLines_idPlural metadata messages number id .id writtenPlural _
    rw [readLines_append_of_ok readIds]
    exact readForms

theorem readLines_messages {list : List FileMessage} (written : WritesMessages list lines)
    (named : ∀ message ∈ list, message.id ≠ "")
    (complete : ∀ message ∈ list, Complete message.wording)
    (distinct : (list.map FileMessage.key).Nodup)
    (fresh : ∀ message ∈ list, messages.contains message.key = false)
    (settled : reader.Settled metadata messages) (number : Nat) :
    ∃ next, reader.readLines number lines = .ok next ∧
      next.Settled metadata
        (messages.insertAll (list.map fun message => (message.key, message.wording))) := by
  induction written generalizing reader messages number with
  | nil filler => exact settled_fillers settled filler number
  | @cons fillers message list lines rest filler written _ ih =>
    rw [List.map_cons, List.nodup_cons] at distinct
    obtain ⟨atMessage, readFillers, settledFillers⟩ := settled_fillers settled filler number
    obtain ⟨atRest, readMessage, settledMessage⟩ := readLines_message settledFillers written
      (named message List.mem_cons_self) (complete message List.mem_cons_self)
      (fresh message List.mem_cons_self) (number + fillers.length)
    have freshRest : ∀ other ∈ list,
        (messages.insert message.key message.wording).contains other.key = false := by
      intro other member
      have different : other.key ≠ message.key := by
        intro same
        exact distinct.1 (same ▸ List.mem_map_of_mem member)
      have absent := fresh other (List.mem_cons_of_mem _ member)
      rw [Bool.eq_false_iff, ne_eq, Dictionary.contains_insert, absent]
      simp [different]
    obtain ⟨next, readRest, settledRest⟩ := ih
      (fun other member => named other (List.mem_cons_of_mem _ member))
      (fun other member => complete other (List.mem_cons_of_mem _ member))
      distinct.2 freshRest settledMessage (number + (fillers ++ lines).length)
    have readEntry : reader.readLines number (fillers ++ lines) = .ok atRest := by
      rw [readLines_append_of_ok readFillers]
      exact readMessage
    refine ⟨next, ?_, settledRest⟩
    rw [readLines_append_of_ok readEntry]
    exact readRest

/-- The lines of a written catalog leave the reader with that catalog, but for its last entry,
which is still open. -/
theorem readLines_file {file : CatalogFile} (written : WritesFile file lines)
    (named : ∀ message ∈ file.messages, message.id ≠ "")
    (complete : ∀ message ∈ file.messages, Complete message.wording)
    (distinct : (file.messages.map FileMessage.key).Nodup) :
    ∃ next, start.readLines 1 lines = .ok next ∧
      next.Settled file.toCatalog.metadata file.toCatalog.messages := by
  cases written with
  | @header fillers metadata list idLines textLines rest filler writtenId writtenText written =>
    obtain ⟨atHeader, readFillers, settledFillers⟩ := settled_fillers (settled_closed "" .empty)
      filler 1
    obtain ⟨atMessages, readHeader, settledHeader⟩ := readLines_header settledFillers writtenId
      writtenText (1 + fillers.length)
    obtain ⟨next, readRest, settledRest⟩ := readLines_messages written named complete distinct
      (fun _ _ => rfl) settledHeader (1 + (fillers ++ (idLines ++ textLines)).length)
    refine ⟨next, ?_, settledRest⟩
    have readStart : start.readLines 1 (fillers ++ (idLines ++ textLines)) = .ok atMessages := by
      rw [readLines_append_of_ok (show start.readLines 1 fillers = .ok atHeader from readFillers)]
      exact readHeader
    rw [List.append_assoc fillers, readLines_append_of_ok readStart]
    exact readRest

theorem flush_flush {next : Reader} (closed : reader.flush = .ok next) : next.flush = .ok next := by
  have empty : next.draft = .empty := by
    unfold flush store at closed
    grind
  obtain ⟨metadata, messages, draft, fuzzyNext⟩ := next
  subst empty
  rfl

theorem flushIfWorded_flush (reader : Reader) : reader.flushIfWorded.bind flush = reader.flush := by
  by_cases worded : reader.draft.hasWording = true
  · rw [flushIfWorded, if_pos worded]
    cases closed : reader.flush with
    | error refusal => rfl
    | ok next => exact flush_flush closed
  · rw [flushIfWorded, if_neg worded]
    rfl

end Reader

end Phrasebook.Po
