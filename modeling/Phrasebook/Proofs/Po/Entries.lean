import Phrasebook.Proofs.Dictionary
import Phrasebook.Proofs.Po.Lines

/-!
What the reader makes of the entries of a written catalog: every entry becomes a draft, and the
draft goes into the catalog when it is closed.
-/

namespace Phrasebook.Po

def Draft.fill (draft : Draft) (field : Field) (text : String) : Draft :=
  { draft.extend text field with last := some field }

namespace Reader

theorem extend_fill (draft : Draft) (field : Field) (first second : String) :
    (draft.fill field first).extend second field = draft.fill field (first ++ second) := by
  cases field with
  | context => simp [Draft.fill, Draft.extend, String.append_assoc]
  | id => simp [Draft.fill, Draft.extend, String.append_assoc]
  | idPlural => simp [Draft.fill, Draft.extend, String.append_assoc]
  | wording index =>
    have both : (fun text : String => text ++ second) ∘ (fun text => text ++ first) =
        fun text => text ++ (first ++ second) := by
      funext text
      exact String.append_assoc
    simp only [Draft.fill, Draft.extend, List.modify_modify_eq, both]

theorem readLine_of_reads {line : List Char} {parsed : Line}
    (parse : Line.ofChars line = .ok parsed) (reader : Reader) (number : Nat) :
    reader.readLine number line = reader.take number parsed := by
  rw [readLine, parse]

theorem readLines_append (reader : Reader) (number : Nat) (first second : List (List Char)) :
    reader.readLines number (first ++ second) =
      (reader.readLines number first).bind fun next =>
        next.readLines (number + first.length) second := by
  induction first generalizing reader number with
  | nil => rfl
  | cons line rest ih =>
    rw [List.cons_append, readLines, readLines]
    cases reader.readLine number line with
    | error refusal => rfl
    | ok next =>
      show next.readLines (number + 1) (rest ++ second) = _
      rw [ih, List.length_cons, Nat.add_right_comm, ← Nat.add_assoc]

theorem readLines_append_of_ok {reader middle : Reader} {number : Nat} {first : List (List Char)}
    (read : reader.readLines number first = .ok middle) (second : List (List Char)) :
    reader.readLines number (first ++ second) = middle.readLines (number + first.length) second := by
  rw [readLines_append, read]
  rfl

theorem readLines_of_ok {reader next : Reader} {number : Nat} {line : List Char}
    (read : reader.readLine number line = .ok next) (rest : List (List Char)) :
    reader.readLines number (line :: rest) = next.readLines (number + 1) rest := by
  rw [readLines, read]

/-- An empty line closes an entry that has a wording. -/
theorem readLines_blank (reader : Reader) (number : Nat) :
    reader.readLines number [[]] = reader.flushIfWorded := by
  have read : reader.readLine number [] = reader.flushIfWorded := rfl
  rw [readLines, read]
  cases reader.flushIfWorded <;> rfl

theorem readLines_continuations (reader : Reader) (number : Nat) (draft : Draft) (field : Field)
    (text : String) (pieces : List (List Char)) :
    readLines { reader with draft := draft.fill field text } number (pieces.map quotedPiece) =
      .ok { reader with draft := draft.fill field (text ++ String.ofList pieces.flatten) } := by
  induction pieces generalizing number text with
  | nil => simp [readLines]
  | cons piece pieces ih =>
    have taken : readLine { reader with draft := draft.fill field text } number
        (quotedPiece piece) =
        .ok { reader with draft := draft.fill field (text ++ String.ofList piece) } := by
      rw [readLine_of_reads (Line.ofChars_quotedPiece piece), ← extend_fill]
      rfl
    rw [List.map_cons, readLines_of_ok taken, ih, String.append_assoc, ← String.ofList_append,
      List.flatten_cons]

theorem readKeyword_of_ok {reader next : Reader} {number : Nat} {field : Field} {draft : Draft}
    (opened : (if startsEntry field then reader.flushIfWorded else .ok reader) = .ok next)
    (allowed : allow (next.beginAt number).draft number field = .ok draft) (text : String) :
    reader.readKeyword number field text =
      .ok { next.beginAt number with draft := draft.fill field text } := by
  by_cases starts : startsEntry field = true
  · rw [if_pos starts] at opened
    simp only [readKeyword, if_pos starts, opened, allowed, bind, Except.bind]
    rfl
  · rw [if_neg starts, Except.ok.injEq] at opened
    subst opened
    simp only [readKeyword, if_neg starts, allowed, bind, Except.bind]
    rfl

theorem readKeyword_of_error {reader : Reader} {number : Nat} {field : Field} {e : ReadError}
    (refused : (if startsEntry field then reader.flushIfWorded else .ok reader) = .error e)
    (text : String) : reader.readKeyword number field text = .error e := by
  unfold readKeyword
  by_cases starts : startsEntry field = true
  · rw [if_pos starts] at refused
    rw [if_pos starts, refused]
    rfl
  · rw [if_neg starts] at refused
    cases refused

/-- A field is read as if its value stood whole behind the keyword. -/
theorem readLines_field {keyword : List Char} {field : Field} (names : Keyword keyword field)
    {value : String} {lines : List (List Char)} (written : WritesField keyword value lines)
    {reader next : Reader} {number : Nat} {draft : Draft}
    (opened : (if startsEntry field then reader.flushIfWorded else .ok reader) = .ok next)
    (allowed : allow (next.beginAt number).draft number field = .ok draft) :
    reader.readLines number lines =
      .ok { next.beginAt number with draft := draft.fill field value } := by
  cases written with
  | pieces first others whole =>
    have taken : reader.readLine number (keyword ++ ' ' :: quotedPiece first) =
        .ok { next.beginAt number with draft := draft.fill field (String.ofList first) } := by
      rw [readLine_of_reads (Line.ofChars_keyword names first)]
      exact readKeyword_of_ok opened allowed _
    rw [fieldLines, readLines_of_ok taken, readLines_continuations, ← String.ofList_append,
      whole, String.ofList_toList]

structure Settled (reader : Reader) (metadata : String) (messages : RawCatalog) : Prop where
  worded : reader.flushIfWorded = .ok ⟨metadata, messages, .empty, false⟩
  closed : reader.flush = .ok ⟨metadata, messages, .empty, false⟩

theorem settled_closed (metadata : String) (messages : RawCatalog) :
    Settled ⟨metadata, messages, .empty, false⟩ metadata messages :=
  ⟨rfl, rfl⟩

theorem settled_fillers {reader : Reader} {metadata : String} {messages : RawCatalog}
    (settled : reader.Settled metadata messages) {fillers : List (List Char)}
    (filler : ∀ line ∈ fillers, IsFiller line) (number : Nat) :
    ∃ next, reader.readLines number fillers = .ok next ∧ next.Settled metadata messages := by
  induction fillers generalizing reader number with
  | nil => exact ⟨reader, rfl, settled⟩
  | cons line rest ih =>
    obtain ⟨parsed, kind, reads⟩ := Line.reads_filler (filler line List.mem_cons_self)
    have taken : reader.readLine number line = .ok ⟨metadata, messages, .empty, false⟩ := by
      rw [readLine_of_reads reads.kept]
      rcases kind with rfl | rfl
      · exact settled.worded
      · simp only [take, settled.worded, bind, Except.bind]
        rfl
    rw [readLines_of_ok taken]
    exact ih (settled_closed metadata messages)
      (fun line member => filler line (List.mem_cons_of_mem _ member)) (number + 1)

def within (metadata : String) (messages : RawCatalog) (line : Nat) (id : String)
    (plural : Option String) (texts : List String) (last : Field) : Reader :=
  ⟨metadata, messages, ⟨line, false, none, some id, plural, texts, some last⟩, false⟩

variable {lines : List (List Char)}

theorem readLines_id {reader : Reader} {metadata : String} {messages : RawCatalog}
    (settled : reader.Settled metadata messages) {id : String}
    (written : WritesField "msgid".toList id lines) (number : Nat) :
    reader.readLines number lines = .ok (within metadata messages number id none [] .id) := by
  rw [readLines_field .id written settled.worded rfl]
  simp [beginAt, within, Draft.fill, Draft.extend, Draft.empty, Draft.isEmpty]

variable (metadata : String) (messages : RawCatalog)

theorem readLines_idPlural (line : Nat) (id : String) (last : Field) {plural : String}
    (written : WritesField "msgid_plural".toList plural lines) (number : Nat) :
    (within metadata messages line id none [] last).readLines number lines =
      .ok (within metadata messages line id (some plural) [] .idPlural) := by
  rw [readLines_field .idPlural written rfl rfl]
  simp [beginAt, within, Draft.fill, Draft.extend, Draft.isEmpty]

theorem modify_length (texts : List String) (text : String) (change : String → String) :
    (texts ++ [text]).modify texts.length change = texts ++ [change text] := by
  simp [List.modify_eq_take_drop]

theorem readLines_wording (line : Nat) (id : String) (plural : Option String)
    (texts : List String) (last : Field) {keyword : List Char} {text : String}
    (names : Keyword keyword (.wording texts.length)) (written : WritesField keyword text lines)
    (number : Nat) :
    (within metadata messages line id plural texts last).readLines number lines =
      .ok (within metadata messages line id plural (texts ++ [text]) (.wording texts.length)) := by
  have allowed : allow ((within metadata messages line id plural texts last).beginAt number).draft
      number (.wording texts.length) =
      .ok ⟨line, false, none, some id, plural, texts ++ [""], some last⟩ := by
    simp [allow, beginAt, within, Draft.isEmpty]
  rw [readLines_field names written rfl allowed]
  have filled := modify_length texts "" (· ++ text)
  simp [beginAt, within, Draft.fill, Draft.extend, Draft.isEmpty, filled]

theorem readLines_forms {index : Nat} {forms : List String} (written : WritesForms index forms lines)
    (line : Nat) (id : String) (plural : Option String) (texts : List String) (last : Field)
    (place : texts.length = index) (number : Nat) :
    ∃ field, (within metadata messages line id plural texts last).readLines number lines =
      .ok (within metadata messages line id plural (texts ++ forms) field) := by
  induction written generalizing texts last number with
  | nil => exact ⟨last, by rw [List.append_nil]; rfl⟩
  | @cons index text forms first rest small field _ ih =>
    subst place
    have read := readLines_wording metadata messages line id plural texts last
      (Line.keyword_indexedKeyword small) field number
    obtain ⟨final, readRest⟩ := ih (texts ++ [text]) (.wording texts.length) (by simp)
      (number + first.length)
    refine ⟨final, ?_⟩
    rw [readLines_append_of_ok read, List.append_cons texts text forms]
    exact readRest

end Reader

end Phrasebook.Po
