import Phrasebook.Proofs.Po.Files

/-!
The text of a written catalog gives the catalog back.
-/

namespace Phrasebook.Po

def Steady (line : List Char) : Prop :=
  ∃ parsed, Line.Reads line parsed

namespace Steady

theorem of_field {keyword : List Char} {field : Field} (names : Keyword keyword field)
    {value : String} {lines : List (List Char)} (written : WritesField keyword value lines) :
    ∀ line ∈ lines, Steady line := by
  intro line member
  cases written with
  | pieces first others whole =>
    rcases List.mem_cons.1 member with rfl | other
    · exact ⟨_, Line.reads_keyword names first⟩
    · obtain ⟨piece, _, rfl⟩ := List.mem_map.1 other
      exact ⟨_, Line.reads_quotedPiece piece⟩

theorem of_filler {line : List Char} (filler : IsFiller line) : Steady line := by
  obtain ⟨parsed, _, reads⟩ := Line.reads_filler filler
  exact ⟨parsed, reads⟩

theorem append {first second : List (List Char)} (left : ∀ line ∈ first, Steady line)
    (right : ∀ line ∈ second, Steady line) : ∀ line ∈ first ++ second, Steady line := by
  intro line member
  rcases List.mem_append.1 member with early | late
  · exact left line early
  · exact right line late

theorem of_forms {index : Nat} {texts : List String} {lines : List (List Char)}
    (written : WritesForms index texts lines) : ∀ line ∈ lines, Steady line := by
  induction written with
  | nil =>
    intro line member
    cases member
  | cons small field _ ih => exact append (of_field (Line.keyword_indexedKeyword small) field) ih

theorem of_message {message : FileMessage} {lines : List (List Char)}
    (written : WritesMessage message lines) : ∀ line ∈ lines, Steady line := by
  cases written with
  | single id text => exact append (of_field .id id) (of_field .wording text)
  | plural id plural forms =>
    exact append (append (of_field .id id) (of_field .idPlural plural))
      (of_forms forms)

theorem of_messages {messages : List FileMessage} {lines : List (List Char)}
    (written : WritesMessages messages lines) : ∀ line ∈ lines, Steady line := by
  induction written with
  | nil filler => exact fun line member => of_filler (filler line member)
  | cons filler message _ ih =>
    exact append (append (fun line member => of_filler (filler line member)) (of_message message)) ih

theorem of_file {file : CatalogFile} {lines : List (List Char)} (written : WritesFile file lines) :
    ∀ line ∈ lines, Steady line := by
  cases written with
  | header filler id text rest =>
    have before := append (fun line member => of_filler (filler line member))
      (of_field .id id)
    exact append (append before (of_field .wording text)) (of_messages rest)

end Steady

namespace Reader

/-- Joining the lines and cutting the text again makes no difference, not even for an empty line
at the end, which is no line of the text. -/
theorem readLines_joined {lines : List (List Char)} (steady : ∀ line ∈ lines, Steady line)
    (reader : Reader) (number : Nat) :
    (reader.readLines number (Text.lines (Text.joined lines))).bind flush =
      (reader.readLines number lines).bind flush := by
  induction lines generalizing reader number with
  | nil => rfl
  | cons line rest ih =>
    obtain ⟨parsed, reads⟩ := steady line List.mem_cons_self
    cases rest with
    | nil =>
      -- No line feed follows the last line, and if it is empty it is no line at all.
      rw [Text.joined_singleton]
      by_cases empty : line = []
      · subst empty
        rw [readLines_blank, flushIfWorded_flush]
        rfl
      · rw [Text.lines_unbroken line empty reads.unbroken]
    | cons next rest =>
      rw [Text.joined_cons_cons, Text.lines_append line _ reads.unbroken, readLines, readLines,
        readLine_of_reads reads.kept, readLine_of_reads reads.fed]
      cases reader.take number parsed with
      | error refusal => rfl
      | ok after =>
        exact ih (fun other member => steady other (List.mem_cons_of_mem _ member)) after
          (number + 1)

end Reader

/-- The text of a written catalog is read as the catalog of its file: every message is found
under its key, and nothing else. -/
theorem read_of_writesFile {file : CatalogFile} {lines : List (List Char)}
    (written : WritesFile file lines) (distinct : (file.messages.map FileMessage.key).Nodup)
    (named : ∀ message ∈ file.messages, message.id ≠ "")
    (complete : ∀ message ∈ file.messages, Complete message.wording) :
    read (String.ofList (Text.joined lines)) = .ok file.toCatalog := by
  obtain ⟨next, readAll, settled⟩ := Reader.readLines_file written named complete distinct
  have joined := Reader.readLines_joined (Steady.of_file written) .start 1
  rw [readAll] at joined
  have closed : Reader.ofChars (Text.joined lines) = next.flush := joined
  rw [read, String.toList_ofList, closed, settled.closed]
  rfl

theorem read_of_writesFile_files :
    read (String.ofList (Text.joined (["msgid \"\"", "msgstr \"\"", "\"nplurals=2\\n\"", "",
      "# a \\ b", "msgid \"file\"", "msgid_plural \"files\"", "msgstr[0] \"fich\"", "\"ier\"",
      "msgstr[1] \"fichiers\"", ""].map String.toList))) =
      .ok (CatalogFile.toCatalog ⟨"nplurals=2\n",
        [⟨"file", some "files", .forms ["fichier", "fichiers"]⟩]⟩) := by
  have header : WritesField "msgid".toList "" ["msgid \"\"".toList] := .pieces [] [] rfl
  have metadata : WritesField "msgstr".toList "nplurals=2\n"
      ["msgstr \"\"".toList, "\"nplurals=2\\n\"".toList] :=
    .pieces [] ["nplurals=2\n".toList] rfl
  have id : WritesField "msgid".toList "file" ["msgid \"file\"".toList] :=
    .pieces "file".toList [] rfl
  have plural : WritesField "msgid_plural".toList "files" ["msgid_plural \"files\"".toList] :=
    .pieces "files".toList [] rfl
  have form : WritesField (indexedKeyword 0) "fichier"
      ["msgstr[0] \"fich\"".toList, "\"ier\"".toList] :=
    .pieces "fich".toList ["ier".toList] rfl
  have last : WritesField (indexedKeyword 1) "fichiers" ["msgstr[1] \"fichiers\"".toList] :=
    .pieces "fichiers".toList [] rfl
  have blank : IsFiller [] := .blank (List.forall_mem_nil _)
  have comment : IsFiller "# a \\ b".toList :=
    @IsFiller.comment [] _ (List.forall_mem_nil _) (by rintro _ ⟨⟩) (by decide)
  have none : ∀ line ∈ ([] : List (List Char)), IsFiller line := by
    rintro line ⟨⟩
  have between : ∀ line ∈ [[], "# a \\ b".toList], IsFiller line := by
    rintro line (_ | ⟨_, _ | ⟨_, ⟨⟩⟩⟩)
    · exact blank
    · exact comment
  have ending : ∀ line ∈ [([] : List Char)], IsFiller line := by
    rintro line (_ | ⟨_, ⟨⟩⟩)
    exact blank
  have forms : WritesForms 0 ["fichier", "fichiers"] _ :=
    .cons (by decide) form (.cons (by decide) last .nil)
  have written := WritesFile.header none header metadata
    (.cons between (.plural id plural forms) (.nil ending))
  exact read_of_writesFile written (by decide) (by decide) (by simp [Complete])

end Phrasebook.Po
