import Phrasebook.Catalog.File
import Phrasebook.Proofs.Json.Reading

/-!
Catalog files that are written in JSON are read back, with all messages in their order.
-/

namespace Phrasebook

open Json (Layout Reader)

variable {layout : Layout}

namespace Wording

theorem exact_toJson (wording : Wording) : wording.toJson.Exact := by
  cases wording with
  | single text => trivial
  | forms texts => exact Json.exactItems_iff.2 (List.forall_mem_map.2 fun _ _ => trivial)

theorem nesting_toJson_le (wording : Wording) : wording.toJson.nesting ≤ 1 := by
  cases wording with
  | single text => exact Nat.zero_le 1
  | forms texts =>
    have flat : Json.nestingOfItems (texts.map .string) ≤ 0 :=
      Json.nestingOfItems_le_iff.2 (List.forall_mem_map.2 fun _ _ => Nat.le_refl 0)
    exact Nat.succ_le_succ flat

/-- A string stands for a single text and a list of strings for forms, so neither is taken for the
other. -/
theorem ofJson_toJson (wording : Wording) : ofJson? wording.toJson = some wording := by
  cases wording with
  | single text => rfl
  | forms texts =>
    have read : (texts.map Json.string).mapM text? = some texts := by
      induction texts with
      | nil => rfl
      | cons text rest ih =>
        rw [List.map_cons, List.mapM_cons, ih]
        rfl
    simp only [toJson, ofJson?, read, Option.map_some]

theorem read_write (legible : layout.Legible) {blanks : List Char}
    (blank : ∀ c ∈ blanks, Json.isBlank c = true) (depth level : Nat) (wording : Wording)
    {later : List Char} (ends : Json.EndsNumber later) :
    read (depth + 1) (blanks ++ (layout.write level wording.toJson ++ later)) =
      .ok (wording, later) := by
  have deep : wording.toJson.nesting ≤ depth + 1 :=
    Nat.le_trans wording.nesting_toJson_le (Nat.le_add_left 1 depth)
  have value := Json.readValue_write legible level wording.exact_toJson deep ends
  rw [← Json.readValue_blanks (depth + 1) blank] at value
  simp only [read, value, ofJson_toJson]

end Wording

namespace FileMessage

theorem readField_id (legible : layout.Legible) (depth level : Nat) (id : String)
    (later : List Char) :
    readField depth {} "msgid"
        (':' :: (layout.gap ++ (layout.write level (.string id) ++ later))) =
      .ok ({ id := some id }, later) := by
  have read := Json.readText_write legible legible.gap level id later
  simp only [readField, if_true, Json.readOnce_colon, read]
  rfl

theorem readField_idPlural (legible : layout.Legible) (depth level : Nat) (id plural : String)
    (later : List Char) :
    readField depth { id := some id } "msgid_plural"
        (':' :: (layout.gap ++ (layout.write level (.string plural) ++ later))) =
      .ok ({ id := some id, idPlural := some (some plural) }, later) := by
  have read := Json.readOptionalText_write legible legible.gap level plural later
  have other : ¬"msgid_plural" = "msgid" := by decide
  simp only [readField, if_neg other, if_true, Json.readOnce_colon, read]
  rfl

theorem readField_wording (legible : layout.Legible) (depth level : Nat) (known : Draft)
    (new : known.wording = none) (wording : Wording) {later : List Char}
    (ends : Json.EndsNumber later) :
    readField (depth + 1) known "msgstr"
        (':' :: (layout.gap ++ (layout.write level wording.toJson ++ later))) =
      .ok ({ known with wording := some wording }, later) := by
  have read := wording.read_write legible legible.gap depth level ends
  have other : ¬"msgstr" = "msgid" := by decide
  have other' : ¬"msgstr" = "msgid_plural" := by decide
  simp only [readField, if_neg other, if_neg other', if_true, new, Json.readOnce_colon, read]
  rfl

/-- The fields are read one after another; a plural text only where there is one. -/
theorem readsFields_toJson (legible : layout.Legible) (depth level : Nat) (message : FileMessage) :
    Json.ReadsFields layout level (readField (depth + 1)) {}
      (("msgid", .string message.id) :: pluralField message.idPlural ++
        [("msgstr", message.wording.toJson)])
      { id := some message.id
        idPlural := message.idPlural.map some
        wording := some message.wording } := by
  obtain ⟨id, plural, wording⟩ := message
  refine .cons (fun later _ => readField_id legible (depth + 1) level id later) ?_
  cases plural with
  | none =>
    exact .cons (fun later ends => readField_wording legible depth level _ rfl wording ends) .nil
  | some plural =>
    exact .cons (fun later _ => readField_idPlural legible (depth + 1) level id plural later)
      (.cons (fun later ends => readField_wording legible depth level _ rfl wording ends) .nil)

theorem readByName_write (legible : layout.Legible) (depth level : Nat) (message : FileMessage)
    (rest : List Char) :
    readByName (depth + 1) (layout.writeFields (level + 1) true
        (("msgid", .string message.id) :: pluralField message.idPlural ++
          [("msgstr", message.wording.toJson)]) ++ (layout.line level ++ '\x7d' :: rest)) =
      .ok (message, layout.line level ++ '\x7d' :: rest) := by
  have fields := Json.readFields_of_reads legible level
    (readsFields_toJson legible depth (level + 1) message) rest
  obtain ⟨id, plural, wording⟩ := message
  simp only [readByName, fields, bind, Except.bind, Json.required]
  cases plural <;> rfl

theorem read_write (legible : layout.Legible) (depth level : Nat) (message : FileMessage)
    (later : List Char) :
    read (depth + 2) (layout.write level message.toJson ++ later) = .ok (message, later) := by
  have fields := readByName_write legible depth level message later
  have closed := Json.endObject_brace legible level later
  rw [toJson, List.cons_append, Layout.write_object_append]
  exact Json.readRecord_brace "CatalogMessage" fields closed

theorem exact_toJson (message : FileMessage) : message.toJson.Exact := by
  obtain ⟨id, plural, wording⟩ := message
  cases plural with
  | none => exact ⟨trivial, wording.exact_toJson, trivial⟩
  | some plural => exact ⟨trivial, trivial, wording.exact_toJson, trivial⟩

theorem readsItems_toJson (legible : layout.Legible) (depth level : Nat)
    (messages : List FileMessage) :
    Json.ReadsItems layout level (read (depth + 2)) (messages.map toJson) messages := by
  induction messages with
  | nil => exact .nil
  | cons message rest ih =>
    refine .cons (Json.beginsValue_write legible level message.exact_toJson) (fun later _ => ?_) ih
    exact message.read_write legible depth level later

end FileMessage

namespace CatalogFile

theorem readField_metadata (legible : layout.Legible) (depth level : Nat) (metadata : String)
    (later : List Char) :
    readField depth {} "metadata"
        (':' :: (layout.gap ++ (layout.write level (.string metadata) ++ later))) =
      .ok ({ metadata := some metadata }, later) := by
  have read := Json.readText_write legible legible.gap level metadata later
  simp only [readField, if_true, Json.readOnce_colon, read]
  rfl

theorem readField_messages (legible : layout.Legible) (depth level : Nat) (metadata : String)
    (messages : List FileMessage) (later : List Char) :
    readField (depth + 3) { metadata := some metadata } "messages"
        (':' :: (layout.gap ++
          (layout.write level (.array (messages.map FileMessage.toJson)) ++ later))) =
      .ok ({ metadata := some metadata, messages := some messages }, later) := by
  have reads := FileMessage.readsItems_toJson legible depth (level + 1) messages
  have read := Json.readList_write legible legible.gap level reads later
  have other : ¬"messages" = "metadata" := by decide
  simp only [readField, if_neg other, if_true, Json.readOnce_colon, read]
  rfl

theorem readByName_write (legible : layout.Legible) (depth level : Nat) (file : CatalogFile)
    (rest : List Char) :
    readByName (depth + 3) (layout.writeFields (level + 1) true
        [("metadata", .string file.metadata),
          ("messages", .array (file.messages.map FileMessage.toJson))] ++
        (layout.line level ++ '\x7d' :: rest)) =
      .ok (file, layout.line level ++ '\x7d' :: rest) := by
  have reads : Json.ReadsFields layout (level + 1) (readField (depth + 3)) {}
      [("metadata", .string file.metadata),
        ("messages", .array (file.messages.map FileMessage.toJson))]
      { metadata := some file.metadata, messages := some file.messages } :=
    .cons (fun later _ => readField_metadata legible (depth + 3) (level + 1) file.metadata later)
      (.cons (fun later _ =>
        readField_messages legible depth (level + 1) file.metadata file.messages later) .nil)
  have fields := Json.readFields_of_reads legible level reads rest
  simp only [readByName, fields, bind, Except.bind]
  rfl

theorem readChars_write (legible : layout.Legible) (level : Nat) (file : CatalogFile) :
    readChars (layout.write level file.toJson) = .ok file := by
  have fields := readByName_write legible 123 level file []
  have closed := Json.endObject_brace legible level []
  have record : Json.readRecord "CatalogFile" readByName readByPlace Json.maxDepth
      (layout.write level file.toJson) = .ok (file, []) := by
    rw [← List.append_nil (layout.write level file.toJson), toJson, Layout.write_object_append]
    exact Json.readRecord_brace "CatalogFile" fields closed
  rw [readChars, Json.readWhole, record]
  rfl

/-- Writing a file in one line of JSON and reading it again gives it back. -/
theorem read_compact_file (file : CatalogFile) :
    read (String.ofList file.toJson.compact) = .ok file := by
  rw [read, String.toList_ofList, ← Layout.write_compact 0]
  exact readChars_write Json.legible_compact 0 file

end CatalogFile

end Phrasebook
