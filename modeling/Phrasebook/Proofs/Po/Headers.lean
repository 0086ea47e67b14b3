import Phrasebook.Proofs.Po.LiveEntries
import Phrasebook.Proofs.Po.Stops

/-!
The header of a file. An entry with an empty id and no context sets the metadata of the catalog, so
that of several such entries the last one counts, and none is refused for another.
-/

namespace Phrasebook.Po

structure Passage.IsHeader (passage : Passage) : Prop where
  unnamed : passage.value? .id = some ""
  plain : passage.value? .context = none

instance : DecidablePred Passage.IsHeader := fun passage =>
  decidable_of_iff (passage.value? .id = some "" ∧ passage.value? .context = none)
    ⟨fun ⟨unnamed, plain⟩ => ⟨unnamed, plain⟩, fun ⟨unnamed, plain⟩ => ⟨unnamed, plain⟩⟩

def headers (text : String) : List Passage :=
  (passages (linesOf text)).filter (·.IsHeader)

def lastMetadata (otherwise : String) (entries : List Passage) : String :=
  ((entries.getLast?).map fun header => String.join header.wordings).getD otherwise

theorem lastMetadata_append (otherwise : String) (first rest : List Passage) :
    lastMetadata otherwise (first ++ rest) = lastMetadata (lastMetadata otherwise first) rest := by
  simp only [lastMetadata, List.getLast?_append]
  cases rest.getLast? <;> rfl

namespace Reader

theorem isHeader_iff_of_holds {passage : Passage} {draft : Draft}
    (holds : draft.Holds (Passage.fieldsOf passage.lines)) :
    passage.IsHeader ↔ draft.IsHeader := by
  have id : passage.value? .id = draft.id := (holds.values .id).symm
  have context : passage.value? .context = draft.context := (holds.values .context).symm
  constructor
  · rintro ⟨unnamed, plain⟩
    exact ⟨id ▸ unnamed, context ▸ plain⟩
  · rintro ⟨unnamed, plain⟩
    exact ⟨id ▸ unnamed, context ▸ plain⟩

/-- An entry sets the metadata if it is a header, and else leaves them alone. -/
theorem Passes.metadata_eq {reader gathered settled : Reader} {passage : Passage}
    (passes : Passes reader passage gathered settled) :
    settled.metadata = lastMetadata reader.metadata ([passage].filter (·.IsHeader)) := by
  have same := isHeader_iff_of_holds passes.gathers.holds
  have kept : gathered.metadata = reader.metadata := passes.gathers.metadata
  cases passes.closes with
  | header header =>
    have wordings := Passage.wordings_of_holds passes.gathers.holds
    simp [lastMetadata, same.2 header, wordings]
  | leftOut leftOut =>
    have other : ¬passage.IsHeader := fun header => leftOut.2.1 (same.1 header)
    simp [lastMetadata, other, kept]
  | stored tells _ =>
    have other : ¬passage.IsHeader := by
      intro header
      have unnamed := (same.1 header).1
      cases tells with
      | single known => exact known.named (Option.some.inj (known.known.symm.trans unnamed))
      | forms known => exact known.named (Option.some.inj (known.known.symm.trans unnamed))
    simp [lastMetadata, other, kept]

theorem metadata_of_passesAll {entries : List Passage} {reader final : Reader}
    (passes : PassesAll reader entries final) :
    final.metadata = lastMetadata reader.metadata (entries.filter (·.IsHeader)) := by
  induction passes with
  | nil => rfl
  | @cons reader gathered settled final passage rest first _ ih =>
    rw [ih, first.metadata_eq, ← lastMetadata_append, ← List.filter_append]
    rfl

end Reader

/-- The metadata of a catalog are those of the last header of the file, whatever the headers before
it say, and none where there is no header. No text is refused for having several headers. -/
theorem metadata_of_read (text : String) :
    (∀ catalog, read text = .ok catalog → catalog.metadata = lastMetadata "" (headers text)) ∧
      ∀ line, read text ≠ .error (.duplicateMessage line "") := by
  constructor
  · intro catalog accepted
    obtain ⟨final, passes, rfl⟩ := passesAll_of_read accepted
    exact Reader.metadata_of_passesAll passes
  · intro line refused
    rcases outOfPlace_of_read refused with ⟨_, _, same⟩ | named
    · cases same
    · exact named rfl

theorem metadata_of_read_headers :
    let text := "msgid \"\"\nmsgstr \"A\"\n\nmsgid \"\"\nmsgstr \"B\"\n"
    read text = .ok ⟨"B", .empty⟩ ∧ "B" = lastMetadata "" (headers text) := by
  intro text
  have accepted : read text = .ok ⟨"B", .empty⟩ := by decide +kernel
  exact ⟨accepted, (metadata_of_read text).1 _ accepted⟩

/-- Of two headers the first one is lost, though any other message that is there twice is refused. -/
theorem header_lost :
    ∃ text catalog first last, read text = .ok catalog ∧ headers text = [first, last] ∧
      catalog.metadata ≠ String.join first.wordings :=
  ⟨"msgid \"\"\nmsgstr \"A\"\n\nmsgid \"\"\nmsgstr \"B\"\n", ⟨"B", .empty⟩,
    ⟨[], [.keyword .id [], .keyword (.wording 0) ['A']]⟩,
    ⟨[.blank], [.keyword .id [], .keyword (.wording 0) ['B']]⟩,
    by decide +kernel, by decide +kernel, by decide +kernel⟩

end Phrasebook.Po
