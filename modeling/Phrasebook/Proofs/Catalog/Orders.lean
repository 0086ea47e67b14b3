import Mathlib.Data.List.Perm.Basic
import Phrasebook.Artifact.Script
import Phrasebook.Catalog.File
import Phrasebook.Proofs.Dictionary

/-!
The order of the messages in which a catalog is made. It makes no difference, but that of several
messages with one key the last one counts: two lists make the same catalog exactly if what counts of
them are the same messages.
-/

namespace Phrasebook

section LastOnly

variable {β γ κ : Type} [DecidableEq κ] (key : β → κ)

def lastOnly : List β → List β
  | [] => []
  | item :: rest =>
    if key item ∈ rest.map key then lastOnly rest else item :: lastOnly rest

theorem mem_map_lastOnly (items : List β) (other : κ) :
    other ∈ (lastOnly key items).map key ↔ other ∈ items.map key := by
  induction items with
  | nil => rfl
  | cons item rest ih =>
    rw [lastOnly]
    split
    · rename_i again
      rw [ih, List.map_cons, List.mem_cons, or_iff_right_of_imp]
      rintro rfl
      exact again
    · rw [List.map_cons, List.map_cons, List.mem_cons, List.mem_cons, ih]

theorem nodup_lastOnly (items : List β) : ((lastOnly key items).map key).Nodup := by
  induction items with
  | nil => exact List.nodup_nil
  | cons item rest ih =>
    rw [lastOnly]
    split
    · exact ih
    · rename_i once
      rw [List.map_cons, List.nodup_cons, mem_map_lastOnly]
      exact ⟨once, ih⟩

theorem lastOnly_map (own : γ → κ) (change : β → γ) (items : List β) :
    lastOnly own (items.map change) = (lastOnly (own ∘ change) items).map change := by
  induction items with
  | nil => rfl
  | cons item rest ih =>
    simp only [List.map_cons, lastOnly, List.map_map, ih, Function.comp_apply]
    split <;> rfl

end LastOnly

theorem Dictionary.insertAll_lastOnly {κ α : Type} [Ord κ] [Std.TransOrd κ] [Std.LawfulEqOrd κ]
    [DecidableEq κ] (table : Dictionary κ α) (pairs : List (κ × α)) :
    table.insertAll (lastOnly Prod.fst pairs) = table.insertAll pairs := by
  induction pairs generalizing table with
  | nil => rfl
  | cons pair rest ih =>
    rw [lastOnly]
    split
    · rename_i again
      rw [ih]
      apply insertAll_congr
      intro key absent
      have other : key ≠ pair.1 := by
        rintro rfl
        exact absent again
      exact (find_insert_of_ne table pair.2 other).symm
    · exact ih (table.insert pair.1 pair.2)

namespace FileMessage

def pair (message : FileMessage) : MessageKey × Wording :=
  (message.key, message.wording)

theorem pair_injective : Function.Injective pair := by
  rintro ⟨id, plural, wording⟩ ⟨id', plural', wording'⟩ same
  obtain ⟨sameKey, sameWording⟩ := Prod.mk.inj same
  cases plural <;> cases plural' <;> cases sameKey <;> cases sameWording <;> rfl

end FileMessage

def RawCatalog.insertEach (raw : RawCatalog) (messages : List FileMessage) : RawCatalog :=
  messages.foldl (fun filled message => filled.insert message.key message.wording) raw

namespace RawCatalog

theorem insertEach_eq_insertAll (raw : RawCatalog) (messages : List FileMessage) :
    raw.insertEach messages = raw.insertAll (messages.map FileMessage.pair) := by
  rw [insertEach, Dictionary.insertAll, List.foldl_map]
  rfl

theorem insertEach_perm (raw : RawCatalog) {first second : List FileMessage}
    (distinct : (first.map FileMessage.key).Nodup) (same : first.Perm second) :
    raw.insertEach first = raw.insertEach second := by
  have keys : ∀ messages : List FileMessage,
      (messages.map FileMessage.pair).map Prod.fst = messages.map FileMessage.key := fun messages =>
    List.map_map
  have pairs : (first.map FileMessage.pair).Perm (second.map FileMessage.pair) := same.map _
  have distinct' : ((second.map FileMessage.pair).map Prod.fst).Nodup := by
    rw [keys]
    exact (same.map FileMessage.key).nodup_iff.1 distinct
  rw [← keys] at distinct
  rw [insertEach_eq_insertAll, insertEach_eq_insertAll]
  apply Dictionary.eq_of_find
  intro key
  ext wording
  rw [Dictionary.find_insertAll_of_nodup raw distinct,
    Dictionary.find_insertAll_of_nodup raw distinct', pairs.mem_iff,
    (pairs.map Prod.fst).mem_iff]

theorem insertEach_lastOnly (raw : RawCatalog) (messages : List FileMessage) :
    raw.insertEach (lastOnly FileMessage.key messages) = raw.insertEach messages := by
  rw [insertEach_eq_insertAll, insertEach_eq_insertAll, ← raw.insertAll_lastOnly (messages.map _),
    lastOnly_map]
  rfl

/-- What is stored tells which messages count, though not in which order they came. -/
theorem insertEach_empty_eq_iff (first second : List FileMessage) :
    insertEach .empty first = insertEach .empty second ↔
      (lastOnly FileMessage.key first).Perm (lastOnly FileMessage.key second) := by
  have distinct : ∀ messages,
      (((lastOnly FileMessage.key messages).map FileMessage.pair).map Prod.fst).Nodup := by
    intro messages
    rw [List.map_map]
    exact nodup_lastOnly FileMessage.key messages
  rw [← insertEach_lastOnly _ first, ← insertEach_lastOnly _ second, insertEach_eq_insertAll,
    insertEach_eq_insertAll, ← List.map_perm_map_iff FileMessage.pair_injective]
  exact Dictionary.ofList_eq_iff_perm (distinct first) (distinct second)

end RawCatalog

theorem CatalogFile.toCatalog_eq (file : CatalogFile) :
    file.toCatalog = ⟨file.metadata, RawCatalog.insertEach .empty file.messages⟩ := by
  rw [RawCatalog.insertEach_eq_insertAll]
  rfl

/-- All is the same with the one list of messages as with the other: what is stored, upon whatever
was there, and what becomes of it in the normal form, when it is prepared, and in the script. -/
structure MadeAlike (first second : List FileMessage) : Prop where
  stored (raw : RawCatalog) : raw.insertEach first = raw.insertEach second
  normal (declared : Option Nat) (raw : RawCatalog) :
    NormalCatalog.ofRaw declared (raw.insertEach first) =
      NormalCatalog.ofRaw declared (raw.insertEach second)
  prepared (metadata : String) :
    Artifact.prepare (CatalogFile.toCatalog ⟨metadata, first⟩) =
      Artifact.prepare (CatalogFile.toCatalog ⟨metadata, second⟩)
  script (options : Artifact.Options) (metadata : String) :
    Artifact.compile options (CatalogFile.toCatalog ⟨metadata, first⟩) =
      Artifact.compile options (CatalogFile.toCatalog ⟨metadata, second⟩)

theorem MadeAlike.of_stored {first second : List FileMessage}
    (stored : ∀ raw : RawCatalog, raw.insertEach first = raw.insertEach second) :
    MadeAlike first second where
  stored := stored
  normal declared raw := by rw [stored]
  prepared metadata := by rw [CatalogFile.toCatalog_eq, CatalogFile.toCatalog_eq, stored]
  script options metadata := by rw [CatalogFile.toCatalog_eq, CatalogFile.toCatalog_eq, stored]

/-- A file makes the catalog that its messages make one by one. Messages with distinct keys make the
same in any order, results and errors alike; of several with one key only the last one counts. And
only so do two lists make the same catalog. -/
theorem made_in_any_order :
    (∀ file : CatalogFile,
      file.toCatalog = ⟨file.metadata, RawCatalog.insertEach .empty file.messages⟩) ∧
    (∀ first second : List FileMessage, (first.map FileMessage.key).Nodup → first.Perm second →
      MadeAlike first second) ∧
    (∀ messages : List FileMessage, MadeAlike messages (lastOnly FileMessage.key messages)) ∧
    ∀ (metadata : String) (first second : List FileMessage),
      CatalogFile.toCatalog ⟨metadata, first⟩ = CatalogFile.toCatalog ⟨metadata, second⟩ ↔
        (lastOnly FileMessage.key first).Perm (lastOnly FileMessage.key second) := by
  refine ⟨CatalogFile.toCatalog_eq, fun first second distinct same => ?_, fun messages => ?_,
    fun metadata first second => ?_⟩
  · apply MadeAlike.of_stored
    intro raw
    exact raw.insertEach_perm distinct same
  · apply MadeAlike.of_stored
    intro raw
    exact (raw.insertEach_lastOnly messages).symm
  · rw [CatalogFile.toCatalog_eq, CatalogFile.toCatalog_eq, Catalog.mk.injEq,
      RawCatalog.insertEach_empty_eq_iff]
    exact and_iff_right rfl

theorem made_in_any_order_files :
    let single : FileMessage := ⟨"file", none, .single "fichier"⟩
    let files : FileMessage := ⟨"file", some "files", .forms ["un", "des"]⟩
    let folders : FileMessage := ⟨"file", some "folders", .forms ["une"]⟩
    let again : FileMessage := ⟨"file", some "files", .forms ["deux"]⟩
    MadeAlike [single, files, folders] [folders, single, files] ∧
      MadeAlike [files, single, again] [single, again] := by
  intro single files folders again
  obtain ⟨_, ordered, repeated, _⟩ := made_in_any_order
  have turned : [single, files, folders].Perm [folders, single, files] := by decide +kernel
  have last : lastOnly FileMessage.key [files, single, again] = [single, again] := by decide +kernel
  constructor
  · exact ordered _ _ (by decide +kernel) turned
  · have alike := repeated [files, single, again]
    rwa [last] at alike

end Phrasebook
