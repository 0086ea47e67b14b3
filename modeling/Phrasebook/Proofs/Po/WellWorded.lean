import Phrasebook.Proofs.Catalog.Refusals
import Phrasebook.Proofs.Po.Storing

/-!
What is read from a PO file is well worded: every message has a text to be found by, and is worded
by what is not empty and fits its key. So all that can keep the catalog from being prepared is its
plural expression or the number of forms that it declares.
-/

namespace Phrasebook

/-- The message has a singular text, and a wording of its kind without empty texts. -/
def WellWorded : MessageKey → Wording → Prop
  | .singular text, .single value => text ≠ "" ∧ value ≠ ""
  | .pair text _, .forms forms => text ≠ "" ∧ forms ≠ [] ∧ "" ∉ forms
  | _, _ => False

def RawCatalog.AllWellWorded (raw : RawCatalog) : Prop :=
  ∀ key wording, raw.find? key = some wording → WellWorded key wording

namespace Po.Reader

variable {reader next : Reader}

theorem wellWorded_of_tells {draft : Draft} {key : MessageKey} {wording : Wording}
    (worded : draft.wordings ≠ []) (tells : draft.Tells key wording) : WellWorded key wording := by
  cases tells with
  | @single id text kept none texts =>
    refine ⟨kept.named, ?_⟩
    rintro rfl
    exact kept.complete (texts ▸ List.mem_singleton_self "")
  | forms kept some => exact ⟨kept.named, worded, kept.complete⟩

theorem allWellWorded_of_stores (stores : Stores reader next)
    (sound : reader.messages.AllWellWorded) : next.messages.AllWellWorded := by
  cases stores with
  | nothing same => rwa [same]
  | @message key wording worded tells fresh same =>
    rw [same]
    intro other found known
    by_cases own : other = key
    · subst own
      rw [Dictionary.find_insert_self] at known
      cases known
      exact wellWorded_of_tells worded tells
    · rw [Dictionary.find_insert_of_ne _ _ own] at known
      exact sound other found known

theorem allWellWorded_readLines {lines : List (List Char)} {number : Nat}
    (sound : reader.messages.AllWellWorded) (read : reader.readLines number lines = .ok next) :
    next.messages.AllWellWorded :=
  readLines_induction (fun reader => reader.messages.AllWellWorded)
    (fun taken => allWellWorded_of_stores (stores_of_take taken)) read sound

end Po.Reader

theorem RawCatalog.AllWellWorded.of_read {text : String} {catalog : Catalog}
    (accepted : Po.read text = .ok catalog) : catalog.messages.AllWellWorded := by
  obtain ⟨final, taken, rfl⟩ := Po.read_eq_ok_iff.1 accepted
  obtain ⟨last, readAll, flushed⟩ := Po.Reader.ofChars_eq_ok_iff.1 taken
  have start : Po.Reader.start.messages.AllWellWorded := by
    intro key wording known
    cases known
  have behind := Po.Reader.allWellWorded_readLines start readAll
  exact Po.Reader.allWellWorded_of_stores (Po.Reader.stores_of_flush flushed) behind

def RawCatalog.Miscounts (raw : RawCatalog) (declared : Nat) (text : String) (found : Nat) : Prop :=
  found ≠ declared ∧
    ∃ plural forms, raw.find? (.pair text plural) = some (.forms forms) ∧ forms.length = found

namespace NormalCatalog

variable {raw : RawCatalog}

theorem pairFault_of_wellWorded {declared : Option Nat} {key : MessageKey} {wording : Wording}
    (worded : WellWorded key wording) (e : CatalogError) :
    pairFault? declared (key, wording) = some e ↔ ∃ count text plural forms,
      declared = some count ∧ key = .pair text plural ∧ wording = .forms forms ∧
      forms.length ≠ count ∧ e = ⟨text, .wrongFormCount count forms.length⟩ := by
  cases key with
  | singular text => simp [pairFault?]
  | pair text plural =>
    cases wording with
    | single value => exact worded.elim
    | forms forms =>
      cases forms with
      | nil => exact absurd rfl worded.2.1
      | cons form rest =>
        cases declared with
        | none => simp [pairFault?]
        | some count =>
          by_cases fits : rest.length + 1 = count
          · simp [pairFault?, fits]
          · simp [pairFault?, fits, @eq_comm _ e]

theorem singularFault_of_wellWorded {key : MessageKey} {wording : Wording}
    (worded : WellWorded key wording) : singularFault? (key, wording) = none := by
  cases key with
  | pair text plural => rfl
  | singular text =>
    cases wording with
    | single value => rfl
    | forms forms => exact worded.elim

theorem ofRaw_eq_error_of_wellWorded (worded : raw.AllWellWorded) {declared : Option Nat}
    {e : CatalogError} (refused : ofRaw declared raw = .error e) :
    ∃ count text found, declared = some count ∧ raw.Miscounts count text found ∧
      e = ⟨text, .wrongFormCount count found⟩ := by
  have singulars : raw.entries.findSome? singularFault? = none := by
    rw [List.findSome?_eq_none_iff]
    intro message member
    exact singularFault_of_wellWorded (worded _ _ ((raw.find_eq_some_iff _ _).2 member))
  rw [ofRaw_eq_error_iff, singulars, Option.or_none] at refused
  obtain ⟨⟨key, wording⟩, member, fault⟩ := List.exists_of_findSome?_eq_some refused
  have known := (raw.find_eq_some_iff _ _).2 member
  obtain ⟨count, text, plural, forms, declares, rfl, rfl, other, rfl⟩ :=
    (pairFault_of_wellWorded (worded _ _ known) e).1 fault
  exact ⟨count, text, forms.length, declares, ⟨other, plural, forms, known, rfl⟩, rfl⟩

theorem ofRaw_refuses_of_miscounts {count found : Nat} {text : String} (worded : raw.AllWellWorded)
    (miscounts : raw.Miscounts count text found) : ∃ e, ofRaw (some count) raw = .error e := by
  obtain ⟨other, plural, forms, known, rfl⟩ := miscounts
  have fault := (pairFault_of_wellWorded (worded _ _ known) _).2
    ⟨count, text, plural, forms, rfl, rfl, rfl, other, rfl⟩
  cases first : raw.entries.findSome? (pairFault? (some count)) with
  | some e => exact ⟨e, (ofRaw_eq_error_iff _ _ e).2 (by rw [first]; rfl)⟩
  | none =>
    have fits := List.findSome?_eq_none_iff.1 first _ ((raw.find_eq_some_iff _ _).1 known)
    rw [fault] at fits
    cases fits

theorem ofRaw_succeeds_of_wellWorded (worded : raw.AllWellWorded) :
    ∃ normal, ofRaw none raw = .ok normal := by
  cases result : ofRaw none raw with
  | ok normal => exact ⟨normal, rfl⟩
  | error e =>
    obtain ⟨count, _, _, declared, _⟩ := ofRaw_eq_error_of_wellWorded worded result
    cases declared

end NormalCatalog

namespace Artifact

open Plural (Declaration)

/-- What may keep well-worded messages from being prepared: the expression cannot be read, or the
declared number of forms is not that of a pair. -/
inductive Hindered (catalog : Catalog) : CompileError → Prop
  | rule {expression fault} :
      (Declaration.ofMetadata? catalog.metadata).bind (·.expression) = some expression →
      Plural.parse expression = .error fault → Hindered catalog (.plural fault)
  | forms {count text found} :
      (Declaration.ofMetadata? catalog.metadata).bind (·.forms) = some count →
      catalog.messages.Miscounts count text found →
      Hindered catalog (.catalog ⟨text, .wrongFormCount count found⟩)

theorem hindered_of_prepare {catalog : Catalog} {e : CompileError}
    (worded : catalog.messages.AllWellWorded) (refused : prepare catalog = .error e) :
    Hindered catalog e := by
  rcases (prepare_eq_error_iff catalog e).1 refused with unread | ⟨_, fault, unfit, rfl⟩
  · obtain ⟨expression, fault, declared, refusal, rfl⟩ := (ruleOf_eq_error_iff _ e).1 unread
    exact .rule declared refusal
  · obtain ⟨count, text, found, declared, miscounts, rfl⟩ :=
      NormalCatalog.ofRaw_eq_error_of_wellWorded worded unfit
    exact .forms declared miscounts

end Artifact

/-- Every message of a file that is read is well worded. So without a declared number of forms the
catalog always has a normal form, with one it has none exactly if a pair has another number of
forms, and nothing but the plural expression and that number keeps it from being prepared. -/
theorem Po.read_wellWorded {text : String} {catalog : Catalog} (accepted : read text = .ok catalog) :
    catalog.messages.AllWellWorded ∧
    (∃ normal, NormalCatalog.ofRaw none catalog.messages = .ok normal) ∧
    (∀ count, (∃ e, NormalCatalog.ofRaw (some count) catalog.messages = .error e) ↔
      ∃ singular found, catalog.messages.Miscounts count singular found) ∧
    (∀ e, Artifact.prepare catalog = .error e → Artifact.Hindered catalog e) := by
  have worded := RawCatalog.AllWellWorded.of_read accepted
  refine ⟨worded, NormalCatalog.ofRaw_succeeds_of_wellWorded worded, fun count => ⟨?_, ?_⟩,
    fun e refused => Artifact.hindered_of_prepare worded refused⟩
  · rintro ⟨e, refused⟩
    obtain ⟨_, singular, found, same, miscounts, _⟩ :=
      NormalCatalog.ofRaw_eq_error_of_wellWorded worded refused
    cases same
    exact ⟨singular, found, miscounts⟩
  · rintro ⟨singular, found, miscounts⟩
    exact NormalCatalog.ofRaw_refuses_of_miscounts worded miscounts

theorem Po.read_wellWorded_three_forms :
    let catalog : Catalog := ⟨"", .ofList [(.pair "file" "files", .forms ["x", "y", "z"])]⟩
    read ("msgid \"file\"\nmsgid_plural \"files\"\n" ++
      "msgstr[0] \"x\"\nmsgstr[1] \"y\"\nmsgstr[2] \"z\"\n") = .ok catalog ∧
    ∃ e, NormalCatalog.ofRaw (some 2) catalog.messages = .error e := by
  intro catalog
  have accepted : read ("msgid \"file\"\nmsgid_plural \"files\"\n" ++
      "msgstr[0] \"x\"\nmsgstr[1] \"y\"\nmsgstr[2] \"z\"\n") = .ok catalog := by decide +kernel
  have known : catalog.messages.find? (.pair "file" "files") = some (.forms ["x", "y", "z"]) := by
    decide +kernel
  refine ⟨accepted, ((read_wellWorded accepted).2.2.1 2).2 ⟨"file", 3, by decide, ?_⟩⟩
  exact ⟨"files", ["x", "y", "z"], known, rfl⟩

end Phrasebook
