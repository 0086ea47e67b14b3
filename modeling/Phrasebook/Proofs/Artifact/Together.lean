import Phrasebook.Proofs.Artifact.Answers
import Phrasebook.Proofs.Catalog.Normalizing

/-!
Catalogs that declare how many plural forms there are. Every pair has so many, so for one count
either all plural texts are answered with translations or none is.
-/

namespace Phrasebook

variable {catalog : Catalog} {resolver : Resolver} {text : String} {n : UInt64}

def Translated (catalog : Catalog) (resolver : Resolver) (text : String) (n : UInt64) : Prop :=
  ∃ plural forms form, catalog.messages.find? (.pair text plural) = some (.forms forms) ∧
    forms[resolver.pluralIndex n]? = some form ∧
    ∀ other bindings bound, BindsCount bindings bound n →
      resolver.ngettext text other n bindings = Template.format form bound

structure Untranslated (catalog : Catalog) (resolver : Resolver) (text : String) (n : UInt64) :
    Prop where
  index : 1 ≤ resolver.pluralIndex n
  lacks : LacksForm catalog.messages text (resolver.pluralIndex n)
  source : ∀ other bindings bound, BindsCount bindings bound n →
    resolver.ngettext text other n bindings = Template.format other bound

def Catalog.HasPair (catalog : Catalog) (text : String) : Prop :=
  ∃ plural wording, catalog.messages.find? (.pair text plural) = some wording

theorem ngettext_eq {bindings bound : Bindings} (binds : BindsCount bindings bound n)
    (other : String) :
    resolver.ngettext text other n bindings =
      Template.format (resolver.pluralTemplate text other n) bound := by
  rw [Resolver.ngettext, (bindsCount_withCount bindings n).unique binds]

theorem pluralTemplate_of_form {form : String}
    (found : resolver.catalog.form? text (resolver.pluralIndex n) = some form) (other : String) :
    resolver.pluralTemplate text other n = form := by
  rw [NormalCatalog.form?] at found
  simp only [Resolver.pluralTemplate, found]

theorem pluralTemplate_of_none
    (missing : resolver.catalog.form? text (resolver.pluralIndex n) = none) (other : String) :
    resolver.pluralTemplate text other n =
      if resolver.pluralIndex n = 0 then text else other := by
  rw [NormalCatalog.form?] at missing
  simp only [Resolver.pluralTemplate, missing]

theorem longest_of_declared {count : Nat} {normal : NormalCatalog} {raw : RawCatalog}
    (made : NormalCatalog.ofRaw (some count) raw = .ok normal) {plural : String}
    {wording : Wording} (found : raw.find? (.pair text plural) = some wording) :
    1 ≤ count ∧ Longest raw text count := by
  have fits := (NormalCatalog.exists_ofRaw_iff (some count) raw).1 ⟨normal, made⟩
  obtain ⟨forms, rfl, worded, length⟩ := fits.pair text plural wording found
  have own : forms.length = count := length count rfl
  refine ⟨own ▸ List.length_pos_iff.2 worded, ⟨plural, forms, found, own⟩, ?_⟩
  intro plural' forms' found'
  obtain ⟨_, ⟨⟩, _, length'⟩ := fits.pair text plural' _ found'
  exact Nat.le_of_eq (length' count rfl)

section Declared

variable {count : Nat}

theorem translated_of_lt
    (made : NormalCatalog.ofRaw (some count) catalog.messages = .ok resolver.catalog)
    (below : resolver.pluralIndex n < count) (pair : catalog.HasPair text) :
    Translated catalog resolver text n := by
  obtain ⟨plural, wording, found⟩ := pair
  obtain ⟨_, longest⟩ := longest_of_declared made found
  obtain ⟨form, known⟩ := Option.isSome_iff_exists.1
    ((NormalCatalog.contains_form_iff made longest _).2 below)
  obtain ⟨plural', forms, found', given, _⟩ := (NormalCatalog.form_iff made text _ form).1 known
  refine ⟨plural', forms, form, found', given, fun other bindings bound binds => ?_⟩
  rw [ngettext_eq binds, pluralTemplate_of_form known]

theorem untranslated_of_le
    (made : NormalCatalog.ofRaw (some count) catalog.messages = .ok resolver.catalog)
    (above : count ≤ resolver.pluralIndex n) (pair : catalog.HasPair text) :
    Untranslated catalog resolver text n := by
  obtain ⟨plural, wording, found⟩ := pair
  obtain ⟨positive, longest⟩ := longest_of_declared made found
  have index : 1 ≤ resolver.pluralIndex n := Nat.le_trans positive above
  have lacks : LacksForm catalog.messages text (resolver.pluralIndex n) :=
    fun plural' forms found' => Nat.le_trans (longest.bound plural' forms found') above
  have missing : resolver.catalog.form? text (resolver.pluralIndex n) = none := by
    rw [← Option.not_isSome_iff_eq_none, NormalCatalog.contains_form_iff made longest]
    exact Nat.not_lt.2 above
  refine ⟨index, lacks, fun other bindings bound binds => ?_⟩
  rw [ngettext_eq binds, pluralTemplate_of_none missing, if_neg (Nat.ne_of_gt index)]

/-- Where the header declares a number of forms, an index below it gives every plural text one of
its translated forms, and any other index gives none of them one. -/
theorem translated_together
    (declared : (Plural.Declaration.ofMetadata? catalog.metadata).bind (·.forms) = some count)
    (prepared : Artifact.prepare catalog = .ok resolver) (n : UInt64) :
    (resolver.pluralIndex n < count →
      ∀ text, catalog.HasPair text → Translated catalog resolver text n) ∧
    (count ≤ resolver.pluralIndex n →
      ∀ text, catalog.HasPair text → Untranslated catalog resolver text n) ∧
    ((∀ text, catalog.HasPair text → Translated catalog resolver text n) ∨
      ∀ text, catalog.HasPair text → Untranslated catalog resolver text n) := by
  obtain ⟨_, made⟩ := (Artifact.prepare_eq_ok_iff catalog resolver).1 prepared
  rw [declared] at made
  refine ⟨fun below text pair => translated_of_lt made below pair,
    fun above text pair => untranslated_of_le made above pair, ?_⟩
  rcases Nat.lt_or_ge (resolver.pluralIndex n) count with below | above
  · exact .inl fun text pair => translated_of_lt made below pair
  · exact .inr fun text pair => untranslated_of_le made above pair

end Declared

/-- Two forms are declared, and the index is the count itself. -/
theorem translated_together_files :
    let catalog : Catalog := ⟨"Plural-Forms: nplurals=2; plural=n;", .ofList
      [(.pair "file" "files", .forms ["fichier", "fichiers"]),
        (.pair "file" "Files", .forms ["Datei", "Dateien"]),
        (.singular "file", .single "lime")]⟩
    let resolver : Resolver :=
      ⟨.ofList [("file", .plural (.ofList [(0, "fichier"), (1, "fichiers")]))], some .count⟩
    (Plural.Declaration.ofMetadata? catalog.metadata).bind (·.forms) = some 2 ∧
      Artifact.prepare catalog = .ok resolver ∧
      Translated catalog resolver "file" 1 ∧ Untranslated catalog resolver "file" 2 := by
  intro catalog resolver
  have declared : (Plural.Declaration.ofMetadata? catalog.metadata).bind (·.forms) = some 2 := by
    decide
  have prepared : Artifact.prepare catalog = .ok resolver := by decide +kernel
  have pair : catalog.HasPair "file" := by
    refine ⟨"files", .forms ["fichier", "fichiers"], ?_⟩
    decide +kernel
  have below : resolver.pluralIndex 1 < 2 := by decide +kernel
  have above : 2 ≤ resolver.pluralIndex 2 := by decide +kernel
  exact ⟨declared, prepared, (translated_together declared prepared 1).1 below "file" pair,
    (translated_together declared prepared 2).2.1 above "file" pair⟩

end Phrasebook
