import Phrasebook.Proofs.Catalog.Contents
import Phrasebook.Proofs.Catalog.Refusals

/-!
Bringing catalogs into normal form, told as a whole: which catalogs have one, what it holds, and
that it is its own normal form.
-/

namespace Phrasebook.NormalCatalog

theorem fits_iff (declared : Option Nat) (raw : RawCatalog) :
    Fits declared raw ↔ ∀ key fault, ¬Offends declared raw key fault := by
  constructor
  · rintro fits key fault ⟨wording, found, misfit⟩
    cases misfit with
    | single =>
      obtain ⟨forms, same, _⟩ := fits.pair _ _ _ found
      cases same
    | empty =>
      obtain ⟨forms, same, worded, _⟩ := fits.pair _ _ _ found
      cases same
      exact worded rfl
    | count asked worded differs =>
      obtain ⟨forms, same, _, count⟩ := fits.pair _ _ _ found
      cases same
      exact differs (count _ asked)
    | forms named =>
      obtain ⟨value, same⟩ := fits.singular _ _ named found
      cases same
  · intro fit
    refine ⟨fun text plural wording found => ?_, fun text wording named found => ?_⟩
    · cases wording with
      | single value => exact absurd ⟨_, found, .single⟩ (fit _ .singleOfPair)
      | forms forms =>
        have worded : forms ≠ [] := by
          rintro rfl
          exact fit _ .noForms ⟨_, found, .empty⟩
        refine ⟨forms, rfl, worded, fun count asked => ?_⟩
        by_contra differs
        exact fit _ _ ⟨_, found, .count asked worded differs⟩
    · cases wording with
      | single value => exact ⟨value, rfl⟩
      | forms forms => exact absurd ⟨_, found, .forms named⟩ (fit _ .formsOfSingular)

/-- A catalog is refused for the first pair that does not fit, or, where all pairs do, for the
first other message. -/
theorem ofRaw_eq_error_iff_first (declared : Option Nat) (raw : RawCatalog) (e : CatalogError) :
    ofRaw declared raw = .error e ↔
      FirstOffends declared raw true e ∨
        (∀ key fault, key.isPair = true → ¬Offends declared raw key fault) ∧
          FirstOffends declared raw false e := by
  rw [ofRaw_eq_error_iff, Option.or_eq_some_iff, findSome_fault_iff (judges_pairFault? declared),
    findSome_fault_iff (judges_singularFault? declared),
    findSome_fault_eq_none_iff (judges_pairFault? declared)]

theorem exists_ofRaw_iff (declared : Option Nat) (raw : RawCatalog) :
    (∃ catalog, ofRaw declared raw = .ok catalog) ↔ Fits declared raw := by
  have pairs := findSome_fault_eq_none_iff (judges_pairFault? declared) raw
  have singulars := findSome_fault_eq_none_iff (judges_singularFault? declared) raw
  have none : (∃ catalog, ofRaw declared raw = .ok catalog) ↔
      (raw.entries.findSome? (pairFault? declared)).or
        (raw.entries.findSome? singularFault?) = .none := by
    cases made : ofRaw declared raw with
    | error e => simp [(ofRaw_eq_error_iff declared raw e).1 made]
    | ok catalog =>
      simp only [Except.ok.injEq, exists_eq', true_iff, Option.eq_none_iff_forall_ne_some]
      intro e fault
      rw [(ofRaw_eq_error_iff declared raw e).2 fault] at made
      cases made
  rw [none, Option.or_eq_none_iff, pairs, singulars, fits_iff]
  constructor
  · rintro ⟨paired, single⟩ key fault
    cases kind : key.isPair with
    | true => exact paired key fault kind
    | false => exact single key fault kind
  · intro fit
    exact ⟨fun key fault _ => fit key fault, fun key fault _ => fit key fault⟩

section Made

variable {declared : Option Nat} {raw : RawCatalog} {catalog : NormalCatalog}

theorem entryOf_of_ofRaw (made : ofRaw declared raw = .ok catalog) (text : String) :
    EntryOf raw text (catalog.find? text) := by
  have fits := (exists_ofRaw_iff declared raw).1 ⟨catalog, made⟩
  rcases find_ofRaw made text with ⟨⟨plural, wording, member⟩, forms, found, _⟩ | ⟨alone, found⟩
  · have pair := (Dictionary.find_eq_some_iff raw _ _).2 member
    obtain ⟨own, rfl, _⟩ := fits.pair text plural wording pair
    obtain ⟨count, longest⟩ := exists_longest pair
    have form : ∀ index, catalog.form? text index = forms.find? index := by
      intro index
      rw [form?, found]
      rfl
    rw [found]
    refine .plural longest (Dictionary.keys_eq_range fun index => ?_) fun index text' => ?_
    · rw [Dictionary.contains, ← form, contains_form_iff made longest]
    · rw [← form, form_iff made]
  · cases own : catalog.find? text with
    | none =>
      refine .absent ((not_hasPair_iff raw text).1 alone) fun wording direct => ?_
      rw [(find_simple_iff made text wording).2 direct] at own
      cases own
    | some entry =>
      obtain ⟨wording, _, rfl⟩ := Option.map_eq_some_iff.1 (found.symm.trans own)
      exact .simple ((find_simple_iff made text wording).1 own)

end Made

theorem ofRaw_eq_ok_iff (declared : Option Nat) (raw : RawCatalog) (catalog : NormalCatalog) :
    ofRaw declared raw = .ok catalog ↔
      Fits declared raw ∧ ∀ text, EntryOf raw text (catalog.find? text) := by
  constructor
  · intro made
    exact ⟨(exists_ofRaw_iff declared raw).1 ⟨catalog, made⟩, entryOf_of_ofRaw made⟩
  · rintro ⟨fits, entries⟩
    obtain ⟨other, made⟩ := (exists_ofRaw_iff declared raw).2 fits
    have same : other = catalog := Dictionary.eq_of_find fun text =>
      (entryOf_of_ofRaw made text).unique (entries text)
    rw [made, same]

/-- Exactly the catalogs whose messages fit have a normal form, which is the one that holds for
each text what the messages make of it. Any other is refused for the first pair that does not fit,
or, where all pairs do, for the first other message. -/
theorem ofRaw_exactly (declared : Option Nat) (raw : RawCatalog) :
    ((∃ catalog, ofRaw declared raw = .ok catalog) ↔ Fits declared raw) ∧
      (∀ catalog, ofRaw declared raw = .ok catalog ↔
        Fits declared raw ∧ ∀ text, EntryOf raw text (catalog.find? text)) ∧
      ∀ e, ofRaw declared raw = .error e ↔
        FirstOffends declared raw true e ∨
          (∀ key fault, key.isPair = true → ¬Offends declared raw key fault) ∧
            FirstOffends declared raw false e :=
  ⟨exists_ofRaw_iff declared raw, ofRaw_eq_ok_iff declared raw,
    ofRaw_eq_error_iff_first declared raw⟩

/-- The plural forms of a text have the indices from 0 on, at least one and as many as declared, and
the header has no wording. -/
structure IsNormal (declared : Option Nat) (catalog : NormalCatalog) : Prop where
  plural : ∀ text forms, catalog.find? text = some (.plural forms) →
    ∃ count, 0 < count ∧ forms.keys = List.range count ∧ ∀ expected ∈ declared, count = expected
  header : ∀ wording, catalog.find? "" ≠ some (.simple wording)

theorem find_toRaw_iff (catalog : NormalCatalog) (key : MessageKey) (wording : Wording) :
    catalog.toRaw.find? key = some wording ↔
      ∃ text entry, catalog.find? text = some entry ∧ messageOf text entry = (key, wording) := by
  have named : ∀ text entry, (messageOf text entry).1.singularText = text := by
    intro text entry
    cases entry <;> rfl
  have pairs : catalog.toRaw =
      .ofList (catalog.entries.map fun entry => messageOf entry.1 entry.2) := rfl
  have texts : ((catalog.entries.map fun entry => messageOf entry.1 entry.2).map Prod.fst).map
      MessageKey.singularText = catalog.keys := by
    rw [List.map_map, List.map_map]
    exact List.map_congr_left fun entry _ => named entry.1 entry.2
  have distinct := List.Nodup.of_map MessageKey.singularText (texts ▸ catalog.nodup_keys)
  rw [pairs, Dictionary.find_ofList_of_nodup distinct, List.mem_map]
  constructor
  · rintro ⟨⟨text, entry⟩, member, same⟩
    exact ⟨text, entry, (Dictionary.find_eq_some_iff catalog _ _).2 member, same⟩
  · rintro ⟨text, entry, found, same⟩
    exact ⟨(text, entry), (Dictionary.find_eq_some_iff catalog _ _).1 found, same⟩

theorem find_toRaw_singular (catalog : NormalCatalog) (text : String) (wording : Wording) :
    catalog.toRaw.find? (.singular text) = some wording ↔
      ∃ value, wording = .single value ∧ catalog.find? text = some (.simple value) := by
  rw [find_toRaw_iff]
  constructor
  · rintro ⟨other, entry, found, same⟩
    cases entry with
    | simple value =>
      cases same
      exact ⟨value, rfl, found⟩
    | plural forms => cases same
  · rintro ⟨value, rfl, found⟩
    exact ⟨text, .simple value, found, rfl⟩

theorem find_toRaw_pair (catalog : NormalCatalog) (text plural : String) (wording : Wording) :
    catalog.toRaw.find? (.pair text plural) = some wording ↔
      plural = text ∧ ∃ forms, wording = .forms forms.values ∧
        catalog.find? text = some (.plural forms) := by
  rw [find_toRaw_iff]
  constructor
  · rintro ⟨other, entry, found, same⟩
    cases entry with
    | simple value => cases same
    | plural forms =>
      cases same
      exact ⟨rfl, forms, rfl, found⟩
  · rintro ⟨rfl, forms, rfl, found⟩
    exact ⟨plural, .plural forms, found, rfl⟩

theorem find_toRaw_of_plural {catalog : NormalCatalog} {text : String}
    {forms : Dictionary Nat String} (found : catalog.find? text = some (.plural forms)) :
    catalog.toRaw.find? (.pair text text) = some (.forms forms.values) := by
  rw [find_toRaw_pair]
  exact ⟨rfl, forms, rfl, found⟩

theorem length_values {forms : Dictionary Nat String} {count : Nat}
    (indices : forms.keys = List.range count) : forms.values.length = count := by
  have lengths : forms.values.length = forms.keys.length := by
    simp only [Dictionary.values, Dictionary.keys, List.length_map]
  rw [lengths, indices, List.length_range]

variable {declared : Option Nat} {catalog : NormalCatalog}

theorem isNormal_of_ofRaw {raw : RawCatalog} (made : ofRaw declared raw = .ok catalog) :
    IsNormal declared catalog := by
  obtain ⟨fits, entries⟩ := (ofRaw_eq_ok_iff declared raw catalog).1 made
  refine ⟨fun text forms found => ?_, fun wording found => ?_⟩
  · have entry := entries text
    rw [found] at entry
    cases entry with
    | @plural _ count longest indices _ =>
      obtain ⟨plural, own, pair, rfl⟩ := longest.reached
      obtain ⟨_, same, worded, counts⟩ := fits.pair text plural _ pair
      cases same
      exact ⟨own.length, List.length_pos_iff.2 worded, indices, counts⟩
  · have entry := entries ""
    rw [found] at entry
    cases entry with
    | simple direct => exact direct.named rfl

namespace IsNormal

theorem fits (normal : IsNormal declared catalog) : Fits declared catalog.toRaw := by
  refine ⟨fun text plural wording found => ?_, fun text wording _ found => ?_⟩
  · obtain ⟨_, forms, rfl, entry⟩ := (find_toRaw_pair catalog text plural wording).1 found
    obtain ⟨count, some, indices, counts⟩ := normal.plural text forms entry
    have length := length_values indices
    refine ⟨forms.values, rfl, ?_, fun expected asked => length.trans (counts expected asked)⟩
    intro empty
    rw [empty] at length
    exact absurd length some.ne
  · obtain ⟨value, same, _⟩ := (find_toRaw_singular catalog text wording).1 found
    exact ⟨value, same⟩

theorem directForm_iff (normal : IsNormal declared catalog) {text : String}
    {forms : Dictionary Nat String} (found : catalog.find? text = some (.plural forms))
    (index : Nat) (form : String) :
    forms.find? index = some form ↔ DirectForm catalog.toRaw text index form := by
  obtain ⟨count, _, indices, _⟩ := normal.plural text forms found
  rw [← Dictionary.values_getElem_of_range indices]
  constructor
  · intro given
    have pair := find_toRaw_of_plural found
    refine ⟨text, forms.values, pair, given, fun other others pair' _ => ?_⟩
    rw [((find_toRaw_pair catalog text other _).1 pair').1]
    exact List.le_refl _
  · rintro ⟨plural, own, pair, given, _⟩
    obtain ⟨_, forms', same, found'⟩ := (find_toRaw_pair catalog text plural _).1 pair
    cases same
    rw [found] at found'
    cases found'
    exact given

theorem entryOf (normal : IsNormal declared catalog) (text : String) :
    EntryOf catalog.toRaw text (catalog.find? text) := by
  have alone : (∀ forms, catalog.find? text ≠ some (.plural forms)) →
      ∀ plural, catalog.toRaw.find? (.pair text plural) = none := by
    intro none plural
    rw [Option.eq_none_iff_forall_ne_some]
    intro wording pair
    obtain ⟨_, forms, _, found⟩ := (find_toRaw_pair catalog text plural wording).1 pair
    exact none forms found
  cases found : catalog.find? text with
  | none =>
    refine .absent (alone (by simp [found])) fun wording direct => ?_
    obtain ⟨value, _, own⟩ := (find_toRaw_singular catalog text _).1 direct.found
    rw [found] at own
    cases own
  | some entry =>
    cases entry with
    | simple wording =>
      have named : text ≠ "" := by
        rintro rfl
        exact normal.header wording found
      exact .simple ⟨named, (find_toRaw_singular catalog text _).2 ⟨wording, rfl, found⟩,
        alone (by simp [found])⟩
    | plural forms =>
      obtain ⟨count, _, indices, _⟩ := normal.plural text forms found
      have pair := find_toRaw_of_plural found
      refine .plural ⟨⟨text, forms.values, pair, length_values indices⟩, ?_⟩ indices
        (normal.directForm_iff found)
      intro plural own pair'
      obtain ⟨rfl, _⟩ := (find_toRaw_pair catalog text plural _).1 pair'
      rw [pair] at pair'
      cases pair'
      exact (length_values indices).le

theorem ofRaw_toRaw (normal : IsNormal declared catalog) :
    ofRaw declared catalog.toRaw = .ok catalog :=
  (ofRaw_eq_ok_iff declared catalog.toRaw catalog).2 ⟨normal.fits, normal.entryOf⟩

end IsNormal

/-- The normal catalogs are those that are their own normal form, and they are all that bringing a
catalog into normal form gives. To do it twice changes nothing. -/
theorem isNormal_iff_own (declared : Option Nat) :
    (∀ catalog, ofRaw declared (toRaw catalog) = .ok catalog ↔ IsNormal declared catalog) ∧
      (∀ catalog, IsNormal declared catalog ↔ ∃ raw, ofRaw declared raw = .ok catalog) ∧
      ∀ raw catalog, ofRaw declared raw = .ok catalog →
        ofRaw declared catalog.toRaw = .ok catalog := by
  refine ⟨fun catalog => ⟨isNormal_of_ofRaw, IsNormal.ofRaw_toRaw⟩, fun catalog => ?_,
    fun raw catalog made => (isNormal_of_ofRaw made).ofRaw_toRaw⟩
  constructor
  · intro normal
    exact ⟨catalog.toRaw, normal.ofRaw_toRaw⟩
  · rintro ⟨raw, made⟩
    exact isNormal_of_ofRaw made

/-- Two pairs of one text become one, which has a form of each. -/
theorem isNormal_iff_own_files :
    let raw : RawCatalog := .ofList [(.pair "file" "files", .forms ["fichier"]),
      (.pair "file" "Files", .forms ["Datei", "Dateien"])]
    let catalog : NormalCatalog :=
      .ofList [("file", .plural (.ofList [(0, "fichier"), (1, "Dateien")]))]
    ofRaw none raw = .ok catalog ∧ ofRaw none catalog.toRaw = .ok catalog := by
  intro raw catalog
  have made : ofRaw none raw = .ok catalog := by decide +kernel
  exact ⟨made, (isNormal_iff_own none).2.2 raw catalog made⟩

end Phrasebook.NormalCatalog
