import Phrasebook.Proofs.Catalog.Normal
import Phrasebook.Proofs.Text.Bytes

/-!
A normal catalog told by the messages it is made of, look-up by look-up: which forms and which
wording a text has, and where it has none.
-/

namespace Phrasebook

structure DirectWording (raw : RawCatalog) (text wording : String) : Prop where
  named : text ≠ ""
  found : raw.find? (.singular text) = some (.single wording)
  alone : ∀ plural, raw.find? (.pair text plural) = none

/-- Of the pairs of the text that have a form of the index, the one with the greatest plural text,
byte by byte, has this form. -/
def DirectForm (raw : RawCatalog) (text : String) (index : Nat) (form : String) : Prop :=
  ∃ plural forms, raw.find? (.pair text plural) = some (.forms forms) ∧
    forms[index]? = some form ∧
    ∀ other others, raw.find? (.pair text other) = some (.forms others) →
      index < others.length → Text.bytes other ≤ Text.bytes plural

def LacksForm (raw : RawCatalog) (text : String) (index : Nat) : Prop :=
  ∀ plural forms, raw.find? (.pair text plural) = some (.forms forms) → forms.length ≤ index

structure Longest (raw : RawCatalog) (text : String) (count : Nat) : Prop where
  reached : ∃ plural forms, raw.find? (.pair text plural) = some (.forms forms) ∧
    forms.length = count
  bound : ∀ plural forms, raw.find? (.pair text plural) = some (.forms forms) →
    forms.length ≤ count

/-- What the messages make of a text: of its pairs the forms, each index that one of them has, and
without a pair its own wording. -/
inductive EntryOf (raw : RawCatalog) (text : String) : Option Entry → Prop where
  | plural {forms : Dictionary Nat String} {count : Nat} (longest : Longest raw text count)
      (indices : forms.keys = List.range count)
      (form : ∀ index form, forms.find? index = some form ↔ DirectForm raw text index form) :
      EntryOf raw text (some (.plural forms))
  | simple {wording : String} (direct : DirectWording raw text wording) :
      EntryOf raw text (some (.simple wording))
  | absent (alone : ∀ plural, raw.find? (.pair text plural) = none)
      (silent : ∀ wording, ¬DirectWording raw text wording) : EntryOf raw text none

theorem DirectForm.unique {raw : RawCatalog} {text : String} {index : Nat} {first second : String}
    (left : DirectForm raw text index first) (right : DirectForm raw text index second) :
    first = second := by
  obtain ⟨plural, forms, found, form, greatest⟩ := left
  obtain ⟨plural', forms', found', form', greatest'⟩ := right
  obtain ⟨long, _⟩ := List.getElem?_eq_some_iff.1 form
  obtain ⟨long', _⟩ := List.getElem?_eq_some_iff.1 form'
  have same : plural = plural' := Text.bytes_le_antisymm (greatest' plural forms found long)
    (greatest plural' forms' found' long')
  subst same
  rw [found] at found'
  cases found'
  exact Option.some.inj (form.symm.trans form')

theorem DirectWording.unique {raw : RawCatalog} {text first second : String}
    (left : DirectWording raw text first) (right : DirectWording raw text second) :
    first = second := by
  have same := left.found.symm.trans right.found
  cases same
  rfl

theorem Longest.not_alone {raw : RawCatalog} {text : String} {count : Nat}
    (longest : Longest raw text count) : ¬∀ plural, raw.find? (.pair text plural) = none := by
  intro alone
  obtain ⟨plural, forms, found, _⟩ := longest.reached
  rw [alone plural] at found
  cases found

theorem EntryOf.unique {raw : RawCatalog} {text : String} {first second : Option Entry}
    (left : EntryOf raw text first) (right : EntryOf raw text second) : first = second := by
  cases left with
  | plural longest _ form =>
    cases right with
    | plural _ _ form' =>
      rw [Option.some.injEq, Entry.plural.injEq]
      apply Dictionary.eq_of_find
      intro index
      ext found
      rw [form, form']
    | simple direct => exact absurd direct.alone longest.not_alone
    | absent alone _ => exact absurd alone longest.not_alone
  | simple direct =>
    cases right with
    | plural longest _ _ => exact absurd direct.alone longest.not_alone
    | simple direct' => rw [direct.unique direct']
    | absent _ silent => exact absurd direct (silent _)
  | absent alone silent =>
    cases right with
    | plural longest _ _ => exact absurd alone longest.not_alone
    | simple direct => exact absurd direct (silent _)
    | absent _ _ => rfl

def formCount? (text : String) : MessageKey × Wording → Option Nat
  | (.pair singular _, .forms forms) => if singular = text then some forms.length else none
  | _ => none

theorem formCount?_eq_some_iff (text : String) (message : MessageKey × Wording) (count : Nat) :
    formCount? text message = some count ↔
      ∃ plural forms, message = (.pair text plural, .forms forms) ∧ forms.length = count := by
  unfold formCount?
  split
  · rename_i singular plural forms
    by_cases same : singular = text <;> simp [same]
  · rename_i other
    constructor
    · intro none
      cases none
    · rintro ⟨plural, forms, rfl, _⟩
      exact absurd rfl (other text plural forms)

theorem exists_longest {raw : RawCatalog} {text plural : String} {forms : List String}
    (found : raw.find? (.pair text plural) = some (.forms forms)) :
    ∃ count, Longest raw text count := by
  have counted : ∀ count, count ∈ raw.entries.filterMap (formCount? text) ↔
      ∃ plural forms, raw.find? (.pair text plural) = some (.forms forms) ∧
        forms.length = count := by
    intro count
    simp only [List.mem_filterMap, formCount?_eq_some_iff, Dictionary.find_eq_some_iff]
    constructor
    · rintro ⟨_, member, plural, forms, rfl, length⟩
      exact ⟨plural, forms, member, length⟩
    · rintro ⟨plural, forms, member, length⟩
      exact ⟨_, member, plural, forms, rfl, length⟩
  cases most : (raw.entries.filterMap (formCount? text)).max? with
  | none =>
    have own := (counted forms.length).2 ⟨plural, forms, found, rfl⟩
    rw [List.max?_eq_none_iff.1 most] at own
    cases own
  | some count =>
    obtain ⟨member, above⟩ := List.max?_eq_some_iff.1 most
    refine ⟨count, (counted count).1 member, fun other others pair => ?_⟩
    exact above _ ((counted others.length).2 ⟨other, others, pair, rfl⟩)

theorem compare_pair (text first second : String) :
    compare (MessageKey.pair text first) (MessageKey.pair text second) = compare first second := by
  have parts : compare (MessageKey.pair text first) (MessageKey.pair text second) =
      (compare true true).then ((compare text text).then (compare first second)) := rfl
  have self : compare text text = .eq := Std.ReflCmp.compare_self
  rw [parts, self]
  rfl

namespace NormalCatalog

theorem formOf_eq_some {text : String} {index : Nat} {message : MessageKey × Wording}
    {form : String} (given : formOf text index message = some form) :
    ∃ plural forms, message = (.pair text plural, .forms forms) ∧ forms[index]? = some form := by
  unfold formOf at given
  split at given
  · rename_i singular plural texts
    split at given
    · rename_i same
      exact ⟨plural, texts, by rw [same], given⟩
    · cases given
  · cases given

theorem length_le_of_lastForm {text : String} {index : Nat} {messages : List (MessageKey × Wording)}
    (none : lastForm text index messages = none) {plural : String} {forms : List String}
    (member : (.pair text plural, .forms forms) ∈ messages) : forms.length ≤ index := by
  induction messages with
  | nil => cases member
  | cons message rest ih =>
    rw [lastForm, Option.or_eq_none_iff] at none
    rcases List.mem_cons.1 member with rfl | later
    · have missing : forms[index]? = Option.none := by simpa [formOf] using none.2
      exact List.getElem?_eq_none_iff.1 missing
    · exact ih none.1 later

/-- In key order the last pair that has a form is the one with the greatest plural text. -/
theorem greatest_of_lastForm {text : String} {index : Nat}
    {messages : List (MessageKey × Wording)} (sorted : InKeyOrder messages) {form : String}
    (last : lastForm text index messages = some form) :
    ∃ plural forms, (MessageKey.pair text plural, Wording.forms forms) ∈ messages ∧
      forms[index]? = some form ∧
      ∀ other others, (MessageKey.pair text other, Wording.forms others) ∈ messages →
        index < others.length → Text.bytes other ≤ Text.bytes plural := by
  -- On the messages in key order: whichever pair comes later has the greater plural text.
  induction messages with
  | nil => cases last
  | cons message rest ih =>
    obtain ⟨above, sortedRest⟩ := List.pairwise_cons.1 sorted
    rw [lastForm] at last
    cases later : lastForm text index rest with
    | some found =>
      rw [later] at last
      cases last
      obtain ⟨plural, forms, member, given, greatest⟩ := ih sortedRest later
      refine ⟨plural, forms, List.mem_cons_of_mem _ member, given, fun other others here long => ?_⟩
      rcases List.mem_cons.1 here with rfl | behind
      · have order := above _ member
        rw [compare_pair] at order
        exact List.le_of_lt (Text.bytes_lt order)
      · exact greatest other others behind long
    | none =>
      rw [later, Option.none_or] at last
      obtain ⟨plural, forms, rfl, given⟩ := formOf_eq_some last
      refine ⟨plural, forms, List.mem_cons_self, given, fun other others here long => ?_⟩
      rcases List.mem_cons.1 here with same | behind
      · cases same
        exact List.le_refl _
      · exact absurd (length_le_of_lastForm later behind) (Nat.not_le.2 long)

theorem findSome_wordingOf (raw : RawCatalog) (text wording : String) :
    raw.entries.findSome? (wordingOf text) = some wording ↔
      text ≠ "" ∧ raw.find? (.singular text) = some (.single wording) := by
  have given : ∀ message : MessageKey × Wording, ∀ wording, wordingOf text message = some wording →
      text ≠ "" ∧ message = (.singular text, .single wording) := by
    intro message wording found
    unfold wordingOf at found
    split at found
    · split at found
      · rename_i key
        cases found
        obtain ⟨rfl, named⟩ := key
        exact ⟨named, rfl⟩
      · cases found
    · cases found
  have known : ∀ wording, raw.entries.findSome? (wordingOf text) = some wording →
      text ≠ "" ∧ raw.find? (.singular text) = some (.single wording) := by
    intro wording found
    obtain ⟨message, member, own⟩ := List.exists_of_findSome?_eq_some found
    obtain ⟨named, rfl⟩ := given message wording own
    exact ⟨named, (Dictionary.find_eq_some_iff raw _ _).2 member⟩
  refine ⟨known wording, fun ⟨named, found⟩ => ?_⟩
  have member := (Dictionary.find_eq_some_iff raw _ _).1 found
  cases first : raw.entries.findSome? (wordingOf text) with
  | none =>
    have missing := List.findSome?_eq_none_iff.1 first _ member
    simp [wordingOf, named] at missing
  | some other =>
    have same := (known other first).2
    rw [found] at same
    cases same
    rfl

theorem not_hasPair_iff (raw : RawCatalog) (text : String) :
    ¬HasPair text raw.entries ↔ ∀ plural, raw.find? (.pair text plural) = none := by
  constructor
  · intro alone plural
    cases found : raw.find? (.pair text plural) with
    | none => rfl
    | some wording =>
      exact absurd ⟨plural, wording, (Dictionary.find_eq_some_iff raw _ _).1 found⟩ alone
  · rintro alone ⟨plural, wording, member⟩
    have found := (Dictionary.find_eq_some_iff raw _ _).2 member
    rw [alone plural] at found
    cases found

variable {declared : Option Nat} {raw : RawCatalog} {catalog : NormalCatalog}

theorem find_simple_iff (made : ofRaw declared raw = .ok catalog) (text wording : String) :
    catalog.find? text = some (.simple wording) ↔ DirectWording raw text wording := by
  rcases find_ofRaw made text with ⟨begins, forms, found, _⟩ | ⟨alone, found⟩
  · constructor
    · intro known
      rw [found] at known
      cases known
    · intro direct
      exact absurd begins ((not_hasPair_iff raw text).2 direct.alone)
  · rw [found]
    constructor
    · intro known
      obtain ⟨other, own, same⟩ := Option.map_eq_some_iff.1 known
      cases same
      obtain ⟨named, single⟩ := (findSome_wordingOf raw text wording).1 own
      exact ⟨named, single, (not_hasPair_iff raw text).1 alone⟩
    · intro direct
      rw [(findSome_wordingOf raw text wording).2 ⟨direct.named, direct.found⟩]
      rfl

/-- A form of the catalog is the one of the greatest pair; where there is none, no pair has it. -/
theorem form_ofRaw (made : ofRaw declared raw = .ok catalog) (text : String) (index : Nat) :
    (∃ form, catalog.form? text index = some form ∧ DirectForm raw text index form) ∨
      (catalog.form? text index = none ∧ LacksForm raw text index) := by
  rcases find_ofRaw made text with ⟨begins, forms, found, last⟩ | ⟨alone, found⟩
  · have form : catalog.form? text index = lastForm text index raw.entries := by
      rw [form?, found]
      exact last index
    cases known : lastForm text index raw.entries with
    | none =>
      refine .inr ⟨form.trans known, fun plural texts pair => ?_⟩
      exact length_le_of_lastForm known ((Dictionary.find_eq_some_iff raw _ _).1 pair)
    | some text' =>
      obtain ⟨plural, texts, member, given, greatest⟩ := greatest_of_lastForm raw.sorted known
      refine .inl ⟨text', form.trans known, plural, texts,
        (Dictionary.find_eq_some_iff raw _ _).2 member, given, fun other others pair => ?_⟩
      exact greatest other others ((Dictionary.find_eq_some_iff raw _ _).1 pair)
  · refine .inr ⟨?_, fun plural texts pair => ?_⟩
    · rw [form?, found]
      cases raw.entries.findSome? (wordingOf text) with
      | none => rfl
      | some wording => rfl
    · rw [(not_hasPair_iff raw text).1 alone plural] at pair
      cases pair

theorem form_iff (made : ofRaw declared raw = .ok catalog) (text : String) (index : Nat)
    (form : String) : catalog.form? text index = some form ↔ DirectForm raw text index form := by
  rcases form_ofRaw made text index with ⟨own, found, direct⟩ | ⟨found, lacks⟩
  · rw [found, Option.some.injEq]
    constructor
    · rintro rfl
      exact direct
    · intro other
      exact direct.unique other
  · rw [found]
    constructor
    · intro none
      cases none
    · rintro ⟨plural, forms, pair, given, _⟩
      obtain ⟨long, _⟩ := List.getElem?_eq_some_iff.1 given
      exact absurd (lacks plural forms pair) (Nat.not_le.2 long)

/-- The forms of a text have all indices below the number of forms of its longest pair. -/
theorem contains_form_iff (made : ofRaw declared raw = .ok catalog) {text : String} {count : Nat}
    (longest : Longest raw text count) (index : Nat) :
    (catalog.form? text index).isSome = true ↔ index < count := by
  rcases form_ofRaw made text index with ⟨form, found, plural, forms, pair, given, _⟩ |
    ⟨found, lacks⟩
  · obtain ⟨long, _⟩ := List.getElem?_eq_some_iff.1 given
    have most := longest.bound plural forms pair
    rw [found]
    exact ⟨fun _ => by omega, fun _ => rfl⟩
  · obtain ⟨plural, forms, pair, length⟩ := longest.reached
    have short := lacks plural forms pair
    rw [found]
    exact ⟨fun none => (by cases none), fun below => by omega⟩

end NormalCatalog

end Phrasebook
