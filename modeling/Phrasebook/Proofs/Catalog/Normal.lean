import Phrasebook.Catalog.Normal
import Phrasebook.Proofs.Dictionary
import Phrasebook.Proofs.Except

/-!
What a normal catalog holds of the messages it was made of. Pairs are laid over each other form by
form, so the last pair that has a form gives it, and single texts fill what the pairs leave.
-/

namespace Phrasebook

namespace NormalCatalog

def form? (catalog : NormalCatalog) (text : String) (index : Nat) : Option String :=
  (catalog.find? text).bind (·.form? index)

def AllPlural (catalog : NormalCatalog) : Prop :=
  ∀ text entry, catalog.find? text = some entry → ∃ forms, entry = .plural forms

def formOf (text : String) (index : Nat) : MessageKey × Wording → Option String
  | (.pair singular _, .forms texts) => if singular = text then texts[index]? else none
  | _ => none

def lastForm (text : String) (index : Nat) : List (MessageKey × Wording) → Option String
  | [] => none
  | message :: rest => (lastForm text index rest).or (formOf text index message)

def HasPair (text : String) (messages : List (MessageKey × Wording)) : Prop :=
  ∃ plural wording, (.pair text plural, wording) ∈ messages

theorem find_insertAll_zipIdx (table : Dictionary Nat String) (texts : List String)
    (start index : Nat) :
    (table.insertAll ((texts.zipIdx start).map fun (text, index) => (index, text))).find? index =
      (if start ≤ index then texts[index - start]? else none).or (table.find? index) := by
  induction texts generalizing table start with
  | nil => simp [Dictionary.insertAll]
  | cons text texts ih =>
    rw [List.zipIdx_cons, List.map_cons]
    show ((table.insert start text).insertAll _).find? index = _
    rw [ih]
    by_cases same : index = start
    · subst same
      rw [if_neg (by omega), Dictionary.find_insert_self, if_pos (Nat.le_refl index), Nat.sub_self]
      rfl
    · rw [Dictionary.find_insert_of_ne table text same]
      by_cases later : start ≤ index
      · have past : start + 1 ≤ index := by omega
        have place : index - start = index - (start + 1) + 1 := by omega
        rw [if_pos past, if_pos later, place, List.getElem?_cons_succ]
      · rw [if_neg later, if_neg (by omega)]

theorem find_insertAll_numbered (table : Dictionary Nat String) (texts : List String)
    (index : Nat) :
    (table.insertAll (numbered texts)).find? index = texts[index]?.or (table.find? index) := by
  have found := find_insertAll_zipIdx table texts 0 index
  rwa [if_pos (Nat.zero_le index)] at found

theorem find_addForms_self {catalog : NormalCatalog} (plural : catalog.AllPlural) (text : String)
    (texts : List String) :
    ∃ forms, (catalog.addForms text texts).find? text = some (.plural forms) ∧
      ∀ index, forms.find? index = texts[index]?.or (catalog.form? text index) := by
  cases found : catalog.find? text with
  | none =>
    refine ⟨.ofList (numbered texts), ?_, fun index => ?_⟩
    · rw [addForms, found]
      exact Dictionary.find_insert_self catalog text _
    · rw [form?, found]
      exact find_insertAll_numbered .empty texts index
  | some entry =>
    obtain ⟨existing, rfl⟩ := plural text entry found
    refine ⟨existing.insertAll (numbered texts), ?_, fun index => ?_⟩
    · rw [addForms, found]
      exact Dictionary.find_insert_self catalog text _
    · rw [form?, found]
      exact find_insertAll_numbered existing texts index

theorem find_addForms_of_ne (catalog : NormalCatalog) {text other : String} (texts : List String)
    (different : other ≠ text) : (catalog.addForms text texts).find? other = catalog.find? other := by
  unfold addForms
  split
  · exact Dictionary.find_insert_of_ne catalog _ different
  · rfl
  · exact Dictionary.find_insert_of_ne catalog _ different

structure Merges (messages : List (MessageKey × Wording)) (before after : NormalCatalog) : Prop where
  plural : after.AllPlural
  contains : ∀ text, after.contains text = true ↔
    HasPair text messages ∨ before.contains text = true
  form : ∀ text index, after.form? text index =
    (lastForm text index messages).or (before.form? text index)

theorem merges_nil {catalog : NormalCatalog} (plural : catalog.AllPlural) :
    Merges [] catalog catalog :=
  ⟨plural, fun text => by simp [HasPair], fun text index => by simp [lastForm]⟩

theorem Merges.cons {message : MessageKey × Wording} {rest : List (MessageKey × Wording)}
    {before middle after : NormalCatalog} (first : Merges [message] before middle)
    (others : Merges rest middle after) : Merges (message :: rest) before after := by
  refine ⟨others.plural, fun text => ?_, fun text index => ?_⟩
  · rw [others.contains, first.contains]
    simp only [HasPair, List.mem_cons, List.not_mem_nil, or_false]
    constructor
    · rintro (⟨plural, wording, member⟩ | ⟨plural, wording, same⟩ | there)
      · exact .inl ⟨plural, wording, .inr member⟩
      · exact .inl ⟨plural, wording, .inl same⟩
      · exact .inr there
    · rintro (⟨plural, wording, same | member⟩ | there)
      · exact .inr (.inl ⟨plural, wording, same⟩)
      · exact .inl ⟨plural, wording, member⟩
      · exact .inr (.inr there)
  · rw [others.form, first.form]
    simp only [lastForm, Option.none_or, Option.or_assoc]

theorem formsOf_eq_ok {declared : Option Nat} {key : MessageKey} {wording : Wording}
    {texts : List String} (accepted : formsOf declared key wording = .ok texts) :
    wording = .forms texts := by
  cases wording with
  | single text => cases accepted
  | forms found =>
    simp only [formsOf] at accepted
    split at accepted
    · cases accepted
    · split at accepted
      · cases accepted
      · cases accepted
        rfl

theorem merges_addForms {catalog : NormalCatalog} (plural : catalog.AllPlural) (text : String)
    (pluralText : String) (texts : List String) :
    Merges [(.pair text pluralText, .forms texts)] catalog (catalog.addForms text texts) := by
  obtain ⟨forms, found, laid⟩ := find_addForms_self plural text texts
  refine ⟨fun other entry known => ?_, fun other => ?_, fun other index => ?_⟩
  · by_cases same : other = text
    · subst same
      rw [found] at known
      exact ⟨forms, (Option.some.inj known).symm⟩
    · rw [find_addForms_of_ne catalog texts same] at known
      exact plural other entry known
  · by_cases same : other = text
    · subst same
      simp [Dictionary.contains, found, HasPair]
    · simp [Dictionary.contains, find_addForms_of_ne catalog texts same, HasPair, same]
  · by_cases same : other = text
    · subst same
      simp only [lastForm, formOf, if_true, Option.none_or, ← laid]
      rw [form?, found]
      rfl
    · simp only [lastForm, formOf, if_neg (Ne.symm same), Option.none_or]
      rw [form?, form?, find_addForms_of_ne catalog texts same]

theorem merges_addPair {declared : Option Nat} {catalog after : NormalCatalog}
    {message : MessageKey × Wording} (plural : catalog.AllPlural)
    (added : addPair declared catalog message = .ok after) : Merges [message] catalog after := by
  obtain ⟨key, wording⟩ := message
  cases key with
  | singular text =>
    cases added
    refine ⟨plural, fun other => ?_, fun other index => ?_⟩
    · simp [HasPair]
    · simp [lastForm, formOf]
  | pair singular pluralText =>
    simp only [addPair] at added
    cases accepted : formsOf declared (.pair singular pluralText) wording with
    | error refusal =>
      rw [accepted] at added
      cases added
    | ok texts =>
      rw [accepted] at added
      cases added
      rw [formsOf_eq_ok accepted]
      exact merges_addForms plural singular pluralText texts

theorem merges_foldlM {declared : Option Nat} {messages : List (MessageKey × Wording)}
    {before after : NormalCatalog} (plural : before.AllPlural)
    (added : messages.foldlM (addPair declared) before = .ok after) :
    Merges messages before after := by
  induction messages generalizing before with
  | nil =>
    cases added
    exact merges_nil plural
  | cons message rest ih =>
    rw [List.foldlM_cons] at added
    obtain ⟨middle, step, others⟩ := bind_eq_ok_iff.1 added
    have first := merges_addPair plural step
    exact first.cons (ih first.plural others)

def wordingOf (text : String) : MessageKey × Wording → Option String
  | (.singular single, .single wording) =>
    if single = text ∧ single ≠ "" then some wording else none
  | _ => none

/-- A message without plural forms is added where there is no entry yet. -/
theorem find_addSingular {catalog after : NormalCatalog} {message : MessageKey × Wording}
    (added : addSingular catalog message = .ok after) (text : String) :
    after.find? text = (catalog.find? text).or ((wordingOf text message).map .simple) := by
  obtain ⟨key, wording⟩ := message
  cases key with
  | pair singular pluralText =>
    cases added
    exact Option.or_none.symm
  | singular single =>
    by_cases empty : single.isEmpty = true
    · simp only [addSingular, if_pos empty] at added
      cases added
      have header : single = "" := String.isEmpty_iff.1 empty
      cases wording with
      | single value => simp [wordingOf, header]
      | forms texts => exact Option.or_none.symm
    · simp only [addSingular, if_neg empty] at added
      have named : single ≠ "" := fun same => empty (String.isEmpty_iff.2 same)
      cases wording with
      | forms texts => cases added
      | single value =>
        by_cases there : catalog.contains single = true
        · simp only [if_pos there] at added
          cases added
          by_cases same : single = text
          · subst same
            obtain ⟨entry, found⟩ := Option.isSome_iff_exists.1 there
            rw [found]
            rfl
          · simp [wordingOf, same]
        · simp only [if_neg there] at added
          cases added
          by_cases same : single = text
          · subst same
            have missing : catalog.find? single = none := by
              simpa [Dictionary.contains] using there
            rw [Dictionary.find_insert_self, missing]
            simp [wordingOf, named]
          · rw [Dictionary.find_insert_of_ne catalog _ (Ne.symm same)]
            simp [wordingOf, same]

/-- Messages without plural forms are added where there are no entries, each text by the first of
them that words it. -/
theorem find_foldlM_addSingular {messages : List (MessageKey × Wording)}
    {before after : NormalCatalog} (added : messages.foldlM addSingular before = .ok after)
    (text : String) :
    after.find? text =
      (before.find? text).or ((messages.findSome? (wordingOf text)).map .simple) := by
  induction messages generalizing before with
  | nil =>
    cases added
    exact Option.or_none.symm
  | cons message rest ih =>
    rw [List.foldlM_cons] at added
    obtain ⟨middle, step, others⟩ := bind_eq_ok_iff.1 added
    rw [ih others, find_addSingular step, List.findSome?_cons, Option.or_assoc]
    cases wordingOf text message with
    | none => rfl
    | some wording => rfl

/-- What a normal catalog holds: of a text that begins a pair the forms that the last pairs give,
and of any other text its own wording. -/
theorem find_ofRaw {declared : Option Nat} {raw : RawCatalog} {catalog : NormalCatalog}
    (made : ofRaw declared raw = .ok catalog) (text : String) :
    (HasPair text raw.entries ∧ ∃ forms, catalog.find? text = some (.plural forms) ∧
      ∀ index, forms.find? index = lastForm text index raw.entries) ∨
    (¬HasPair text raw.entries ∧
      catalog.find? text = (raw.entries.findSome? (wordingOf text)).map .simple) := by
  rw [ofRaw] at made
  obtain ⟨pairs, added, others⟩ := bind_eq_ok_iff.1 made
  -- After the pairs all entries are plural ones, so the second pass cannot change them.
  have none : AllPlural .empty := by
    rintro other entry ⟨⟩
  have merged := merges_foldlM none added
  have found := find_foldlM_addSingular others text
  have contains := merged.contains text
  by_cases begins : HasPair text raw.entries
  · obtain ⟨entry, known⟩ := Option.isSome_iff_exists.1 (contains.2 (.inl begins))
    obtain ⟨forms, rfl⟩ := merged.plural text entry known
    refine .inl ⟨begins, forms, by rw [found, known]; rfl, fun index => ?_⟩
    have form := merged.form text index
    rw [form?, known] at form
    exact form.trans Option.or_none
  · have missing : pairs.find? text = Option.none := by
      cases known : pairs.find? text with
      | none => rfl
      | some entry =>
        rcases contains.1 (Option.isSome_iff_exists.2 ⟨entry, known⟩) with pair | there
        · exact absurd pair begins
        · cases there
    exact .inr ⟨begins, by rw [found, missing]; rfl⟩

end NormalCatalog

end Phrasebook
