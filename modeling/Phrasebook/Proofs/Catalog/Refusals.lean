import Phrasebook.Artifact.Script
import Phrasebook.Proofs.Catalog.Normal

/-!
Which messages keep a catalog from being brought into normal form or prepared. Whether a message
fits does not hang on the others, and the first that does not is named.
-/

namespace Phrasebook

namespace NormalCatalog

/-- Why a pair does not fit: it must have forms, and as many as are declared. -/
def pairFault? (declared : Option Nat) : MessageKey × Wording → Option CatalogError
  | (.singular _, _) => none
  | (.pair text _, .single _) => some ⟨text, .singleOfPair⟩
  | (.pair text _, .forms []) => some ⟨text, .noForms⟩
  | (.pair text _, .forms forms) =>
    match declared with
    | none => none
    | some expected =>
      if forms.length = expected then none
      else some ⟨text, .wrongFormCount expected forms.length⟩

/-- Why a message without plural forms does not fit: it must have a single text. The header is no
message. -/
def singularFault? : MessageKey × Wording → Option CatalogError
  | (.singular text, .forms _) => if text = "" then none else some ⟨text, .formsOfSingular⟩
  | _ => none

theorem addPair_eq_error_iff (declared : Option Nat) (catalog : NormalCatalog)
    (message : MessageKey × Wording) (e : CatalogError) :
    addPair declared catalog message = .error e ↔ pairFault? declared message = some e := by
  obtain ⟨key, wording⟩ := message
  cases key with
  | singular text => simp [addPair, pairFault?]
  | pair text plural =>
    rw [addPair, map_eq_error_iff]
    cases wording with
    | single value => simp [formsOf, pairFault?, MessageKey.singularText]
    | forms forms =>
      cases forms with
      | nil => simp [formsOf, pairFault?, MessageKey.singularText]
      | cons form rest =>
        cases declared with
        | none => simp [formsOf, pairFault?]
        | some expected =>
          by_cases fits : rest.length + 1 = expected
          · simp [formsOf, pairFault?, fits, Option.filter]
          · simp [formsOf, pairFault?, fits, Ne.symm fits, Option.filter, MessageKey.singularText]

theorem addSingular_eq_error_iff (catalog : NormalCatalog) (message : MessageKey × Wording)
    (e : CatalogError) :
    addSingular catalog message = .error e ↔ singularFault? message = some e := by
  obtain ⟨key, wording⟩ := message
  cases key with
  | pair text plural => simp [addSingular, singularFault?]
  | singular text =>
    by_cases header : text = ""
    · cases wording <;> simp [addSingular, singularFault?, header]
    · cases wording with
      | forms forms => simp [addSingular, singularFault?, header]
      | single value =>
        by_cases there : catalog.contains text = true
        · simp [addSingular, singularFault?, header, there]
        · simp [addSingular, singularFault?, header, there]

/-- A catalog has no normal form if a message does not fit. Pairs are judged first, and of
them, or else of the others, the first is named that does not fit. -/
theorem ofRaw_eq_error_iff (declared : Option Nat) (raw : RawCatalog) (e : CatalogError) :
    ofRaw declared raw = .error e ↔
      (raw.entries.findSome? (pairFault? declared)).or
        (raw.entries.findSome? singularFault?) = some e := by
  have pairs := foldlM_eq_error_iff (addPair_eq_error_iff declared) raw.entries .empty
  rw [ofRaw, bind_eq_error_iff, pairs]
  cases fault : raw.entries.findSome? (pairFault? declared) with
  | some other =>
    have refused := (pairs other).2 fault
    simp [refused]
  | none =>
    cases added : raw.entries.foldlM (addPair declared) .empty with
    | error other =>
      rw [(pairs other).1 added] at fault
      cases fault
    | ok catalog =>
      have singulars := foldlM_eq_error_iff addSingular_eq_error_iff raw.entries catalog e
      simp [singulars]

inductive Misfit (declared : Option Nat) : MessageKey → Wording → MessageFault → Prop where
  | single {text plural value : String} :
      Misfit declared (.pair text plural) (.single value) .singleOfPair
  | empty {text plural : String} : Misfit declared (.pair text plural) (.forms []) .noForms
  | count {text plural : String} {forms : List String} {expected : Nat}
      (asked : declared = some expected) (worded : forms ≠ []) (differs : forms.length ≠ expected) :
      Misfit declared (.pair text plural) (.forms forms) (.wrongFormCount expected forms.length)
  | forms {text : String} {forms : List String} (named : text ≠ "") :
      Misfit declared (.singular text) (.forms forms) .formsOfSingular

def Offends (declared : Option Nat) (raw : RawCatalog) (key : MessageKey) (fault : MessageFault) :
    Prop :=
  ∃ wording, raw.find? key = some wording ∧ Misfit declared key wording fault

def FirstOffends (declared : Option Nat) (raw : RawCatalog) (pairs : Bool) (e : CatalogError) :
    Prop :=
  ∃ key, key.isPair = pairs ∧ key.singularText = e.id ∧ Offends declared raw key e.fault ∧
    ∀ other fault, other.isPair = pairs → Offends declared raw other fault →
      compare other key ≠ .lt

structure Fits (declared : Option Nat) (raw : RawCatalog) : Prop where
  pair : ∀ text plural wording, raw.find? (.pair text plural) = some wording →
    ∃ forms, wording = .forms forms ∧ forms ≠ [] ∧ ∀ count ∈ declared, forms.length = count
  singular : ∀ text wording, text ≠ "" → raw.find? (.singular text) = some wording →
    ∃ value, wording = .single value

def Judges (declared : Option Nat) (pairs : Bool)
    (fault? : MessageKey × Wording → Option CatalogError) : Prop :=
  ∀ key wording e, fault? (key, wording) = some e ↔
    key.isPair = pairs ∧ key.singularText = e.id ∧ Misfit declared key wording e.fault

theorem judges_pairFault? (declared : Option Nat) : Judges declared true (pairFault? declared) := by
  rintro key wording ⟨id, fault⟩
  constructor
  · intro given
    rcases key with text | ⟨text, plural⟩
    · cases given
    · rcases wording with value | _ | ⟨form, rest⟩
      · cases given
        exact ⟨rfl, rfl, .single⟩
      · cases given
        exact ⟨rfl, rfl, .empty⟩
      · simp only [pairFault?] at given
        split at given
        · cases given
        · split at given
          · cases given
          · rename_i differs
            cases given
            exact ⟨rfl, rfl, .count rfl (List.cons_ne_nil form rest) differs⟩
  · rintro ⟨pair, rfl, misfit⟩
    cases misfit with
    | single => rfl
    | empty => rfl
    | count asked worded differs =>
      obtain ⟨form, rest, rfl⟩ := List.exists_cons_of_ne_nil worded
      subst asked
      exact if_neg differs
    | forms named => cases pair

theorem judges_singularFault? (declared : Option Nat) : Judges declared false singularFault? := by
  rintro key wording ⟨id, fault⟩
  constructor
  · intro given
    unfold singularFault? at given
    split at given
    · rename_i message text forms same
      split at given
      · cases given
      · rename_i named
        cases same
        cases given
        exact ⟨rfl, rfl, .forms named⟩
    · cases given
  · rintro ⟨single, rfl, misfit⟩
    cases misfit with
    | single => cases single
    | empty => cases single
    | count asked worded differs => cases single
    | forms named => exact if_neg named

section Faults

variable {declared : Option Nat} {pairs : Bool} {fault? : MessageKey × Wording → Option CatalogError}

theorem findSome_fault_iff (judges : Judges declared pairs fault?) (raw : RawCatalog)
    (e : CatalogError) :
    raw.entries.findSome? fault? = some e ↔ FirstOffends declared raw pairs e := by
  rw [Dictionary.findSome_entries_eq_some_iff]
  constructor
  · rintro ⟨key, wording, found, given, passed⟩
    obtain ⟨kind, same, misfit⟩ := (judges key wording e).1 given
    refine ⟨key, kind, same, ⟨wording, found, misfit⟩, ?_⟩
    rintro other fault kind' ⟨wording', found', misfit'⟩ below
    have silent := passed other wording' below found'
    rw [(judges other wording' ⟨other.singularText, fault⟩).2 ⟨kind', rfl, misfit'⟩] at silent
    cases silent
  · rintro ⟨key, kind, same, ⟨wording, found, misfit⟩, first⟩
    refine ⟨key, wording, found, (judges key wording e).2 ⟨kind, same, misfit⟩, ?_⟩
    intro other wording' below found'
    rw [Option.eq_none_iff_forall_ne_some]
    intro e' given
    obtain ⟨kind', _, misfit'⟩ := (judges other wording' e').1 given
    exact first other e'.fault kind' ⟨wording', found', misfit'⟩ below

theorem findSome_fault_eq_none_iff (judges : Judges declared pairs fault?) (raw : RawCatalog) :
    raw.entries.findSome? fault? = none ↔
      ∀ key fault, key.isPair = pairs → ¬Offends declared raw key fault := by
  rw [List.findSome?_eq_none_iff]
  constructor
  · rintro silent key fault kind ⟨wording, found, misfit⟩
    have none := silent _ ((Dictionary.find_eq_some_iff raw _ _).1 found)
    rw [(judges key wording ⟨key.singularText, fault⟩).2 ⟨kind, rfl, misfit⟩] at none
    cases none
  · rintro fit ⟨key, wording⟩ member
    rw [Option.eq_none_iff_forall_ne_some]
    intro e given
    obtain ⟨kind, _, misfit⟩ := (judges key wording e).1 given
    exact fit key e.fault kind ⟨wording, (Dictionary.find_eq_some_iff raw _ _).2 member, misfit⟩

end Faults

end NormalCatalog

namespace Artifact

open Plural (Declaration)

theorem ruleOf_eq_error_iff (declaration : Option Declaration) (e : CompileError) :
    ruleOf declaration = .error e ↔ ∃ expression fault,
      declaration.bind (·.expression) = some expression ∧ Plural.parse expression = .error fault ∧
      e = .plural fault := by
  unfold ruleOf
  split
  · rename_i none
    simp [none]
  · rename_i expression declared
    simp only [mapError_eq_error_iff, map_eq_error_iff, declared, Option.some.injEq]
    constructor
    · rintro ⟨fault, refused, rfl⟩
      exact ⟨expression, fault, rfl, refused, rfl⟩
    · rintro ⟨_, fault, rfl, refused, rfl⟩
      exact ⟨fault, refused, rfl⟩

theorem prepare_eq_error_iff (catalog : Catalog) (e : CompileError) :
    let declaration := Declaration.ofMetadata? catalog.metadata
    prepare catalog = .error e ↔ ruleOf declaration = .error e ∨
      (∃ rule, ruleOf declaration = .ok rule) ∧ ∃ fault,
        NormalCatalog.ofRaw (declaration.bind (·.forms)) catalog.messages = .error fault ∧
        e = .catalog fault := by
  intro declaration
  rw [prepare, bind_eq_error_iff]
  refine or_congr_right ?_
  constructor
  · rintro ⟨rule, compiled, later⟩
    rcases bind_eq_error_iff.1 later with stopped | ⟨normal, _, finished⟩
    · obtain ⟨fault, refused, rfl⟩ := (mapError_eq_error_iff _ _ _).1 stopped
      exact ⟨⟨rule, compiled⟩, fault, refused, rfl⟩
    · cases finished
  · rintro ⟨⟨rule, compiled⟩, fault, refused, rfl⟩
    refine ⟨rule, compiled, bind_eq_error_iff.2 (.inl ?_)⟩
    exact (mapError_eq_error_iff _ _ _).2 ⟨fault, refused, rfl⟩

end Artifact

end Phrasebook
