import Phrasebook.Artifact.Script
import Phrasebook.Proofs.Catalog.Contents

/-!
A prepared catalog answers as if texts were looked up in the messages themselves.
-/

namespace Phrasebook

structure BindsCount (bindings bound : Bindings) (n : UInt64) : Prop where
  count : bound.find? "n" = some ((bindings.find? "n").getD (.ofCount n))
  others : ∀ name, name ≠ "n" → bound.find? name = bindings.find? name

theorem BindsCount.unique {bindings first second : Bindings} {n : UInt64}
    (left : BindsCount bindings first n) (right : BindsCount bindings second n) :
    first = second := by
  refine Dictionary.eq_of_find fun name => ?_
  by_cases count : name = "n"
  · rw [count, left.count, right.count]
  · rw [left.others name count, right.others name count]

theorem bindsCount_withCount (bindings : Bindings) (n : UInt64) :
    BindsCount bindings (Resolver.withCount bindings n) n := by
  unfold Resolver.withCount
  cases bound : bindings.find? "n" with
  | some value =>
    have contained : bindings.contains Resolver.countName = true :=
      Option.isSome_iff_exists.2 ⟨value, bound⟩
    rw [if_pos contained]
    exact ⟨by rw [bound]; rfl, fun _ _ => rfl⟩
  | none =>
    have free : ¬bindings.contains Resolver.countName = true := by
      rw [Dictionary.contains, Resolver.countName, bound]
      exact Bool.false_ne_true
    rw [if_neg free]
    refine ⟨?_, fun name other => Dictionary.find_insert_of_ne bindings _ other⟩
    rw [bound]
    exact Dictionary.find_insert_self bindings _ _

namespace Artifact

theorem prepare_eq_ok_iff (catalog : Catalog) (resolver : Resolver) :
    let declaration := Plural.Declaration.ofMetadata? catalog.metadata
    prepare catalog = .ok resolver ↔ ruleOf declaration = .ok resolver.rule ∧
      NormalCatalog.ofRaw (declaration.bind (·.forms)) catalog.messages =
        .ok resolver.catalog := by
  intro declaration
  simp only [prepare, bind_eq_ok_iff, mapError_eq_ok_iff]
  constructor
  · rintro ⟨rule, compiled, normal, made, ⟨⟩⟩
    exact ⟨compiled, made⟩
  · rintro ⟨compiled, made⟩
    exact ⟨_, compiled, _, made, rfl⟩

end Artifact

end Phrasebook
