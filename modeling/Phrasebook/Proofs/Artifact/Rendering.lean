import Phrasebook.Proofs.Artifact.Embedding
import Phrasebook.Proofs.Catalog.NormalJson
import Phrasebook.Proofs.Plural.Tree
import Phrasebook.Proofs.Text.Digits

/-!
The catalog and the plural rule stand in the script as values that can be read from it.
-/

namespace Phrasebook.Artifact

theorem exact_ruleJson (rule : Option Plural.Expr) : (ruleJson rule).Exact := by
  cases rule with
  | none => trivial
  | some rule => exact rule.exact_toJson

theorem ruleJson_injective {first second : Option Plural.Expr}
    (same : ruleJson first = ruleJson second) : first = second := by
  have object : ∀ rule : Plural.Expr, rule.toJson ≠ .null := by
    rintro (_ | _ | _ | _ | _) ⟨⟩
  cases first with
  | none =>
    cases second with
    | none => rfl
    | some rule => exact absurd same.symm (object rule)
  | some rule =>
    cases second with
    | none => exact absurd same (object rule)
    | some other => exact congrArg some (Plural.Expr.toJson_injective same)

theorem mem_breakTags {c : Char} {text : List Char} (member : c ∈ breakTags text) :
    c ∈ text ∨ c = '\\' := by
  induction text using breakTags.induct with
  | case1 rest ih =>
    rw [breakTags] at member
    simp only [List.mem_cons] at member ⊢
    rcases member with rfl | rfl | rfl | later
    · exact .inl (.inl rfl)
    · exact .inr rfl
    · exact .inl (.inr (.inl rfl))
    · exact (ih later).imp_left fun inside => .inr (.inr inside)
  | case2 d rest noTag ih =>
    rw [breakTags] at member
    · rcases List.mem_cons.1 member with rfl | later
      · exact .inl List.mem_cons_self
      · exact (ih later).imp_left (List.mem_cons_of_mem d)
    · exact noTag
  | case3 => exact .inl member

theorem breakTags_cons_eq (c : Char) (rest : List Char) :
    ∃ tail, breakTags (c :: rest) = c :: tail := by
  by_cases tag : ∃ tail, c = '<' ∧ rest = '/' :: tail
  · obtain ⟨tail, rfl, rfl⟩ := tag
    exact ⟨_, by rw [breakTags]⟩
  · refine ⟨breakTags rest, ?_⟩
    rw [breakTags]
    intro tail less start
    exact tag ⟨tail, less, start⟩

theorem not_infix_breakTags (text : List Char) : ¬['<', '/'] <:+: breakTags text := by
  induction text using breakTags.induct with
  | case1 rest ih =>
    rw [breakTags]
    intro inside
    simp only [List.infix_cons_iff, List.cons_prefix_cons] at inside
    rcases inside with first | second | third | later
    · exact absurd first.2.1 (by decide)
    · exact absurd second.1 (by decide)
    · exact absurd third.1 (by decide)
    · exact ih later
  | case2 d rest noTag ih =>
    rw [breakTags]
    · intro inside
      rcases List.infix_cons_iff.1 inside with first | later
      · obtain ⟨less, slash⟩ := List.cons_prefix_cons.1 first
        cases rest with
        | nil => exact absurd slash (by decide)
        | cons e rest =>
          obtain ⟨tail, start⟩ := breakTags_cons_eq e rest
          rw [start] at slash
          exact noTag rest less.symm (by rw [(List.cons_prefix_cons.1 slash).1])
      · exact ih later
    · exact noTag
  | case3 =>
    rintro ⟨before, after, whole⟩
    simp [breakTags] at whole

theorem not_mem_escapeSeparators {separator : Char}
    (ends : separator = '\u2028' ∨ separator = '\u2029') (text : List Char) :
    separator ∉ escapeSeparators text := by
  intro member
  obtain ⟨c, _, escaped⟩ := List.mem_flatMap.1 member
  split at escaped
  · rcases ends with rfl | rfl <;> exact absurd escaped (by decide)
  · split at escaped
    · rcases ends with rfl | rfl <;> exact absurd escaped (by decide)
    · rename_i line paragraph
      rw [List.mem_singleton.1 escaped] at ends
      exact ends.elim line paragraph

/-- A text that holds a value: reading it stops at the semicolon behind it, and nothing in it
ends the script or a line of the script. -/
structure Holds (text : List Char) (value : Json) : Prop where
  read : ∀ depth after, value.nesting ≤ depth →
    Json.readValue depth (text ++ ';' :: after) = .ok (value, ';' :: after)
  tag : ¬['<', '/'] <:+: text
  separators : '\u2028' ∉ text ∧ '\u2029' ∉ text

theorem holds_embed (pretty : Bool) {value : Json} (exact : value.Exact) :
    Holds (embed pretty value) value := by
  have separators : ∀ separator, separator = '\u2028' ∨ separator = '\u2029' →
      separator ∉ embed pretty value := by
    intro separator ends member
    rcases mem_breakTags member with kept | rfl
    · exact not_mem_escapeSeparators ends _ kept
    · exact absurd ends (by decide)
  refine ⟨?_, not_infix_breakTags _, separators _ (.inl rfl), separators _ (.inr rfl)⟩
  intro depth after deep
  rw [embed_eq_write pretty exact]
  exact Json.readValue_write (legible_scriptLayout pretty) 0 exact deep
    (Json.endsNumber_mark (by decide) after)

theorem nesting_toJson_le (catalog : NormalCatalog) : catalog.toJson.nesting ≤ 2 :=
  Nat.succ_le_succ (Json.nestingOfFields_le_iff.2
    (List.forall_mem_map.2 fun entry _ => entry.2.nesting_toJson_le))

def opening (options : Options) : String :=
  "\"use strict\";\n\n" ++ options.flavor.declaration ++ " " ++ options.namespaceName ++
    " = (function () \x7b\n"

/-- The resolver has a script, in which two declarations hold the catalog and the plural rule,
so that a reader of JSON behind their equals signs gets the one and the other. The values tell
what they were made of. -/
def RendersLegibly (options : Options) (resolver : Resolver) : Prop :=
  ∃ script catalog rule rest, render options resolver = .ok script ∧
    script.toList = (opening options ++ "    var catalog = ").toList ++ (catalog ++
      (";\n\n    var pluralRule = ".toList ++ (rule ++ (";\n\n".toList ++ rest)))) ∧
    Holds catalog resolver.catalog.toJson ∧ resolver.catalog.toJson.nesting ≤ 2 ∧
    Holds rule (ruleJson resolver.rule) ∧
    (∀ other : NormalCatalog, other.toJson = resolver.catalog.toJson → other = resolver.catalog) ∧
    ∀ other, ruleJson other = ruleJson resolver.rule → other = resolver.rule

theorem render_eq {options : Options} (resolver : Resolver)
    (accepted : isNamespace options.namespaceName = true) :
    render options resolver = .ok (opening options ++ "    var catalog = " ++
      String.ofList (embed options.pretty resolver.catalog.toJson) ++ ";\n\n" ++
      "    var pluralRule = " ++ String.ofList (embed options.pretty (ruleJson resolver.rule)) ++
      ";\n\n" ++ functions ++ ending ++ exports options.namespaceName options.flavor) := by
  unfold render opening
  rw [if_pos accepted]

/-- Under an accepted name every resolver is rendered, and its script can be read. -/
theorem render_legibly (options : Options) (resolver : Resolver)
    (accepted : isNamespace options.namespaceName = true) : RendersLegibly options resolver := by
  refine ⟨_, embed options.pretty resolver.catalog.toJson,
    embed options.pretty (ruleJson resolver.rule),
    functions.toList ++ (ending.toList ++ (exports options.namespaceName options.flavor).toList),
    render_eq resolver accepted, ?_, holds_embed _ resolver.catalog.exact_toJson,
    nesting_toJson_le resolver.catalog, holds_embed _ (exact_ruleJson resolver.rule),
    fun other => NormalCatalog.toJson_injective, fun other => ruleJson_injective⟩
  have middle : ";\n\n    var pluralRule = ".toList =
      ";\n\n".toList ++ "    var pluralRule = ".toList := rfl
  rw [middle]
  simp only [String.toList_append, String.toList_ofList, List.append_assoc]

/-- A text that would end a page's script, and a rule. -/
theorem render_legibly_babel :
    isNamespace "babel" = true ∧
      RendersLegibly { namespaceName := "babel", pretty := false }
        ⟨.ofList [("</script>", .simple "\u2028")], some .count⟩ :=
  ⟨by decide, render_legibly _ _ (by decide)⟩

end Phrasebook.Artifact
