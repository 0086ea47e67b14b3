import Phrasebook.Proofs.Artifact.Rendering

/-!
The names under which a script can hand its functions out. The script is strict code, so its variable
may have no name that strict code cannot declare, and none that an export has.
-/

namespace Phrasebook.Artifact

def reservedWords : List String :=
  ["break", "case", "catch", "class", "const", "continue", "debugger", "default", "delete", "do",
    "else", "enum", "export", "extends", "false", "finally", "for", "function", "if", "import", "in",
    "instanceof", "new", "null", "return", "super", "switch", "this", "throw", "true", "try",
    "typeof", "var", "void", "while", "with"]

def strictWords : List String :=
  ["implements", "interface", "let", "package", "private", "protected", "public", "static", "yield"]

def moduleWords : List String :=
  ["await"]

/-- Names that strict code may use, but may not declare. -/
def undeclarableNames : List String :=
  ["arguments", "eval"]

inductive IsIdentifier : List Char → Prop
  | name {first rest} :
      (first.isAlpha = true ∨ first = '_' ∨ first = '$') →
      (∀ c ∈ rest, c.isAlphanum = true ∨ c = '_' ∨ c = '$') → IsIdentifier (first :: rest)

structure Declarable (name : String) : Prop where
  identifier : IsIdentifier name.toList
  unreserved : name ∉ reservedWords ++ strictWords ++ moduleWords
  free : name ∉ undeclarableNames

theorem isLetter_eq_isAlpha (c : Char) : Text.isLetter c = c.isAlpha := by
  have classes : c.isAlpha = (c.isUpper || c.isLower) := rfl
  have lower : c.isLower = ('a' ≤ c && c ≤ 'z') := rfl
  have upper : c.isUpper = ('A' ≤ c && c ≤ 'Z') := Bool.decide_and _ _
  rw [classes, lower, upper, Bool.or_comm, Text.isLetter]

theorem startsIdentifier_iff (c : Char) :
    startsIdentifier c = true ↔ c.isAlpha = true ∨ c = '_' ∨ c = '$' := by
  simp only [startsIdentifier, isLetter_eq_isAlpha, Bool.or_eq_true, beq_iff_eq, or_assoc]

theorem continuesIdentifier_iff (c : Char) :
    continuesIdentifier c = true ↔ c.isAlphanum = true ∨ c = '_' ∨ c = '$' := by
  have digit : Text.isDigit c = c.isDigit := rfl
  simp only [continuesIdentifier, Bool.or_eq_true, startsIdentifier_iff, digit, Char.isAlphanum]
  rw [or_right_comm]

/-- The names that are kept are the reserved words and the names of the exports, and no others. -/
theorem mem_reservedNames_iff (name : String) :
    name ∈ reservedNames ↔
      name ∈ reservedWords ++ strictWords ++ moduleWords ∨ name ∈ entryPoints := by
  have left : ∀ word ∈ reservedNames,
      word ∈ reservedWords ++ strictWords ++ moduleWords ++ entryPoints := by
    decide
  have right : ∀ word ∈ reservedWords ++ strictWords ++ moduleWords ++ entryPoints,
      word ∈ reservedNames := by
    decide
  rw [← List.mem_append]
  exact ⟨left name, right name⟩

theorem isNamespace_iff_kept (name : String) :
    isNamespace name = true ↔ IsIdentifier name.toList ∧ name ∉ reservedNames := by
  rw [isNamespace]
  cases name.toList with
  | nil =>
    constructor
    · rintro ⟨⟩
    · rintro ⟨⟨⟩, _⟩
  | cons first rest =>
    simp only [Bool.and_eq_true, startsIdentifier_iff, List.all_eq_true, continuesIdentifier_iff,
      Bool.not_eq_true', List.contains_eq_mem, decide_eq_false_iff_not]
    refine and_congr_left fun _ => ?_
    constructor
    · rintro ⟨start, others⟩
      exact .name start others
    · rintro ⟨start, others⟩
      exact ⟨start, others⟩

/-- Two names are accepted though no strict code can declare them. -/
theorem isNamespace_iff (name : String) :
    isNamespace name = true ↔
      Declarable name ∧ name ∉ entryPoints ∨ name ∈ undeclarableNames := by
  have accepted : ∀ word ∈ undeclarableNames, isNamespace word = true := by decide
  constructor
  · intro fits
    obtain ⟨identifier, kept⟩ := (isNamespace_iff_kept name).1 fits
    rw [mem_reservedNames_iff, not_or] at kept
    by_cases listed : name ∈ undeclarableNames
    · exact .inr listed
    · exact .inl ⟨⟨identifier, kept.1, listed⟩, kept.2⟩
  · rintro (⟨⟨identifier, unreserved, _⟩, other⟩ | listed)
    · rw [isNamespace_iff_kept, mem_reservedNames_iff]
      exact ⟨identifier, not_or.2 ⟨unreserved, other⟩⟩
    · exact accepted name listed

theorem compile_of_prepare {catalog : Catalog} {resolver : Resolver}
    (prepared : prepare catalog = .ok resolver) (options : Options) :
    compile options catalog = render options resolver := by
  rw [compile, prepared]
  rfl

/-- A script is made under the names that strict code can declare and that are not those of the
exports, and under `arguments` and `eval`. Any other name is refused for itself. The compilation of a
catalog that can be prepared accepts and refuses the same names. -/
theorem namespace_judged (options : Options) (resolver : Resolver) :
    let name := options.namespaceName
    let accepted := Declarable name ∧ name ∉ entryPoints ∨ name ∈ undeclarableNames
    ((∃ script, render options resolver = .ok script) ↔ accepted) ∧
      (¬accepted → render options resolver = .error (.invalidNamespace name)) ∧
      ∀ catalog, prepare catalog = .ok resolver →
        compile options catalog = render options resolver := by
  intro name accepted
  have refused : ¬accepted → render options resolver = .error (.invalidNamespace name) := by
    intro unfit
    exact if_neg ((isNamespace_iff name).not.2 unfit)
  refine ⟨?_, refused, fun catalog prepared => compile_of_prepare prepared options⟩
  constructor
  · rintro ⟨script, rendered⟩
    by_contra unfit
    rw [refused unfit] at rendered
    cases rendered
  · intro fits
    exact ⟨_, render_eq resolver ((isNamespace_iff name).2 fits)⟩

/-- A word that only strict code reserves, and a name with all kinds of characters. -/
theorem namespace_judged_words :
    compile { namespaceName := "yield" } ⟨"", .empty⟩ = .error (.invalidNamespace "yield") ∧
      ∃ script, compile { namespaceName := "$i18n_2" } ⟨"", .empty⟩ = .ok script := by
  have prepared : prepare ⟨"", .empty⟩ = .ok ⟨.empty, none⟩ := by decide +kernel
  obtain ⟨_, refused, compiled⟩ := namespace_judged { namespaceName := "yield" } ⟨.empty, none⟩
  obtain ⟨accepted, _, compiled'⟩ := namespace_judged { namespaceName := "$i18n_2" } ⟨.empty, none⟩
  constructor
  · rw [compiled _ prepared]
    refine refused ?_
    rintro (⟨declarable, _⟩ | listed)
    · exact declarable.unreserved (by decide)
    · exact absurd listed (by decide)
  · rw [compiled' _ prepared]
    have written : "$i18n_2".toList = ['$', 'i', '1', '8', 'n', '_', '2'] := rfl
    have identifier : IsIdentifier "$i18n_2".toList := written ▸ .name (.inr (.inr rfl)) (by simp)
    exact accepted.2 (.inl ⟨⟨identifier, by decide, by decide⟩, by decide⟩)

theorem undeclarable_accepted :
    ∃ name script, ¬Declarable name ∧
      render { namespaceName := name } ⟨.empty, none⟩ = .ok script :=
  ⟨"eval", _, fun declarable => declarable.free (by decide), render_eq _ (by decide)⟩

end Phrasebook.Artifact
