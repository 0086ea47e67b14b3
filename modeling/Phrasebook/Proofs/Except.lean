import Mathlib.Data.List.Forall2

/-!
Steps that may be refused.
-/

namespace Phrasebook

variable {ε ε' α β : Type}

theorem bind_eq_ok_iff {first : Except ε α} {next : α → Except ε β} {result : β} :
    first >>= next = .ok result ↔ ∃ middle, first = .ok middle ∧ next middle = .ok result := by
  cases first with
  | error refusal =>
    constructor
    · intro same
      cases same
    · rintro ⟨middle, same, _⟩
      cases same
  | ok middle =>
    constructor
    · intro same
      exact ⟨middle, rfl, same⟩
    · rintro ⟨other, same, rest⟩
      cases same
      exact rest

theorem bind_eq_error_iff {first : Except ε α} {next : α → Except ε β} {refusal : ε} :
    first >>= next = .error refusal ↔
      first = .error refusal ∨ ∃ middle, first = .ok middle ∧ next middle = .error refusal := by
  cases first with
  | error other =>
    show Except.error other = .error refusal ↔ _
    simp
  | ok middle =>
    show next middle = .error refusal ↔ _
    simp

theorem mapError_eq_ok_iff (change : ε → ε') (result : Except ε α) (value : α) :
    result.mapError change = .ok value ↔ result = .ok value := by
  cases result with
  | error fault =>
    constructor
    · intro same
      cases same
    · intro same
      cases same
  | ok read =>
    show Except.ok read = .ok value ↔ _
    rw [Except.ok.injEq, Except.ok.injEq]

theorem mapError_eq_error_iff (change : ε → ε') (result : Except ε α) (refusal : ε') :
    result.mapError change = .error refusal ↔
      ∃ fault, result = .error fault ∧ change fault = refusal := by
  cases result with
  | error fault =>
    show Except.error (change fault) = .error refusal ↔ _
    simp
  | ok read =>
    show Except.ok read = .error refusal ↔ _
    simp

theorem map_eq_error_iff (change : α → β) (result : Except ε α) (refusal : ε) :
    result.map change = .error refusal ↔ result = .error refusal := by
  cases result with
  | error fault =>
    show Except.error fault = .error refusal ↔ _
    rw [Except.error.injEq, Except.error.injEq]
  | ok read =>
    constructor
    · intro same
      cases same
    · intro same
      cases same

theorem map_eq_ok_iff (change : α → β) (result : Except ε α) (value : β) :
    result.map change = .ok value ↔ ∃ own, result = .ok own ∧ change own = value := by
  cases result with
  | error fault => simp [Except.map]
  | ok own => simp [Except.map]

theorem exists_map_eq_ok_iff (change : α → β) (result : Except ε α) :
    (∃ value, result.map change = .ok value) ↔ ∃ value, result = .ok value := by
  cases result with
  | error fault => simp [Except.map]
  | ok value => simp [Except.map]

/-- Where it does not hang on the state whether an item is refused, a row of items is refused for
the first of them that is. -/
theorem foldlM_eq_error_iff {step : β → α → Except ε β} {refusal? : α → Option ε}
    (refuses : ∀ state item refusal,
      step state item = .error refusal ↔ refusal? item = some refusal)
    (items : List α) (state : β) (refusal : ε) :
    items.foldlM step state = .error refusal ↔ items.findSome? refusal? = some refusal := by
  induction items generalizing state with
  | nil =>
    show Except.ok state = .error refusal ↔ _
    simp
  | cons item rest ih =>
    rw [List.foldlM_cons, List.findSome?_cons, bind_eq_error_iff, refuses]
    cases own : refusal? item with
    | some other =>
      have refused := (refuses state item other).2 own
      simp [refused]
    | none =>
      cases taken : step state item with
      | error other =>
        rw [(refuses state item other).1 taken] at own
        cases own
      | ok next => simp [ih next]

theorem mapM_eq_ok_iff {step : α → Except ε β} {items : List α} {results : List β} :
    items.mapM step = .ok results ↔
      List.Forall₂ (fun item result => step item = .ok result) items results := by
  induction items generalizing results with
  | nil =>
    rw [List.forall₂_nil_left_iff]
    show Except.ok [] = .ok results ↔ _
    rw [Except.ok.injEq, eq_comm]
  | cons item rest ih =>
    rw [List.mapM_cons, List.forall₂_cons_left_iff]
    simp only [bind_eq_ok_iff, ih]
    constructor
    · rintro ⟨first, taken, later, others, ⟨⟩⟩
      exact ⟨first, later, taken, others, rfl⟩
    · rintro ⟨first, later, taken, others, rfl⟩
      exact ⟨first, taken, later, others, rfl⟩

/-- A row of items is refused for the first of them that is. -/
theorem mapM_eq_error_iff {step : α → Except ε β} {items : List α} {refusal : ε} :
    items.mapM step = .error refusal ↔
      ∃ before item behind, items = before ++ item :: behind ∧
        (∀ earlier ∈ before, ∃ result, step earlier = .ok result) ∧
        step item = .error refusal := by
  induction items with
  | nil =>
    constructor
    · rintro ⟨⟩
    · rintro ⟨before, item, behind, whole, _⟩
      simp at whole
  | cons first rest ih =>
    rw [List.mapM_cons, bind_eq_error_iff]
    constructor
    · rintro (refused | ⟨result, taken, later⟩)
      · exact ⟨[], first, rest, rfl, List.forall_mem_nil _, refused⟩
      · rcases bind_eq_error_iff.1 later with stopped | ⟨results, _, finished⟩
        · obtain ⟨before, item, behind, rfl, passed, refused⟩ := ih.1 stopped
          exact ⟨first :: before, item, behind, rfl,
            List.forall_mem_cons.2 ⟨⟨result, taken⟩, passed⟩, refused⟩
        · cases finished
    · rintro ⟨before, item, behind, whole, passed, refused⟩
      cases before with
      | nil =>
        cases whole
        exact .inl refused
      | cons earlier before =>
        cases whole
        obtain ⟨⟨result, taken⟩, others⟩ := List.forall_mem_cons.1 passed
        exact .inr ⟨result, taken, bind_eq_error_iff.2
          (.inl (ih.2 ⟨before, item, behind, rfl, others, refused⟩))⟩

end Phrasebook
