import Mathlib.Data.List.Sort
import Mathlib.Order.Bounds.Basic
import Phrasebook.Proofs.Dictionary
import Phrasebook.Proofs.Except
import Phrasebook.Proofs.Text.EditDistance
import Phrasebook.Template.Render

/-!
The names suggested for one that is not bound: the nearest ones, whatever order the bound names come
in.
-/

namespace Phrasebook.Template

/-- The candidate is so many edits away from the name, which is at least one and within the limit
for names of its length. -/
structure Near (name candidate : String) (distance : Nat) : Prop where
  least : IsLeast {count | Text.Edits count name.toList candidate.toList} distance
  other : 1 ≤ distance
  within : distance ≤ if Text.byteLength name.toList ≤ 3 then 1 else 2

def Precedes (name first second : String) : Prop :=
  ∃ distance farther, Near name first distance ∧ Near name second farther ∧
    (distance < farther ∨ distance = farther ∧ first ≤ second)

/-- The nearest names, at most three, in the order in which they precede one another. Names are left
out only behind three. -/
structure Suggests (name : String) (available listed : List String) : Prop where
  few : listed.length ≤ 3
  near : ∀ candidate ∈ listed, candidate ∈ available ∧ ∃ distance, Near name candidate distance
  sorted : listed.Pairwise (Precedes name)
  first : ∃ leftOut far, available.Perm (listed ++ leftOut ++ far) ∧
    (∀ candidate ∈ far, ∀ distance, ¬Near name candidate distance) ∧
    (∀ candidate ∈ listed, ∀ other ∈ leftOut, Precedes name candidate other) ∧
    (leftOut = [] ∨ listed.length = 3)

theorem near_iff {name candidate : String} {distance : Nat} :
    Near name candidate distance ↔
      distance = Text.editDistance name.toList candidate.toList ∧ 0 < distance ∧
        distance ≤ distanceLimit name := by
  have least := Text.isLeast_editDistance name.toList candidate.toList
  constructor
  · rintro ⟨own, other, within⟩
    exact ⟨own.unique least, other, within⟩
  · rintro ⟨rfl, other, within⟩
    exact ⟨least, other, within⟩

theorem mem_nearNames_iff {name : String} {available : List String} {distance : Nat}
    {candidate : String} :
    (distance, candidate) ∈ nearNames name available ↔
      candidate ∈ available ∧ Near name candidate distance := by
  rw [nearNames, List.mem_filterMap, near_iff]
  constructor
  · rintro ⟨other, member, found⟩
    simp only at found
    split at found
    · rename_i near
      cases found
      exact ⟨member, rfl, near⟩
    · cases found
  · rintro ⟨member, rfl, near⟩
    exact ⟨candidate, member, if_pos near⟩

theorem comesBefore_iff {first second : Nat × String} :
    comesBefore first second = true ↔
      first.1 < second.1 ∨ first.1 = second.1 ∧ first.2 ≤ second.2 := by
  simp only [comesBefore, Bool.or_eq_true, Bool.and_eq_true, decide_eq_true_eq, beq_iff_eq,
    Bool.not_eq_true', decide_eq_false_iff_not, String.not_lt]

theorem comesBefore_trans (first second third : Nat × String)
    (before : comesBefore first second = true) (behind : comesBefore second third = true) :
    comesBefore first third = true := by
  rw [comesBefore_iff] at before behind ⊢
  rcases before with nearer | ⟨same, le⟩
  · exact .inl (by omega)
  · rcases behind with nearer | ⟨same', le'⟩
    · exact .inl (by omega)
    · exact .inr ⟨same.trans same', String.le_trans le le'⟩

theorem comesBefore_total (first second : Nat × String) :
    (comesBefore first second || comesBefore second first) = true := by
  rw [Bool.or_eq_true, comesBefore_iff, comesBefore_iff]
  have texts := String.le_total first.2 second.2
  rcases Nat.lt_trichotomy first.1 second.1 with nearer | same | farther
  · exact .inl (.inl nearer)
  · exact texts.imp (fun le => .inr ⟨same, le⟩) fun le => .inr ⟨same.symm, le⟩
  · exact .inr (.inl farther)

theorem comesBefore_antisymm {first second : Nat × String}
    (before : comesBefore first second = true) (behind : comesBefore second first = true) :
    first = second := by
  rw [comesBefore_iff] at before behind
  rcases before with nearer | ⟨same, le⟩
  · omega
  · rcases behind with farther | ⟨_, ge⟩
    · omega
    · exact Prod.ext same (String.le_antisymm le ge)

def ranked (name : String) (available : List String) : List (Nat × String) :=
  (nearNames name available).mergeSort comesBefore

theorem sorted_ranked (name : String) (available : List String) :
    (ranked name available).Pairwise fun first second => comesBefore first second = true :=
  List.pairwise_mergeSort comesBefore_trans comesBefore_total _

/-- There is one way only to put the near names in order. -/
theorem ranked_eq_of_sorted {name : String} {available : List String} {listed : List (Nat × String)}
    (perm : listed.Perm (nearNames name available))
    (sorted : listed.Pairwise fun first second => comesBefore first second = true) :
    ranked name available = listed :=
  ((List.mergeSort_perm _ comesBefore).trans perm.symm).eq_of_pairwise
    (fun _ _ _ _ => comesBefore_antisymm) (sorted_ranked name available) sorted

theorem ranked_perm {name : String} {available other : List String}
    (perm : other.Perm available) : ranked name other = ranked name available := by
  have nears : (nearNames name available).Perm (nearNames name other) := perm.symm.filterMap _
  exact ranked_eq_of_sorted ((List.mergeSort_perm _ comesBefore).trans nears)
    (sorted_ranked name available)

theorem suggestions_eq_ranked (name : String) (available : List String) :
    suggestions name available = ((ranked name available).take maxSuggestions).map Prod.snd :=
  rfl

theorem suggestions_perm {name : String} {available other : List String}
    (perm : other.Perm available) : suggestions name other = suggestions name available := by
  rw [suggestions_eq_ranked, suggestions_eq_ranked, ranked_perm perm]

theorem mem_ranked_iff {name : String} {available : List String} {distance : Nat}
    {candidate : String} :
    (distance, candidate) ∈ ranked name available ↔
      candidate ∈ available ∧ Near name candidate distance := by
  rw [ranked, List.mem_mergeSort, mem_nearNames_iff]

def isNear (name candidate : String) : Bool :=
  0 < Text.editDistance name.toList candidate.toList ∧
    Text.editDistance name.toList candidate.toList ≤ distanceLimit name

theorem isNear_eq_true_iff {name candidate : String} :
    isNear name candidate = true ↔ ∃ distance, Near name candidate distance := by
  rw [isNear, decide_eq_true_eq]
  constructor
  · intro bounds
    exact ⟨_, near_iff.2 ⟨rfl, bounds⟩⟩
  · rintro ⟨distance, near⟩
    obtain ⟨rfl, bounds⟩ := near_iff.1 near
    exact bounds

theorem map_nearNames (name : String) (available : List String) :
    (nearNames name available).map Prod.snd = available.filter (isNear name) := by
  rw [nearNames, List.map_filterMap, ← List.filterMap_eq_filter]
  congr
  funext candidate
  by_cases near : 0 < Text.editDistance name.toList candidate.toList ∧
      Text.editDistance name.toList candidate.toList ≤ distanceLimit name
  · simp [Option.guard, isNear, near]
  · simp [Option.guard, isNear, near]

theorem perm_ranked (name : String) (available : List String) :
    ∃ far, available.Perm ((ranked name available).map Prod.snd ++ far) ∧
      ∀ candidate ∈ far, ∀ distance, ¬Near name candidate distance := by
  have ranks := (List.mergeSort_perm (nearNames name available) comesBefore).map Prod.snd
  rw [map_nearNames] at ranks
  refine ⟨available.filter fun candidate => !isNear name candidate, ?_, ?_⟩
  · exact (List.filter_append_perm (isNear name) available).symm.trans (ranks.symm.append_right _)
  · intro candidate member distance near
    have own := isNear_eq_true_iff.2 ⟨distance, near⟩
    simp [own] at member

theorem suggests_suggestions (name : String) (available : List String) :
    Suggests name available (suggestions name available) := by
  have ordered : ((ranked name available).map Prod.snd).Pairwise (Precedes name) := by
    rw [List.pairwise_map]
    refine (sorted_ranked name available).imp_of_mem ?_
    rintro ⟨distance, first⟩ ⟨farther, second⟩ member member' before
    exact ⟨distance, farther, (mem_ranked_iff.1 member).2, (mem_ranked_iff.1 member').2,
      comesBefore_iff.1 before⟩
  obtain ⟨far, perm, notNear⟩ := perm_ranked name available
  have listed : suggestions name available =
      ((ranked name available).map Prod.snd).take 3 := List.map_take
  have whole := List.take_append_drop 3 ((ranked name available).map Prod.snd)
  rw [listed]
  rw [← whole] at ordered perm
  obtain ⟨sorted, _, apart⟩ := List.pairwise_append.1 ordered
  refine ⟨?_, ?_, sorted, _, far, perm, notNear, apart, ?_⟩
  · rw [List.length_take]
    exact Nat.min_le_left 3 _
  · intro candidate member
    obtain ⟨⟨distance, own⟩, ranks, rfl⟩ := List.mem_map.1 (List.mem_of_mem_take member)
    obtain ⟨available, near⟩ := mem_ranked_iff.1 ranks
    exact ⟨available, distance, near⟩
  · rw [List.drop_eq_nil_iff, List.length_take]
    omega

def renderListed (listing : List (String × Value)) : Segment → Except FormatError (List Char)
  | .literal text => .ok text.toList
  | .directive hole =>
    match listing.lookup hole.name with
    | some value => .ok (hole.render value)
    | none =>
      .error (.missingVariable hole.name (suggestions hole.name (listing.map Prod.fst)))

def formatListed (text : String) (listing : List (String × Value)) :
    Except FormatError String := do
  let parts ← (← parse text).mapM (renderListed listing)
  return String.ofList parts.flatten

theorem renderListed_eq {listing : List (String × Value)} {bindings : Bindings}
    (perm : listing.Perm bindings.entries) (segment : Segment) :
    renderListed listing segment = segment.render bindings := by
  cases segment with
  | literal text => rfl
  | directive hole =>
    have keys : (listing.map Prod.fst).Perm bindings.keys := perm.map Prod.fst
    have looked := Dictionary.lookup_eq_find perm hole.name
    cases found : bindings.find? hole.name with
    | none => simp only [renderListed, Segment.render, looked, found, suggestions_perm keys]
    | some value => simp only [renderListed, Segment.render, looked, found]

theorem formatListed_eq {listing : List (String × Value)} {bindings : Bindings}
    (perm : listing.Perm bindings.entries) (text : String) :
    formatListed text listing = format text bindings := by
  have same : renderListed listing = Segment.render bindings := funext (renderListed_eq perm)
  rw [formatListed, same]
  rfl

/-- The names that are suggested are the nearest ones in their order, and the order in which the
available ones come makes no difference. So it makes none to filling a template in, not even to the
error for a name that is not bound, in which order the bindings are listed. -/
theorem suggestions_in_any_order :
    (∀ (name : String) (available : List String),
      Suggests name available (suggestions name available) ∧
      ∀ other : List String, other.Perm available →
        suggestions name other = suggestions name available) ∧
    ∀ (text : String) (bindings : Bindings) (listing : List (String × Value)),
      listing.Perm bindings.entries → formatListed text listing = format text bindings :=
  ⟨fun name available => ⟨suggests_suggestions name available, fun _ => suggestions_perm⟩,
    fun text _ _ perm => formatListed_eq perm text⟩

/-- Four names are one edit away, of which the last one is left out; bindings are listed against
their order. -/
theorem suggestions_in_any_order_noun :
    let available := ["noun", "count", "xcounx", "coun", "coin", "cou"]
    let bindings : Bindings := .ofList [("coin", .integer 1), ("noun", .integer 2)]
    suggestions "coun" available.reverse = ["coin", "cou", "count"] ∧
      formatListed "%(coun)d" [("noun", .integer 2), ("coin", .integer 1)] =
        .error (.missingVariable "coun" ["coin", "noun"]) ∧
      format "%(coun)d" bindings = .error (.missingVariable "coun" ["coin", "noun"]) := by
  intro available bindings
  have ranks : ranked "coun" available =
      [(1, "coin"), (1, "cou"), (1, "count"), (1, "noun"), (2, "xcounx")] :=
    ranked_eq_of_sorted (by decide +kernel) (by decide +kernel)
  have ordered : suggestions "coun" available = ["coin", "cou", "count"] := by
    rw [suggestions_eq_ranked, ranks]
    rfl
  have keyRanks : ranked "coun" ["coin", "noun"] = [(1, "coin"), (1, "noun")] :=
    ranked_eq_of_sorted (by decide +kernel) (by decide +kernel)
  have unbound : format "%(coun)d" bindings = .error (.missingVariable "coun" ["coin", "noun"]) :=
    calc format "%(coun)d" bindings
        = .error (.missingVariable "coun" (suggestions "coun" ["coin", "noun"])) := rfl
      _ = .error (.missingVariable "coun" ["coin", "noun"]) := by
        rw [suggestions_eq_ranked, keyRanks]
        rfl
  have reversed : available.reverse.Perm available := List.reverse_perm available
  have listed : [("noun", Value.integer 2), ("coin", Value.integer 1)].Perm bindings.entries :=
    .swap _ _ []
  obtain ⟨suggested, filled⟩ := suggestions_in_any_order
  refine ⟨?_, ?_, unbound⟩
  · rw [(suggested "coun" available).2 _ reversed, ordered]
  · rw [filled "%(coun)d" bindings _ listed, unbound]

end Phrasebook.Template
