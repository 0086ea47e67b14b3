import Mathlib.Data.List.Sort
import Phrasebook.Dictionary

/-!
What look-ups in a dictionary find, after any row of insertions, and what its order tells.
-/

namespace Phrasebook.Dictionary

universe u v w

variable {κ : Type u} {α : Type v} [Ord κ]

theorem find_insert_self [Std.TransOrd κ] (table : Dictionary κ α) (key : κ) (value : α) :
    (table.insert key value).find? key = some value := by
  have found : (insertEntry key value table.entries).find? (compare key ·.1 == .eq) =
      some (key, value) := by
    induction table.entries with
    | nil => simp [insertEntry]
    | cons entry rest ih =>
      simp only [insertEntry]
      split <;> rename_i order
      · simp
      · simp
      · simp [order, ih]
  simp [find?, insert, found]

theorem find_insert_of_ne [Std.TransOrd κ] [Std.LawfulEqOrd κ] (table : Dictionary κ α)
    {key other : κ} (value : α) (different : other ≠ key) :
    (table.insert key value).find? other = table.find? other := by
  have distinct : compare other key ≠ .eq := fun same =>
    different (Std.LawfulEqOrd.eq_of_compare same)
  have found : (insertEntry key value table.entries).find? (compare other ·.1 == .eq) =
      table.entries.find? (compare other ·.1 == .eq) := by
    induction table.entries with
    | nil => simp [insertEntry, distinct]
    | cons entry rest ih =>
      simp only [insertEntry]
      split <;> rename_i order
      · simp [distinct]
      · have equal : key = entry.1 := Std.LawfulEqOrd.eq_of_compare order
        have distinct' : compare other entry.1 ≠ .eq := equal ▸ distinct
        simp [distinct, distinct']
      · simp only [List.find?_cons, ih]
  simp only [find?, insert, found]

theorem contains_insert [Std.TransOrd κ] [Std.LawfulEqOrd κ] (table : Dictionary κ α)
    (key other : κ) (value : α) :
    (table.insert key value).contains other = true ↔ other = key ∨ table.contains other = true := by
  by_cases same : other = key
  · subst same
    simp [contains, find_insert_self]
  · simp [contains, find_insert_of_ne table value same, same]

theorem keys_insert [Std.TransOrd κ] (table : Dictionary κ α) (key : κ) (first second : α) :
    (table.insert key first).keys = (table.insert key second).keys := by
  show (insertEntry key first table.entries).map Prod.fst =
    (insertEntry key second table.entries).map Prod.fst
  induction table.entries with
  | nil => rfl
  | cons entry rest ih =>
    simp only [insertEntry]
    split <;> simp [ih]

/-- In a dictionary a key has one value at most, so that finding it means to hold the entry. -/
theorem find_eq_some_iff [Std.TransOrd κ] [Std.LawfulEqOrd κ] (table : Dictionary κ α)
    (key : κ) (value : α) :
    table.find? key = some value ↔ (key, value) ∈ table.entries := by
  obtain ⟨entries, sorted⟩ := table
  simp only [find?]
  induction entries with
  | nil => simp
  | cons entry rest ih =>
    obtain ⟨above, sortedRest⟩ := List.pairwise_cons.1 sorted
    by_cases same : key = entry.1
    · subst same
      have once : (entry.1, value) ∉ rest := fun member => by
        have order := above _ member
        have self : compare entry.1 entry.1 = .eq := Std.ReflCmp.compare_self
        cases self.symm.trans order
      simp [once, Prod.ext_iff, eq_comm]
    · have distinct : compare key entry.1 ≠ .eq := fun equal =>
        same (Std.LawfulEqOrd.eq_of_compare equal)
      have other : (key, value) ≠ entry := fun equal => same (congrArg Prod.fst equal)
      rw [List.find?_cons_of_neg (by simpa using distinct), ih sortedRest, List.mem_cons,
        or_iff_right other]

/-- A dictionary is what its look-ups find. -/
theorem eq_of_find [Std.TransOrd κ] [Std.LawfulEqOrd κ] {first second : Dictionary κ α}
    (same : ∀ key, first.find? key = second.find? key) : first = second := by
  have members : ∀ entry, entry ∈ first.entries ↔ entry ∈ second.entries := by
    rintro ⟨key, value⟩
    rw [← find_eq_some_iff, ← find_eq_some_iff, same]
  have irreflexive : Std.Irrefl fun first second : κ × α => compare first.1 second.1 = .lt := by
    refine ⟨fun entry below => ?_⟩
    have self : compare entry.1 entry.1 = .eq := Std.ReflCmp.compare_self
    cases self.symm.trans below
  have asymmetric : Std.Asymm fun first second : κ × α => compare first.1 second.1 = .lt := by
    refine ⟨fun entry other below above => ?_⟩
    have order := Std.OrientedCmp.gt_of_lt above
    cases order.symm.trans below
  exact ext (List.Pairwise.eq_of_mem_iff first.sorted second.sorted members)

theorem mem_keys_iff [Std.TransOrd κ] [Std.LawfulEqOrd κ] (table : Dictionary κ α) (key : κ) :
    key ∈ table.keys ↔ table.contains key = true := by
  simp only [keys, contains, Option.isSome_iff_exists, find_eq_some_iff, List.mem_map]
  constructor
  · rintro ⟨⟨_, value⟩, member, rfl⟩
    exact ⟨value, member⟩
  · rintro ⟨value, member⟩
    exact ⟨(key, value), member, rfl⟩

theorem find_eq_none_iff [Std.TransOrd κ] [Std.LawfulEqOrd κ] (table : Dictionary κ α) (key : κ) :
    table.find? key = none ↔ key ∉ table.keys := by
  rw [mem_keys_iff, contains, Option.not_isSome_iff_eq_none]

theorem nodup_keys [Std.TransOrd κ] (table : Dictionary κ α) : table.keys.Nodup := by
  refine List.pairwise_map.2 (table.sorted.imp fun {first second} below same => ?_)
  have self : compare first.1 first.1 = .eq := Std.ReflCmp.compare_self
  rw [← same, self] at below
  cases below

theorem perm_insert [Std.TransOrd κ] [Std.LawfulEqOrd κ] {table : Dictionary κ α} {key : κ}
    (fresh : table.contains key = false) (value : α) :
    (table.insert key value).entries.Perm ((key, value) :: table.entries) := by
  have absent : key ∉ table.entries.map Prod.fst := by
    show key ∉ table.keys
    rw [mem_keys_iff, fresh]
    exact Bool.false_ne_true
  show (insertEntry key value table.entries).Perm _
  generalize table.entries = entries at absent ⊢
  induction entries with
  | nil => exact .refl _
  | cons entry rest ih =>
    rw [List.map_cons, List.mem_cons, not_or] at absent
    rw [insertEntry]
    split
    · exact .refl _
    · rename_i same
      exact absurd (Std.LawfulEqOrd.eq_of_compare same) absent.1
    · exact ((ih absent.2).cons entry).trans (.swap (key, value) entry rest)

theorem find_erase_self [Std.TransOrd κ] (table : Dictionary κ α) (key : κ) :
    (table.erase key).find? key = none := by
  simp [find?, erase]

theorem find_erase_of_ne [Std.TransOrd κ] [Std.LawfulEqOrd κ] (table : Dictionary κ α)
    {key other : κ} (different : other ≠ key) : (table.erase key).find? other = table.find? other := by
  have distinct : compare key other ≠ .eq := fun same =>
    different (Std.LawfulEqOrd.eq_of_compare same).symm
  ext value
  rw [find_eq_some_iff, find_eq_some_iff, erase, List.mem_filter]
  simp [distinct]

theorem contains_erase [Std.TransOrd κ] [Std.LawfulEqOrd κ] (table : Dictionary κ α)
    (gone key : κ) :
    (table.erase gone).contains key = true ↔ key ≠ gone ∧ table.contains key = true := by
  by_cases same : key = gone
  · subst same
    simp [contains, find_erase_self]
  · simp [contains, find_erase_of_ne table same, same]

theorem erase_insert_self [Std.TransOrd κ] [Std.LawfulEqOrd κ] {table : Dictionary κ α} {key : κ}
    (fresh : table.contains key = false) (value : α) : (table.insert key value).erase key = table := by
  apply eq_of_find
  intro other
  by_cases same : other = key
  · subst same
    have none : table.find? other = none := by simpa [contains] using fresh
    rw [find_erase_self, none]
  · rw [find_erase_of_ne _ same, find_insert_of_ne _ _ same]

theorem erase_insert_of_ne [Std.TransOrd κ] [Std.LawfulEqOrd κ] (table : Dictionary κ α)
    {gone key : κ} (different : key ≠ gone) (value : α) :
    (table.insert key value).erase gone = (table.erase gone).insert key value := by
  apply eq_of_find
  intro other
  by_cases same : other = key
  · subst same
    rw [find_erase_of_ne _ different, find_insert_self, find_insert_self]
  · rw [find_insert_of_ne _ _ same]
    by_cases erased : other = gone
    · subst erased
      rw [find_erase_self, find_erase_self]
    · rw [find_erase_of_ne _ erased, find_erase_of_ne _ erased, find_insert_of_ne _ _ same]

structure Joins (first second joined : Dictionary κ α) : Prop where
  apart : ∀ key, first.contains key = true → second.contains key = false
  found : ∀ key, joined.find? key = (first.find? key).or (second.find? key)

theorem joins_empty (first : Dictionary κ α) : Joins first empty first :=
  ⟨fun _ _ => rfl, fun key => (Option.or_none (o := first.find? key)).symm⟩

theorem Joins.contains_eq {first second joined : Dictionary κ α} (joins : Joins first second joined)
    (key : κ) : joined.contains key = (first.contains key || second.contains key) := by
  rw [contains, joins.found, Option.isSome_or]
  rfl

theorem Joins.insert [Std.TransOrd κ] [Std.LawfulEqOrd κ] {first second joined : Dictionary κ α}
    (joins : Joins first second joined) {key : κ} (free : first.contains key = false) (value : α) :
    Joins first (second.insert key value) (joined.insert key value) := by
  constructor
  · intro other held
    have different : other ≠ key := by
      rintro rfl
      cases free.symm.trans held
    rw [Bool.eq_false_iff, ne_eq, contains_insert, joins.apart other held]
    simp [different]
  · intro other
    by_cases same : other = key
    · subst same
      have none : first.find? other = none := by simpa [contains] using free
      rw [find_insert_self, find_insert_self, none, Option.none_or]
    · rw [find_insert_of_ne _ _ same, find_insert_of_ne _ _ same, joins.found]

theorem insertEntry_of_greatest {key : κ} {entries : List (κ × α)}
    (greatest : ∀ entry ∈ entries, compare key entry.1 = .gt) (value : α) :
    insertEntry key value entries = entries ++ [(key, value)] := by
  induction entries with
  | nil => rfl
  | cons entry rest ih =>
    rw [List.forall_mem_cons] at greatest
    simp only [insertEntry, greatest.1, ih greatest.2, List.cons_append]

theorem entries_insertAll [Std.TransOrd κ] {table : Dictionary κ α} {pairs : List (κ × α)}
    (sorted : InKeyOrder (table.entries ++ pairs)) :
    (table.insertAll pairs).entries = table.entries ++ pairs := by
  induction pairs generalizing table with
  | nil => exact (List.append_nil table.entries).symm
  | cons pair rest ih =>
    have greatest : ∀ entry ∈ table.entries, compare pair.1 entry.1 = .gt := by
      intro entry member
      apply Std.OrientedCmp.gt_of_lt
      exact (List.pairwise_append.1 sorted).2.2 entry member pair List.mem_cons_self
    have next : (table.insert pair.1 pair.2).entries = table.entries ++ [pair] :=
      insertEntry_of_greatest greatest pair.2
    show ((table.insert pair.1 pair.2).insertAll rest).entries = _
    rw [List.append_cons, ← next] at sorted ⊢
    exact ih sorted

theorem ofList_entries [Std.TransOrd κ] (table : Dictionary κ α) : ofList table.entries = table := by
  have sorted : InKeyOrder ((empty : Dictionary κ α).entries ++ table.entries) := table.sorted
  exact ext (entries_insertAll sorted)

/-- The first entry that a search takes is the taken one with the least key. -/
theorem findSome_entries_eq_some_iff [Std.TransOrd κ] [Std.LawfulEqOrd κ] {β : Type w}
    (table : Dictionary κ α) (select : κ × α → Option β) (result : β) :
    table.entries.findSome? select = some result ↔
      ∃ key value, table.find? key = some value ∧ select (key, value) = some result ∧
        ∀ other found, compare other key = .lt → table.find? other = some found →
          select (other, found) = none := by
  simp only [find_eq_some_iff, List.findSome?_eq_some_iff]
  constructor
  · rintro ⟨before, ⟨key, value⟩, behind, whole, taken, passed⟩
    have sorted : InKeyOrder (before ++ (key, value) :: behind) := whole ▸ table.sorted
    have above := (List.pairwise_cons.1 (List.pairwise_append.1 sorted).2.1).1
    refine ⟨key, value, by simp [whole], taken, fun other found below member => ?_⟩
    rw [whole, List.mem_append, List.mem_cons] at member
    rcases member with earlier | same | later
    · exact passed _ earlier
    · cases same
      have self : compare key key = .eq := Std.ReflCmp.compare_self
      cases self.symm.trans below
    · have greater := Std.OrientedCmp.gt_of_lt (above _ later)
      cases greater.symm.trans below
  · rintro ⟨key, value, member, taken, least⟩
    obtain ⟨before, behind, whole⟩ := List.append_of_mem member
    have sorted : InKeyOrder (before ++ (key, value) :: behind) := whole ▸ table.sorted
    refine ⟨before, (key, value), behind, whole, taken, fun entry earlier => ?_⟩
    apply least _ _ ((List.pairwise_append.1 sorted).2.2 entry earlier _ List.mem_cons_self)
    rw [whole]
    exact List.mem_append_left _ earlier

/-- Where the keys are the numbers below a bound, they come in their order. -/
theorem keys_eq_range {table : Dictionary Nat α} {count : Nat}
    (filled : ∀ index, table.contains index = true ↔ index < count) :
    table.keys = List.range count := by
  have increasing : table.keys.Pairwise (· < ·) := by
    apply List.pairwise_map.2
    exact table.sorted.imp Nat.compare_eq_lt.1
  have members : ∀ index, index ∈ table.keys ↔ index ∈ List.range count := by
    intro index
    rw [mem_keys_iff, filled, List.mem_range]
  exact List.Pairwise.eq_of_mem_iff increasing List.pairwise_lt_range members

theorem values_getElem_of_range {table : Dictionary Nat α} {count : Nat}
    (indices : table.keys = List.range count) (index : Nat) :
    table.values[index]? = table.find? index := by
  have numbered : ∀ (place key : Nat) (value : α), table.entries[place]? = some (key, value) →
      key = place := by
    intro place key value found
    have key : table.keys[place]? = some key := by
      rw [keys, List.getElem?_map, found]
      rfl
    rw [indices] at key
    obtain ⟨_, same⟩ := List.getElem?_eq_some_iff.1 key
    rw [← same, List.getElem_range]
  ext value
  rw [find_eq_some_iff, values, List.getElem?_map, Option.map_eq_some_iff]
  constructor
  · rintro ⟨⟨key, own⟩, found, rfl⟩
    have same : key = index := numbered index _ _ found
    subst same
    exact List.mem_of_getElem? found
  · intro member
    obtain ⟨place, found⟩ := List.mem_iff_getElem?.1 member
    have same : index = place := numbered place _ _ found
    subst same
    exact ⟨_, found, rfl⟩

theorem find_insertAll_of_nodup [Std.TransOrd κ] [Std.LawfulEqOrd κ] (table : Dictionary κ α)
    {pairs : List (κ × α)} (distinct : (pairs.map Prod.fst).Nodup) (key : κ) (value : α) :
    (table.insertAll pairs).find? key = some value ↔
      (key, value) ∈ pairs ∨ key ∉ pairs.map Prod.fst ∧ table.find? key = some value := by
  induction pairs generalizing table with
  | nil => simp [insertAll]
  | cons pair rest ih =>
    obtain ⟨fresh, distinctRest⟩ := List.nodup_cons.1 distinct
    show ((table.insert pair.1 pair.2).insertAll rest).find? key = some value ↔ _
    rw [ih _ distinctRest, List.mem_cons, List.map_cons, List.mem_cons]
    by_cases same : key = pair.1
    · subst same
      have absent : (pair.1, value) ∉ rest := fun member =>
        fresh (List.mem_map.2 ⟨_, member, rfl⟩)
      rw [find_insert_self]
      simp [fresh, absent, Prod.ext_iff, eq_comm]
    · have other : (key, value) ≠ pair := fun equal => same (congrArg Prod.fst equal)
      rw [find_insert_of_ne table pair.2 same]
      simp [other, same]

theorem find_ofList_of_nodup [Std.TransOrd κ] [Std.LawfulEqOrd κ] {pairs : List (κ × α)}
    (distinct : (pairs.map Prod.fst).Nodup) (key : κ) (value : α) :
    (ofList pairs).find? key = some value ↔ (key, value) ∈ pairs := by
  rw [ofList, find_insertAll_of_nodup empty distinct]
  apply or_iff_left
  rintro ⟨_, ⟨⟩⟩

/-- The entries may be listed in any order for their look-ups. -/
theorem lookup_eq_find [BEq κ] [LawfulBEq κ] [Std.TransOrd κ] [Std.LawfulEqOrd κ]
    {table : Dictionary κ α} {listing : List (κ × α)} (perm : listing.Perm table.entries) (key : κ) :
    listing.lookup key = table.find? key := by
  have distinct : (listing.map Prod.fst).Nodup := (perm.map Prod.fst).nodup_iff.2 table.nodup_keys
  ext value
  rw [find_eq_some_iff, ← perm.mem_iff, List.lookup_eq_some_iff]
  constructor
  · rintro ⟨before, behind, rfl, _⟩
    exact List.mem_append_right before List.mem_cons_self
  · intro member
    obtain ⟨before, behind, rfl⟩ := List.append_of_mem member
    refine ⟨before, behind, rfl, fun entry earlier => ?_⟩
    rw [List.map_append, List.nodup_append] at distinct
    have apart := distinct.2.2 entry.1 (List.mem_map_of_mem earlier) key (by simp)
    simpa using Ne.symm apart

theorem insertAll_congr [Std.TransOrd κ] [Std.LawfulEqOrd κ] {first second : Dictionary κ α}
    {pairs : List (κ × α)}
    (same : ∀ key, key ∉ pairs.map Prod.fst → first.find? key = second.find? key) :
    first.insertAll pairs = second.insertAll pairs := by
  induction pairs generalizing first second with
  | nil =>
    apply eq_of_find
    intro key
    exact same key List.not_mem_nil
  | cons pair rest ih =>
    apply ih
    intro key absent
    by_cases own : key = pair.1
    · rw [own, find_insert_self, find_insert_self]
    · rw [find_insert_of_ne _ _ own, find_insert_of_ne _ _ own]
      exact same key (List.not_mem_cons_of_ne_of_not_mem own absent)

/-- Pairs with distinct keys make the same dictionary exactly if they are the same pairs, in whatever
order. -/
theorem ofList_eq_iff_perm [Std.TransOrd κ] [Std.LawfulEqOrd κ] {first second : List (κ × α)}
    (distinct : (first.map Prod.fst).Nodup) (distinct' : (second.map Prod.fst).Nodup) :
    ofList first = ofList second ↔ first.Perm second := by
  rw [List.perm_ext_iff_of_nodup (.of_map _ distinct) (.of_map _ distinct')]
  constructor
  · rintro same ⟨key, value⟩
    rw [← find_ofList_of_nodup distinct, same, find_ofList_of_nodup distinct']
  · intro same
    apply eq_of_find
    intro key
    ext value
    rw [find_ofList_of_nodup distinct, find_ofList_of_nodup distinct', same]

end Phrasebook.Dictionary
