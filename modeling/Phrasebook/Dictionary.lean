/-!
Finite maps as lists of entries in strictly increasing key order, so that two maps with the
same entries are equal whatever order they were filled in.
-/

namespace Phrasebook

universe u v w

variable {κ : Type u} {α : Type v} [Ord κ]

def InKeyOrder (entries : List (κ × α)) : Prop :=
  entries.Pairwise fun first second => compare first.1 second.1 = .lt

namespace Dictionary

def insertEntry (key : κ) (value : α) : List (κ × α) → List (κ × α)
  | [] => [(key, value)]
  | entry :: rest =>
    match compare key entry.1 with
    | .lt => (key, value) :: entry :: rest
    | .eq => (key, value) :: rest
    | .gt => entry :: insertEntry key value rest

theorem mem_insertEntry {key : κ} {value : α} {entries : List (κ × α)} {entry : κ × α}
    (member : entry ∈ insertEntry key value entries) : entry = (key, value) ∨ entry ∈ entries := by
  induction entries with
  | nil => simpa [insertEntry] using member
  | cons first rest ih =>
    simp only [insertEntry] at member
    split at member
    · simpa using member
    · rcases List.mem_cons.1 member with same | later
      · exact .inl same
      · exact .inr (List.mem_cons_of_mem _ later)
    · rcases List.mem_cons.1 member with same | later
      · exact .inr (same ▸ List.mem_cons_self)
      · exact (ih later).imp_right (List.mem_cons_of_mem _)

theorem inKeyOrder_insertEntry [Std.TransOrd κ] (key : κ) (value : α)
    {entries : List (κ × α)} (sorted : InKeyOrder entries) :
    InKeyOrder (insertEntry key value entries) := by
  induction entries with
  | nil => simp [InKeyOrder, insertEntry]
  | cons first rest ih =>
    have ⟨above, sortedRest⟩ := List.pairwise_cons.1 sorted
    simp only [insertEntry]
    split
    case h_1 below =>
      refine List.pairwise_cons.2 ⟨fun entry member => ?_, sorted⟩
      rcases List.mem_cons.1 member with rfl | later
      · exact below
      · exact Std.TransCmp.lt_trans below (above entry later)
    case h_2 same =>
      exact List.pairwise_cons.2
        ⟨fun entry later => Std.TransCmp.lt_of_eq_of_lt same (above entry later), sortedRest⟩
    case h_3 greater =>
      refine List.pairwise_cons.2 ⟨fun entry member => ?_, ih sortedRest⟩
      rcases mem_insertEntry member with rfl | later
      · exact Std.OrientedCmp.lt_of_gt greater
      · exact above entry later

end Dictionary

/-- A finite map, kept in key order. -/
structure Dictionary (κ : Type u) (α : Type v) [Ord κ] where
  entries : List (κ × α)
  sorted : InKeyOrder entries

namespace Dictionary

@[ext] theorem ext {first second : Dictionary κ α} (same : first.entries = second.entries) :
    first = second := by
  cases first; cases second; cases same; rfl

instance [DecidableEq κ] [DecidableEq α] : DecidableEq (Dictionary κ α) := fun first second =>
  decidable_of_iff (first.entries = second.entries) ⟨ext, fun same => same ▸ rfl⟩

def empty : Dictionary κ α :=
  ⟨[], .nil⟩

instance : EmptyCollection (Dictionary κ α) := ⟨empty⟩

instance : Inhabited (Dictionary κ α) := ⟨empty⟩

def find? (table : Dictionary κ α) (key : κ) : Option α :=
  (table.entries.find? fun entry => compare key entry.1 == .eq).map Prod.snd

def contains (table : Dictionary κ α) (key : κ) : Bool :=
  (table.find? key).isSome

def insert [Std.TransOrd κ] (table : Dictionary κ α) (key : κ) (value : α) :
    Dictionary κ α :=
  ⟨insertEntry key value table.entries, inKeyOrder_insertEntry key value table.sorted⟩

def insertAll [Std.TransOrd κ] (table : Dictionary κ α) (pairs : List (κ × α)) :
    Dictionary κ α :=
  pairs.foldl (fun filled pair => filled.insert pair.1 pair.2) table

def ofList [Std.TransOrd κ] (pairs : List (κ × α)) : Dictionary κ α :=
  empty.insertAll pairs

def erase (table : Dictionary κ α) (key : κ) : Dictionary κ α :=
  ⟨table.entries.filter fun entry => compare key entry.1 != .eq,
    table.sorted.filter _⟩

def size (table : Dictionary κ α) : Nat :=
  table.entries.length

def isEmpty (table : Dictionary κ α) : Bool :=
  table.entries.isEmpty

def values (table : Dictionary κ α) : List α :=
  table.entries.map Prod.snd

def keys (table : Dictionary κ α) : List κ :=
  table.entries.map Prod.fst

end Dictionary

end Phrasebook
