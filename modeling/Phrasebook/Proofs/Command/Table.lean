import Mathlib.Data.List.Forall2
import Phrasebook.Command.Table

/-!
What a table shows. Its columns are wide enough for every cell, so of no row anything is cut off.
-/

namespace Phrasebook.Command

/-- The pieces show the texts, each in a column of its own: blanks fill the column, and a space
stands on either side. -/
inductive Columns : List Nat → List (List Char) → List (List Char) → Prop
  | nil : Columns [] [] []
  | cons {width filling text widths texts pieces}
      (fits : Text.displayWidth text + filling = width) (others : Columns widths texts pieces) :
      Columns (width :: widths) (text :: texts)
        ((' ' :: text ++ List.replicate filling ' ' ++ [' ']) :: pieces)

/-- The lines show the row: line for line, and every cell down to its last line. -/
structure ShowsRow (widths : List Nat) (row : Row) (lines : List (List Char)) : Prop where
  across {i line} : lines[i]? = some line → ∃ pieces,
    Columns widths (row.map fun cell => (cell.toList.splitOn '\n').getD i []) pieces ∧
      line = '│' :: [' '].intercalate pieces ++ ['│']
  down {cell} : cell ∈ row → (cell.toList.splitOn '\n').length ≤ lines.length

inductive ShowsTable (head : Row) (rows : List Row) : List Char → Prop
  | framed {widths run top blocks} (above : ShowsRow widths head top)
      (below : List.Forall₂ (ShowsRow widths) rows blocks) :
      ShowsTable head rows (['\n'].intercalate (
        ('┌' :: List.replicate run '─' ++ ['┐']) :: top ++
          ('╞' :: List.replicate run '═' ++ ['╡']) :: blocks.flatten ++
          ['└' :: List.replicate run '─' ++ ['┘']]))

def Fits (widths : List Nat) (row : Row) : Prop :=
  List.Forall₂ (fun width cell => cellWidth cell ≤ width) widths row

theorem le_foldl_max {values : List Nat} {start : Nat} :
    start ≤ values.foldl max start ∧ ∀ value ∈ values, value ≤ values.foldl max start := by
  induction values generalizing start with
  | nil => simp
  | cons first values ih =>
    obtain ⟨least, others⟩ := @ih (max start first)
    rw [List.foldl_cons, List.forall_mem_cons]
    exact ⟨by omega, by omega, others⟩

theorem displayWidth_getD_le (cell : String) (i : Nat) :
    Text.displayWidth ((cellLines cell).getD i []) ≤ cellWidth cell := by
  rw [List.getD_eq_getElem?_getD]
  cases found : (cellLines cell)[i]? with
  | none => exact Nat.zero_le _
  | some line =>
    exact le_foldl_max.2 _ (List.mem_map_of_mem (List.mem_of_getElem? found))

section Widths

def widened (widths : List Nat) (row : Row) : List Nat :=
  (List.range (max widths.length row.length)).map fun column =>
    max (widths.getD column 0) (((row[column]?).map cellWidth).getD 0)

theorem columnWidths_eq (rows : List Row) : columnWidths rows = rows.foldl widened [] :=
  rfl

theorem fits_widened {widths : List Nat} {row : Row} (short : widths.length ≤ row.length) :
    Fits (widened widths row) row := by
  refine List.forall₂_iff_get.2 ⟨by simp [widened, short], fun column inside inRow => ?_⟩
  have inRow : column < row.length := inRow
  simp only [widened, List.get_eq_getElem, List.getElem_map, List.getElem_range,
    List.getElem?_eq_getElem inRow, Option.map_some, Option.getD_some]
  exact Nat.le_max_right _ _

theorem Fits.widened {widths : List Nat} {row other : Row} (fits : Fits widths row)
    (short : other.length ≤ row.length) : Fits (widened widths other) row := by
  obtain ⟨length, wide⟩ := List.forall₂_iff_get.1 fits
  refine List.forall₂_iff_get.2 ⟨by simp [Command.widened]; omega, fun column _ inRow => ?_⟩
  have inside : column < widths.length := length ▸ inRow
  have old := wide column inside inRow
  simp [Command.widened, inside] at old ⊢
  omega

/-- A row that fits still fits when the columns are widened, and those they are widened for do. -/
theorem fits_foldl_widened {rows : List Row} {length : Nat}
    (uniform : ∀ row ∈ rows, row.length = length) {widths : List Nat}
    (short : widths.length ≤ length) :
    (∀ row : Row, row.length = length → Fits widths row → Fits (rows.foldl widened widths) row) ∧
      ∀ row ∈ rows, Fits (rows.foldl widened widths) row := by
  induction rows generalizing widths with
  | nil => exact ⟨fun _ _ fits => fits, List.forall_mem_nil _⟩
  | cons first rows ih =>
    obtain ⟨same, others⟩ := List.forall_mem_cons.1 uniform
    have fits : Fits (widened widths first) first := fits_widened (same ▸ short)
    obtain ⟨kept, fitted⟩ := ih others (Nat.le_of_eq (fits.length_eq.trans same))
    refine ⟨fun row long fitsRow => kept row long (fitsRow.widened ?_), ?_⟩
    · exact Nat.le_of_eq (same.trans long.symm)
    · exact List.forall_mem_cons.2 ⟨kept first same fits, fitted⟩

theorem fits_columnWidths {rows : List Row} {length : Nat}
    (uniform : ∀ row ∈ rows, row.length = length) :
    ∀ row ∈ rows, Fits (columnWidths rows) row := by
  have short : ([] : List Nat).length ≤ length := Nat.zero_le length
  rw [columnWidths_eq]
  exact (fits_foldl_widened uniform short).2

end Widths

theorem columns_padded {widths : List Nat} {row : Row} (fits : Fits widths row) (i : Nat) :
    Columns widths (row.map fun cell => (cellLines cell).getD i [])
      ((widths.zip (row.map cellLines)).map fun (width, cell) =>
        padded width (cell.getD i [])) := by
  induction fits with
  | nil => exact .nil
  | @cons width cell widths row wide _ ih =>
    have narrow := Nat.le_trans (displayWidth_getD_le cell i) wide
    exact .cons (Nat.add_sub_cancel' narrow) ih

theorem showsRow_rowLines {widths : List Nat} {row : Row} (fits : Fits widths row) :
    ShowsRow widths row (rowLines widths row) where
  across {i line} found := by
    rw [rowLines, List.getElem?_map, Option.map_eq_some_iff] at found
    obtain ⟨j, place, rfl⟩ := found
    obtain ⟨inside, same⟩ := List.getElem?_eq_some_iff.1 place
    rw [List.getElem_range] at same
    subst same
    exact ⟨_, columns_padded fits i, rfl⟩
  down {cell} member := by
    rw [rowLines, List.length_map, List.length_range]
    exact le_foldl_max.2 _ (List.mem_map_of_mem (List.mem_map_of_mem member))

theorem showsTable_drawTable {head : Row} {rows : List Row}
    (uniform : ∀ row ∈ rows, row.length = head.length) :
    ShowsTable head rows (drawTable head rows) := by
  have fits := fits_columnWidths (List.forall_mem_cons.2 ⟨rfl, uniform⟩)
  obtain ⟨fitsHead, fitsRows⟩ := List.forall_mem_cons.1 fits
  have below : List.Forall₂ (ShowsRow (columnWidths (head :: rows))) rows
      (rows.map (rowLines (columnWidths (head :: rows)))) :=
    List.forall₂_map_right_iff.2 (List.forall₂_same.2 fun row member =>
      showsRow_rowLines (fitsRows row member))
  rw [drawTable, List.flatMap_def]
  exact .framed (showsRow_rowLines fitsHead) below

end Phrasebook.Command
