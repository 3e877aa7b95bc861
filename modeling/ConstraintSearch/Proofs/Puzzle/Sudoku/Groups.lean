import ConstraintSearch.Puzzle.Sudoku.Model
import Mathlib.Data.Fintype.EquivFin

/-!
# Rows, columns and boxes

The rules of sudoku say that every row, every column and every box contains each value once
(`EachOnce`).  The constraints say that every two cells of a group differ.  Since a group has as
many cells as there are values, this is the same (`Lines.eachOnce_iff`).

`Lines` says what rows, columns and boxes have in common: nine cells each, every cell in exactly one
of them, at a place of its own.  After the three instances (`lines_row`, `lines_column`, `lines_box`)
no statement tells the three kinds apart.
-/

namespace ConstraintSearch.Sudoku

/-- The row, the column or the box of a cell: rows, columns and boxes are counted from the top left
on. -/
def row (cell : Nat) : Nat := cell / 9

def column (cell : Nat) : Nat := cell % 9

def box (cell : Nat) : Nat := row cell / 3 * 3 + column cell / 3

/-- Each of the nine lines, that is, rows, columns or boxes, contains each value exactly once. -/
def EachOnce (line : Nat → Nat) (values : List Nat) : Prop :=
  ∀ index < 9, ∀ value < 9, ∃! cell, line cell = index ∧ values[cell]? = some value

/-- The cells of the groups from `first` on are those of the nine lines. -/
structure Lines (line : Nat → Nat) (first : Nat) : Prop where
  cell_lt : ∀ index < 9, ∀ place < 9, groupCell (first + index) place < cellCount
  line_cell : ∀ index < 9, ∀ place < 9, line (groupCell (first + index) place) = index
  exists_place : ∀ cell < cellCount, ∃ place < 9, groupCell (first + line cell) place = cell
  place_inj : ∀ index < 9, ∀ place < 9, ∀ other < 9,
    groupCell (first + index) place = groupCell (first + index) other → place = other

private theorem div_mod_gridSize {index : Nat} (hindex : index < 9) (kind : Nat) :
    (9 * kind + index) / gridSize = kind ∧ (9 * kind + index) % gridSize = index := by
  unfold gridSize
  omega

theorem groupCell_row {index : Nat} (hindex : index < 9) (place : Nat) :
    groupCell (0 + index) place = index * 9 + place := by
  have hgroup : (0 + index) / gridSize = 0 := (div_mod_gridSize hindex 0).1
  have hmod : (0 + index) % gridSize = index := (div_mod_gridSize hindex 0).2
  simp only [groupCell, hgroup, hmod]
  rfl

theorem groupCell_column {index : Nat} (hindex : index < 9) (place : Nat) :
    groupCell (9 + index) place = place * 9 + index := by
  have hgroup : (9 + index) / gridSize = 1 := (div_mod_gridSize hindex 1).1
  have hmod : (9 + index) % gridSize = index := (div_mod_gridSize hindex 1).2
  simp only [groupCell, hgroup, hmod]
  rfl

theorem groupCell_box {index : Nat} (hindex : index < 9) (place : Nat) :
    groupCell (18 + index) place =
      (index / 3 * 3 + place / 3) * 9 + (index % 3 * 3 + place % 3) := by
  have hgroup : (18 + index) / gridSize = 2 := (div_mod_gridSize hindex 2).1
  have hmod : (18 + index) % gridSize = index := (div_mod_gridSize hindex 2).2
  simp only [groupCell, hgroup, hmod]
  rfl

theorem lines_row : Lines row 0 where
  cell_lt := by
    intro index hindex place hplace
    rw [groupCell_row hindex]
    unfold cellCount gridSize
    omega
  line_cell := by
    intro index hindex place hplace
    rw [groupCell_row hindex]
    unfold row
    omega
  exists_place := by
    intro cell hcell
    unfold cellCount gridSize at hcell
    have hindex : row cell < 9 := by
      unfold row
      omega
    refine ⟨cell % 9, Nat.mod_lt _ (by omega), ?_⟩
    rw [groupCell_row hindex]
    unfold row
    omega
  place_inj := by
    intro index hindex place hplace other hother heq
    rw [groupCell_row hindex, groupCell_row hindex] at heq
    omega

theorem lines_column : Lines column 9 where
  cell_lt := by
    intro index hindex place hplace
    rw [groupCell_column hindex]
    unfold cellCount gridSize
    omega
  line_cell := by
    intro index hindex place hplace
    rw [groupCell_column hindex]
    unfold column
    omega
  exists_place := by
    intro cell hcell
    unfold cellCount gridSize at hcell
    have hindex : column cell < 9 := Nat.mod_lt _ (by omega)
    refine ⟨cell / 9, by omega, ?_⟩
    rw [groupCell_column hindex]
    unfold column
    omega
  place_inj := by
    intro index hindex place hplace other hother heq
    rw [groupCell_column hindex, groupCell_column hindex] at heq
    omega

theorem lines_box : Lines box 18 where
  cell_lt := by
    intro index hindex place hplace
    -- The cells of a box are three rows of three, which `omega` counts from `index` and `place`.
    rw [groupCell_box hindex]
    unfold cellCount gridSize
    omega
  line_cell := by
    intro index hindex place hplace
    rw [groupCell_box hindex]
    unfold box row column
    omega
  exists_place := by
    intro cell hcell
    unfold cellCount gridSize at hcell
    have hindex : box cell < 9 := by
      unfold box row column
      omega
    refine ⟨row cell % 3 * 3 + column cell % 3, by omega, ?_⟩
    rw [groupCell_box hindex]
    unfold box row column
    omega
  place_inj := by
    intro index hindex place hplace other hother heq
    rw [groupCell_box hindex, groupCell_box hindex] at heq
    omega

/-! ## Different and each once -/

/-- Nine values below nine that are pairwise different are all the values there are. -/
theorem existsUnique_of_ne {value : Nat → Nat} (hlt : ∀ place < 9, value place < 9)
    (hne : ∀ place other, place < other → other < 9 → value place ≠ value other) (wanted : Nat)
    (hwanted : wanted < 9) : ∃! place, place < 9 ∧ value place = wanted := by
  -- Nine places with nine different values out of nine: every value is taken.
  have hinj : Function.Injective
      fun place : Fin 9 => (⟨value place, hlt place place.2⟩ : Fin 9) := by
    intro place other heq
    have hvalue : value place = value other := congrArg Fin.val heq
    rcases Nat.lt_trichotomy place other with hless | hsame | hless
    · exact absurd hvalue (hne place other hless other.2)
    · exact Fin.ext hsame
    · exact absurd hvalue.symm (hne other place hless place.2)
  obtain ⟨place, hplace⟩ := Finite.injective_iff_surjective.1 hinj ⟨wanted, hwanted⟩
  refine ⟨place, ⟨place.2, congrArg Fin.val hplace⟩, ?_⟩
  rintro other ⟨hother, hvalue⟩
  have hsame : (⟨other, hother⟩ : Fin 9) = place := hinj (by
    rw [hplace]
    exact Fin.ext hvalue)
  exact congrArg Fin.val hsame

variable {line : Nat → Nat} {first : Nat} {values : List Nat}

theorem Lines.exists_value (h : Lines line first) (hlength : values.length = cellCount)
    (hlt : ∀ value ∈ values, value < 9) {index place : Nat} (hindex : index < 9)
    (hplace : place < 9) :
    ∃ value < 9, values[groupCell (first + index) place]? = some value := by
  have hcell : groupCell (first + index) place < values.length :=
    hlength ▸ h.cell_lt index hindex place hplace
  exact ⟨_, hlt _ (List.getElem_mem hcell), List.getElem?_eq_getElem hcell⟩

/-- The cells of every line have different values exactly if each value stands in it once. -/
theorem Lines.eachOnce_iff (h : Lines line first) (hlength : values.length = cellCount)
    (hlt : ∀ value ∈ values, value < 9) :
    EachOnce line values ↔ ∀ index < 9, ∀ place other, place < other → other < 9 →
      values[groupCell (first + index) place]? ≠ values[groupCell (first + index) other]? := by
  constructor
  · intro honce index hindex place other hless hother hsame
    have hplace : place < 9 := Nat.lt_trans hless hother
    obtain ⟨value, hvalue, hfound⟩ := h.exists_value hlength hlt hindex hplace
    obtain ⟨cell, -, honly⟩ := honce index hindex value hvalue
    have hcell := honly _ ⟨h.line_cell index hindex place hplace, hfound⟩
    have hcell' := honly _ ⟨h.line_cell index hindex other hother, hsame ▸ hfound⟩
    have heq := h.place_inj index hindex place hplace other hother (hcell.trans hcell'.symm)
    exact absurd heq (Nat.ne_of_lt hless)
  · intro hdiffer index hindex wanted hwanted
    have hvalues : ∀ place < 9, ∃ value < 9,
        values[groupCell (first + index) place]? = some value :=
      fun place hplace => h.exists_value hlength hlt hindex hplace
    choose! value hvalue hfound using hvalues
    have hne : ∀ place other, place < other → other < 9 → value place ≠ value other := by
      intro place other hless hother hsame
      apply hdiffer index hindex place other hless hother
      rw [hfound place (Nat.lt_trans hless hother), hfound other hother, hsame]
    obtain ⟨place, ⟨hplace, heq⟩, honly⟩ := existsUnique_of_ne hvalue hne wanted hwanted
    refine ⟨groupCell (first + index) place, ⟨h.line_cell index hindex place hplace, ?_⟩, ?_⟩
    · rw [hfound place hplace, heq]
    · rintro cell ⟨hline, hcell⟩
      obtain ⟨other, hother, hplaced⟩ :=
        h.exists_place cell (hlength ▸ (List.getElem?_eq_some_iff.1 hcell).1)
      rw [hline] at hplaced
      rw [← hplaced, hfound other hother] at hcell
      rw [← hplaced, honly other ⟨hother, Option.some.inj hcell⟩]

/-! ## The pairs of cells -/

theorem mem_cellPairs {pair : Nat × Nat} :
    pair ∈ cellPairs ↔ ∃ group < 27, ∃ place other, place < other ∧ other < 9 ∧
      pair = (groupCell group place, groupCell group other) := by
  simp only [cellPairs, groupCount, gridSize, List.mem_flatMap, List.mem_range, List.mem_map,
    List.mem_range'_1]
  constructor
  · rintro ⟨group, hgroup, place, hplace, other, hother, rfl⟩
    exact ⟨group, hgroup, place, other, by omega, by omega, rfl⟩
  · rintro ⟨group, hgroup, place, other, hless, hother, rfl⟩
    exact ⟨group, hgroup, place, by omega, other, by omega, rfl⟩

/-- A group is a row, a column or a box. -/
private theorem group_cases {group : Nat} (hgroup : group < 27) : ∃ index < 9,
    group = 0 + index ∨ group = 9 + index ∨ group = 18 + index :=
  ⟨group % 9, by omega, by omega⟩

/-- Every group consists of cells of the grid. -/
theorem groupCell_lt {group place : Nat} (hgroup : group < 27) (hplace : place < 9) :
    groupCell group place < cellCount := by
  obtain ⟨index, hindex, rfl | rfl | rfl⟩ := group_cases hgroup
  · exact lines_row.cell_lt index hindex place hplace
  · exact lines_column.cell_lt index hindex place hplace
  · exact lines_box.cell_lt index hindex place hplace

theorem lt_of_mem_cellPairs {pair : Nat × Nat} (hpair : pair ∈ cellPairs) :
    pair.1 < cellCount ∧ pair.2 < cellCount := by
  obtain ⟨group, hgroup, place, other, hless, hother, rfl⟩ := mem_cellPairs.1 hpair
  exact ⟨groupCell_lt hgroup (Nat.lt_trans hless hother), groupCell_lt hgroup hother⟩

theorem length_cellPairs : cellPairs.length = 972 := by decide +kernel

/-- All pairs of cells of a group differ exactly if every row, column and box contains each value
once. -/
theorem forall_cellPairs_iff (hlength : values.length = cellCount)
    (hlt : ∀ value ∈ values, value < 9) :
    (∀ pair ∈ cellPairs, values[pair.1]? ≠ values[pair.2]?) ↔
      EachOnce row values ∧ EachOnce column values ∧ EachOnce box values := by
  rw [lines_row.eachOnce_iff hlength hlt, lines_column.eachOnce_iff hlength hlt,
    lines_box.eachOnce_iff hlength hlt]
  constructor
  · intro hpairs
    refine ⟨?_, ?_, ?_⟩ <;> intro index hindex place other hless hother
    · exact hpairs _ (mem_cellPairs.2 ⟨0 + index, by omega, place, other, hless, hother, rfl⟩)
    · exact hpairs _ (mem_cellPairs.2 ⟨9 + index, by omega, place, other, hless, hother, rfl⟩)
    · exact hpairs _ (mem_cellPairs.2 ⟨18 + index, by omega, place, other, hless, hother, rfl⟩)
  · rintro ⟨hrows, hcolumns, hboxes⟩ pair hpair
    obtain ⟨group, hgroup, place, other, hless, hother, rfl⟩ := mem_cellPairs.1 hpair
    obtain ⟨index, hindex, rfl | rfl | rfl⟩ := group_cases hgroup
    · exact hrows index hindex place other hless hother
    · exact hcolumns index hindex place other hless hother
    · exact hboxes index hindex place other hless hother

end ConstraintSearch.Sudoku
