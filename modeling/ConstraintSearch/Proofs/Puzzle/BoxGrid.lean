import ConstraintSearch.Puzzle.BoxGrid
import Mathlib.Data.List.Basic

/-!
# Reading a boxed drawing

Whoever looks at a drawing finds the cell of a row and a column by counting: the row stands in every
second line, below the upper border, and its cells are four characters apart.  In this way every
cell that was drawn is found again (`cellAt?_render`), unless its character ends a line.

Borders and rows take turns (`lines_eq`), and both are made of pieces of four characters behind a
first one; so there is a character at every place of every line, and it can be told from the line
and the place alone (`getElem?_border_junction` and the statements below it).

## Places

| what | line | place in the line |
|---|---|---|
| cell in row `r`, column `c` | `2 * r + 1` | `4 * c + 2` |
| blanks beside it | `2 * r + 1` | `4 * c + 1`, `4 * c + 3` |
| edge before it | `2 * r + 1` | `4 * c` |
| junction `k` of edge `r` | `2 * r` | `4 * k` |
-/

namespace ConstraintSearch.BoxGrid

variable {size : Nat} {cell : Nat → Nat → Char} {cells : List Char} {r column place : Nat}
  {left middle right : Char} {columns : Nat}

/-- The character at a place of a line of a drawing, both counted from zero. -/
def charAt? (drawing : String) (line place : Nat) : Option Char :=
  (drawing.toList.splitOn '\n')[line]?.bind (·[place]?)

/-- The character that stands in a cell of a drawing. -/
def cellAt? (drawing : String) (row column : Nat) : Option Char :=
  (drawing.toList.splitOn '\n')[2 * row + 1]?.bind (·[4 * column + 2]?)

/-- No cell of the table holds the end of a line. -/
def Unbroken (size : Nat) (cell : Nat → Nat → Char) : Prop :=
  ∀ r < size, ∀ column < size, cell r column ≠ '\n'

/-! ## Ends of lines -/

/-- Lines that are ended are found again by splitting. -/
theorem splitOn_flatMap {lines : List (List Char)} (hlines : ∀ line ∈ lines, '\n' ∉ line) :
    (lines.flatMap (· ++ ['\n'])).splitOn '\n' = lines ++ [[]] := by
  induction lines with
  | nil => rfl
  | cons line lines ih =>
      have hline : ∀ c ∈ line, (c == '\n') = false := by
        intro c hc
        rw [beq_eq_false_iff_ne]
        rintro rfl
        exact hlines line List.mem_cons_self hc
      have hrest := ih fun other hother => hlines other (List.mem_cons_of_mem line hother)
      rw [List.flatMap_cons, List.append_assoc, List.singleton_append, List.splitOn,
        List.splitOnP_append_cons_of_forall_mem hline '\n' rfl]
      exact congrArg (line :: ·) hrest

theorem newline_not_mem_border (hleft : left ≠ '\n') (hmiddle : middle ≠ '\n')
    (hright : right ≠ '\n') (columns : Nat) : '\n' ∉ border left middle right columns := by
  simp only [border, List.mem_cons, List.mem_flatMap, List.not_mem_nil, or_false, not_or,
    not_exists, not_and]
  refine ⟨hleft.symm, fun column _ => ⟨by decide, by decide, by decide, ?_⟩⟩
  split
  · exact hright.symm
  · exact hmiddle.symm

theorem newline_not_mem_row (hcells : ∀ c ∈ cells, c ≠ '\n') : '\n' ∉ row cells := by
  simp only [row, List.mem_cons, List.mem_flatMap, List.not_mem_nil, or_false, not_or, not_exists,
    not_and]
  exact ⟨by decide, fun c hc => ⟨by decide, (hcells c hc).symm, by decide, by decide⟩⟩

/-- A line of a drawing is a border or a row. -/
theorem mem_lines {line : List Char} (hline : line ∈ lines size cell) :
    (line = border '┌' '┬' '┐' size ∨ line = border '├' '┼' '┤' size ∨
        line = border '└' '┴' '┘' size) ∨
      ∃ r < size, line = row ((List.range size).map (cell r)) := by
  simp only [lines, List.cons_append, List.mem_cons, List.mem_append, List.mem_flatMap,
    List.mem_range, List.not_mem_nil, or_false] at hline
  rcases hline with rfl | ⟨r, hr, rfl | hborder⟩ | rfl
  · exact .inl (.inl rfl)
  · exact .inr ⟨r, hr, rfl⟩
  · split at hborder
    · exact .inl (.inr (.inl (List.mem_singleton.1 hborder)))
    · cases hborder
  · exact .inl (.inr (.inr rfl))

theorem newline_not_mem_lines (hcell : Unbroken size cell) :
    ∀ line ∈ lines size cell, '\n' ∉ line := by
  intro line hline
  rcases mem_lines hline with (rfl | rfl | rfl) | ⟨r, hr, rfl⟩
  · exact newline_not_mem_border (by decide) (by decide) (by decide) size
  · exact newline_not_mem_border (by decide) (by decide) (by decide) size
  · exact newline_not_mem_border (by decide) (by decide) (by decide) size
  · apply newline_not_mem_row
    intro c hc
    obtain ⟨column, hcolumn, rfl⟩ := List.mem_map.1 hc
    exact hcell r hr column (List.mem_range.1 hcolumn)

/-- What is found at a place of a drawing is what stands there in its lines. -/
theorem charAt?_render (hcell : Unbroken size cell) (line place : Nat) :
    charAt? (render size cell) line place = (lines size cell)[line]?.bind (·[place]?) := by
  rw [charAt?, render, String.toList_ofList, splitOn_flatMap (newline_not_mem_lines hcell)]
  rcases Nat.lt_trichotomy line (lines size cell).length with hlt | rfl | hgt
  · rw [List.getElem?_append_left hlt]
  · rw [List.getElem?_concat_length, List.getElem?_eq_none (Nat.le_refl _)]
    rfl
  · rw [List.getElem?_eq_none (by rw [List.length_append]; exact hgt),
      List.getElem?_eq_none (Nat.le_of_lt hgt)]

/-! ## Pieces of equal width -/

section Pieces

variable {α β : Type} {items : List α} {piece : α → List β} (width : Nat)
  (hpiece : ∀ item ∈ items, (piece item).length = width)

include hpiece

theorem length_flatMap_pieces : (items.flatMap piece).length = width * items.length := by
  induction items with
  | nil => rfl
  | cons item items ih =>
      rw [List.flatMap_cons, List.length_append, hpiece item List.mem_cons_self,
        ih fun other hother => hpiece other (List.mem_cons_of_mem item hother), List.length_cons,
        Nat.mul_succ, Nat.add_comm]

/-- The places of a piece are counted from the end of the pieces before it. -/
theorem getElem?_flatMap_pieces (k : Nat) {j : Nat} (hj : j < width) :
    (items.flatMap piece)[width * k + j]? = items[k]?.bind fun item => (piece item)[j]? := by
  -- Every piece takes `width` characters, so to pass the first piece is to go one down in `k`.
  induction items generalizing k with
  | nil => rfl
  | cons item items ih =>
      have hitem := hpiece item List.mem_cons_self
      rw [List.flatMap_cons]
      cases k with
      | zero =>
          rw [Nat.mul_zero, Nat.zero_add, List.getElem?_append_left (hitem ▸ hj)]
          rfl
      | succ k =>
          have hplace : width * (k + 1) + j = (piece item).length + (width * k + j) := by
            rw [hitem, Nat.mul_succ]
            omega
          rw [hplace, List.getElem?_append_right (Nat.le_add_right _ _), Nat.add_sub_cancel_left]
          exact ih (fun other hother => hpiece other (List.mem_cons_of_mem item hother)) k

end Pieces

/-! ## Borders -/

theorem length_border (left middle right : Char) (columns : Nat) :
    (border left middle right columns).length = 4 * columns + 1 := by
  rw [border, List.length_cons, length_flatMap_pieces 4, List.length_range]
  exact fun _ _ => rfl

/-- Behind its left end, a border is made of three bars and a junction for each column. -/
theorem getElem?_border_succ (k : Nat) {j : Nat} (hj : j < 4) :
    (border left middle right columns)[4 * k + j + 1]? =
      (List.range columns)[k]?.bind fun column =>
        ['─', '─', '─', if column + 1 = columns then right else middle][j]? :=
  getElem?_flatMap_pieces 4 (fun _ _ => rfl) k hj

/-- In a border there is a junction at its left end and at every fourth place behind. -/
theorem getElem?_border_junction {k : Nat} (hk : k ≤ columns) :
    (border left middle right columns)[4 * k]? =
      some (if k = 0 then left else if k = columns then right else middle) := by
  cases k with
  | zero => rfl
  | succ k =>
      have hpiece : (border left middle right columns)[4 * k + 3 + 1]? = _ :=
        getElem?_border_succ k (by decide)
      rw [List.getElem?_range hk] at hpiece
      exact hpiece

/-- All other characters of a border are bars. -/
theorem getElem?_border_bar (hplace : place < 4 * columns + 1) (hbar : place % 4 ≠ 0) :
    (border left middle right columns)[place]? = some '─' := by
  obtain ⟨k, j, hj, rfl⟩ : ∃ k j, j < 3 ∧ place = 4 * k + j + 1 :=
    ⟨place / 4, place % 4 - 1, by omega, by omega⟩
  rw [getElem?_border_succ k (by omega), List.getElem?_range (by omega), Option.bind_some]
  match j, hj with
  | 0, _ | 1, _ | 2, _ => rfl

/-! ## Rows -/

theorem length_row (cells : List Char) : (row cells).length = 4 * cells.length + 1 := by
  rw [row, List.length_cons, length_flatMap_pieces 4]
  exact fun _ _ => rfl

/-- Behind its left end, a row is made of a blank, a cell, a blank and an edge for each column. -/
theorem getElem?_row_succ (cells : List Char) (k : Nat) {j : Nat} (hj : j < 4) :
    (row cells)[4 * k + j + 1]? = cells[k]?.bind fun c => [' ', c, ' ', '│'][j]? :=
  getElem?_flatMap_pieces 4 (fun _ _ => rfl) k hj

/-- In a row there is an edge at its left end and at every fourth place behind. -/
theorem getElem?_row_edge {k : Nat} (hk : k ≤ cells.length) : (row cells)[4 * k]? = some '│' := by
  cases k with
  | zero => rfl
  | succ k =>
      have hpiece := getElem?_row_succ cells k (show 3 < 4 by decide)
      rw [List.getElem?_eq_getElem hk] at hpiece
      exact hpiece

/-- In a row, a cell comes behind an edge and a blank. -/
theorem getElem?_row (cells : List Char) (column : Nat) :
    (row cells)[4 * column + 2]? = cells[column]? := by
  rw [getElem?_row_succ cells column (show 1 < 4 by decide)]
  cases cells[column]? <;> rfl

/-- On both sides of a cell there is a blank. -/
theorem getElem?_row_blank (hcolumn : column < cells.length) :
    (row cells)[4 * column + 1]? = some ' ' ∧ (row cells)[4 * column + 3]? = some ' ' := by
  have hbefore := getElem?_row_succ cells column (show 0 < 4 by decide)
  have hbehind := getElem?_row_succ cells column (show 2 < 4 by decide)
  rw [List.getElem?_eq_getElem hcolumn] at hbefore hbehind
  exact ⟨hbefore, hbehind⟩

/-! ## Lines -/

/-- The junctions of the border below so many rows: at its left end, between cells and at its right
end. -/
def junctions (size rows : Nat) : Char × Char × Char :=
  if rows = 0 then ('┌', '┬', '┐')
  else if rows = size then ('└', '┴', '┘')
  else ('├', '┼', '┤')

/-- The border below so many rows. -/
def edge (size rows : Nat) : List Char :=
  match junctions size rows with
  | (left, middle, right) => border left middle right size

/-- Every line of a drawing has the same length. -/
theorem length_of_mem_lines {line : List Char} (hline : line ∈ lines size cell) :
    line.length = 4 * size + 1 := by
  rcases mem_lines hline with (rfl | rfl | rfl) | ⟨r, -, rfl⟩
  · exact length_border ..
  · exact length_border ..
  · exact length_border ..
  · rw [length_row, List.length_map, List.length_range]

/-- Above every row there is a border, and another one below the last row. -/
theorem lines_eq (hsize : 0 < size) :
    lines size cell =
      ((List.range size).flatMap fun r => [edge size r, row ((List.range size).map (cell r))]) ++
        [edge size size] := by
  have hbelow : edge size size = border '└' '┴' '┘' size := by
    rw [edge, junctions, if_neg (Nat.ne_of_gt hsize), if_pos rfl]
  -- The borders that were written below the rows are moved above the next ones.
  have hrows : ∀ (count first : Nat), 0 < count → first + count = size →
      edge size first :: ((List.range' first count).flatMap fun r =>
          row ((List.range size).map (cell r))
            :: if r + 1 < size then [border '├' '┼' '┤' size] else []) ++ [edge size size] =
        ((List.range' first count).flatMap fun r =>
          [edge size r, row ((List.range size).map (cell r))]) ++ [edge size size] := by
    intro count
    induction count with
    | zero =>
        intro first hcount
        exact absurd hcount (Nat.lt_irrefl 0)
    | succ count ih =>
        intro first _ hlast
        rw [List.range'_succ, List.flatMap_cons, List.flatMap_cons]
        rcases Nat.eq_zero_or_pos count with rfl | hcount
        · rw [if_neg (by omega)]
          rfl
        · have hinner : edge size (first + 1) = border '├' '┼' '┤' size := by
            rw [edge, junctions, if_neg (by omega), if_neg (by omega)]
          have hrest := ih (first + 1) hcount (by omega)
          rw [if_pos (by omega), List.append_assoc, ← hrest, hinner]
          rfl
  have hlines := hrows size 0 hsize (Nat.zero_add size)
  rw [← List.range_eq_range', hbelow] at hlines
  rw [hbelow, ← hlines]
  rfl

/-- Above the last border, the lines come in pairs. -/
theorem length_pairs (size : Nat) (cell : Nat → Nat → Char) :
    ((List.range size).flatMap fun r => [edge size r, row ((List.range size).map (cell r))]).length =
      2 * size := by
  rw [length_flatMap_pieces 2, List.length_range]
  exact fun _ _ => rfl

theorem length_lines (hsize : 0 < size) : (lines size cell).length = 2 * size + 1 := by
  rw [lines_eq hsize, List.length_append, length_pairs]
  rfl

theorem getElem?_lines_pair (hr : r < size) {j : Nat} (hj : j < 2) :
    (lines size cell)[2 * r + j]? = [edge size r, row ((List.range size).map (cell r))][j]? := by
  have hpair : ((List.range size).flatMap fun r =>
      [edge size r, row ((List.range size).map (cell r))])[2 * r + j]? = _ :=
    getElem?_flatMap_pieces 2 (fun _ _ => rfl) r hj
  have hlength := length_pairs size cell
  rw [lines_eq (Nat.zero_lt_of_lt hr), List.getElem?_append_left (by omega), hpair,
    List.getElem?_range hr, Option.bind_some]

/-- Every other line is a border. -/
theorem getElem?_lines_edge (hsize : 0 < size) (hr : r ≤ size) :
    (lines size cell)[2 * r]? = some (edge size r) := by
  rcases Nat.lt_or_eq_of_le hr with hlt | rfl
  · exact getElem?_lines_pair hlt (show 0 < 2 by decide)
  · rw [lines_eq hsize, ← length_pairs r cell, List.getElem?_concat_length]

/-- Every second line is a row. -/
theorem getElem?_lines (hr : r < size) :
    (lines size cell)[2 * r + 1]? = some (row ((List.range size).map (cell r))) :=
  getElem?_lines_pair hr (show 1 < 2 by decide)

/-! ## Cells -/

/-- A cell that was drawn is found again. -/
theorem cellAt?_render (hcell : Unbroken size cell) (hr : r < size) (hcolumn : column < size) :
    cellAt? (render size cell) r column = some (cell r column) := by
  have hfound : cellAt? (render size cell) r column = _ :=
    charAt?_render hcell (2 * r + 1) (4 * column + 2)
  rw [hfound, getElem?_lines hr, Option.bind_some, getElem?_row, List.getElem?_map,
    List.getElem?_range hcolumn]
  rfl

/-- Every drawing begins with the corner of its border. -/
theorem head?_render (size : Nat) (cell : Nat → Nat → Char) :
    (render size cell).toList.head? = some '┌' := by
  rw [render, String.toList_ofList]
  rfl

/-- A drawing of two rows and two columns. -/
example : cellAt? "┌───┬───┐\n│ a │ b │\n├───┼───┤\n│ c │ d │\n└───┴───┘\n" 1 0 = some 'c' := by
  decide +kernel

end ConstraintSearch.BoxGrid
