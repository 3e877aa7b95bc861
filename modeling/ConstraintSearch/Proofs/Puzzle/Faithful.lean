import ConstraintSearch.Proofs.Puzzle.BoxGrid
import ConstraintSearch.Puzzle.Queens
import Mathlib.Tactic.SplitIfs

/-!
# Drawings are faithful

A drawing holds what `Drawn` says, character by character.  It shows its size in the length of its
lines and every cell in a place of its own, so it can be the drawing of one table only
(`render_eq_iff`).  A board is a table that has a queen in one square of every row, and nothing in
the others; so no two boards have the same drawing (`Queens.render_inj`).

That a drawing determines its table is read off the drawing: its lines, its cells and nothing else
have to be looked at.  That a table determines its drawing needs only the cells that are drawn, so two
tables may differ elsewhere (`render_congr`).
-/

namespace ConstraintSearch

namespace BoxGrid

variable {size other : Nat} {cell otherCell : Nat → Nat → Char} {r k place : Nat} {c : Char}

/-! ## Character by character -/

/-- The `k`-th junction of the border below so many rows: a corner, a tee or a cross. -/
def junction (size rows k : Nat) : Char :=
  match junctions size rows with
  | (left, middle, right) => if k = 0 then left else if k = size then right else middle

/-- The drawing of a table, character by character: the lines from zero on are borders and rows in
turns, and everything that sets cells apart is at a multiple of four. -/
structure Drawn (size : Nat) (cell : Nat → Nat → Char) (drawing : String) : Prop where
  lines : ∃ lines : List (List Char), drawing.toList = lines.flatMap (· ++ ['\n']) ∧
    lines.length = 2 * size + 1 ∧ ∀ line ∈ lines, line.length = 4 * size + 1 ∧ '\n' ∉ line
  cell : ∀ r < size, ∀ column < size,
    charAt? drawing (2 * r + 1) (4 * column + 2) = some (cell r column)
  blank : ∀ r < size, ∀ column < size,
    charAt? drawing (2 * r + 1) (4 * column + 1) = some ' ' ∧
      charAt? drawing (2 * r + 1) (4 * column + 3) = some ' '
  edge : ∀ r < size, ∀ k ≤ size, charAt? drawing (2 * r + 1) (4 * k) = some '│'
  junction : ∀ r ≤ size, ∀ k ≤ size, charAt? drawing (2 * r) (4 * k) = some (junction size r k)
  bar : ∀ r ≤ size, ∀ place < 4 * size + 1, place % 4 ≠ 0 →
    charAt? drawing (2 * r) place = some '─'

theorem getElem?_edge_junction (rows : Nat) (hk : k ≤ size) :
    (edge size rows)[4 * k]? = some (junction size rows k) :=
  getElem?_border_junction hk

theorem getElem?_edge_bar (rows : Nat) (hplace : place < 4 * size + 1) (hbar : place % 4 ≠ 0) :
    (edge size rows)[place]? = some '─' :=
  getElem?_border_bar hplace hbar

theorem charAt?_render_row (hcell : Unbroken size cell) (hr : r < size) (place : Nat) :
    charAt? (render size cell) (2 * r + 1) place =
      (row ((List.range size).map (cell r)))[place]? := by
  rw [charAt?_render hcell, getElem?_lines hr, Option.bind_some]

theorem charAt?_render_edge (hsize : 0 < size) (hcell : Unbroken size cell) (hr : r ≤ size)
    (place : Nat) : charAt? (render size cell) (2 * r) place = (edge size r)[place]? := by
  rw [charAt?_render hcell, getElem?_lines_edge hsize hr, Option.bind_some]

theorem drawn_render (hsize : 0 < size) (hcell : Unbroken size cell) :
    Drawn size cell (render size cell) where
  lines := by
    -- The lines are what was put together; no character of a cell ends a line, so they are found
    -- again.
    refine ⟨BoxGrid.lines size cell, String.toList_ofList, length_lines hsize, fun line hline => ?_⟩
    exact ⟨length_of_mem_lines hline, newline_not_mem_lines hcell line hline⟩
  cell r hr column hcolumn := cellAt?_render hcell hr hcolumn
  blank r hr column hcolumn := by
    rw [charAt?_render_row hcell hr, charAt?_render_row hcell hr]
    exact getElem?_row_blank (by rwa [List.length_map, List.length_range])
  edge r hr k hk := by
    rw [charAt?_render_row hcell hr]
    exact getElem?_row_edge (by rwa [List.length_map, List.length_range])
  junction r hr k hk := by
    rw [charAt?_render_edge hsize hcell hr]
    exact getElem?_edge_junction r hk
  bar r hr place hplace hbar := by
    rw [charAt?_render_edge hsize hcell hr]
    exact getElem?_edge_bar r hplace hbar

/-- A character that sets nothing apart stands in the line of a row where a cell holds it, and
nowhere else. -/
theorem charAt?_render_row_iff (hcell : Unbroken size cell) (hr : r < size) (hblank : c ≠ ' ')
    (hedge : c ≠ '│') :
    charAt? (render size cell) (2 * r + 1) place = some c ↔
      ∃ column < size, place = 4 * column + 2 ∧ cell r column = c := by
  have hdrawn := drawn_render (Nat.zero_lt_of_lt hr) hcell
  constructor
  · intro h
    -- The line ends behind its last edge, so the place belongs to an edge or to a column.
    have hplace : place < 4 * size + 1 := by
      rw [charAt?_render_row hcell hr] at h
      obtain ⟨hlt, -⟩ := List.getElem?_eq_some_iff.1 h
      rwa [length_row, List.length_map, List.length_range] at hlt
    obtain ⟨k, hk | ⟨hk, hcolumn⟩⟩ : ∃ k, place = 4 * k ∧ k ≤ size ∨
        (place = 4 * k + 1 ∨ place = 4 * k + 2 ∨ place = 4 * k + 3) ∧ k < size :=
      ⟨place / 4, by omega⟩
    · rw [hk.1, hdrawn.edge r hr k hk.2] at h
      exact absurd (Option.some.inj h).symm hedge
    · rcases hk with rfl | rfl | rfl
      · rw [(hdrawn.blank r hr k hcolumn).1] at h
        exact absurd (Option.some.inj h).symm hblank
      · rw [hdrawn.cell r hr k hcolumn] at h
        exact ⟨k, hcolumn, rfl, Option.some.inj h⟩
      · rw [(hdrawn.blank r hr k hcolumn).2] at h
        exact absurd (Option.some.inj h).symm hblank
  · rintro ⟨column, hcolumn, rfl, rfl⟩
    exact hdrawn.cell r hr column hcolumn

/-! ## Equal drawings -/

/-- Only the cells of the table are drawn. -/
theorem render_congr (h : ∀ r < size, ∀ column < size, cell r column = otherCell r column) :
    render size cell = render size otherCell := by
  have hrows : ∀ r ∈ List.range size,
      (List.range size).map (cell r) = (List.range size).map (otherCell r) := fun r hr =>
    List.map_congr_left fun column hcolumn =>
      h r (List.mem_range.1 hr) column (List.mem_range.1 hcolumn)
  have hlines : lines size cell = lines size otherCell := by
    unfold lines
    rw [List.flatMap_congr fun r hr => by rw [hrows r hr]]
  rw [render, render, hlines]

theorem lines_eq_of_render_eq (hcell : Unbroken size cell) (hother : Unbroken other otherCell)
    (h : render size cell = render other otherCell) : lines size cell = lines other otherCell := by
  have hsplit := congrArg (·.toList.splitOn '\n') h
  simp only [render, String.toList_ofList, splitOn_flatMap (newline_not_mem_lines hcell),
    splitOn_flatMap (newline_not_mem_lines hother)] at hsplit
  exact List.append_cancel_right hsplit

/-- A drawing belongs to one table only. -/
theorem render_eq_iff (hcell : Unbroken size cell) (hother : Unbroken other otherCell) :
    render size cell = render other otherCell ↔
      size = other ∧ ∀ r < size, ∀ column < size, cell r column = otherCell r column := by
  constructor
  · intro h
    have htop : border '┌' '┬' '┐' size ∈ lines other otherCell := by
      rw [← lines_eq_of_render_eq hcell hother h]
      exact List.mem_cons_self
    have hlength := length_of_mem_lines htop
    rw [length_border] at hlength
    obtain rfl : size = other := by omega
    refine ⟨rfl, fun r hr column hcolumn => ?_⟩
    have hfound := cellAt?_render hcell hr hcolumn
    rw [h, cellAt?_render hother hr hcolumn] at hfound
    exact (Option.some.inj hfound).symm
  · rintro ⟨rfl, hcells⟩
    exact render_congr hcells

end BoxGrid

/-! ## Boards -/

namespace Queens

variable {queens other : List Nat} {r column : Nat}

/-- What is drawn in a square of a board. -/
def square (queens : List Nat) (row column : Nat) : Char :=
  if queens[row]? = some column then '♛' else ' '

theorem render_eq (queens : List Nat) :
    render queens = BoxGrid.render queens.length (square queens) := by
  simp only [render, List.size_toArray, List.getElem?_toArray]
  rfl

theorem unbroken_square (queens : List Nat) (size : Nat) : BoxGrid.Unbroken size (square queens) := by
  intro r _ column _
  unfold square
  split_ifs <;> decide

theorem square_eq_queen_iff : square queens r column = '♛' ↔ queens[r]? = some column := by
  unfold square
  split_ifs with h
  · exact iff_of_true rfl h
  · exact iff_of_false (by decide) h

/-- A board is drawn with a queen in the given column of each row, and with no others. -/
theorem cellAt?_render {row column : Nat} (hrow : row < queens.length)
    (hcolumn : column < queens.length) :
    BoxGrid.cellAt? (render queens) row column =
      some (if queens[row]? = some column then '♛' else ' ') := by
  rw [render_eq]
  exact BoxGrid.cellAt?_render (unbroken_square queens _) hrow hcolumn

/-- In the line of a row there is one queen, in its column. -/
theorem charAt?_render_iff (hqueens : ∀ column ∈ queens, column < queens.length)
    (hr : queens[r]? = some column) (place : Nat) :
    BoxGrid.charAt? (render queens) (2 * r + 1) place = some '♛' ↔ place = 4 * column + 2 := by
  have hrow : r < queens.length := (List.getElem?_eq_some_iff.1 hr).1
  rw [render_eq, BoxGrid.charAt?_render_row_iff (unbroken_square queens _) hrow (by decide) (by decide)]
  simp only [square_eq_queen_iff, hr, Option.some.injEq]
  constructor
  · rintro ⟨_, -, rfl, rfl⟩
    rfl
  · rintro rfl
    exact ⟨column, hqueens column (List.mem_of_getElem? hr), rfl, rfl⟩

/-- No two boards have the same drawing. -/
theorem render_inj (hqueens : ∀ column ∈ queens, column < queens.length) :
    render queens = render other ↔ queens = other := by
  refine ⟨fun h => ?_, congrArg render⟩
  rw [render_eq, render_eq, BoxGrid.render_eq_iff (unbroken_square _ _) (unbroken_square _ _)] at h
  obtain ⟨hlength, hsquares⟩ := h
  refine List.ext_getElem hlength fun r hr hother => ?_
  have hcolumn : queens[r] < queens.length := hqueens _ (List.getElem_mem hr)
  have hqueen : square other r queens[r] = '♛' := by
    rw [← hsquares r hr _ hcolumn, square_eq_queen_iff]
    exact List.getElem?_eq_getElem hr
  rw [square_eq_queen_iff, List.getElem?_eq_getElem hother] at hqueen
  exact (Option.some.inj hqueen).symm

end Queens

namespace BoxGrid

/-- **Drawings are faithful.**  A table with at least one row is drawn as `Drawn` says, character by
character.  Two drawings are equal exactly when the tables have the same size and the same cells.  And
no two boards are drawn alike: in the line of every row there is one queen, in its column. -/
theorem drawings_faithful :
    (∀ size cell, 1 ≤ size → Unbroken size cell → Drawn size cell (render size cell)) ∧
    (∀ size cell other otherCell, Unbroken size cell → Unbroken other otherCell →
      (render size cell = render other otherCell ↔
        size = other ∧ ∀ r < size, ∀ column < size, cell r column = otherCell r column)) ∧
    ∀ queens : List Nat, (∀ column ∈ queens, column < queens.length) →
      (∀ other, Queens.render queens = Queens.render other ↔ queens = other) ∧
      ∀ r column, queens[r]? = some column → ∀ place,
        charAt? (Queens.render queens) (2 * r + 1) place = some '♛' ↔ place = 4 * column + 2 := by
  refine ⟨fun size cell => drawn_render, fun size cell other otherCell => render_eq_iff, ?_⟩
  intro queens hqueens
  exact ⟨fun other => Queens.render_inj hqueens, fun r column => Queens.charAt?_render_iff hqueens⟩

/-- The cross in the middle of a drawing, a cell that tells two drawings apart, and the queen of the
first row on one of two boards that look different. -/
theorem drawings_faithful_two :
    let diagonal : Nat → Nat → Char := fun r column => if r = column then 'x' else ' '
    let filled : Nat → Nat → Char := fun _ _ => 'x'
    (Unbroken 2 diagonal ∧ Unbroken 2 filled ∧ ∀ column ∈ [1, 0], column < [1, 0].length) ∧
      charAt? (render 2 diagonal) 2 4 = some '┼' ∧ render 2 diagonal ≠ render 2 filled ∧
      Queens.render [1, 0] ≠ Queens.render [0, 1] ∧
      charAt? (Queens.render [1, 0]) 1 6 = some '♛' := by
  intro diagonal filled
  have hdiagonal : Unbroken 2 diagonal := by
    intro r _ column _
    show (if r = column then 'x' else ' ') ≠ '\n'
    split_ifs <;> decide
  have hfilled : Unbroken 2 filled := fun _ _ _ _ => by decide
  have hqueens : ∀ column ∈ [1, 0], column < [1, 0].length := by decide
  obtain ⟨hdrawn, hequal, hboards⟩ := drawings_faithful
  obtain ⟨hboard, hqueen⟩ := hboards [1, 0] hqueens
  refine ⟨⟨hdiagonal, hfilled, hqueens⟩, ?_, fun h => ?_, fun h => ?_, ?_⟩
  · exact (hdrawn 2 diagonal (by decide) hdiagonal).junction 1 (by decide) 1 (by decide)
  · have hcell := ((hequal 2 diagonal 2 filled hdiagonal hfilled).1 h).2 0 (by decide) 1 (by decide)
    exact absurd hcell (by decide)
  · exact absurd ((hboard [0, 1]).1 h) (by decide)
  · exact (hqueen 0 1 rfl 6).2 rfl

end BoxGrid

end ConstraintSearch
