import ConstraintSearch.Proofs.Puzzle.BoxGrid
import ConstraintSearch.Proofs.Puzzle.Sudoku.Groups
import Mathlib.Tactic.IntervalCases

/-!
# Drawings of sudokus

The values of 81 cells are drawn in either build, as long as the numbers one above them are words.
What is drawn for a value is the digit that the low 32 bits of the number above it are, or a question
mark if they are no digit (`shown`).

A value below nine is so drawn as the digit above it, and the cells of a drawing of such values, row
by row, are again a text of a grid, which gives every cell the digit that was drawn
(`readDrawing_drawing`).  Larger values have a question mark as long as their successors have 32 bits.
From there on a value may be drawn like one below nine (`shown_eq_mark_iff`).
-/

namespace ConstraintSearch.Sudoku

variable {build : Build} {values : List Nat} {value : Nat} {characters : List Char} {r c : Nat}

/-- Reads the cells of a drawing as a grid. -/
def readDrawing (drawing : String) : Except ProblemError Grid :=
  Grid.parse (String.ofList ((List.range cellCount).filterMap fun cell =>
    BoxGrid.cellAt? drawing (row cell) (column cell)))

/-- The grid that gives every cell the digit of its value. -/
def Grid.ofValues (values : List Nat) : Grid where
  cells := values.map fun value => some (value + 1)

/-! ## Digits -/

/-- The digit of a value below nine. -/
def digit (value : Nat) : Char := Char.ofNat ('0'.toNat + (value + 1))

/-- The low 32 bits of the number above a value. -/
def lowBits (value : Nat) : Nat := (value + 1) % 2 ^ 32

/-- What is drawn for a value. -/
def shown (value : Nat) : Char := if lowBits value < 10 then (lowBits value).digitChar else '?'

/-- What tells the values below nine from each other and from all larger ones. -/
def mark (value : Nat) : Char := if value ≤ 8 then (value + 1).digitChar else '?'

theorem digitChar_eq {n : Nat} (hlt : n < 10) : n.digitChar = Char.ofNat ('0'.toNat + n) := by
  interval_cases n <;> rfl

theorem digitChar_ne {n : Nat} (hlt : n < 10) : n.digitChar ≠ '?' ∧ n.digitChar ≠ '\n' := by
  interval_cases n <;> decide

theorem digitOf_eq_shown (hword : value + 1 < wordCount) : digitOf build value = .ok (shown value) := by
  have hdigit : (if lowBits value < 10 then Char.ofNat ('0'.toNat + lowBits value) else '?') =
      shown value := by
    unfold shown
    split_ifs with hlt
    · exact (digitChar_eq hlt).symm
    · rfl
  unfold digitOf
  rw [build.add_of_lt hword, ← hdigit]
  rfl

theorem lowBits_of_lt (hlt : value + 1 < 2 ^ 32) : lowBits value = value + 1 := Nat.mod_eq_of_lt hlt

theorem shown_of_lt (hlt : value < 9) : shown value = digit value := by
  rw [shown, lowBits_of_lt (by omega), if_pos (by omega), digitChar_eq (by omega)]
  rfl

theorem shown_ne_newline (value : Nat) : shown value ≠ '\n' := by
  unfold shown
  split_ifs with hlt
  · exact (digitChar_ne hlt).2
  · decide

/-- A value is marked as it should be, unless it is large and the low bits above it are a digit. -/
theorem shown_eq_mark_iff : shown value = mark value ↔ (lowBits value < 10 → value ≤ 8) := by
  by_cases hsmall : value ≤ 8
  · rw [shown, mark, lowBits_of_lt (by omega), if_pos (by omega), if_pos hsmall]
    exact iff_of_true rfl fun _ => hsmall
  · rw [shown, mark, if_neg hsmall]
    split_ifs with hlt
    · exact iff_of_false (digitChar_ne hlt).1 fun h => hsmall (h hlt)
    · exact iff_of_true rfl fun h => absurd h hlt

theorem readCell_digit (hlt : value < 9) : Grid.readCell (digit value) = .ok (some (value + 1)) := by
  interval_cases value <;> rfl

theorem isBlank_digit (hlt : value < 9) : isBlank (digit value) = false := by
  interval_cases value <;> rfl

/-- Where every step has a value, so has the loop. -/
theorem mapM_eq_ok {α β ε : Type} {step : α → Except ε β} {made : α → β} {items : List α}
    (h : ∀ item ∈ items, step item = .ok (made item)) : items.mapM step = .ok (items.map made) := by
  induction items with
  | nil => rfl
  | cons item items ih =>
      have hrest := ih fun other hother => h other (List.mem_cons_of_mem item hother)
      rw [List.mapM_cons, h item List.mem_cons_self, hrest]
      rfl

/-- A list is read off place by place. -/
theorem filterMap_getElem?_range {α : Type} (items : List α) :
    (List.range items.length).filterMap (fun i => items[i]?) = items := by
  induction items with
  | nil => rfl
  | cons item items ih =>
      rw [List.length_cons, List.range_succ_eq_map, List.filterMap_cons, List.filterMap_map]
      exact congrArg (item :: ·) ih

/-! ## Tables -/

/-- The characters of 81 cells, row by row, as a table. -/
def table (characters : List Char) (row column : Nat) : Char :=
  characters.toArray.getD (row * gridSize + column) ' '

/-- Each cell of the drawing holds its character. -/
theorem cellAt?_table (hlength : characters.length = cellCount) (hnewline : '\n' ∉ characters)
    (hr : r < 9) (hc : c < 9) :
    BoxGrid.cellAt? (BoxGrid.render gridSize (table characters)) r c = characters[9 * r + c]? := by
  have hunbroken : BoxGrid.Unbroken gridSize (table characters) := by
    intro r _ c _
    rw [table, Array.getD_eq_getD_getElem?, List.getElem?_toArray]
    cases hcell : characters[r * gridSize + c]? with
    | none => decide
    | some c =>
        rintro rfl
        exact hnewline (List.mem_of_getElem? hcell)
  have hcount : cellCount = 81 := rfl
  have hplace : r * gridSize + c = 9 * r + c := by rw [gridSize, Nat.mul_comm]
  have hcell : 9 * r + c < characters.length := by omega
  rw [BoxGrid.cellAt?_render hunbroken hr hc, table, hplace, Array.getD_eq_getD_getElem?,
    List.getElem?_toArray, List.getElem?_eq_getElem hcell, Option.getD_some]

section Words

variable (hlength : values.length = cellCount) (hwords : ∀ value ∈ values, value + 1 < wordCount)

include hlength

theorem cellAt?_map_shown (hr : r < 9) (hc : c < 9) :
    BoxGrid.cellAt? (BoxGrid.render gridSize (table (values.map shown))) r c =
      values[9 * r + c]?.map shown := by
  rw [cellAt?_table (by rw [List.length_map, hlength]) _ hr hc, List.getElem?_map]
  intro hmem
  obtain ⟨value, -, hvalue⟩ := List.mem_map.1 hmem
  exact shown_ne_newline value hvalue

include hwords

theorem render_of_words :
    render build values = .ok (BoxGrid.render gridSize (table (values.map shown))) := by
  have hdigits : values.mapM (digitOf build) = .ok (values.map shown) :=
    mapM_eq_ok fun value hvalue => digitOf_eq_shown (hwords value hvalue)
  have hcells : ¬values.length ≠ cellCount := fun hne => hne hlength
  unfold render
  rw [hdigits, if_neg hcells]
  rfl

end Words

/-! ## Values below nine -/

/-- The drawing of values below nine. -/
def drawing (values : List Nat) : String :=
  BoxGrid.render gridSize fun row column =>
    (values.map digit).toArray.getD (row * gridSize + column) ' '

section Values

variable (hlength : values.length = cellCount) (hlt : ∀ value ∈ values, value < 9)

include hlt

theorem drawing_eq : drawing values = BoxGrid.render gridSize (table (values.map shown)) := by
  rw [List.map_congr_left fun value hvalue => shown_of_lt (hlt value hvalue)]
  rfl

include hlength

theorem render_eq_drawing : render build values = .ok (drawing values) := by
  have hwords : ∀ value ∈ values, value + 1 < wordCount := by
    intro value hvalue
    have hsmall := hlt value hvalue
    unfold wordCount
    omega
  rw [render_of_words hlength hwords, drawing_eq hlt]

/-- Each cell of the drawing holds the digit of its value. -/
theorem cellAt?_drawing {cell : Nat} (hcell : cell < cellCount) :
    BoxGrid.cellAt? (drawing values) (row cell) (column cell) = (values.map digit)[cell]? := by
  have hsmall : cell < 81 := hcell
  have hplace : 9 * row cell + column cell = cell := Nat.div_add_mod cell 9
  have hrow : row cell < 9 := Nat.div_lt_of_lt_mul hsmall
  have hcolumn : column cell < 9 := Nat.mod_lt cell (by decide)
  rw [drawing_eq hlt, cellAt?_map_shown hlength hrow hcolumn, hplace, ← List.getElem?_map,
    List.map_congr_left fun value hvalue => shown_of_lt (hlt value hvalue)]

/-- A drawing reads back as the grid of its digits. -/
theorem readDrawing_drawing : readDrawing (drawing values) = .ok (Grid.ofValues values) := by
  have hcells : (List.range cellCount).filterMap (fun cell =>
      BoxGrid.cellAt? (drawing values) (row cell) (column cell)) = values.map digit := by
    calc (List.range cellCount).filterMap (fun cell =>
          BoxGrid.cellAt? (drawing values) (row cell) (column cell))
        = (List.range (values.map digit).length).filterMap fun cell => (values.map digit)[cell]? := by
          rw [List.length_map, hlength]
          refine List.filterMap_congr fun cell hcell => ?_
          exact cellAt?_drawing hlength hlt (List.mem_range.1 hcell)
      _ = values.map digit := filterMap_getElem?_range _
  have hkept : (values.map digit).filter (fun c => !isBlank c) = values.map digit := by
    rw [List.filter_eq_self]
    intro c hc
    obtain ⟨value, hvalue, rfl⟩ := List.mem_map.1 hc
    rw [isBlank_digit (hlt value hvalue)]
    rfl
  have hread : (values.map digit).mapM Grid.readCell = .ok (Grid.ofValues values).cells := by
    rw [List.mapM_map]
    exact mapM_eq_ok fun value hvalue => readCell_digit (hlt value hvalue)
  have hcount : (Grid.ofValues values).cells.length = cellCount := by
    rw [Grid.ofValues, List.length_map, hlength]
  unfold readDrawing Grid.parse
  rw [hcells, String.toList_ofList, hkept, hread]
  simp only [bind, Except.bind, if_pos hcount]
  rfl

end Values

/-! ## Values of any size -/

/-- **What a drawing tells about the values.**  In either build, 81 values with successors that are
words are drawn, each in its cell as the digit that the low 32 bits of its successor are, or as a
question mark if they are no digit.  So a cell tells a value below nine, and marks a larger one, unless
the value is large and those bits are a digit all the same; that cannot be if the successors have 32
bits.  The values can be read back if all of them are below nine. -/
theorem render_shows_lowBits (build : Build) (hlength : values.length = 81)
    (hwords : ∀ value ∈ values, value + 1 < wordCount) :
    ∃ drawing, render build values = .ok drawing ∧
      (∀ r < 9, ∀ c < 9, ∃ value, values[9 * r + c]? = some value ∧
        BoxGrid.cellAt? drawing r c =
          some (if lowBits value < 10 then (lowBits value).digitChar else '?') ∧
        (BoxGrid.cellAt? drawing r c = some (mark value) ↔ (lowBits value < 10 → value ≤ 8))) ∧
      ((∀ value ∈ values, value + 1 < 2 ^ 32) →
        ∀ r < 9, ∀ c < 9, BoxGrid.cellAt? drawing r c = values[9 * r + c]?.map mark) ∧
      ((∀ value ∈ values, value ≤ 8) → readDrawing drawing = .ok (Grid.ofValues values)) := by
  refine ⟨_, render_of_words hlength hwords, ?_, ?_, ?_⟩
  · intro r hr c hc
    have hcell : 9 * r + c < values.length := by omega
    rw [cellAt?_map_shown hlength hr hc, List.getElem?_eq_getElem hcell, Option.map_some]
    exact ⟨_, rfl, rfl, by rw [Option.some.injEq, shown_eq_mark_iff]⟩
  · -- A number of 32 bits is its own low bits, so what is no digit is not shown as one.
    intro hsmall r hr c hc
    rw [cellAt?_map_shown hlength hr hc]
    refine Option.map_congr fun value hvalue => shown_eq_mark_iff.2 fun hdigit => ?_
    rw [lowBits_of_lt (hsmall value (List.mem_of_getElem? hvalue))] at hdigit
    omega
  · intro hdigits
    have hlt : ∀ value ∈ values, value < 9 := fun value hvalue =>
      Nat.lt_succ_of_le (hdigits value hvalue)
    rw [← drawing_eq hlt]
    exact readDrawing_drawing hlength hlt

/-- The value nine, the largest value whose successor has 32 bits, and the largest of all. -/
theorem render_shows_lowBits_large :
    let values := [9, 2 ^ 32 - 2, wordCount - 2] ++ List.replicate 78 0
    (values.length = 81 ∧ ∀ value ∈ values, value + 1 < wordCount) ∧
      ∀ build, ∃ drawing, render build values = .ok drawing ∧
        BoxGrid.cellAt? drawing 0 0 = some '?' ∧ BoxGrid.cellAt? drawing 0 1 = some '?' ∧
        BoxGrid.cellAt? drawing 0 2 = some '?' ∧ BoxGrid.cellAt? drawing 8 8 = some '1' := by
  intro values
  have hlength : values.length = 81 := by decide
  have hwords : ∀ value ∈ values, value + 1 < wordCount := by decide
  refine ⟨⟨hlength, hwords⟩, fun build => ?_⟩
  obtain ⟨drawing, hrender, hcells, -, -⟩ := render_shows_lowBits build hlength hwords
  have hcell : ∀ r < 9, ∀ c < 9, ∀ value, values[9 * r + c]? = some value →
      BoxGrid.cellAt? drawing r c =
        some (if lowBits value < 10 then (lowBits value).digitChar else '?') := by
    intro r hr c hc value hvalue
    obtain ⟨found, hfound, hshown, -⟩ := hcells r hr c hc
    rw [hshown, Option.some.inj (hvalue.symm.trans hfound)]
  exact ⟨drawing, hrender, hcell 0 (by decide) 0 (by decide) 9 rfl,
    hcell 0 (by decide) 1 (by decide) (2 ^ 32 - 2) rfl,
    hcell 0 (by decide) 2 (by decide) (wordCount - 2) rfl, hcell 8 (by decide) 8 (by decide) 0 rfl⟩

/-- A value with a successor of 33 bits is no digit, but it is drawn as a one, and the whole drawing is
that of a grid of ones. -/
theorem render_confuses_large :
    let values := 2 ^ 32 :: List.replicate 80 0
    values.length = 81 ∧ (∀ value ∈ values, value + 1 < wordCount) ∧
      values[9 * 0 + 0]? = some (2 ^ 32) ∧ ¬2 ^ 32 ≤ 8 ∧
      ∀ build, ∃ drawing, render build values = .ok drawing ∧
        BoxGrid.cellAt? drawing 0 0 = some '1' ∧
        render build (List.replicate 81 0) = .ok drawing := by
  intro values
  have hlength : values.length = 81 := by decide
  have hwords : ∀ value ∈ values, value + 1 < wordCount := by decide
  have hzeros : ∀ value ∈ List.replicate 81 0, value + 1 < wordCount := by decide
  have hshown : (List.replicate 81 0).map shown = values.map shown := by decide
  refine ⟨hlength, hwords, rfl, by decide, fun build => ⟨_, render_of_words hlength hwords, ?_, ?_⟩⟩
  · rw [cellAt?_map_shown hlength (by decide) (by decide)]
    rfl
  · rw [render_of_words rfl hzeros, hshown]

end ConstraintSearch.Sudoku
