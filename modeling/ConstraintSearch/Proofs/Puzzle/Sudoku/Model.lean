import ConstraintSearch.Proofs.Puzzle.Model
import ConstraintSearch.Proofs.Puzzle.Sudoku.Grid
import ConstraintSearch.Proofs.Puzzle.Sudoku.Groups

/-!
# Solving sudoku

The solutions of the model of a grid are the completions of the grid (`solves_puzzle_iff`): the
constraints on pairs amount to the rules for rows, columns and boxes, and those on given cells to
the given digits.  A blank cell has no constraint of its own, so its value in the context does not
matter.

There are at most 81 constraints on given cells, and 972 on pairs: 36 for each of the 27 groups.  Two
cells may share a box and a row or column besides, and then they have two constraints, which changes
nothing for the solutions.
-/

namespace ConstraintSearch.Sudoku

variable {build : Build} {grid : Grid} {values : List Nat} {cell digit : Nat}

/-- A grid is completed by 81 values, each one less than a digit, that stand once in every row,
column and box and agree with the given digits. -/
structure Completion (grid : Grid) (values : List Nat) : Prop where
  length : values.length = 81
  lt : ∀ value ∈ values, value < 9
  rows : EachOnce row values
  columns : EachOnce column values
  boxes : EachOnce box values
  given : ∀ cell digit : Nat, grid.cells[cell]? = some (some digit) →
    ∃ value, values[cell]? = some value ∧ digit = value + 1

/-! ## The model of a grid -/

theorem Grid.mem_givenCells :
    cell ∈ grid.givenCells ↔ ∃ digit, grid.cells[cell]? = some (some digit) := by
  unfold Grid.givenCells
  rw [List.mem_filter, List.mem_range, Option.isSome_iff_exists]
  constructor
  · rintro ⟨-, digit, hdigit⟩
    exact ⟨digit, Option.join_eq_some_iff.1 hdigit⟩
  · rintro ⟨digit, hdigit⟩
    exact ⟨(List.getElem?_eq_some_iff.1 hdigit).1, digit, Option.join_eq_some_iff.2 hdigit⟩

theorem Grid.getElem?_values (grid : Grid) (cell : Nat) :
    grid.values[cell]? = grid.cells[cell]?.map fun content => content.getD 1 - 1 := by
  unfold Grid.values
  exact List.getElem?_map ..

/-- The constraint on a given cell. -/
def givenConstraint (cell : Nat) : Constraint Unit (Array Nat) where
  scope := [cell]
  checker := fixed

/-- The constraint on a pair of cells. -/
def pairConstraint (pair : Nat × Nat) : Constraint Unit (Array Nat) where
  scope := [pair.1, pair.2]
  checker := different

/-- The model that is built. -/
def puzzle (grid : Grid) : Model (Array Nat) where
  variableCount := cellCount
  domainSize := gridSize
  constraints := (grid.givenCells.map givenConstraint ++ cellPairs.map pairConstraint).toArray

theorem yields_model (grid : Grid) : (model grid).Yields build (· = puzzle grid) := by
  have hgiven : ∀ cell : Nat, 0 < [cell].length := fun _ => Nat.zero_lt_one
  have hpair : ∀ pair : Nat × Nat, 0 < [pair.1, pair.2].length := fun _ => Nat.zero_lt_two
  unfold model puzzle
  refine (Model.yields_addConstraints hgiven (fun _ => rfl) #[] grid.givenCells).bind ?_
  intro first hfirst
  refine (Model.yields_addConstraints hpair (fun _ => rfl) first cellPairs).bind ?_
  intro constraints hconstraints
  refine (Action.yields_record _).bind fun _ _ => ?_
  apply Action.Yields.pure
  have hsame : constraints = constraints.toList.toArray := Array.toArray_toList.symm
  rw [hsame, hconstraints, hfirst]
  rfl

theorem mem_puzzle {constraint : Constraint Unit (Array Nat)} :
    constraint ∈ (puzzle grid).constraints ↔
      (∃ cell ∈ grid.givenCells, constraint = givenConstraint cell) ∨
        ∃ pair ∈ cellPairs, constraint = pairConstraint pair := by
  simp only [puzzle, List.mem_toArray, List.mem_append, List.mem_map, eq_comm (a := constraint)]

/-! ## The checkers -/

theorem check_givenConstraint {assignment givens : Array Nat} {value given : Nat}
    (hvalue : assignment[cell]? = some value) (hgiven : givens[cell]? = some given) :
    (givenConstraint cell).check assignment givens () = .ok (decide (value = given)) () := by
  have hmatches : matchesGiven [cell] assignment givens = .ok (decide (value = given)) := by
    have hcell : Checker.variableAt [cell] 0 = .ok cell := rfl
    unfold matchesGiven
    rw [hcell]
    simp only [bind, Except.bind, Checker.valueAt_of_getElem? hvalue,
      Checker.valueAt_of_getElem? hgiven]
    rfl
  unfold Constraint.check givenConstraint fixed Checker.ofPure
  simp only [hmatches]

theorem check_pairConstraint {assignment givens : Array Nat} {pair : Nat × Nat} {value other : Nat}
    (hvalue : assignment[pair.1]? = some value) (hother : assignment[pair.2]? = some other) :
    (pairConstraint pair).check assignment givens () = .ok (decide (value ≠ other)) () := by
  have hdiffer : differ [pair.1, pair.2] assignment = .ok (decide (value ≠ other)) := by
    have hcell : Checker.variableAt [pair.1, pair.2] 0 = .ok pair.1 := rfl
    have hcell' : Checker.variableAt [pair.1, pair.2] 1 = .ok pair.2 := rfl
    unfold differ
    rw [hcell, hcell']
    simp only [bind, Except.bind, Checker.valueAt_of_getElem? hvalue,
      Checker.valueAt_of_getElem? hother]
    rfl
  unfold Constraint.check pairConstraint different Checker.ofPure
  simp only [hdiffer]

/-- The context has the value for every given cell. -/
theorem Grid.getElem?_values_of_given (h : grid.cells[cell]? = some (some digit)) :
    grid.values.toArray[cell]? = some (digit - 1) := by
  rw [List.getElem?_toArray, grid.getElem?_values, h]
  rfl

/-! ## Solutions -/

theorem scope_lt_of_mem_puzzle (hgrid : grid.WellFormed) {constraint : Constraint Unit (Array Nat)}
    (hconstraint : constraint ∈ (puzzle grid).constraints) :
    ∀ v ∈ constraint.scope, v < cellCount := by
  intro v hv
  rcases mem_puzzle.1 hconstraint with ⟨cell, hcell, rfl⟩ | ⟨pair, hpair, rfl⟩
  · obtain ⟨digit, hdigit⟩ := Grid.mem_givenCells.1 hcell
    rw [List.mem_singleton.1 hv, ← hgrid.length]
    exact (List.getElem?_eq_some_iff.1 hdigit).1
  · obtain ⟨hfirst, hsecond⟩ := lt_of_mem_cellPairs hpair
    simp only [pairConstraint, List.mem_cons, List.not_mem_nil, or_false] at hv
    rcases hv with rfl | rfl
    · exact hfirst
    · exact hsecond

theorem fit_puzzle (hgrid : grid.WellFormed) : (puzzle grid).Fit where
  variables_pos := show 0 < 81 by decide
  constraints_pos := by
    have hsize : cellPairs.length ≤ (puzzle grid).constraints.size := by
      simp [puzzle]
    rw [length_cellPairs] at hsize
    omega
  variables_room := show hasRoom 81 = true by decide
  constraints_room := by
    -- At most 81 given cells and 972 pairs, which is far below the longest list.
    have hgiven : grid.givenCells.length ≤ cellCount := by
      rw [← hgrid.length]
      unfold Grid.givenCells
      exact (List.length_filter_le ..).trans (Nat.le_of_eq List.length_range)
    have hsize : (puzzle grid).constraints.size = grid.givenCells.length + 972 := by
      simp [puzzle, length_cellPairs]
    unfold cellCount gridSize at hgiven
    apply decide_eq_true
    show (puzzle grid).constraints.size < 0xfffffffffffffff
    omega
  scope_lt _ hconstraint := scope_lt_of_mem_puzzle hgrid hconstraint

/-- A checker answers by the values of its cells, as long as they have values. -/
theorem exists_verdict {constraint : Constraint Unit (Array Nat)}
    (hconstraint : constraint ∈ (puzzle grid).constraints) :
    ∃ verdict : List Nat → Bool, ∀ assignment : Array Nat,
      (∀ v ∈ constraint.scope, ∃ value, assignment[v]? = some value) →
      constraint.check assignment grid.values.toArray () =
        .ok (verdict (constraint.values assignment)) () := by
  rcases mem_puzzle.1 hconstraint with ⟨cell, hcell, rfl⟩ | ⟨pair, hpair, rfl⟩
  · obtain ⟨digit, hdigit⟩ := Grid.mem_givenCells.1 hcell
    refine ⟨fun values => decide (values.getD 0 0 = digit - 1), ?_⟩
    intro assignment hvalues
    obtain ⟨value, hvalue⟩ := hvalues cell List.mem_cons_self
    rw [check_givenConstraint hvalue (Grid.getElem?_values_of_given hdigit)]
    simp [Constraint.values, givenConstraint, hvalue]
  · refine ⟨fun values => decide (values.getD 0 0 ≠ values.getD 1 0), ?_⟩
    intro assignment hvalues
    obtain ⟨value, hvalue⟩ := hvalues pair.1 List.mem_cons_self
    obtain ⟨other, hother⟩ := hvalues pair.2 (List.mem_cons_of_mem pair.1 List.mem_cons_self)
    rw [check_pairConstraint hvalue hother]
    simp [Constraint.values, pairConstraint, hvalue, hother]

theorem local_puzzle (grid : Grid) : (puzzle grid).Local grid.values.toArray := by
  intro constraint hconstraint
  obtain ⟨verdict, hverdict⟩ := exists_verdict hconstraint
  refine ⟨verdict, ?_⟩
  intro assignment _ hvalues
  apply hverdict
  intro v hv
  obtain ⟨value, hvalue, -⟩ := hvalues v hv
  exact ⟨value, hvalue⟩

/-- The checkers do not ask whether the values belong to the domain. -/
theorem local_made (hgrid : grid.WellFormed) :
    (puzzle grid).made.Local grid.values.toArray := by
  intro constraint hattached
  have hconstraint := Model.mem_made.1 hattached
  obtain ⟨verdict, hverdict⟩ := exists_verdict hconstraint
  refine ⟨verdict, fun assignment _ hsize => ⟨(), hverdict assignment ?_⟩⟩
  intro v hv
  have hcell : v < assignment.size := by
    rw [hsize, Model.made, Array.size_replicate]
    exact scope_lt_of_mem_puzzle hgrid hconstraint v hv
  exact ⟨assignment[v], Array.getElem?_eq_getElem hcell⟩

/-- The constraints on given cells accept exactly if these hold their digits. -/
theorem forall_given_iff (hgrid : grid.WellFormed) (hlength : values.length = cellCount) :
    (∀ cell ∈ grid.givenCells,
        (givenConstraint cell).check values.toArray grid.values.toArray () = .ok true ()) ↔
      ∀ cell digit : Nat, grid.cells[cell]? = some (some digit) →
        ∃ value, values[cell]? = some value ∧ digit = value + 1 := by
  constructor
  · intro haccepted cell digit hdigit
    have hcell : cell < values.length := by
      rw [hlength, ← hgrid.length]
      exact (List.getElem?_eq_some_iff.1 hdigit).1
    have hvalue : values[cell]? = some values[cell] := List.getElem?_eq_getElem hcell
    have hcheck := haccepted cell (Grid.mem_givenCells.2 ⟨digit, hdigit⟩)
    rw [check_givenConstraint ((List.getElem?_toArray ..).trans hvalue)
      (Grid.getElem?_values_of_given hdigit)] at hcheck
    injection hcheck with hdecide
    have heq : values[cell] = digit - 1 := of_decide_eq_true hdecide
    have hpos := (hgrid.digit digit (List.mem_of_getElem? hdigit)).1
    exact ⟨values[cell], hvalue, by omega⟩
  · intro hgiven cell hcell
    obtain ⟨digit, hdigit⟩ := Grid.mem_givenCells.1 hcell
    obtain ⟨value, hvalue, heq⟩ := hgiven cell digit hdigit
    rw [check_givenConstraint ((List.getElem?_toArray ..).trans hvalue)
      (Grid.getElem?_values_of_given hdigit), heq, Nat.add_sub_cancel, decide_eq_true rfl]

/-- The constraints on pairs accept exactly if the cells of each pair differ. -/
theorem forall_pair_iff (hlength : values.length = cellCount) (givens : Array Nat) :
    (∀ pair ∈ cellPairs, (pairConstraint pair).check values.toArray givens () = .ok true ()) ↔
      ∀ pair ∈ cellPairs, values[pair.1]? ≠ values[pair.2]? := by
  refine forall₂_congr fun pair hpair => ?_
  obtain ⟨hfirst, hsecond⟩ := lt_of_mem_cellPairs hpair
  rw [← hlength] at hfirst hsecond
  have hvalue : values[pair.1]? = some values[pair.1] := List.getElem?_eq_getElem hfirst
  have hother : values[pair.2]? = some values[pair.2] := List.getElem?_eq_getElem hsecond
  rw [check_pairConstraint ((List.getElem?_toArray ..).trans hvalue)
    ((List.getElem?_toArray ..).trans hother), hvalue, hother]
  simp

/-- The solutions of a grid are its completions. -/
theorem solves_puzzle_iff (hgrid : grid.WellFormed) :
    (puzzle grid).Solves grid.values.toArray values ↔ Completion grid values := by
  constructor
  · rintro ⟨hlength, hlt, haccepted⟩
    have hgiven := (forall_given_iff hgrid hlength).1 fun cell hcell =>
      haccepted _ (mem_puzzle.2 (.inl ⟨cell, hcell, rfl⟩))
    have hpairs := (forall_pair_iff hlength grid.values.toArray).1 fun pair hpair =>
      haccepted _ (mem_puzzle.2 (.inr ⟨pair, hpair, rfl⟩))
    obtain ⟨hrows, hcolumns, hboxes⟩ := (forall_cellPairs_iff hlength hlt).1 hpairs
    exact ⟨hlength, hlt, hrows, hcolumns, hboxes, hgiven⟩
  · rintro ⟨hlength, hlt, hrows, hcolumns, hboxes, hgiven⟩
    refine ⟨hlength, hlt, ?_⟩
    intro constraint hconstraint
    have hpairs := (forall_cellPairs_iff hlength hlt).2 ⟨hrows, hcolumns, hboxes⟩
    rcases mem_puzzle.1 hconstraint with ⟨cell, hcell, rfl⟩ | ⟨pair, hpair, rfl⟩
    · exact (forall_given_iff hgrid hlength).2 hgiven cell hcell
    · exact (forall_pair_iff hlength grid.values.toArray).2 hpairs pair hpair

/-- A grid is solved by its lexicographically first completion, or there is none. -/
theorem yields_solve (hgrid : grid.WellFormed) :
    (withModel grid fun sudoku => sudoku.solve grid.values.toArray).Yields build
      (Model.Answers {values | Completion grid values}) :=
  (fit_puzzle hgrid).yields_answer (local_puzzle grid) (fun _ => solves_puzzle_iff hgrid)
    (yields_model grid)

/-- **Sudoku.**  On an active library, in either build, a grid that is read from a text is solved by
its lexicographically first completion, and it has no solution exactly if it has no completion.  The
context has the value 0 for a blank, like for a given 1, but nothing compares a blank with it. -/
theorem solve_least_completion (text : String) (grid : Grid) (build : Build) (library : Library)
    (hparse : Grid.parse text = .ok grid) (hactive : library.isActive = true) :
    ∃ answer after,
      withModel grid (fun sudoku => sudoku.solve grid.values.toArray) build library =
        .ok answer after ∧
      (∀ values, answer = some values ↔ IsLeast {values | Completion grid values} values) ∧
      (answer = none ↔ ∀ values, ¬Completion grid values) ∧
      ∀ cell : Nat, grid.cells[cell]? = some none → grid.values[cell]? = some 0 := by
  have hgrid := Grid.wellFormed_of_parse hparse
  have hanswers : (withModel grid fun sudoku => sudoku.solve grid.values.toArray).Yields build
      (Model.Answers {values | Completion grid values}) :=
    (fit_puzzle hgrid).yields_answer (local_puzzle grid) (fun values => solves_puzzle_iff hgrid)
      (yields_model grid)
  obtain ⟨answer, after, hanswer, -, hleast⟩ := hanswers library hactive
  refine ⟨answer, after, hanswer, hleast.eq_some_iff, hleast.eq_none_iff, ?_⟩
  intro cell hblank
  rw [grid.getElem?_values, hblank]
  rfl

/-- The values of a solved sudoku. -/
def solved : List Nat :=
  [4, 2, 3, 5, 6, 7, 8, 0, 1,
    5, 6, 1, 0, 8, 4, 2, 3, 7,
    0, 8, 7, 2, 3, 1, 4, 5, 6,
    7, 4, 8, 6, 5, 0, 3, 1, 2,
    3, 1, 5, 7, 4, 2, 6, 8, 0,
    6, 0, 2, 8, 1, 3, 7, 4, 5,
    8, 5, 0, 4, 2, 6, 1, 7, 3,
    1, 7, 6, 3, 0, 8, 5, 2, 4,
    2, 3, 4, 1, 7, 5, 0, 6, 8]

/-- The solved sudoku without its first digit. -/
def almostSolved : Grid where
  cells := none :: solved.tail.map fun value => some (value + 1)

private theorem getElem?_almostSolved (cell : Nat) :
    almostSolved.cells[cell + 1]? = solved[cell + 1]?.map fun value => some (value + 1) := by
  show (solved.tail.map _)[cell]? = _
  rw [List.getElem?_map, List.getElem?_tail]

/-- The solved sudoku completes it, since all pairs of cells differ. -/
private theorem completion_almostSolved : Completion almostSolved solved := by
  have hlt : ∀ value ∈ solved, value < 9 := by decide
  obtain ⟨hrows, hcolumns, hboxes⟩ := (forall_cellPairs_iff rfl hlt).1 (by decide +kernel)
  refine ⟨rfl, hlt, hrows, hcolumns, hboxes, ?_⟩
  intro cell digit hdigit
  cases cell with
  | zero => cases hdigit
  | succ cell =>
      rw [getElem?_almostSolved, Option.map_eq_some_iff] at hdigit
      obtain ⟨value, hvalue, heq⟩ := hdigit
      exact ⟨value, hvalue, (Option.some.inj heq).symm⟩

/-- Nothing else completes it, since the first row needs its 5. -/
private theorem Completion.eq_solved (h : Completion almostSolved values) : values = solved := by
  have hsame : ∀ cell, values[cell + 1]? = solved[cell + 1]? := by
    intro cell
    cases hvalue : solved[cell + 1]? with
    | none =>
        rw [List.getElem?_eq_none_iff] at hvalue ⊢
        exact h.length ▸ hvalue
    | some value =>
        have hdigit : almostSolved.cells[cell + 1]? = some (some (value + 1)) := by
          rw [getElem?_almostSolved, hvalue]
          rfl
        obtain ⟨own, hown, heq⟩ := h.given (cell + 1) (value + 1) hdigit
        rw [hown, Nat.succ.inj heq]
  apply List.ext_getElem?
  intro cell
  cases cell with
  | succ cell => exact hsame cell
  | zero =>
      -- The first cell is the only blank one.  Its row has to contain a 5 (the value 4), and no
      -- other cell of it does.
      obtain ⟨cell, ⟨hrow, hvalue⟩, -⟩ := h.rows 0 (by decide) 4 (by decide)
      cases cell with
      | zero => exact hvalue
      | succ cell =>
          have hlt : cell < 8 := by
            unfold row at hrow
            omega
          have hother : ∀ cell < 8, solved[cell + 1]? ≠ some 4 := by decide
          exact absurd ((hsame cell).symm.trans hvalue) (hother cell hlt)

/-- The blank cell gets its digit back, though the context has the value 0 for it. -/
theorem solve_least_completion_almostSolved :
    let library : Library := { activations := 1 }
    (Grid.parse
        ".34678912672195348198342567859761423426853791713924856961537284287419635345286179" =
        .ok almostSolved ∧
      library.isActive = true) ∧
    ∃ after, withModel almostSolved (fun sudoku => sudoku.solve almostSolved.values.toArray)
      .checked library = .ok (some solved) after := by
  intro library
  have hparse : Grid.parse
      ".34678912672195348198342567859761423426853791713924856961537284287419635345286179" =
      .ok almostSolved := by
    decide +kernel
  obtain ⟨answer, after, hanswer, hleast, -, -⟩ :=
    solve_least_completion _ almostSolved .checked library hparse rfl
  have hsolved : answer = some solved := by
    refine (hleast solved).2 ⟨completion_almostSolved, ?_⟩
    intro values hvalues
    exact le_of_eq (Completion.eq_solved hvalues).symm
  exact ⟨⟨hparse, rfl⟩, after, hsolved ▸ hanswer⟩

end ConstraintSearch.Sudoku
