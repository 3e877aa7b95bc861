import ConstraintSearch.Puzzle.Model
import ConstraintSearch.Puzzle.Sudoku.Grid

/-!
# Sudoku as a problem

The variables are the 81 cells, with the values `0, …, 8`.  A group is a row, a column or a box.
Every two cells of a group must differ, and every cell with a given digit must have that digit;
the givens are the context of the search.
-/

namespace ConstraintSearch.Sudoku

/-- Whether two cells have different values. -/
def differ (cells : List Nat) (values : Array Nat) : Except Fault Bool := do
  let value₀ ← Checker.valueAt values (← Checker.variableAt cells 0)
  let value₁ ← Checker.valueAt values (← Checker.variableAt cells 1)
  return value₀ ≠ value₁

/-- Whether a cell has the value that is given for it. -/
def matchesGiven (cells : List Nat) (values givens : Array Nat) : Except Fault Bool := do
  let cell ← Checker.variableAt cells 0
  let value ← Checker.valueAt values cell
  let given ← Checker.valueAt givens cell
  return value = given

/-- The checker that the constraints on given cells share. -/
def fixed : Checker Unit (Array Nat) := .ofPure 0 matchesGiven

/-- The checker that the constraints on pairs of cells share. -/
def different : Checker Unit (Array Nat) :=
  .ofPure 1 fun cells values _ => differ cells values

/-- The number of groups. -/
def groupCount : Nat := 3 * gridSize

/-- The cell at a place of a group.  Groups are counted through rows, columns and boxes. -/
def groupCell (group place : Nat) : Nat :=
  let index := group % gridSize
  match group / gridSize with
  | 0 => index * gridSize + place
  | 1 => place * gridSize + index
  | _ =>
      -- Boxes are counted row by row, and so are the places in a box.
      let row := index / 3 * 3 + place / 3
      let column := index % 3 * 3 + place % 3
      row * gridSize + column

/-- The pairs of cells that share a group, group by group. -/
def cellPairs : List (Nat × Nat) :=
  (List.range groupCount).flatMap fun group =>
    (List.range gridSize).flatMap fun i =>
      (List.range' (i + 1) (gridSize - (i + 1))).map fun j =>
        (groupCell group i, groupCell group j)

/-- The model of a grid: first the given cells, then the pairs. -/
def model (grid : Grid) : Action (Model (Array Nat)) := do
  let constraints ← grid.givenCells.foldlM (fun constraints cell =>
    Model.addConstraint constraints fixed [cell]) #[]
  let constraints ← cellPairs.foldlM (fun constraints (one, other) =>
    Model.addConstraint constraints different [one, other]) constraints
  Action.record (.sudokuModelled grid.givenCount constraints.size)
  return { variableCount := cellCount, domainSize := gridSize, constraints }

/-- Uses the model of a grid, which is given up afterwards. -/
def withModel {α : Type} (grid : Grid) (use : Model (Array Nat) → Action α) : Action α := do
  let sudoku ← model grid
  (use sudoku).followedBy sudoku.drop

end ConstraintSearch.Sudoku
