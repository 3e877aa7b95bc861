import ConstraintSearch.Puzzle.BoxGrid
import ConstraintSearch.Puzzle.Model

/-!
# Queens

On a board of `n` rows and columns stand `n` queens, none of which attacks another.  Variable `i`
is the column of the queen on row `i`, so no two queens share a row.  For every pair of rows one
constraint forbids a shared column and a shared diagonal.

Two queens share a diagonal when the sum, or the difference, of row and column is the same.  Both
are tested with sums, because words have no negative numbers.
-/

namespace ConstraintSearch.Queens

/-- Whether the queens on two rows leave each other alone. -/
def compatible (build : Build) (rows : List Nat) (columns : Array Nat) : Except Fault Bool := do
  let row₀ ← Checker.variableAt rows 0
  let row₁ ← Checker.variableAt rows 1
  let column₀ ← Checker.valueAt columns row₀
  let column₁ ← Checker.valueAt columns row₁
  if column₀ = column₁ then return false
  -- On the descending diagonal `row₀ - column₀ = row₁ - column₁`, on the ascending one the sums of
  -- row and column are the same.
  let falling₀ ← build.add row₀ column₁
  let falling₁ ← build.add row₁ column₀
  if falling₀ = falling₁ then return false
  let rising₀ ← build.add row₀ column₀
  let rising₁ ← build.add row₁ column₁
  return rising₀ ≠ rising₁

/-- The checker of a single queen, which nothing attacks. -/
def alone : Checker Unit Unit := .ofPure 0 fun _ _ _ => .ok true

/-- The checker that the constraints on pairs share. -/
def pairwise (build : Build) : Checker Unit Unit :=
  .ofPure 1 fun rows columns _ => compatible build rows columns

/-- The pairs of rows, in row-major order. -/
def pairs (size : Nat) : List (Nat × Nat) :=
  (List.range size).flatMap fun i => (List.range' (i + 1) (size - (i + 1))).map (i, ·)

/-- The number of bytes that a constraint takes in a list. -/
def constraintBytes : Nat := 40

/-- The model of a board.  Room for one constraint for every pair is made beforehand; a single
queen has no pair, and a problem still needs a constraint. -/
def model (size : Nat) : Action (Model Unit) := do
  Action.require (0 < size) .emptyBoard
  let build ← read
  let ordered ← Action.ofExcept (build.multiply size (size - 1))
  Action.require (ordered / 2 * constraintBytes ≤ largestList) .capacity
  let constraints ← if size = 1 then Model.addConstraint #[] alone [0] else pure #[]
  let constraints ← (pairs size).foldlM (fun constraints (i, j) =>
    Model.addConstraint constraints (pairwise build) [i, j]) constraints
  return { variableCount := size, domainSize := size, constraints }

/-- Uses the model of a board, which is given up afterwards. -/
def withModel {α : Type} (size : Nat) (use : Model Unit → Action α) : Action α := do
  let board ← model size
  (use board).followedBy board.drop

/-- The model of a board as a value. -/
def outline (model : Model Unit) : Outline :=
  .record "QueensModel"
    [("size", .number model.variableCount),
      ("constraints", .list (model.constraints.toList.map Constraint.outline))] true

/-- Draws a board with a queen in the given column of each row. -/
def render (queens : List Nat) : String :=
  let columns := queens.toArray
  BoxGrid.render columns.size fun row column =>
    if columns[row]? = some column then '♛' else ' '

end ConstraintSearch.Queens
