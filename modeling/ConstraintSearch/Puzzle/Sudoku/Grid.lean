import ConstraintSearch.Build
import ConstraintSearch.Puzzle.BoxGrid
import ConstraintSearch.Text.Blank

/-!
# Sudoku grids

A grid has 81 cells, row by row; each is blank or holds a given digit from 1 to 9.  A text is a
grid if its characters, white space aside, stand for the cells: a digit for itself, a full stop or
a zero for a blank.
-/

namespace ConstraintSearch.Sudoku

/-- The number of rows, of columns, of boxes and of digits. -/
def gridSize : Nat := 9

/-- The number of cells. -/
def cellCount : Nat := gridSize * gridSize

/-- A sudoku to solve. -/
structure Grid where
  /-- The cells, row by row. -/
  cells : List (Option Nat)
  deriving DecidableEq, Repr, Inhabited

namespace Grid

/-- The cell that a character stands for. -/
def readCell (c : Char) : Except ProblemError (Option Nat) :=
  if c = '.' ∨ c = '0' then .ok none
  else if '1' ≤ c ∧ c ≤ '9' then .ok (some (c.toNat - '0'.toNat))
  else .error (.invalidPuzzle ("unexpected character " ++ quotedChar c))

/-- Reads a grid.  A character that stands for no cell counts before a wrong number of cells. -/
def parse (text : String) : Except ProblemError Grid := do
  let cells ← (text.toList.filter fun c => !isBlank c).mapM readCell
  if cells.length = cellCount then
    return { cells }
  else
    throw (.invalidPuzzle s!"expected {cellCount} cells, found {cells.length}")

/-- How a cell is written. -/
def cellText : Option Nat → String
  | none => "."
  | some digit => toString digit

/-- Writes a grid, cell by cell. -/
def text (grid : Grid) : String := String.join (grid.cells.map cellText)

/-- The digit given in a cell. -/
def given (grid : Grid) (cell : Nat) : Except Fault (Option Nat) :=
  match grid.cells[cell]? with
  | some digit => .ok digit
  | none => .error (.indexOutOfBounds grid.cells.length cell)

/-- The number of given digits. -/
def givenCount (grid : Grid) : Nat := grid.cells.countP Option.isSome

/-- The cells with a given digit, in order. -/
def givenCells (grid : Grid) : List Nat :=
  (List.range grid.cells.length).filter fun cell => (grid.cells[cell]?.join).isSome

/-- The values that the cells are to have: one less than the digit.  A blank has the value 0 here,
which nothing refers to. -/
def values (grid : Grid) : List Nat := grid.cells.map fun cell => cell.getD 1 - 1

/-- The grid as a value. -/
def outline (grid : Grid) : Outline :=
  .record "Grid" [("cells", .list (grid.cells.map (.optional .number)))] true

end Grid

/-- The character that stands for a value: the digit one above it, as far as its low 32 bits are a
digit. -/
def digitOf (build : Build) (value : Nat) : Except Fault Char := do
  let digit := (← build.add value 1) % 0x100000000
  return if digit < 10 then Char.ofNat ('0'.toNat + digit) else '?'

/-- Draws the values of the cells. -/
def render (build : Build) (values : List Nat) : Except Fault String := do
  if values.length ≠ cellCount then throw (.wrongLength .cells values.length cellCount)
  let digits := (← values.mapM (digitOf build)).toArray
  return BoxGrid.render gridSize fun row column => digits.getD (row * gridSize + column) ' '

end ConstraintSearch.Sudoku
