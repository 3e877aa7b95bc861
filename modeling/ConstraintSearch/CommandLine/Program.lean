import ConstraintSearch.CommandLine.Arguments
import ConstraintSearch.Puzzle.Queens
import ConstraintSearch.Puzzle.Sudoku.Model

/-!
# The programs

One program places queens on a board, the other solves a sudoku.  What a program does is a function
of its arguments, the build, and the clock that a time limit is measured with.

A program ends with exit code 0 when it has done its work, 1 when the puzzle cannot be posed, 2 when
its arguments have a mistake, and 101 on a fault.
-/

namespace ConstraintSearch.CommandLine

/-- How a program ends. -/
structure Ended where
  exit : Nat
  /-- What it has written as its answer. -/
  output : String := ""
  /-- What it complains about. -/
  complaints : List String := []
  deriving DecidableEq, Repr

namespace Ended

/-- The end of a program that does not begin its work. -/
def ofStop (usage : String) : Stop → Ended
  | .mistake => { exit := 2, complaints := [usage] }
  | .version => { exit := 0, output := "u-csp 0.1.0\n" }
  | .help => { exit := 0, output := usage ++ "\n" }

/-- The end of a program that ends in a failure. -/
def ofFailure : Failure → Ended
  | .problem error =>
      { exit := 1, complaints := ["Execution failed, error: " ++ error.message] }
  | .fault fault => { exit := 101, complaints := [fault.message] }

/-- The end of a program whose work is an operation on a library that is used for nothing else. -/
def ofAction (build : Build) (work : Action String) : Ended × Array Message :=
  match work.whileHeld true build {} with
  | .ok output library => ({ exit := 0, output }, library.log)
  | .error failure library => (ofFailure failure, library.log)

end Ended

/-- The flag that asks for more messages. -/
def verboseFlag : OptionRule where
  letter := 'v'
  name := "verbose"
  accepts := none

/-! ## Queens -/

/-- What the queens program is asked to do. -/
structure QueensOrder where
  size : Nat
  config : Config
  verbose : Bool

namespace QueensOrder

/-- The number of rows: a positive number of 32 bits. -/
def size? (text : String) : Option Nat := (number? 0xffffffff text).filter (0 < ·)

/-- A limit: a word. -/
def limit? (text : String) : Option Nat := number? (wordCount - 1) text

/-- What the program takes. -/
def interface : Interface where
  options :=
    [{ letter := 'n', name := "node-limit", accepts := some fun text => (limit? text).isSome },
      { letter := 't', name := "time-limit", accepts := some fun text => (limit? text).isSome },
      verboseFlag]
  acceptsPlain text := (size? text).isSome

/-- How the program is called. -/
def usage : String :=
  "Usage: solve-queens [-n NODES] [-t MILLISECONDS] [-v] SIZE"

/-- Reads the arguments. -/
def parse (arguments : List String) : Except Stop QueensOrder := do
  let read ← Arguments.parse interface arguments
  match read.plain.bind size? with
  | none => throw .mistake
  | some size =>
      return {
        size
        config :=
          { nodeLimit := (read.value? 'n').bind limit?, timeLimit := (read.value? 't').bind limit? }
        verbose := read.has 'v' }

/-- What the program writes about a search that was stopped. -/
def stopped (status : Status) : String := "Search stopped early: " ++ status.name ++ "\n"

/-- What the program writes about the outcome of its search. -/
def conclusion (result : Result) (queens : Array Nat) : String :=
  if result.isSolved then Queens.render queens.toList
  else if result.isInfeasible then "No solution found\n"
  else stopped result.status

/-- The search for queens on the board. -/
def search (order : QueensOrder) (elapsed : Nat → Nat) (problem : Problem Unit Unit) :
    Search Unit Unit :=
  { problem, context := (), config := order.config, elapsed }

/-- The work of the program. -/
def work (order : QueensOrder) (elapsed : Nat → Nat) : Action String :=
  Queens.withModel order.size fun board => board.withProblem fun problem => do
    let (result, queens) ←
      (order.search elapsed problem).within (Array.replicate order.size 0)
    Action.record (.queensSearched result.status result.stats)
    return conclusion result queens

/-- The whole program.  How its arguments are read is up to `parse`. -/
def run (parse : List String → Except Stop QueensOrder) (build : Build) (elapsed : Nat → Nat)
    (arguments : List String) : Ended :=
  match parse arguments with
  | .error stop => .ofStop usage stop
  | .ok order => (Ended.ofAction build (order.work elapsed)).1

end QueensOrder

/-! ## Sudoku -/

/-- What the sudoku program is asked to do. -/
structure SudokuOrder where
  puzzle : String
  verbose : Bool

namespace SudokuOrder

/-- The puzzle that is solved when none is given. -/
def defaultPuzzle : String :=
  "000600470098000062004010500900300600420008903600197050006073800309851706070020045"

/-- What the program takes. -/
def interface : Interface where
  options := [verboseFlag]
  acceptsPlain _ := true

/-- How the program is called. -/
def usage : String := "Usage: solve-sudoku [-v] [PUZZLE]"

/-- Reads the arguments. -/
def parse (arguments : List String) : Except Stop SudokuOrder := do
  let read ← Arguments.parse interface arguments
  return { puzzle := read.plain.getD defaultPuzzle, verbose := read.has 'v' }

/-- The work of the program. -/
def work (order : SudokuOrder) : Action String := do
  let grid ← match Sudoku.Grid.parse order.puzzle with
    | .ok grid => pure grid
    | .error error => Action.refused error
  let solution ← Sudoku.withModel grid fun sudoku => sudoku.solve grid.values.toArray
  match solution with
  | none => return "No solution found\n"
  | some values =>
      let drawing ← Action.ofExcept (Sudoku.render (← read) values)
      return "Solution found\n" ++ drawing

/-- The whole program.  How its arguments are read is up to `parse`. -/
def run (parse : List String → Except Stop SudokuOrder) (build : Build) (arguments : List String) :
    Ended :=
  match parse arguments with
  | .error stop => .ofStop usage stop
  | .ok order => (Ended.ofAction build order.work).1

end SudokuOrder

end ConstraintSearch.CommandLine
