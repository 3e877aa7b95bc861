import ConstraintSearch.CommandLine.Program

/-!
# Running the programs

The first argument names the program, `solve-queens` or `solve-sudoku`, and the others are its own.
What a program does is defined in `ConstraintSearch.CommandLine.Program`; here are only the streams
and the real clock.

The work of a program is a function of a clock that counts with the tried values, and no clock can be
read inside it.  So a time limit is watched from outside: the work is done as if the limit were reached
after a number of tried values that doubles from one time to the next.  It is done for good when it
ends by itself, or when the real clock has reached the limit by then.  Whatever is written is what
`QueensOrder.work` yields by some clock.
-/

namespace ConstraintSearch.CommandLine

/-- A clock that stands still until so many values were tried and then has reached the limit. -/
def reachedAfter (tried limit : Nat) : Nat → Nat := fun nodes => if nodes < tried then 0 else limit

/-- The work of the queens program with a time limit, under the real clock. -/
def workTimed (order : QueensOrder) (limit : Nat) : IO (Ended × Array Message) := do
  let stopped := QueensOrder.stopped .timeLimit
  let began ← IO.monoMsNow
  let mut tried := order.config.checkInterval
  -- No more than all words can be counted, so the last number is never reached.
  for _ in [0:64] do
    let (ended, log) := Ended.ofAction .checked (order.work (reachedAfter tried limit))
    let spent := (← IO.monoMsNow) - began
    if ended.output ≠ stopped ∨ limit ≤ spent then return (ended, log)
    tried := 2 * tried
  return Ended.ofAction .checked (order.work fun _ => 0)

/-- Writes what a program has written. -/
def deliver (ended : Ended) : IO UInt32 := do
  (← IO.getStdout).putStr ended.output
  for complaint in ended.complaints do
    (← IO.getStderr).putStrLn complaint
  return ended.exit.toUInt32

/-- Writes the messages that were asked for. -/
def deliverLog (verbose : Bool) (log : Array Message) : IO Unit := do
  let level : Level := if verbose then .debug else .warn
  for message in log do
    if message.upTo level then
      (← IO.getStderr).putStrLn ("[" ++ message.level.name ++ "] " ++ message.text)

end ConstraintSearch.CommandLine

open ConstraintSearch CommandLine in
/-- Runs the program that the first argument names. -/
def main (arguments : List String) : IO UInt32 := do
  match arguments with
  | "solve-queens" :: rest =>
      match QueensOrder.parse rest with
      | .error stop => deliver (.ofStop QueensOrder.usage stop)
      | .ok order =>
          let (ended, log) ← match order.config.timeLimit with
            | some limit => workTimed order limit
            | none => pure (Ended.ofAction .checked (order.work fun _ => 0))
          deliverLog order.verbose log
          deliver ended
  | "solve-sudoku" :: rest =>
      match SudokuOrder.parse rest with
      | .error stop => deliver (.ofStop SudokuOrder.usage stop)
      | .ok order =>
          let (ended, log) := Ended.ofAction .checked order.work
          deliverLog order.verbose log
          deliver ended
  | _ =>
      deliver (.ofStop (QueensOrder.usage ++ "\n" ++ SudokuOrder.usage) .mistake)
