import ConstraintSearch.Puzzle.Queens
import ConstraintSearch.Puzzle.Sudoku.Model
import ConstraintSearch.Session.Memory
import Std.Data.TreeMap

/-!
# Ready-made checkers

The checkers that a session can be given by name.  Most compare the values of the constraint's
variables with each other, with numbers or with the context, which is a list of numbers.  Three
reach further: `peek` reads a value that need not belong to the constraint, and `cancelAfter` and
`rejectFirst` count their calls.
-/

namespace ConstraintSearch

/-- How often each checker that counts has been called, by identity. -/
abbrev CallCounts := Std.TreeMap Nat Nat

/-- A ready-made checker. -/
inductive CheckerKind where
  | always
  | never
  | less
  | lessOrEqual
  | equal
  | differ
  | matchesGiven
  | sumEqual (n : Nat)
  | sumAtMost (n : Nat)
  | allDifferent
  | distanceNot (n : Nat)
  | forbid (tuples : List (List Nat))
  | allow (tuples : List (List Nat))
  /-- The first value equals a place of the context. -/
  | equalContext (n : Nat)
  /-- A slot of the assignment has a value, whether it is bound or not. -/
  | peek (n value : Nat)
  /-- Gives up when the first value is `n`, and accepts any other. -/
  | giveUpAt (n : Nat)
  /-- Accepts, and sets the cancellation flag from the `n`-th call on. -/
  | cancelAfter (n : Nat)
  /-- Rejects the first `n` calls. -/
  | rejectFirst (n : Nat)
  deriving DecidableEq, Repr

namespace CheckerKind

/-- The value of the variable in a slot. -/
def slotValue (scope : List Nat) (assignment : Array Nat) (slot : Nat) : Except Fault Nat := do
  Checker.valueAt assignment (← Checker.variableAt scope slot)

/-- The values of the first two slots, the first one read first. -/
def firstTwo (scope : List Nat) (assignment : Array Nat) (accept : Nat → Nat → Bool) :
    Except Fault Bool := do
  let a ← slotValue scope assignment 0
  let b ← slotValue scope assignment 1
  return accept a b

/-- The values of all slots. -/
def tuple (scope : List Nat) (assignment : Array Nat) (accept : List Nat → Bool) :
    Except Fault Bool := do
  return accept (← scope.mapM (Checker.valueAt assignment))

/-- The sum of the values, which no word need hold. -/
def total (values : List Nat) : Nat := values.foldl (· + ·) 0

/-- The answer of a checker that does not count its calls. -/
def answer (kind : CheckerKind) (scope : List Nat) (assignment context : Array Nat) :
    Except Fault Bool :=
  match kind with
  | .always => return true
  | .never => return false
  | .less => firstTwo scope assignment (· < ·)
  | .lessOrEqual => firstTwo scope assignment (· ≤ ·)
  | .equal => firstTwo scope assignment (· = ·)
  | .differ => Sudoku.differ scope assignment
  | .matchesGiven => Sudoku.matchesGiven scope assignment context
  | .sumEqual n => tuple scope assignment (total · = n)
  | .sumAtMost n => tuple scope assignment (total · ≤ n)
  | .allDifferent => tuple scope assignment (·.Nodup)
  | .distanceNot n => firstTwo scope assignment fun a b => max a b - min a b ≠ n
  | .forbid tuples => tuple scope assignment (!tuples.contains ·)
  | .allow tuples => tuple scope assignment (tuples.contains ·)
  | .equalContext n => do
      let value ← slotValue scope assignment 0
      return value = (← Checker.valueAt context n)
  | .peek n value => return (← Checker.valueAt assignment n) = value
  | .giveUpAt n => do
      let value ← slotValue scope assignment 0
      if value = n then throw (.gaveUp s!"checker refused value {n}")
      return true
  | .cancelAfter _ | .rejectFirst _ => return true

/-- Counts a call of the checker with the given identity, and tells how many there were. -/
def countCall (identity : Nat) : EStateM Fault (SessionMemory CallCounts) Nat :=
  modifyGet fun memory =>
    let count := memory.own.getD identity 0 + 1
    (count, { memory with own := memory.own.insert identity count })

/-- The checker of a kind. -/
def checker (kind : CheckerKind) (identity : Nat) :
    Checker (SessionMemory CallCounts) (Array Nat) :=
  match kind with
  | .cancelAfter n =>
      { identity
        check := fun _ _ _ => do
          if n ≤ (← countCall identity) then modify ({ · with cancelled := true })
          return true }
  | .rejectFirst n =>
      { identity, check := fun _ _ _ => return n < (← countCall identity) }
  | kind => .ofPure identity kind.answer

end CheckerKind

end ConstraintSearch
