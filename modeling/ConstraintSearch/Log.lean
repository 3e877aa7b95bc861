import ConstraintSearch.Search.Result

/-!
# Log messages

What the library reports while it works, as values.  A message has a level of detail; a reader
asks for all messages up to a level.
-/

namespace ConstraintSearch

/-- Levels of detail, from the gravest to the finest. -/
inductive Level where
  | warn
  | info
  | debug
  | trace
  deriving DecidableEq, Repr

namespace Level

/-- The level as a number that grows with the detail. -/
def detail : Level → Nat
  | .warn => 0
  | .info => 1
  | .debug => 2
  | .trace => 3

/-- The name of a level. -/
def name : Level → String
  | .warn => "WARN"
  | .info => "INFO"
  | .debug => "DEBUG"
  | .trace => "TRACE"

end Level

/-- What the library reports. -/
inductive Message where
  /-- The first activation was made. -/
  | activated
  /-- The last activation was ended. -/
  | deactivated
  /-- An activation was to be ended, but there was none. -/
  | alreadyInactive
  | createdConstraint (arity : Nat)
  | droppedConstraint (arity : Nat)
  | createdProblem (domains slots : Nat)
  | droppedProblem (domains slots : Nat)
  | searchStarted (domains slots start : Nat)
  /-- The search stepped back to an earlier variable. -/
  | steppedBack (index : Nat)
  | searchFinished (status : Status) (stats : Stats)
  | sudokuModelled (givens constraints : Nat)
  /-- The queens program has the outcome of its search. -/
  | queensSearched (status : Status) (stats : Stats)
  deriving DecidableEq, Repr

namespace Message

/-- The level of detail of a message. -/
def level : Message → Level
  | .alreadyInactive => .warn
  | .activated | .deactivated | .queensSearched .. => .info
  | .createdProblem .. | .droppedProblem .. | .searchStarted .. | .searchFinished ..
  | .sudokuModelled .. => .debug
  | .createdConstraint _ | .droppedConstraint _ | .steppedBack _ => .trace

/-- The message in words; `duration` writes the milliseconds that a search took. -/
def textWith (duration : Nat → String) : Message → String
  | .activated => "csp library activated"
  | .deactivated => "csp library deactivated"
  | .alreadyInactive => "deactivate called on an inactive csp library"
  | .createdConstraint arity => s!"created constraint with arity {arity}"
  | .droppedConstraint arity => s!"dropped constraint with arity {arity}"
  | .createdProblem domains slots =>
      s!"created problem with {domains} domains and {slots} constraints"
  | .droppedProblem domains slots =>
      s!"dropped problem with {domains} domains and {slots} constraints"
  | .searchStarted domains slots start =>
      s!"backtracking over {domains} variables and {slots} constraints from frontier {start}"
  | .steppedBack index => s!"backtrack to variable {index}"
  | .searchFinished status stats =>
      s!"search finished: {status.name} after {stats.nodes} nodes, {stats.backtracks} backtracks, "
        ++ duration stats.elapsed ++ " ms"
  | .sudokuModelled givens constraints =>
      s!"sudoku model with {givens} givens and {constraints} constraints"
  | .queensSearched status stats => status.name ++ " with " ++ stats.outline.compact

/-- The message in words. -/
def text (message : Message) : String := message.textWith toString

/-- Whether the message belongs to the messages up to a level. -/
def upTo (message : Message) (level : Level) : Bool := message.level.detail ≤ level.detail

end Message

end ConstraintSearch
