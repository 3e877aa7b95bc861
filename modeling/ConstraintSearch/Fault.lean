import ConstraintSearch.Error
import ConstraintSearch.Search.Config

/-!
# Faults

A fault is a broken rule: the caller used the library in a way it does not offer, or a checker
gave up.  It ends the operation that meets it, and nothing answers for it but its message.
-/

namespace ConstraintSearch

/-- What a length is compared with. -/
inductive Measured where
  /-- The variables given to a constraint, against its arity. -/
  | scope
  /-- An assignment, against the variables of the problem. -/
  | assignment
  /-- The values of a sudoku, against its cells. -/
  | cells
  deriving DecidableEq, Repr

namespace Measured

/-- The rule that a length keeps. -/
def rule : Measured → String
  | .scope => "variable count does not match constraint arity"
  | .assignment => "assignment length must equal the number of variables"
  | .cells => "a sudoku grid has 81 cells"

end Measured

/-- The operations on words that can leave their range. -/
inductive Arithmetic where
  | add
  | subtract
  | multiply
  deriving DecidableEq, Repr

namespace Arithmetic

def name : Arithmetic → String
  | .add => "add"
  | .subtract => "subtract"
  | .multiply => "multiply"

end Arithmetic

/-- A broken rule. -/
inductive Fault where
  /-- The library is used while it is not active. -/
  | inactive
  /-- A guard ends an activation that is no longer there. -/
  | unbalancedRelease
  | zeroArity
  /-- A slot that a constraint of the given arity does not have. -/
  | variableSlot (index arity : Nat)
  /-- A length that is not the expected one. -/
  | wrongLength (measured : Measured) (actual expected : Nat)
  | noVariables
  | noConstraints
  /-- A variable that a problem over `domains` variables does not have. -/
  | domainIndex (index domains : Nat)
  /-- A slot that a problem with `slots` slots does not have. -/
  | constraintIndex (index slots : Nat)
  /-- A constraint that refers to a variable its problem does not have. -/
  | foreignVariable (index domains : Nat)
  /-- A slot without a constraint is tested. -/
  | unsetSlot (index : Nat)
  | invalidConfig (flaw : ConfigFlaw)
  | invalidProblem (error : ProblemError)
  | startExceeds (start domains : Nat)
  /-- A sequence of the given length is read outside its range. -/
  | indexOutOfBounds (length index : Nat)
  /-- An operation leaves the range of words. -/
  | overflow (operation : Arithmetic)
  /-- A list is asked to make room for more than can be addressed. -/
  | capacity
  | emptyBoard
  /-- A checker gives up, with a message of its own. -/
  | gaveUp (text : String)
  deriving DecidableEq, Repr

namespace Fault

def message : Fault → String
  | .inactive => "csp library is not active"
  | .unbalancedRelease => "unbalanced csp deactivation"
  | .zeroArity => "constraint arity must be positive"
  | .variableSlot index arity => s!"variable slot {index} out of range for arity {arity}"
  | .wrongLength measured actual expected =>
      "assertion `left == right` failed: " ++ measured.rule
        ++ s!"\n  left: {actual}\n right: {expected}"
  | .noVariables => "a problem needs at least one variable"
  | .noConstraints => "a problem needs at least one constraint"
  | .domainIndex index domains =>
      s!"domain index {index} out of range for {domains} variables"
  | .constraintIndex index slots =>
      s!"constraint index {index} out of range for {slots} slots"
  | .foreignVariable index domains =>
      s!"constraint references variable {index} but the problem has {domains} variables"
  | .unsetSlot index => s!"constraint slot {index} is unset"
  | .invalidConfig flaw => "invalid SolverConfig: " ++ quoted flaw.message
  | .invalidProblem error => "invalid problem: " ++ error.message
  | .startExceeds start domains => s!"start frontier {start} exceeds {domains} variables"
  | .indexOutOfBounds length index =>
      s!"index out of bounds: the len is {length} but the index is {index}"
  | .overflow operation => "attempt to " ++ operation.name ++ " with overflow"
  | .capacity => "capacity overflow"
  | .emptyBoard => "board size must be positive"
  | .gaveUp text => text

end Fault

end ConstraintSearch
