import ConstraintSearch.Text.Outline
import ConstraintSearch.Text.Quoted

/-!
# Failures that a caller can recover from

A problem can be too large to build, can be incomplete, or can be posed by a text that is no
puzzle.  Breaking a rule of the library is something else: see `ConstraintSearch.Fault`.
-/

namespace ConstraintSearch

/-- Why a problem cannot be built or searched. -/
inductive ProblemError where
  /-- There is no room for `count` of `what`. -/
  | allocation (what : String) (count : Nat)
  /-- The slot at `index` has no constraint. -/
  | unsetConstraint (index : Nat)
  /-- The constraint in slot `slot` refers to variable `index`, which a problem over `domains`
  variables does not have. -/
  | variableOutOfRange (slot index domains : Nat)
  /-- The text is no puzzle, for the given reason. -/
  | invalidPuzzle (reason : String)
  deriving DecidableEq, Repr

namespace ProblemError

/-- The error in words. -/
def message : ProblemError → String
  | .allocation what count => s!"failed to allocate {count} {what}"
  | .unsetConstraint index => s!"constraint slot {index} is unset"
  | .variableOutOfRange slot index domains =>
      s!"constraint {slot} references variable {index}, but the problem has {domains} variables"
  | .invalidPuzzle reason => s!"invalid puzzle: {reason}"

/-- The error as a value. -/
def outline : ProblemError → Outline
  | .allocation what count =>
      .record "Allocation" [("what", .atom (quoted what)), ("count", .number count)] true
  | .unsetConstraint index => .record "UnsetConstraint" [("index", .number index)] true
  | .variableOutOfRange slot index domains =>
      .record "VariableOutOfRange"
        [("constraint", .number slot), ("variable", .number index),
          ("num_domains", .number domains)] true
  | .invalidPuzzle reason => .tagged "InvalidPuzzle" (.atom (quoted reason))

end ProblemError

end ConstraintSearch
