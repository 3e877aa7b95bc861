import ConstraintSearch.Search.Result
import ConstraintSearch.Session.Memory

/-!
# The operations of a session

A session refers to its constraints, problems and guards by numbers of the caller's choice.
-/

namespace ConstraintSearch

/-- How a search in the buffer of a session is to go. -/
structure SearchOrder (κ : Type) where
  context : κ
  config : Config := {}
  start : Nat := 0
  /-- The cancellation flag beforehand; without it, the search does not look at the flag. -/
  cancel : Option Bool := none
  /-- How many milliseconds the clock has counted after so many tried values. -/
  elapsed : Nat → Nat := fun _ => 0

/-- What a session is asked to do. -/
inductive Operation (τ κ : Type) where
  | activate
  | deactivate
  | isActive
  | newGuard (g : Nat)
  | dropGuard (g : Nat)
  | newConstraint (c arity : Nat) (checker : Checker (SessionMemory τ) κ)
  | withVariables (c : Nat) (scope : List Nat)
  | setVariable (c index v : Nat)
  | variableAt (c index : Nat)
  | scope (c : Nat)
  | arity (c : Nat)
  | maxVariable (c : Nat)
  | isApplicable (c frontier : Nat)
  | describeConstraint (c : Nat)
  /-- Asks the checker of a constraint. -/
  | check (c : Nat) (assignment : Array Nat) (context : κ)
  | sameChecker (c d : Nat)
  | dropConstraint (c : Nat)
  | newProblem (p domains slots : Nat)
  | variableCount (p : Nat)
  | slotCount (p : Nat)
  | domains (p : Nat)
  | setDomain (p index size : Nat)
  /-- Sets the first domains to the given sizes. -/
  | setDomains (p : Nat) (sizes : List Nat)
  /-- Sets all domains to one size. -/
  | setAllDomains (p size : Nat)
  | domainAt (p index : Nat)
  | setConstraint (p index c : Nat)
  | constraintAt (p index : Nat)
  | validate (p : Nat)
  | describeProblem (p : Nat) (tall : Bool)
  | dropProblem (p : Nat)
  /-- Scans the constraints under an assignment of the caller's. -/
  | isConsistent (p : Nat) (assignment : Array Nat) (context : κ) (frontier : Nat)
  /-- Replaces the buffer that searches work in. -/
  | setBuffer (assignment : Array Nat)
  /-- Searches, and tells whether an assignment was found. -/
  | solve (p : Nat) (order : SearchOrder κ)
  /-- Searches, and tells the outcome. -/
  | search (p : Nat) (order : SearchOrder κ)

/-- What an operation answers. -/
inductive Answer where
  | done
  | flag (value : Bool)
  | number (value : Nat)
  | numbers (values : List Nat)
  /-- The number of a constraint, or that there is none. -/
  | found (c : Option Nat)
  | text (text : String)
  | outcome (result : Result)
  deriving DecidableEq, Repr

/-- Why an operation has no answer. -/
inductive Objection where
  | noSuchConstraint
  | noSuchProblem
  | noSuchGuard
  /-- The constraint has been handed to a problem and can no longer be changed. -/
  | frozen
  /-- The library refused, or a rule was broken. -/
  | failed (failure : Failure)
  deriving DecidableEq, Repr

end ConstraintSearch
