import ConstraintSearch.Search.Report

/-!
# Models

A model is a puzzle put as a problem: a number of variables that share one domain, and a list of
constraints.  The constraints belong to the model; every problem made from it refers to them and
has to be given up first.
-/

namespace ConstraintSearch

/-- A puzzle put as a problem. -/
structure Model (κ : Type) where
  variableCount : Nat
  /-- The size of every domain. -/
  domainSize : Nat
  constraints : Array (Constraint Unit κ)

namespace Model

variable {κ α : Type}

/-- Adds a constraint over the given variables to a list. -/
def addConstraint (constraints : Array (Constraint Unit κ)) (checker : Checker Unit κ)
    (scope : List Nat) : Action (Array (Constraint Unit κ)) := do
  let constraint ← Constraint.create scope.length checker
  let constraint ← scope.zipIdx.foldlM (fun constraint (v, slot) =>
    constraint.setVariable slot v) constraint
  return constraints.push constraint

/-- The problem of the model: every domain is set, and the constraints stand in the slots in
order. -/
def problem (model : Model κ) : Action (Problem Unit κ) := do
  let problem ← Problem.create model.variableCount model.constraints.size
  let problem ← (List.range model.variableCount).foldlM (fun problem v =>
    problem.setDomain v model.domainSize) problem
  model.constraints.toList.zipIdx.foldlM (fun problem (constraint, slot) =>
    problem.setConstraint slot constraint) problem

/-- Gives the constraints up, in order. -/
def drop (model : Model κ) : Action Unit :=
  model.constraints.toList.forM Constraint.drop

/-- Uses the problem of the model, which is given up afterwards. -/
def withProblem (model : Model κ) (use : Problem Unit κ → Action α) : Action α := do
  let problem ← model.problem
  (use problem).followedBy problem.drop

/-- The first assignment that satisfies the model, if there is one. -/
def solve (model : Model κ) (context : κ) : Action (Option (List Nat)) := do
  let (result, buffer) ← model.withProblem fun problem =>
    Search.within { problem, context } (Array.replicate model.variableCount 0)
  return if result.isSolved then some buffer.toList else none

/-- How many runs of one checker the list of constraints consists of: one more than the places
where a constraint has another checker than the one before it. -/
def checkerRuns (model : Model κ) : Nat :=
  let identities := model.constraints.toList.map (·.checker.identity)
  1 + (identities.zip (identities.drop 1)).countP fun (one, next) => one != next

end Model

end ConstraintSearch
