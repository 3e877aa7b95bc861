import ConstraintSearch.Text.Outline

/-!
# Outcomes of a search

A search that is not broken off by a fault ends in one of five ways and reports how much work it
did.  The assignment itself stays in the buffer that the caller lent to the search.
-/

namespace ConstraintSearch

/-- How a search ended. -/
inductive Status where
  /-- Every variable is bound and the last test accepted. -/
  | solved
  /-- Every candidate was tried. -/
  | exhausted
  /-- The node limit was reached. -/
  | nodeLimit
  /-- The time limit was reached. -/
  | timeLimit
  /-- The cancellation flag was set. -/
  | cancelled
  deriving DecidableEq, Repr, Inhabited

/-- How much work a search did. -/
structure Stats where
  /-- Values tried. -/
  nodes : Nat := 0
  /-- Checker calls made. -/
  checks : Nat := 0
  /-- Steps back to an earlier variable. -/
  backtracks : Nat := 0
  /-- The greatest number of variables that were bound at a time. -/
  maxDepth : Nat := 0
  /-- Milliseconds taken. -/
  elapsed : Nat := 0
  deriving DecidableEq, Repr, Inhabited

/-- The outcome of a search. -/
structure Result where
  status : Status
  stats : Stats
  deriving DecidableEq, Repr, Inhabited

namespace Status

def name : Status → String
  | .solved => "Solved"
  | .exhausted => "Exhausted"
  | .nodeLimit => "NodeLimit"
  | .timeLimit => "TimeLimit"
  | .cancelled => "Cancelled"

def all : List Status := [.solved, .exhausted, .nodeLimit, .timeLimit, .cancelled]

/-- The status of a given name. -/
def ofName? (name : String) : Option Status := all.find? (·.name == name)

@[simp]
theorem ofName?_name (status : Status) : ofName? status.name = some status := by
  cases status <;> decide

end Status

namespace Stats

def outline (stats : Stats) : Outline :=
  .record "SearchStats"
    [("nodes", .number stats.nodes), ("consistency_checks", .number stats.checks),
      ("backtracks", .number stats.backtracks), ("max_depth", .number stats.maxDepth),
      ("elapsed_ms", .number stats.elapsed)] true

end Stats

namespace Result

/-- Whether an assignment was found. -/
def isSolved (result : Result) : Bool := result.status = .solved

/-- Whether the search showed that there is no assignment. -/
def isInfeasible (result : Result) : Bool := result.status = .exhausted

def outline (result : Result) : Outline :=
  .record "SolveResult"
    [("status", .atom result.status.name), ("stats", result.stats.outline)] true

end Result

end ConstraintSearch
