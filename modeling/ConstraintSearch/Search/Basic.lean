import ConstraintSearch.Search.Config
import ConstraintSearch.Search.Machine

/-!
# Searches

A search asks for an assignment to the variables of a problem.  It runs the machine with the
consistency scan for a test: after every tentative assignment, the constraints are tested that are
applicable by then.  So a branch is given up as soon as a constraint on its bound variables rejects
it.
-/

namespace ConstraintSearch

/-- What a search is asked to do, and the signals it can be stopped by. -/
structure Search (σ κ : Type) where
  problem : Problem σ κ
  /-- Handed to every checker. -/
  context : κ
  config : Config := {}
  /-- The first variable to bind; the ones below keep their values. -/
  start : Nat := 0
  /-- Whether the cancellation flag is found set, after so many tried values and with the memory
  that the checkers left. -/
  cancelled : Nat → σ → Bool := fun _ _ => false
  /-- How many milliseconds the clock has counted after so many tried values. -/
  elapsed : Nat → Nat := fun _ => 0

namespace Search

variable {σ κ : Type}

/-- Why the search must stop before it tries another value, if it must.  The node limit is looked
at every time, the other signals only at multiples of the check interval. -/
def interruption? (search : Search σ κ) (nodes : Nat) (memory : σ) : Option Status :=
  if search.config.nodeLimit.any (· ≤ nodes) then some .nodeLimit
  else if nodes % search.config.checkInterval = 0 then
    if search.cancelled nodes memory then some .cancelled
    else if search.config.timeLimit.any (· ≤ search.elapsed nodes) then some .timeLimit
    else none
  else none

/-- The machine that carries the search out. -/
def machine (search : Search σ κ) : Machine σ where
  domains := search.problem.domains
  start := search.start
  test assignment frontier memory :=
    search.problem.scan assignment search.context frontier memory
  interruption? := search.interruption?

end Search

end ConstraintSearch
