import ConstraintSearch.Search.Report

/-!
# Searches whose checkers reach the library

A checker may activate the library and deactivate it.  Then the activations are part of what the
checkers share, and `activations` reads their number off that memory; any change of the number can be
made by activating and deactivating often enough.

This matters to the checked build, which asks for an active library

* when a search is about to begin, as for every search,
* when a scan starts,
* and at each slot that is set, before it looks at the constraint there.

So a *watched* search may break off at a test although nothing could be objected to it.  Checkers
that leave the activations as they are cannot bring this about, and with them a watched search is
the search that `Search.perform` makes.

The messages by which checkers activate and deactivate do not appear among those of the search.
-/

namespace ConstraintSearch

/-- Whether the build asks for an active library and there is none. -/
def Build.lacks (build : Build) (activations : Nat) : Bool :=
  build = .checked ∧ activations = 0

namespace Problem

variable {σ κ : Type}

/-- Scans the slots from `index` on, and breaks off at a slot to which it comes with a memory that is
`barred`. -/
def watchedScanFrom (problem : Problem σ κ) (barred : σ → Bool) (assignment : Array Nat)
    (context : κ) (frontier : Nat) (index calls : Nat) (memory : σ) : Scan σ :=
  if h : index < problem.slots.size then
    match problem.slots[index] with
    | none => { answer := .error (.unsetSlot index), calls, memory }
    | some constraint =>
        if barred memory then { answer := .error .inactive, calls, memory }
        else if constraint.isApplicable frontier then
          match constraint.check assignment context memory with
          | .ok true memory =>
              problem.watchedScanFrom barred assignment context frontier (index + 1) (calls + 1)
                memory
          | .ok false memory => { answer := .ok false, calls := calls + 1, memory }
          | .error fault memory => { answer := .error fault, calls := calls + 1, memory }
        else
          problem.watchedScanFrom barred assignment context frontier (index + 1) calls memory
  else { answer := .ok true, calls, memory }
termination_by problem.slots.size - index

/-- Scans all slots, unless the memory is barred from the start. -/
def watchedScan (problem : Problem σ κ) (barred : σ → Bool) (assignment : Array Nat) (context : κ)
    (frontier : Nat) (memory : σ) : Scan σ :=
  if barred memory then { answer := .error .inactive, calls := 0, memory }
  else problem.watchedScanFrom barred assignment context frontier 0 0 memory

end Problem

namespace Search

variable {σ κ : Type}

/-- The machine that carries the search out with watched scans. -/
def watchedMachine (search : Search σ κ) (barred : σ → Bool) : Machine σ :=
  { search.machine with
    test := fun assignment frontier memory =>
      search.problem.watchedScan barred assignment search.context frontier memory }

/-- Searches in the buffer, with checkers that share the activations of the library. -/
def performWatched (search : Search σ κ) (activations : σ → Nat) (buffer : Array Nat) (memory : σ)
    (build : Build) (log : Array Message) : Report σ :=
  let library : Library := { activations := activations memory, log }
  match search.objection? build library.isActive buffer.size with
  | some fault => { outcome := .error fault, buffer, memory, library }
  | none =>
      let machine := search.watchedMachine fun memory => build.lacks (activations memory)
      let ended := machine.run (search.initial buffer memory log)
      search.report (activations ended.state.memory) ended

/-- Whether a watched search finds an assignment to all variables. -/
def solveWatched (search : Search σ κ) (activations : σ → Nat) (buffer : Array Nat) (memory : σ)
    (build : Build) (log : Array Message) : Except Fault Bool :=
  (search.performWatched activations buffer memory build log).outcome.map Result.isSolved

end Search

end ConstraintSearch
